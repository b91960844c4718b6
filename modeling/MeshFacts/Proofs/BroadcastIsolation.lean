import MeshFacts.Proofs.BroadcastTurns

/-! # Isolation of recipients
Whether a peer gets all of its packets is its own matter. If it does, it is told the same as ever and this is noted; if
it does not, nothing is noted, and only the packets of peers that got all of theirs are counted. -/
namespace MeshFacts.Broadcast
variable {l : Link} {chunk : FactChunk} {o : Outlet} {peer : PublicKey}

lemma length_filter_mem {peers : List PublicKey} (hpeers : peers.Nodup) (sent : List Outgoing) :
    (sent.filter fun p => p.recipient ∈ peers).length = (peers.map fun k => sentTo k sent).sum := by
  induction peers with
  | nil => simp
  | cons peer peers ih =>
    obtain ⟨hpeer, hrest⟩ := List.nodup_cons.mp hpeers
    have hown : ∀ p ∈ sent, (decide (p.recipient = peer) && decide (p.recipient ∈ peer :: peers)) =
        decide (p.recipient = peer) := by grind
    have hother : ∀ p ∈ sent, (!decide (p.recipient = peer) && decide (p.recipient ∈ peer :: peers)) =
        decide (p.recipient ∈ peers) := by grind
    rw [List.map_cons, List.sum_cons, ← ih hrest, List.length_eq_length_filter_add fun p => decide (p.recipient = peer),
      List.filter_filter, List.filter_filter, List.filter_congr hown, List.filter_congr hother, sentTo]

def Progress.isTold : Progress → Bool
  | .done (.ok _) => true
  | _ => false

namespace Telling
variable {b : Telling}

def told (b : Telling) : List PublicKey := (b.parties.filter fun p => p.2.isTold).map Prod.fst

lemma nodup_told (h : b.keys.Nodup) : b.told.Nodup := h.sublist (List.filter_sublist.map Prod.fst)

lemma sum_counted {f : PublicKey → ℕ} {parties : List (PublicKey × Progress)}
    (h : ∀ peer n, (peer, .done (.ok n)) ∈ parties → n = f peer) :
    (parties.map fun p => p.2.counted).sum = (((parties.filter fun p => p.2.isTold).map Prod.fst).map f).sum := by
  induction parties with
  | nil => rfl
  | cons p parties ih =>
    obtain ⟨peer, g⟩ := p
    have hrest := ih fun peer n hn => h peer n (by simp [hn])
    rw [List.map_cons, List.sum_cons, hrest]
    cases g with
    | begun | sending => simp [Progress.counted, Progress.isTold]
    | done result =>
      cases result with
      | error e => simp [Progress.counted, Progress.isTold]
      | ok n => simp [Progress.counted, Progress.isTold, h peer n]

end Telling

lemma nodup_recipients {s : LinkState} (h : ∀ d ∈ s.cached, (d.peers.map DevicePeer.publicKey).Nodup) :
    (recipients l s).Nodup := by
  unfold recipients
  split
  · exact .nil
  · rename_i d hd
    exact (h d hd).filter _

lemma Told.sentTo_eq {parts : List (List Fact)} {t : Outlet} {new : List Outgoing} (h : Told l peer chunk o parts t)
    (hnew : t.sent = o.sent ++ new) : sentTo peer new = parts.length := by
  obtain ⟨packets, hpackets, hcarry⟩ := h.packets
  have hall : sentTo peer t.sent = sentTo peer o.sent + parts.length := by
    rw [Outlet.sentTo_sent, Outlet.sentTo_sent, hpackets, List.length_append, hcarry.length_eq]
  have hsplit : sentTo peer t.sent = sentTo peer o.sent + sentTo peer new := by
    simp [sentTo, hnew]
  omega

/-- Whatever the order of turns, what a broadcast comes to for a peer follows from which of its own packets get lost.
A peer that lost one knows what it knew before; all others get the same packets whatever is lost elsewhere. -/
theorem run_isolated (l : Link) (lost : Failures) (chunk : FactChunk) (o : Outlet)
    (hkeys : ∀ d ∈ o.state.cached, (d.peers.map DevicePeer.publicKey).Nodup) :
    (∃ b : Telling, b.Ends l lost chunk o ∧ run l lost chunk o = (b.count, b.outlet)) ∧
    ∀ b : Telling, b.Ends l lost chunk o →
      b.keys = recipients l o.state ∧
      (∀ peer result packing included, (peer, .done result) ∈ b.parties →
        select l o.state.knowledge peer chunk = .ok (packing, included) →
        result = if (List.range packing.filled.length).any fun n => lost peer (sentTo peer o.sent + n) then .error .io
          else .ok packing.filled.length) ∧
      (∀ peer e, (peer, .done (.error e)) ∈ b.parties →
        (∀ key, b.outlet.state.knowledge.until? key peer = o.state.knowledge.until? key peer) ∧
          ∀ next, select l b.outlet.state.knowledge peer next = select l o.state.knowledge peer next) ∧
      (∀ (lost' : Failures) (b' : Telling) (peer : PublicKey) (n : ℕ), b'.Ends l lost' chunk o →
        (∀ m, lost' peer m = lost peer m) → (peer, .done (.ok n)) ∈ b.parties → (peer, .done (.ok n)) ∈ b'.parties ∧
          ∃ parts, parts.length = n ∧ Told l peer chunk o parts b.outlet ∧ Told l peer chunk o parts b'.outlet) ∧
      ∃ new, b.outlet.sent = o.sent ++ new ∧ b.count = (new.filter fun p => p.recipient ∈ b.told).length := by
  refine ⟨Telling.exists_ends l lost chunk o, ?_⟩
  rintro b ⟨-, turns, rfl⟩
  have hnodup := nodup_recipients (l := l) hkeys
  have hpeers : (Telling.run l lost chunk turns o).keys = recipients l o.state := Telling.keys_run l lost chunk turns o
  have hone : ∀ {lost' : Failures} {turns' : List ℕ} {peer : PublicKey} {g : Progress},
      (peer, g) ∈ (Telling.run l lost' chunk turns' o).parties → (recipients l o.state).count peer = 1 := by
    intro lost' turns' peer g hg
    refine List.count_eq_one_of_mem hnodup ?_
    rw [← Telling.keys_run l lost' chunk turns' o]
    exact List.mem_map_of_mem hg
  refine ⟨hpeers, fun peer result packing included hg hselect => ?_, fun peer e hg => ?_,
    fun lost' b' peer n hends hlost hg => ?_, ?_⟩
  · obtain ⟨parts, hplan⟩ := exists_plans l o.state.knowledge peer chunk
    exact (Telling.stage_run (hone hg) hplan turns _ hg).result_eq hplan hselect
  · obtain ⟨parts, hplan⟩ := exists_plans l o.state.knowledge peer chunk
    have hentries := (Telling.stage_run (hone hg) hplan turns _ hg).agreesOn_of_error
    exact ⟨hentries, fun next => select_congr hentries⟩
  · obtain ⟨hover', turns', rfl⟩ := hends
    obtain ⟨parts, hplan⟩ := exists_plans l o.state.knowledge peer chunk
    have hstage := Telling.stage_run (hone hg) hplan turns _ hg
    obtain ⟨hn, htold⟩ := hstage.told_of_ok
    obtain ⟨packing, hselect⟩ := htold.selected
    have hkey : peer ∈ (Telling.run l lost' chunk turns' o).keys := by
      rw [Telling.keys_run]
      exact List.count_pos_iff.mp (hone hg ▸ Nat.one_pos)
    obtain ⟨⟨_, g⟩, hg', rfl⟩ := List.mem_map.mp hkey
    obtain ⟨result, rfl⟩ := hover' _ hg'
    have hstage' := Telling.stage_run (hone hg') hplan turns' _ hg'
    have hresult : result = .ok n := by
      rw [hstage'.result_eq hplan hselect, hstage.result_eq hplan hselect]
      simp only [hlost]
    subst hresult
    exact ⟨hg', parts, hn.symm, htold, (hstage'.told_of_ok).2⟩
  · obtain ⟨new, hsent⟩ := Telling.sent_run l lost chunk turns o
    refine ⟨new, hsent, ?_⟩
    rw [length_filter_mem (Telling.nodup_told (hpeers ▸ hnodup)), Telling.count]
    refine Telling.sum_counted fun peer n hg => ?_
    obtain ⟨parts, hplan⟩ := exists_plans l o.state.knowledge peer chunk
    obtain ⟨rfl, htold⟩ := (Telling.stage_run (hone hg) hplan turns _ hg).told_of_ok
    exact (htold.sentTo_eq hsent).symm

/-- The second packet to one of two peers gets lost while the other, told in between, gets both. -/
theorem run_isolated_pair :
    let remote : PublicKey := ⟨.ofNatLE 32 1⟩
    let near : PublicKey := ⟨.ofNatLE 32 2⟩
    let device : DeviceState := ⟨"wg0", default, 51820, [{ publicKey := remote }, { publicKey := near }]⟩
    let l : Link := { (default : Link) with self := ⟨.ofNatLE 32 3⟩ }
    let o : Outlet := { (default : Outlet) with state := { (default : LinkState) with cached := some device } }
    let facts : List Fact := (List.range 34).map fun n => .membership ⟨.ofNatLE 32 (n + 4)⟩ 90000000000
    let chunk : FactChunk := ⟨facts, 0, false, false⟩
    let lost : Failures := fun k n => k = remote && n = 1
    let b := Telling.run l lost chunk [0, 1, 1, 0, 0, 1, 1] o
    let b' := Telling.run l (fun _ _ => false) chunk [1, 0, 0, 0, 0, 1, 1, 1] o
    b.parties = [(remote, .done (.error .io)), (near, .done (.ok 2))] ∧ b.count = 2 ∧
      b'.parties = [(remote, .done (.ok 2)), (near, .done (.ok 2))] ∧
      (∀ next, select l b.outlet.state.knowledge remote next = select l o.state.knowledge remote next) ∧
      ∃ parts, parts.length = 2 ∧ Told l near chunk o parts b.outlet ∧ Told l near chunk o parts b'.outlet := by
  intro remote near device l o facts chunk lost b b'
  have hb : b.parties = [(remote, .done (.error .io)), (near, .done (.ok 2))] := by decide +kernel
  have hb' : b'.parties = [(remote, .done (.ok 2)), (near, .done (.ok 2))] := by decide +kernel
  have hends : b.Ends l lost chunk o := ⟨by simp [Telling.IsOver, hb], _, rfl⟩
  have hends' : b'.Ends l (fun _ _ => false) chunk o := ⟨by simp [Telling.IsOver, hb'], _, rfl⟩
  obtain ⟨-, hall⟩ := run_isolated l lost chunk o (by decide +kernel)
  obtain ⟨-, -, hfailed, htold, -⟩ := hall b hends
  have hnear : (near, .done (.ok 2)) ∈ b.parties := by simp [hb]
  have hne : near ≠ remote := by decide +kernel
  have hlost : ∀ m, false = lost near m := fun m => by simp [lost, hne]
  refine ⟨hb, by simp [Telling.count, hb, Progress.counted], hb', ?_, ?_⟩
  · exact (hfailed remote .io (by simp [hb])).2
  · exact (htold (fun _ _ => false) b' near 2 hends' hlost hnear).2
end MeshFacts.Broadcast
