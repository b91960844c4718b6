import MeshFacts.Proofs.NetOutcomes
import MeshFacts.Proofs.PeerIndependence

/-! # Requests of a pass
All that a pass asks of its device is settled by what it has seen before it asks for anything: one update for each
valid peer of the device that is not as it should be, one for each peer to add and one for each to remove. No two
of them are about one peer, and none is about this node. -/
namespace MeshFacts

namespace MemoryDevice
variable {d : MemoryDevice} {name : String} {us : List PeerUpdate} {u : PeerUpdate} {k : PublicKey}

def asked (name : String) (d : MemoryDevice) (us : List PeerUpdate) : MemoryDevice := (d.configure name us).2

lemma asked_one (hname : d.state.name = name) :
    d.asked name [u] = if u.publicKey ∈ d.failing then d else d.make u := by
  unfold asked configure
  by_cases hu : u.publicKey ∈ d.failing <;> simp [hname, hu, make]

/-- Asked for single updates in a row, a device makes those that it does not reject. -/
lemma foldl_asked (hname : d.state.name = name) :
    (us.map ([·])).foldl (asked name) d = (us.filter fun u => u.publicKey ∉ d.failing).foldl make d := by
  induction us generalizing d with
  | nil => rfl
  | cons u us ih =>
    rw [List.map_cons, List.foldl_cons, asked_one hname]
    by_cases hu : u.publicKey ∈ d.failing
    · rw [if_pos hu, ih hname, List.filter_cons_of_neg (by simpa using hu)]
    · rw [if_neg hu, ih (d := d.make u) hname, List.filter_cons_of_pos (by simpa using hu), List.foldl_cons]
      rfl

lemma mem_keys_iff_isSome : k ∈ d.peers.map DevicePeer.publicKey ↔ (d.state.peer? k).isSome = true := by
  simp [DeviceState.peer?, List.find?_isSome, peers]

/-- Of updates of different peers each does to its own what it would do alone. -/
lemma peer?_foldl_make_of_mem (hd : (d.peers.map DevicePeer.publicKey).Nodup)
    (hus : (us.map PeerUpdate.publicKey).Nodup) (hu : u ∈ us) :
    (us.foldl make d).state.peer? u.publicKey = DevicePeer.entryAfter u (d.state.peer? u.publicKey) := by
  obtain ⟨before, after, rfl⟩ := List.append_of_mem hu
  rw [List.map_append, List.map_cons, List.nodup_middle, List.nodup_cons, List.mem_append, not_or] at hus
  obtain ⟨⟨hbefore, hafter⟩, -⟩ := hus
  have hfirst : (before.foldl make d).state.peer? u.publicKey = d.state.peer? u.publicKey :=
    peer?_foldl_make_of_ne fun v hv heq => hbefore (heq ▸ List.mem_map_of_mem hv)
  have hdistinct : ((before.foldl make d).peers.map DevicePeer.publicKey).Nodup :=
    LinkState.UpdatedBy.nodup (P := fun _ => True) (s := { device := d }) (t := { device := before.foldl make d })
      ⟨before, rfl, by simp⟩ hd
  have hlast : (after.foldl make ((before.foldl make d).make u)).state.peer? u.publicKey =
      ((before.foldl make d).make u).state.peer? u.publicKey :=
    peer?_foldl_make_of_ne fun v hv heq => hafter (heq ▸ List.mem_map_of_mem hv)
  rw [List.foldl_append, List.foldl_cons, hlast, ← hfirst]
  exact DevicePeer.find?_applyTo_self hdistinct

end MemoryDevice

namespace LinkState
variable {l : Link} {us vs : List PeerUpdate} {s t r : LinkState}

/-- The second state comes of the first by asking the device for one update after the other. -/
structure Asks (l : Link) (us : List PeerUpdate) (s t : LinkState) : Prop where
  calls : t.calls = s.calls ++ us.map ([·])
  device : t.device = (us.map ([·])).foldl (MemoryDevice.asked l.config.iface) s.device

namespace Asks

lemma of_eq (hcalls : t.calls = s.calls) (hdevice : t.device = s.device) : Asks l [] s t :=
  ⟨by rw [hcalls, List.map_nil, List.append_nil], hdevice⟩

lemma trans (h : Asks l us s t) (h' : Asks l vs t r) : Asks l (us ++ vs) s r where
  calls := by rw [h'.calls, h.calls, List.map_append, List.append_assoc]
  device := by rw [h'.device, h.device, List.map_append, List.foldl_append]

lemma configure (l : Link) (s : LinkState) (u : PeerUpdate) : Asks l [u] s (l.configure s u).2 := by
  rw [l.configure_snd]
  exact ⟨rfl, rfl⟩

lemma foldl {α : Type} {f : LinkState → α → LinkState} {ask : α → PeerUpdate}
    (h : ∀ s x, Asks l [ask x] s (f s x)) (xs : List α) (s : LinkState) : Asks l (xs.map ask) s (xs.foldl f s) := by
  induction xs generalizing s with
  | nil => exact .of_eq rfl rfl
  | cons x xs ih => exact (h s x).trans (ih (f s x))

end Asks

end LinkState

namespace Reconcile
variable {l : Link} {peers : List DevicePeer} {chunk : FactChunk} {s t : LinkState} {u : PeerUpdate}
  {k : PublicKey}

def change (l : Link) (peers : List DevicePeer) (chunk : FactChunk) (s : LinkState) (p : DevicePeer) : PeerUpdate :=
  configuration l p (factsAbout p.publicKey chunk.facts) (l.allowDeconfigure chunk.router) chunk.now
    (seen l peers chunk s)

lemma change_configures (l : Link) (peers : List DevicePeer) (chunk : FactChunk) (s : LinkState) (p : DevicePeer) :
    Configures l p (factsAbout p.publicKey chunk.facts) (change l peers chunk s p) :=
  configuration_configures l p _ _ _ _

def closing (l : Link) (peers : List DevicePeer) (chunk : FactChunk) (s : LinkState) : List PeerUpdate :=
  let plan := plan l peers chunk.facts
  (if l.config.managePeers && l.allowDeconfigure chunk.router then (additions l plan).map addition else [])
    ++ if l.config.managePeers && mayRemove l peers chunk s then (removals l peers plan).map removal else []

lemma closing_congr (h : ∀ k, s.states.evidence? k = t.states.evidence? k) :
    closing l peers chunk s = closing l peers chunk t := by
  unfold closing
  rw [mayRemove_congr h]

/-- What a pass asks of its device, from what it has seen. -/
def requests (l : Link) (peers : List DevicePeer) (chunk : FactChunk) (s : LinkState) : List PeerUpdate :=
  (((tended l peers chunk.facts).map (change l peers chunk s)).filter fun u => !u.isNoop)
    ++ closing l peers chunk (seen l peers chunk s)

lemma calls_rotate (l : Link) (p : DevicePeer) (facts : List Fact) (now : Instant) (s : LinkState) :
    (rotate l p facts now s).2.calls = s.calls := by
  unfold rotate
  dsimp only
  split
  · split <;> rfl
  · rfl

lemma asks_apply (l : Link) (u : PeerUpdate) (s : LinkState) :
    s.Asks l ([u].filter fun u => !u.isNoop) (apply l u s) := by
  unfold apply
  split_ifs with hnoop
  · rw [List.filter_cons_of_neg (by simpa using hnoop)]
    exact .of_eq rfl rfl
  · rw [List.filter_cons_of_pos (by simpa using hnoop)]
    exact .configure l s u

/-- Configuring peers one after the other asks for what each would ask for alone. -/
lemma asks_foldl_configurePeer {ps : List DevicePeer} (hd : (ps.map DevicePeer.publicKey).Nodup) (facts : List Fact)
    (allow : Bool) (now : Instant) (h : ∀ p ∈ ps, s.Same p.publicKey t) :
    t.Asks l ((ps.map fun p => configuration l p (factsAbout p.publicKey facts) allow now s).filter fun u => !u.isNoop)
      (ps.foldl (fun t p => configurePeer l p (factsAbout p.publicKey facts) allow now t) t) := by
  induction ps generalizing t with
  | nil => exact .of_eq rfl rfl
  | cons p ps ih =>
    rw [List.map_cons, List.nodup_cons] at hd
    have hrotated : t.Asks l [] (rotate l p (factsAbout p.publicKey facts) now t).2 :=
      .of_eq (calls_rotate l p _ now t) (rotate_spec l p _ now t).1
    have hfirst : t.Asks l ([configuration l p (factsAbout p.publicKey facts) allow now s].filter fun u => !u.isNoop)
        (configurePeer l p (factsAbout p.publicKey facts) allow now t) := by
      rw [configurePeer_eq, ← configuration_congr (h p (by simp))]
      exact hrotated.trans (asks_apply l _ _)
    have hrest : ∀ q ∈ ps, s.Same q.publicKey (configurePeer l p (factsAbout p.publicKey facts) allow now t) := by
      intro q hq
      refine (h q (by simp [hq])).trans (same_configurePeer (fun heq => hd.1 ?_) _ _ _ t)
      exact heq ▸ List.mem_map_of_mem hq
    have hall := hfirst.trans (ih hd.2 hrest)
    rwa [← List.filter_append] at hall

lemma asks_removePeer (l : Link) (s : LinkState) (k : PublicKey) : s.Asks l [removal k] (removePeer l s k) := by
  have hasked := LinkState.Asks.configure l s (removal k)
  unfold removePeer
  cases hmade : l.configure s (removal k) with
  | mk made t =>
    rw [hmade] at hasked
    cases made with
    | true => exact ⟨hasked.calls, hasked.device⟩
    | false => exact hasked

lemma asks_conclude (l : Link) (peers : List DevicePeer) (chunk : FactChunk) (s : LinkState) :
    s.Asks l (closing l peers chunk s) (conclude l peers chunk s) := by
  have hmay : mayRemove l peers chunk (addPeers l (plan l peers chunk.facts) s) = mayRemove l peers chunk s :=
    mayRemove_congr fun k => by rw [states_addPeers]
  have hadded : ∀ s : LinkState, s.Asks l ((additions l (plan l peers chunk.facts)).map addition)
      (addPeers l (plan l peers chunk.facts) s) :=
    .foldl (fun s k => .configure l s (addition k)) _
  have hremoved : ∀ s : LinkState, s.Asks l ((removals l peers (plan l peers chunk.facts)).map removal)
      ((removals l peers (plan l peers chunk.facts)).foldl (removePeer l) s) :=
    .foldl (asks_removePeer l) _
  have hnothing : s.Asks l [] s := .of_eq rfl rfl
  unfold conclude closing deletePeers
  dsimp only
  cases l.config.managePeers with
  | false => exact hnothing
  | true =>
    cases l.allowDeconfigure chunk.router <;> cases hmayRemove : mayRemove l peers chunk s <;>
      simp only [Bool.and_self, Bool.and_false, if_true, Bool.false_eq_true, if_false, hmay, hmayRemove]
    · exact hnothing
    · exact hremoved s
    · exact (hadded s).trans (.of_eq rfl rfl)
    · exact (hadded s).trans (hremoved _)

/-- A pass asks for what it is to ask for, in this order and for nothing else. -/
theorem asks_passOn (l : Link) (peers : List DevicePeer) (chunk : FactChunk) (s : LinkState) :
    s.Asks l (requests l peers chunk s) (passOn l peers chunk s) := by
  have hseen : s.Asks l [] (seen l peers chunk s) := .of_eq rfl rfl
  have hchanged : (seen l peers chunk s).Asks l
      (((tended l peers chunk.facts).map (change l peers chunk s)).filter fun u => !u.isNoop)
      (configurePeers l (plan l peers chunk.facts) chunk.facts (l.allowDeconfigure chunk.router) chunk.now
        (seen l peers chunk s)) :=
    asks_foldl_configurePeer (nodup_tended l peers chunk.facts) chunk.facts _ chunk.now
      fun p _ => .refl p.publicKey (seen l peers chunk s)
  have hclosing : closing l peers chunk (configurePeers l (plan l peers chunk.facts) chunk.facts
      (l.allowDeconfigure chunk.router) chunk.now (seen l peers chunk s)) =
        closing l peers chunk (seen l peers chunk s) :=
    closing_congr fun k => evidence_configurePeers _ _ _ _ _ k
  have hclosed := asks_conclude l peers chunk (configurePeers l (plan l peers chunk.facts) chunk.facts
    (l.allowDeconfigure chunk.router) chunk.now (seen l peers chunk s))
  rw [hclosing] at hclosed
  exact hseen.trans (hchanged.trans hclosed)

/-- The calls that a pass makes, whether the device takes them or not. -/
def calls (l : Link) (chunk : FactChunk) (s : LinkState) : List (List PeerUpdate) :=
  (pass l chunk s).2.calls.drop s.calls.length

lemma read_eq_ok {d : DeviceState} (h : s.device.read l.config.iface = .ok d) :
    d = s.device.state ∧ s.device.state.name = l.config.iface := by
  unfold MemoryDevice.read at h
  split_ifs at h with hfail
  simp only [Bool.or_eq_true, bne_iff_ne, ne_eq, not_or, not_not] at hfail
  exact ⟨(Except.ok.inj h).symm, hfail.2⟩

lemma requests_congr (h : ∀ k, (seen l peers chunk s).Same k (seen l peers chunk t)) :
    requests l peers chunk t = requests l peers chunk s := by
  have hchanges : (tended l peers chunk.facts).map (change l peers chunk t) =
      (tended l peers chunk.facts).map (change l peers chunk s) :=
    List.map_congr_left fun p _ => configuration_congr (h p.publicKey) _ _ _
  rw [requests, requests, hchanges, closing_congr fun k => ?_]
  rw [PeerStates.evidence?, PeerStates.evidence?, (h k).history]

lemma asks_pass (hread : s.device.read l.config.iface = .ok s.device.state) :
    s.Asks l (requests l s.device.peers chunk s) (pass l chunk s).2 := by
  have hcached : requests l s.device.peers chunk { s with cached := some s.device.state } =
      requests l s.device.peers chunk s :=
    requests_congr fun k => ⟨rfl, rfl, fun _ => rfl, rfl⟩
  have hasked := asks_passOn l s.device.peers chunk { s with cached := some s.device.state }
  rw [hcached] at hasked
  rw [pass_of_read hread]
  exact ⟨hasked.calls, hasked.device⟩

lemma calls_of_read (hread : s.device.read l.config.iface = .ok s.device.state) :
    calls l chunk s = (requests l s.device.peers chunk s).map ([·]) := by
  rw [calls, (asks_pass hread).calls, List.drop_left]

lemma calls_of_unread (hread : ¬ s.device.read l.config.iface = .ok s.device.state) : calls l chunk s = [] := by
  rw [calls, pass_of_unread hread, List.drop_length]

/-- The calls of a pass go on the node's record, and they are all that the pass does to its device. -/
lemma pass_asks_calls (l : Link) (chunk : FactChunk) (s : LinkState) :
    (pass l chunk s).2.calls = s.calls ++ calls l chunk s ∧
      (pass l chunk s).2.device = (calls l chunk s).foldl (MemoryDevice.asked l.config.iface) s.device := by
  by_cases hread : s.device.read l.config.iface = .ok s.device.state
  · rw [calls_of_read hread]
    exact ⟨(asks_pass hread).calls, (asks_pass hread).device⟩
  · rw [calls_of_unread hread, pass_of_unread hread]
    exact ⟨(List.append_nil _).symm, rfl⟩

lemma callsMade_eq (l : Link) (chunk : FactChunk) (s : LinkState) : callsMade l chunk s =
    (calls l chunk s).filter fun us => us.all fun u => u.publicKey ∉ s.device.failing := by
  by_cases hread : s.device.read l.config.iface = .ok s.device.state
  · obtain ⟨-, hname⟩ := read_eq_ok hread
    have hdevice : (pass l chunk s).2.device = _ := (asks_pass hread).device
    rw [MemoryDevice.foldl_asked hname] at hdevice
    rw [calls_of_read hread, callsMade_of_made hdevice, List.filter_map]
    congr 2
    funext u
    simp
  · have hunchanged : (pass l chunk s).2.device = ([] : List PeerUpdate).foldl MemoryDevice.make s.device := by
      rw [pass_of_unread hread, List.foldl_nil]
    rw [calls_of_unread hread]
    exact callsMade_of_made hunchanged

lemma any_localPeers_iff {facts : List Fact} :
    ((plan l peers facts).localPeers.any fun p => p.publicKey = k) = true ↔ k ∈ peers.map DevicePeer.publicKey := by
  rw [← mem_keys_localPeers]
  simp [plan]

lemma mem_additions_iff {facts : List Fact} : k ∈ additions l (plan l peers facts) ↔
    k ∈ facts.map Fact.subject ∧ k ∈ (plan l peers facts).valid ∧ k ∉ peers.map DevicePeer.publicKey ∧
      k ≠ l.self := by
  have hsubject : k ∈ (plan l peers facts).subjects ↔ k ∈ facts.map Fact.subject := SortedSet.mem_ofList _ _ _
  simp only [additions, List.mem_filter, hsubject, Bool.and_eq_true, decide_eq_true_eq, Bool.not_eq_true',
    ← Bool.not_eq_true, any_localPeers_iff]
  constructor
  · rintro ⟨hs, ⟨⟨hself, hvalid⟩, hnew⟩, -⟩
    exact ⟨hs, hvalid, hnew, hself⟩
  · rintro ⟨hs, hvalid, hnew, hself⟩
    exact ⟨hs, ⟨⟨hself, hvalid⟩, hnew⟩, fun hremove => not_valid_of_mem_remove hremove hvalid⟩

lemma mem_remove_iff {facts : List Fact} : k ∈ (plan l peers facts).remove ↔
    k ∉ (plan l peers facts).valid ∧ (k ∈ facts.map Fact.subject ∨ k ∈ peers.map DevicePeer.publicKey) := by
  have hsubject : k ∈ (plan l peers facts).subjects ↔ k ∈ facts.map Fact.subject := SortedSet.mem_ofList _ _ _
  have hvalid : k ∉ (plan l peers facts).valid ↔ k ∉ l.self :: l.config.peers.keys ∧ isMember facts k = false := by
    rw [mem_valid_iff, ← isMember_iff, ← Table.mem_keys_iff]
    simp [and_assoc]
  have hremove : k ∈ (plan l peers facts).remove ↔
      k ∈ (plan l peers facts).subjects ∧ k ∉ (plan l peers facts).valid ∨
        k ∈ (localPeers peers).map DevicePeer.publicKey ∧ k ∉ (plan l peers facts).valid ∧
          k ∉ (plan l peers facts).subjects := by
    refine (SortedSet.mem_ofList _ _ _).trans (List.mem_append.trans (or_congr ?_ ?_))
    · rw [hvalid]
      simp [plan]
    · simp only [plan, List.mem_filter, Bool.and_eq_true, decide_eq_true_eq]
  rw [hremove, mem_keys_localPeers, hsubject]
  tauto

lemma mem_removals_iff {facts : List Fact} : k ∈ removals l peers (plan l peers facts) ↔
    k ∈ peers.map DevicePeer.publicKey ∧ k ≠ l.self ∧ ¬ Belongs l facts k ∧
      ¬ (isAutomatic l = true ∧ k ∈ routers peers) := by
  have hvalid : k ∉ (plan l peers facts).valid ↔ k ≠ l.self ∧ ¬ Belongs l facts k := by
    rw [mem_valid_iff, not_or, Belongs]
  simp only [removals, List.mem_filter, mem_remove_iff, hvalid, Bool.and_eq_true, any_localPeers_iff, Bool.not_eq_true',
    ← Bool.not_eq_true, decide_eq_true_eq]
  constructor
  · rintro ⟨⟨⟨hself, hout⟩, -⟩, ⟨hin, -⟩, hrouter⟩
    exact ⟨hin, hself, hout, hrouter⟩
  · rintro ⟨hin, hself, hout, hrouter⟩
    exact ⟨⟨⟨hself, hout⟩, .inr hin⟩, ⟨hin, fun hc => hout (.inl hc)⟩, hrouter⟩

lemma mem_requests_iff : u ∈ requests l peers chunk s ↔
    (∃ p ∈ tended l peers chunk.facts, u = change l peers chunk s p ∧ u.isNoop = false) ∨
    (l.config.managePeers = true ∧ l.allowDeconfigure chunk.router = true ∧
      ∃ k ∈ additions l (plan l peers chunk.facts), u = addition k) ∨
    (l.config.managePeers = true ∧ mayRemove l peers chunk (seen l peers chunk s) = true ∧
      ∃ k ∈ removals l peers (plan l peers chunk.facts), u = removal k) := by
  have hadd : u ∈ (if l.config.managePeers && l.allowDeconfigure chunk.router then
      (additions l (plan l peers chunk.facts)).map addition else []) ↔ l.config.managePeers = true ∧
        l.allowDeconfigure chunk.router = true ∧ ∃ k ∈ additions l (plan l peers chunk.facts), u = addition k := by
    cases l.config.managePeers <;> cases l.allowDeconfigure chunk.router <;> simp [eq_comm]
  have hremove : u ∈ (if l.config.managePeers && mayRemove l peers chunk (seen l peers chunk s) then
      (removals l peers (plan l peers chunk.facts)).map removal else []) ↔ l.config.managePeers = true ∧
        mayRemove l peers chunk (seen l peers chunk s) = true ∧
          ∃ k ∈ removals l peers (plan l peers chunk.facts), u = removal k := by
    cases l.config.managePeers <;> cases mayRemove l peers chunk (seen l peers chunk s) <;> simp [eq_comm]
  rw [requests, List.mem_append, closing, List.mem_append, hadd, hremove]
  refine or_congr_left ?_
  simp only [List.mem_filter, List.mem_map, Bool.not_eq_true']
  constructor
  · rintro ⟨⟨p, hp, rfl⟩, hnoop⟩
    exact ⟨p, hp, rfl, hnoop⟩
  · rintro ⟨p, hp, rfl, hnoop⟩
    exact ⟨⟨p, hp, rfl⟩, hnoop⟩

lemma asked_of_mem_requests (h : u ∈ requests l peers chunk s) : Asked l peers chunk u := by
  obtain ⟨p, hp, rfl, -⟩ | ⟨hmanage, hallow, j, hj, rfl⟩ | ⟨hmanage, hmay, j, hj, rfl⟩ := mem_requests_iff.mp h
  · obtain ⟨hlocal, hvalid, hself⟩ := mem_tended.mp hp
    exact .change hlocal hvalid hself (change_configures l peers chunk s p)
  · exact .addition hj hmanage hallow
  · exact .removal hj hmanage hmay

/-- The three phases of a pass divide the peers among them. -/
lemma nodup_phases (l : Link) (peers : List DevicePeer) (facts : List Fact) :
    ((tended l peers facts).map DevicePeer.publicKey ++ additions l (plan l peers facts) ++
      removals l peers (plan l peers facts)).Nodup := by
  have hadditions : (additions l (plan l peers facts)).Nodup :=
    (SortedSet.nodup_ofList (fun _ _ h => PublicKey.bytes_injective h) _).filter _
  have hremovals : (removals l peers (plan l peers facts)).Nodup :=
    (SortedSet.nodup_ofList (fun _ _ h => PublicKey.bytes_injective h) _).filter _
  have hvalid : ∀ k ∈ (tended l peers facts).map DevicePeer.publicKey ++ additions l (plan l peers facts),
      k ∈ (plan l peers facts).valid := by
    intro k hk
    rcases List.mem_append.mp hk with hk | hk
    · obtain ⟨p, hp, rfl⟩ := List.mem_map.mp hk
      exact (mem_tended.mp hp).2.1
    · exact (mem_additions_iff.mp hk).2.1
  refine .append (.append (nodup_tended l peers facts) hadditions ?_) hremovals ?_
  · intro k hk hadd
    obtain ⟨p, hp, rfl⟩ := List.mem_map.mp hk
    exact (mem_additions_iff.mp hadd).2.2.1 (List.mem_map_of_mem (mem_localPeers (mem_tended.mp hp).1))
  · intro k hk hgone
    exact not_valid_of_mem_remove (List.mem_filter.mp hgone).1 (hvalid k hk)

lemma nodup_requests (l : Link) (peers : List DevicePeer) (chunk : FactChunk) (s : LinkState) :
    ((requests l peers chunk s).map PeerUpdate.publicKey).Nodup := by
  refine (nodup_phases l peers chunk.facts).sublist ?_
  rw [requests, closing, List.map_append, List.map_append, List.append_assoc]
  refine .append ?_ (.append ?_ ?_)
  · have hkeys : ((tended l peers chunk.facts).map (change l peers chunk s)).map PeerUpdate.publicKey =
        (tended l peers chunk.facts).map DevicePeer.publicKey := by
      rw [List.map_map]
      exact List.map_congr_left fun p _ => (change_configures l peers chunk s p).publicKey
    exact hkeys ▸ List.filter_sublist.map _
  · split_ifs
    · simp [Function.comp_def, addition]
    · exact List.nil_sublist _
  · split_ifs
    · simp [Function.comp_def, removal]
    · exact List.nil_sublist _

lemma device_pass_of_read (hread : s.device.read l.config.iface = .ok s.device.state)
    (hwilling : s.device.failing = []) :
    (pass l chunk s).2.device = (requests l s.device.peers chunk s).foldl MemoryDevice.make s.device := by
  obtain ⟨-, hname⟩ := read_eq_ok hread
  have hall : (requests l s.device.peers chunk s).filter (fun u => u.publicKey ∉ s.device.failing) =
      requests l s.device.peers chunk s := by simp [hwilling]
  rw [(asks_pass hread).device, MemoryDevice.foldl_asked hname, hall]

section
variable (h : s.Ready l)
include h

lemma device_pass_of_ready :
    (pass l chunk s).2.device = (requests l s.device.peers chunk s).foldl MemoryDevice.make s.device :=
  device_pass_of_read h.readable h.willing

lemma peer?_pass_of_mem (hu : u ∈ requests l s.device.peers chunk s) :
    (pass l chunk s).2.device.state.peer? u.publicKey =
      DevicePeer.entryAfter u (s.device.state.peer? u.publicKey) := by
  rw [device_pass_of_ready h]
  exact MemoryDevice.peer?_foldl_make_of_mem h.distinct (nodup_requests _ _ _ _) hu

lemma peer?_pass_of_not_mem (hk : ∀ u ∈ requests l s.device.peers chunk s, u.publicKey ≠ k) :
    (pass l chunk s).2.device.state.peer? k = s.device.state.peer? k := by
  rw [device_pass_of_ready h]
  exact MemoryDevice.peer?_foldl_make_of_ne hk

lemma mem_removed_iff : k ∈ removed l chunk s ↔ removal k ∈ requests l s.device.peers chunk s := by
  rw [mem_removed_of_made (device_pass_of_ready h)]
  constructor
  · rintro ⟨u, hu, hremove, rfl⟩
    cases asked_of_mem_requests hu with
    | change hp hvalid hself hc => simp [hc.remove] at hremove
    | addition => cases hremove
    | removal => exact hu
  · intro hu
    exact ⟨removal k, hu, rfl, rfl⟩

end

def added (l : Link) (chunk : FactChunk) (s : LinkState) : Finset PublicKey :=
  if l.config.managePeers = true ∧ l.allowDeconfigure chunk.router = true then
    (chunk.facts.map Fact.subject).toFinset.filter fun k => k ∈ (plan l s.device.peers chunk.facts).valid ∧
      k ∉ s.device.peers.map DevicePeer.publicKey ∧ k ≠ l.self
  else ∅

lemma mem_added_iff : k ∈ added l chunk s ↔ addition k ∈ requests l s.device.peers chunk s := by
  have hadded : k ∈ added l chunk s ↔ l.config.managePeers = true ∧ l.allowDeconfigure chunk.router = true ∧
      k ∈ additions l (plan l s.device.peers chunk.facts) := by
    rw [mem_additions_iff, added]
    split_ifs with hmay
    · simp [hmay]
    · simp only [Finset.notMem_empty, false_iff]
      exact fun h => hmay ⟨h.1, h.2.1⟩
  rw [hadded, mem_requests_iff]
  constructor
  · rintro ⟨hmanage, hallow, hk⟩
    exact .inr (.inl ⟨hmanage, hallow, k, hk, rfl⟩)
  · rintro (⟨p, -, hu, -⟩ | ⟨hmanage, hallow, j, hj, hu⟩ | ⟨-, -, j, -, hu⟩)
    · have honly := (change_configures l s.device.peers chunk s p).updateOnly
      rw [← hu] at honly
      cases honly
    · obtain rfl : k = j := congrArg PeerUpdate.publicKey hu
      exact ⟨hmanage, hallow, hj⟩
    · cases congrArg PeerUpdate.remove hu

lemma keys_pass (h : s.Ready l) (chunk : FactChunk) :
    ((pass l chunk s).2.device.peers.map DevicePeer.publicKey).toFinset =
      (s.device.peers.map DevicePeer.publicKey).toFinset \ (removed l chunk s).toFinset ∪ added l chunk s := by
  ext k
  rw [Finset.mem_union, Finset.mem_sdiff, List.mem_toFinset, List.mem_toFinset, List.mem_toFinset, mem_removed_iff h,
    mem_added_iff, MemoryDevice.mem_keys_iff_isSome, MemoryDevice.mem_keys_iff_isSome]
  by_cases hk : ∃ u ∈ requests l s.device.peers chunk s, u.publicKey = k
  · obtain ⟨u, hu, rfl⟩ := hk
    have hone : ∀ v ∈ requests l s.device.peers chunk s, v.publicKey = u.publicKey → v = u :=
      fun v hv heq => List.inj_on_of_nodup_map (nodup_requests _ _ _ _) hv hu heq
    rw [peer?_pass_of_mem h hu]
    cases asked_of_mem_requests hu with
    | @change p _ hp hvalid hself hc =>
      have hremove : removal u.publicKey ∉ requests l s.device.peers chunk s := by
        intro hr
        have hremove := hc.remove
        rw [← hone _ hr rfl] at hremove
        cases hremove
      have hentry : s.device.state.peer? u.publicKey = some p :=
        h.peer?_eq_some_iff.mpr ⟨mem_localPeers hp, hc.publicKey.symm⟩
      simp [hentry, DevicePeer.entryAfter, hc.remove, hremove]
    | @addition j hj hmanage hallow =>
      have hnone : s.device.state.peer? j = none := by
        rw [← Option.not_isSome_iff_eq_none, ← MemoryDevice.mem_keys_iff_isSome]
        exact (mem_additions_iff.mp hj).2.2.1
      simpa [addition, DevicePeer.entryAfter, hnone] using hu
    | @removal j _ hj hmanage hmay =>
      have hadd : addition j ∉ requests l s.device.peers chunk s := by
        intro ha
        cases congrArg PeerUpdate.remove (hone _ ha rfl)
      have hgone : removal j ∈ requests l s.device.peers chunk s := hu
      simpa [removal, DevicePeer.entryAfter] using ⟨fun _ => hgone, hadd⟩
  · simp only [not_exists, not_and] at hk
    have hadd : addition k ∉ requests l s.device.peers chunk s := fun ha => hk _ ha rfl
    have hremove : removal k ∉ requests l s.device.peers chunk s := fun hr => hk _ hr rfl
    rw [peer?_pass_of_not_mem h hk]
    simp [hadd, hremove]

/-- A pass asks one change a call, no two for one peer and none for this node. Where the device takes them all it ends
with the peers that it had, without those removed and with those added. -/
theorem calls_one_each (l : Link) (chunk : FactChunk) (s : LinkState) :
    (∀ k ∈ (plan l s.device.peers chunk.facts).remove, k ∉ (plan l s.device.peers chunk.facts).valid ∧
      k ≠ l.self ∧ l.config.peers.contains k = false) ∧
      (pass l chunk s).2.calls = s.calls ++ calls l chunk s ∧
      (pass l chunk s).2.device = (calls l chunk s).foldl (MemoryDevice.asked l.config.iface) s.device ∧
      (callsMade l chunk s = (calls l chunk s).filter fun us => us.all fun u => u.publicKey ∉ s.device.failing) ∧
      (∀ us ∈ calls l chunk s, us.length = 1) ∧
      ((calls l chunk s).flatten.map PeerUpdate.publicKey).Nodup ∧
      (∀ u ∈ (calls l chunk s).flatten, u.publicKey ≠ l.self) ∧
      (s.Ready l → ((pass l chunk s).2.device.peers.map DevicePeer.publicKey).toFinset =
        (s.device.peers.map DevicePeer.publicKey).toFinset \ (removed l chunk s).toFinset ∪ added l chunk s) := by
  have hcalls : calls l chunk s = [] ∨ calls l chunk s = (requests l s.device.peers chunk s).map ([·]) := by
    by_cases hread : s.device.read l.config.iface = .ok s.device.state
    · exact .inr (calls_of_read hread)
    · exact .inl (calls_of_unread hread)
  have hflat : (calls l chunk s).flatten = [] ∨
      (calls l chunk s).flatten = requests l s.device.peers chunk s := by
    rcases hcalls with h | h
    · exact .inl (by rw [h, List.flatten_nil])
    · exact .inr (by rw [h, ← List.flatMap_def, List.flatMap_singleton'])
  obtain ⟨hrecord, hdevice⟩ := pass_asks_calls l chunk s
  refine ⟨?_, hrecord, hdevice, callsMade_eq l chunk s, ?_, ?_, ?_, fun h => keys_pass h chunk⟩
  · intro k hk
    have hinvalid := not_valid_of_mem_remove hk
    have hout := hinvalid
    rw [mem_valid_iff, not_or, not_or] at hout
    exact ⟨hinvalid, hout.1, by simpa using hout.2.1⟩
  · rcases hcalls with h | h
    · simp [h]
    · simp [h]
  · rcases hflat with h | h
    · simp [h]
    · exact h ▸ nodup_requests _ _ _ _
  · rcases hflat with h | h
    · simp [h]
    · exact fun u hu => (asked_of_mem_requests (h ▸ hu)).ne_self

/-- One pass changes the source, adds a member and removes a peer that nobody introduced. -/
theorem calls_one_each_newcomer :
    let authority : PublicKey := ⟨.ofNatLE 32 1⟩
    let orphan : PublicKey := ⟨.ofNatLE 32 2⟩
    let newcomer : PublicKey := ⟨.ofNatLE 32 4⟩
    let l : Link :=
      { config := { iface := "wg0", peers := .ofList [(authority, { trust := some .addPeer })] },
        self := ⟨.ofNatLE 32 3⟩, bootId := .zero 16, started := 0, resolve := fun _ => [] }
    let seen : DevicePeer :=
      { publicKey := authority, endpoint := some (.ofIp authority.overlayIp 5), lastHandshake := some 250000000000 }
    let s : LinkState :=
      { device := { state := ⟨"wg0", default, 51820, [seen, { publicKey := orphan }]⟩ },
        knowledge := (Knowledge.empty.note (.alive authority) authority 300000000000).2,
        states := .ofList [(authority, { observed := true, aliveSince := some 0 })] }
    let chunk : FactChunk := ⟨[.membership newcomer 300000000000], 260000000000, false, false⟩
    s.Ready l ∧ (calls l chunk s).flatten.map PeerUpdate.publicKey = [authority, newcomer, orphan] ∧
      ((pass l chunk s).2.device.peers.map DevicePeer.publicKey).toFinset = {authority, newcomer} := by
  intro authority orphan newcomer l seen s chunk
  have hready : s.Ready l := ⟨by decide +kernel, rfl, by decide +kernel⟩
  obtain ⟨-, -, -, -, -, -, -, hkeys⟩ := calls_one_each l chunk s
  have hremoved : removed l chunk s = [orphan] := by decide +kernel
  have hadded : added l chunk s = {newcomer} := by decide +kernel
  refine ⟨hready, by decide +kernel, ?_⟩
  rw [hkeys hready, hremoved, hadded]
  decide +kernel

end Reconcile

end MeshFacts
