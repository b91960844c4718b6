import MeshFacts.Proofs.PeerSteps

/-! # Settling
Passes over the same facts at the same instant come to rest. After one pass a peer works or not by its endpoint and
its last handshake alone, and none is left to be added. The second gives each peer what it is due, and the third
may remove peers by what the second has made of the routers. From then on nothing is asked. -/
namespace MeshFacts

namespace PeerState

/-- A history that has a sighting on record already does not gain by it again. -/
lemma evidence_update_again {s t : PeerState} {p : DevicePeer} {told : Option Instant} {id : Option Uuid}
    {now : Instant} (he : t.evidence = (s.update p told id now).evidence)
    (hh : t.isHealthy p now = s.isHealthy p now) :
    (t.update p told id now).evidence = (s.update p told id now).evidence := by
  simp only [evidence, update, Prod.mk.injEq] at he ⊢
  obtain ⟨-, hsince, -, hid⟩ := he
  refine ⟨hh, ?_, trivial, ?_⟩
  · rw [hsince, hid]
    cases told.filter (fun t => now < t) with
    | none => rfl
    | some e =>
      cases id <;> cases s.aliveSince <;> simp
      split_ifs <;> simp
  · rw [hid]
    cases id <;> rfl

end PeerState

namespace Reconcile
variable {l : Link} {chunk : FactChunk} {s : LinkState} {p q : DevicePeer} {k : PublicKey}

lemma same_afterRemovals {peers : List DevicePeer} (hk : removal k ∉ requests l peers chunk s) :
    (beforeRemovals l peers chunk s).Same k (passOn l peers chunk s) := by
  rw [passOn_eq]
  split_ifs with hmanage
  · by_cases hmay : mayRemove l peers chunk (beforeRemovals l peers chunk s) = true
    · refine same_deletePeers (fun hin => hk (mem_requests_iff.mpr (.inr (.inr ⟨hmanage, ?_, k, hin, rfl⟩)))) _
      rwa [mayRemove_congr fun j => (evidence_beforeRemovals l peers chunk s j).symm]
    · rw [deletePeers, if_neg hmay]
      exact .refl k _
  · exact .refl k _

lemma kept_pass (h : s.Ready l) (hq : q ∈ (pass l chunk s).2.device.peers) (hself : q.publicKey ≠ l.self)
    (hout : ¬ Belongs l chunk.facts q.publicKey) :
    q ∈ s.device.peers ∧ removal q.publicKey ∉ requests l s.device.peers chunk s ∧
      (pass l chunk s).2.states.find? q.publicKey = some (sighting s q chunk.now) := by
  have hready : (pass l chunk s).2.Ready l := h.of_updatedBy (updatedBy_pass l chunk s)
  have hentry : (pass l chunk s).2.device.state.peer? q.publicKey = some q := hready.peer?_eq_some_iff.mpr ⟨hq, rfl⟩
  have hkept : removal q.publicKey ∉ requests l s.device.peers chunk s := by
    intro hgone
    have hnone := peer?_pass_of_mem h hgone
    rw [show (removal q.publicKey).publicKey = q.publicKey from rfl, hentry] at hnone
    cases hnone
  have hunnamed : ∀ u ∈ requests l s.device.peers chunk s, u.publicKey ≠ q.publicKey := by
    intro u hu heq
    have hremoval := (asked_of_mem_requests hu).eq_removal fun hin => hout (heq ▸ hin.1)
    exact hkept (heq ▸ hremoval ▸ hu)
  have hin : q ∈ s.device.peers := by
    rw [peer?_pass_of_not_mem h hunnamed] at hentry
    exact (h.peer?_eq_some_iff.mp hentry).1
  refine ⟨hin, hkept, ?_⟩
  let t : LinkState := { s with cached := some s.device.state }
  have hkept' : removal q.publicKey ∉ requests l s.device.peers chunk t := by
    rwa [requests_congr (s := s) (t := t) fun k => ⟨rfl, rfl, fun _ => rfl, rfl⟩]
  have hinvalid : q.publicKey ∉ (plan l s.device.peers chunk.facts).valid := fun hv =>
    (mem_valid_iff.mp hv).elim hself hout
  rw [pass_of_read h.readable, (same_afterRemovals hkept').history,
    (same_beforeRemovals_of_out (.inl hinvalid) t).history]
  exact find?_seen (s := t) h.distinct hin hself

/-- Where a peer comes from that is on the device after a pass: it was configured, only seen, or added. -/
inductive Comes (l : Link) (chunk : FactChunk) (s : LinkState) : DevicePeer → Prop
  | configured {p : DevicePeer} (hp : p ∈ tended l s.device.peers chunk.facts) :
      Comes l chunk s (p.apply (change l s.device.peers chunk s p))
  | seen {q : DevicePeer} (hq : q ∈ s.device.peers) (hout : ¬ Belongs l chunk.facts q.publicKey)
      (hhistory : (pass l chunk s).2.states.find? q.publicKey = some (sighting s q chunk.now)) : Comes l chunk s q
  | added {k : PublicKey} (hk : addition k ∈ requests l s.device.peers chunk s) :
      Comes l chunk s (DevicePeer.apply { publicKey := k } (addition k))

lemma comes_of_mem (h : s.Ready l) (hq : q ∈ (pass l chunk s).2.device.peers) (hself : q.publicKey ≠ l.self) :
    Comes l chunk s q := by
  have hready : (pass l chunk s).2.Ready l := h.of_updatedBy (updatedBy_pass l chunk s)
  have hentry : (pass l chunk s).2.device.state.peer? q.publicKey = some q := hready.peer?_eq_some_iff.mpr ⟨hq, rfl⟩
  by_cases hbelongs : Belongs l chunk.facts q.publicKey
  · by_cases hin : q.publicKey ∈ s.device.peers.map DevicePeer.publicKey
    · obtain ⟨p, hp, hkey⟩ := List.mem_map.mp hin
      have htended : p ∈ tended l s.device.peers chunk.facts :=
        (mem_tended_iff h.distinct).mpr ⟨hp, hkey ▸ hbelongs, hkey ▸ hself⟩
      have hnext := entry_pass h htended
      rw [hkey, hentry] at hnext
      exact Option.some.inj hnext ▸ .configured htended
    · have hnone : s.device.state.peer? q.publicKey = none := by
        rwa [← Option.not_isSome_iff_eq_none, ← MemoryDevice.mem_keys_iff_isSome]
      obtain ⟨u, hu, hkey⟩ : ∃ u ∈ requests l s.device.peers chunk s, u.publicKey = q.publicKey := by
        by_contra hno
        rw [peer?_pass_of_not_mem h fun u hu hkey => hno ⟨u, hu, hkey⟩, hnone] at hentry
        cases hentry
      have hadded := (asked_of_mem_requests hu).eq_addition (hkey ▸ hin)
      have hnext := peer?_pass_of_mem h hu
      rw [hkey, hnone, hentry] at hnext
      rw [hadded] at hu hnext
      exact Option.some.inj hnext ▸ .added hu
  · obtain ⟨hin, -, hhistory⟩ := kept_pass h hq hself hbelongs
    exact .seen hin hbelongs hhistory

/-- Peers pass for working by their endpoint and last handshake only, none is left to be added, and none that would
pass for working can be moved. -/
structure Primed (l : Link) (chunk : FactChunk) (s : LinkState) : Prop where
  ready : s.Ready l
  steady : ∀ p ∈ s.device.peers, p.publicKey ≠ l.self → (sighting s p chunk.now).healthy = p.isFresh chunk.now
  rests : ∀ p ∈ tended l s.device.peers chunk.facts, p.endpoint = none → p.isRecent chunk.now = true →
    (sighting s p chunk.now).Rests (candidates l chunk p) chunk.now
  complete : ∀ k, addition k ∉ requests l s.device.peers chunk s

lemma addition_not_mem_requests (h : s.Ready l) (chunk : FactChunk) (k : PublicKey) :
    addition k ∉ requests l (pass l chunk s).2.device.peers chunk (pass l chunk s).2 := by
  intro hk
  have hadded := mem_added_iff.mpr hk
  unfold added at hadded
  split_ifs at hadded with hmay
  · simp only [Finset.mem_filter] at hadded
    obtain ⟨hsubject, hvalid, hnew, hself⟩ := hadded
    have hbelongs : Belongs l chunk.facts k := (mem_valid_iff.mp hvalid).resolve_left hself
    have hgone : k ∉ ((pass l chunk s).2.device.peers.map DevicePeer.publicKey).toFinset := by simpa using hnew
    rw [keys_pass h chunk, Finset.mem_union, not_or] at hgone
    obtain ⟨hold, hadded⟩ := hgone
    have hremoved : k ∉ removed l chunk s := fun hr => by
      obtain ⟨-, hremovable⟩ := (removed_unprotected l chunk s).1 k hr
      rcases hbelongs with hc | ⟨f, hf, hs, hm⟩
      · simp [hremovable.unconfigured] at hc
      · exact hremovable.unintroduced f hf hs hm
    have hout : k ∉ s.device.peers.map DevicePeer.publicKey := by simpa [hremoved] using hold
    refine hadded ?_
    rw [added, if_pos hmay]
    exact Finset.mem_filter.mpr ⟨hsubject, mem_valid_iff.mpr (.inr hbelongs), hout, hself⟩
  · simp at hadded

lemma endpoint_of_apply {u : PeerUpdate} (h : (p.apply u).endpoint = none) : p.endpoint = none := by
  simp only [DevicePeer.apply] at h
  cases hu : u.endpoint with
  | none => simpa [hu] using h
  | some e => simp [hu] at h

lemma rests_pass (h : s.Ready l) (hp : p ∈ tended l s.device.peers chunk.facts)
    (hhealthy : (sighting s p chunk.now).healthy = false) :
    (sighting (pass l chunk s).2 (p.apply (change l s.device.peers chunk s p)) chunk.now).Rests (candidates l chunk p)
      chunk.now := by
  obtain ⟨-, hlast⟩ := (sighting s p chunk.now).rotated_spec (candidates l chunk p) chunk.now
  rw [sighting, DevicePeer.publicKey_apply, PeerStates.get, history_pass h hp]
  exact (PeerState.rests_update (p := p.apply _) hlast _ _).mpr (PeerState.rests_rotated hhealthy)

theorem primed_pass (h : s.Ready l) (chunk : FactChunk) : Primed l chunk (pass l chunk s).2 := by
  have hready : (pass l chunk s).2.Ready l := h.of_updatedBy (updatedBy_pass l chunk s)
  refine ⟨hready, fun q hq hself => ?_, fun q hq he hrecent => ?_, addition_not_mem_requests h chunk⟩
  · change ((pass l chunk s).2.states.get q.publicKey).isHealthy q chunk.now = _
    cases comes_of_mem h hq hself with
    | @configured p hp =>
      have hhistory := history_pass h hp
      obtain ⟨hobserved, hlast⟩ := (sighting s p chunk.now).rotated_spec (candidates l chunk p) chunk.now
      rw [DevicePeer.publicKey_apply, PeerStates.get, hhistory]
      exact PeerState.isHealthy_of_observed (p := p.apply _) hobserved hlast chunk.now
    | seen hin hout hhistory =>
      rw [PeerStates.get, hhistory]
      exact PeerState.isHealthy_of_observed rfl rfl chunk.now
    | added hk => exact PeerState.isHealthy_of_endpoint_none rfl _ chunk.now
  · obtain ⟨hq, hbelongs, hself⟩ := (mem_tended_iff hready.distinct).mp hq
    cases comes_of_mem h hq hself with
    | @configured p hp => exact rests_pass h hp (PeerState.isHealthy_of_endpoint_none (endpoint_of_apply he) _ _)
    | seen hin hout => exact absurd hbelongs hout
    | added hk => cases hrecent

/-- Each valid peer has the networks that it is due, and an endpoint that works or that has its time. -/
structure Settled (l : Link) (chunk : FactChunk) (s : LinkState) : Prop extends Primed l chunk s where
  nets : ∀ p ∈ tended l s.device.peers chunk.facts,
    (netsChange l p (factsAbout p.publicKey chunk.facts) (l.allowDeconfigure chunk.router) (p.isFresh chunk.now)
      (isReached l s p.publicKey chunk.now)).isNoop = true
  idle : ∀ p ∈ tended l s.device.peers chunk.facts,
    p.isFresh chunk.now = true ∨ (sighting s p chunk.now).Rests (candidates l chunk p) chunk.now

namespace Primed
variable (h : Primed l chunk s) (hp : p ∈ tended l s.device.peers chunk.facts)
include h hp

lemma healthy_eq : (sighting s p chunk.now).healthy = p.isFresh chunk.now := by
  obtain ⟨hin, -, hself⟩ := (mem_tended_iff h.ready.distinct).mp hp
  exact h.steady p hin hself

lemma isFresh_apply : (p.apply (change l s.device.peers chunk s p)).isFresh chunk.now = p.isFresh chunk.now := by
  have hrecent : (p.apply (change l s.device.peers chunk s p)).isRecent chunk.now = p.isRecent chunk.now := rfl
  have hstill : (sighting s p chunk.now).rotated (candidates l chunk p) chunk.now = (none, sighting s p chunk.now) →
      (p.apply (change l s.device.peers chunk s p)).endpoint = p.endpoint := by
    intro hnone
    rw [change_eq h.ready hp, hnone]
    rfl
  unfold DevicePeer.isFresh
  rw [hrecent]
  cases hr : p.isRecent chunk.now with
  | false => simp
  | true =>
    cases he : p.endpoint with
    | none => rw [hstill (PeerState.rotated_of_rests (h.rests p hp he hr)), he]
    | some e =>
      have hhealthy : (sighting s p chunk.now).healthy = true := by
        rw [healthy_eq h hp, DevicePeer.isFresh, he, hr]
        rfl
      rw [hstill (PeerState.rotated_of_healthy hhealthy), he]

end Primed

theorem settled_pass (h : Primed l chunk s) : Settled l chunk (pass l chunk s).2 := by
  have hnext := primed_pass h.ready chunk
  have hcomes : ∀ q ∈ tended l (pass l chunk s).2.device.peers chunk.facts,
      ∃ p ∈ tended l s.device.peers chunk.facts, q = p.apply (change l s.device.peers chunk s p) := by
    intro q hq
    obtain ⟨hq, hbelongs, hself⟩ := (mem_tended_iff hnext.ready.distinct).mp hq
    cases comes_of_mem h.ready hq hself with
    | configured hp => exact ⟨_, hp, rfl⟩
    | seen hin hout => exact absurd hbelongs hout
    | added hk => exact absurd hk (h.complete _)
  refine ⟨hnext, fun q hq => ?_, fun q hq => ?_⟩
  · obtain ⟨p, hp, rfl⟩ := hcomes q hq
    rw [h.isFresh_apply hp, DevicePeer.publicKey_apply, isReached_pass h.ready hp, change_eq h.ready hp,
      h.healthy_eq hp]
    exact netsChange_again _ _ _ _ _ _ _
  · obtain ⟨p, hp, rfl⟩ := hcomes q hq
    rw [h.isFresh_apply hp]
    cases hfresh : p.isFresh chunk.now with
    | true => exact .inl rfl
    | false => exact .inr (rests_pass h.ready hp ((h.healthy_eq hp).trans hfresh))

namespace Settled
variable (h : Settled l chunk s)
include h

lemma change_isNoop (hp : p ∈ tended l s.device.peers chunk.facts) :
    (change l s.device.peers chunk s p).isNoop = true := by
  have hnone : (sighting s p chunk.now).rotated (candidates l chunk p) chunk.now =
      (none, sighting s p chunk.now) := by
    rcases h.idle p hp with hfresh | hrests
    · exact PeerState.rotated_of_healthy ((h.healthy_eq hp).trans hfresh)
    · exact PeerState.rotated_of_rests hrests
  have hnets := h.nets p hp
  obtain ⟨-, -, -, hendpoint⟩ := netsChange_spec l p (factsAbout p.publicKey chunk.facts)
    (l.allowDeconfigure chunk.router) (p.isFresh chunk.now) (isReached l s p.publicKey chunk.now)
  rw [change_eq h.ready hp, hnone, h.healthy_eq hp]
  simpa [PeerUpdate.isNoop, hendpoint] using hnets

lemma requests_eq : requests l s.device.peers chunk s =
    if l.config.managePeers && mayRemove l s.device.peers chunk (seen l s.device.peers chunk s) then
      (removals l s.device.peers (plan l s.device.peers chunk.facts)).map removal
    else [] := by
  have hchanges : ((tended l s.device.peers chunk.facts).map (change l s.device.peers chunk s)).filter
      (fun u => !u.isNoop) = [] := by
    refine List.filter_eq_nil_iff.mpr fun u hu => ?_
    obtain ⟨p, hp, rfl⟩ := List.mem_map.mp hu
    simp [h.change_isNoop hp]
  have hadditions : (if l.config.managePeers && l.allowDeconfigure chunk.router then
      (additions l (plan l s.device.peers chunk.facts)).map addition else []) = [] := by
    refine List.eq_nil_iff_forall_not_mem.mpr fun u hu => ?_
    split_ifs at hu with hmay
    · obtain ⟨k, hk, rfl⟩ := List.mem_map.mp hu
      rw [Bool.and_eq_true] at hmay
      exact h.complete k (mem_requests_iff.mpr (.inr (.inl ⟨hmay.1, hmay.2, k, hk, rfl⟩)))
    · cases hu
  rw [requests, closing, hchanges, hadditions, List.nil_append, List.nil_append]

end Settled

lemma conclude_of_closing {peers : List DevicePeer} (h : closing l peers chunk s = []) :
    conclude l peers chunk s = s := by
  obtain ⟨hadditions, hremovals⟩ := List.append_eq_nil_iff.mp h
  have hadded : (if l.config.managePeers && l.allowDeconfigure chunk.router then
      addPeers l (plan l peers chunk.facts) s else s) = s := by
    split_ifs with hmay
    · rw [if_pos hmay, List.map_eq_nil_iff] at hadditions
      rw [addPeers, hadditions]
      rfl
    · rfl
  unfold conclude
  dsimp only
  rw [hadded]
  split_ifs with hmanage
  · unfold deletePeers
    split_ifs with hmay
    · rw [if_pos (by rw [hmanage, hmay]; rfl), List.map_eq_nil_iff] at hremovals
      rw [hremovals]
      rfl
    · rfl
  · rfl

lemma alive_configurePeers {peers : List DevicePeer} (facts : List Fact) (allow : Bool) (now : Instant)
    (s : LinkState) (k : PublicKey) :
    (configurePeers l (plan l peers facts) facts allow now s).knowledge.aliveUntil? k = s.knowledge.aliveUntil? k ∧
      (configurePeers l (plan l peers facts) facts allow now s).knowledge.bootId? k = s.knowledge.bootId? k := by
  refine List.foldlRecOn (motive := fun t : LinkState => t.knowledge.aliveUntil? k = s.knowledge.aliveUntil? k ∧
    t.knowledge.bootId? k = s.knowledge.bootId? k) _ _ ⟨rfl, rfl⟩ fun t ht p hp => ?_
  have hself : p.publicKey ≠ l.self := (mem_tended.mp hp).2.2
  obtain ⟨halive, hboot⟩ := alive_configurePeer hself (factsAbout p.publicKey facts) allow now t k
  exact ⟨halive.trans ht.1, hboot.trans ht.2⟩

section
variable (h : s.Ready l) (hnone : requests l s.device.peers chunk s = [])
include h hnone

lemma device_of_requests_nil : (pass l chunk s).2.device = s.device := by
  rw [device_pass_of_ready h, hnone]
  rfl

lemma pass_of_requests_nil : (pass l chunk s).2 =
    configurePeers l (plan l s.device.peers chunk.facts) chunk.facts (l.allowDeconfigure chunk.router) chunk.now
      (seen l s.device.peers chunk { s with cached := some s.device.state }) := by
  have hclosing : closing l s.device.peers chunk (seen l s.device.peers chunk s) = [] :=
    (List.append_eq_nil_iff.mp hnone).2
  rw [pass_of_read h.readable, passOn_eq_conclude]
  refine conclude_of_closing ?_
  rw [closing_congr fun k => evidence_configurePeers _ _ _ _ _ k]
  exact hclosing

lemma evidence_pass_of_requests_nil (k : PublicKey) :
    (pass l chunk s).2.states.evidence? k = (seen l s.device.peers chunk s).states.evidence? k := by
  rw [pass_of_requests_nil h hnone, evidence_configurePeers]
  rfl

end

lemma evidence_seen_of_out {peers : List DevicePeer} (h : k ∉ peers.map DevicePeer.publicKey ∨ k = l.self) :
    (seen l peers chunk s).states.evidence? k = (s.states.evidence? k).filter fun _ =>
      k ∈ (plan l peers chunk.facts).subjects || k ∈ (plan l peers chunk.facts).valid ||
        (plan l peers chunk.facts).localPeers.any fun d => d.publicKey = k := by
  rw [PeerStates.evidence?, PeerStates.evidence?, seen, find?_retain, find?_observe, sightings_eq_nil_iff.mpr h,
    List.foldl_nil]
  cases s.states.find? k with
  | none => rfl
  | some st => simp only [Option.map_some, Option.filter_some]; split_ifs <;> rfl

lemma evidence_sighting_pass (h : Settled l chunk s) (hnone : requests l s.device.peers chunk s = [])
    (hp : p ∈ s.device.peers) (hself : p.publicKey ≠ l.self) :
    (sighting (pass l chunk s).2 p chunk.now).evidence = (sighting s p chunk.now).evidence := by
  have hhistory : ((pass l chunk s).2.states.get p.publicKey).evidence = (sighting s p chunk.now).evidence := by
    have hafter := evidence_pass_of_requests_nil h.ready hnone p.publicKey
    rw [PeerStates.evidence?, PeerStates.evidence?, find?_seen h.ready.distinct hp hself] at hafter
    obtain ⟨st, hst, hsame⟩ := Option.map_eq_some_iff.mp hafter
    rw [PeerStates.get, hst]
    exact hsame
  have hhealthy : ((pass l chunk s).2.states.get p.publicKey).isHealthy p chunk.now =
      (s.states.get p.publicKey).isHealthy p chunk.now :=
    ((primed_pass h.ready chunk).steady p ((device_of_requests_nil h.ready hnone).symm ▸ hp) hself).trans
      (h.steady p hp hself).symm
  obtain ⟨halive, hboot⟩ :
      (pass l chunk s).2.knowledge.aliveUntil? p.publicKey = s.knowledge.aliveUntil? p.publicKey ∧
      (pass l chunk s).2.knowledge.bootId? p.publicKey = s.knowledge.bootId? p.publicKey := by
    rw [pass_of_requests_nil h.ready hnone]
    exact alive_configurePeers _ _ _ _ _
  rw [sighting, halive, hboot]
  exact PeerState.evidence_update_again hhistory hhealthy

/-- Where a pass asks for nothing, the next one sees no more than this one. -/
lemma evidence_pass (h : Settled l chunk s) (hnone : requests l s.device.peers chunk s = []) (k : PublicKey) :
    (seen l s.device.peers chunk (pass l chunk s).2).states.evidence? k =
      (seen l s.device.peers chunk s).states.evidence? k := by
  by_cases hin : k ∈ s.device.peers.map DevicePeer.publicKey ∧ k ≠ l.self
  · obtain ⟨hin, hself⟩ := hin
    obtain ⟨p, hp, rfl⟩ := List.mem_map.mp hin
    have hdevice := device_of_requests_nil h.ready hnone
    have hseen : (seen l s.device.peers chunk s).states.find? p.publicKey = some (sighting s p chunk.now) :=
      find?_seen h.ready.distinct hp hself
    have hseen' : (seen l s.device.peers chunk (pass l chunk s).2).states.find? p.publicKey =
        some (sighting (pass l chunk s).2 p chunk.now) := by
      rw [← hdevice]
      exact find?_seen (primed_pass h.ready chunk).ready.distinct (hdevice.symm ▸ hp) hself
    rw [PeerStates.evidence?, PeerStates.evidence?, hseen', hseen, Option.map_some, Option.map_some,
      evidence_sighting_pass h hnone hp hself]
  · have hout : k ∉ s.device.peers.map DevicePeer.publicKey ∨ k = l.self := by
      rwa [not_and_or, not_not] at hin
    rw [evidence_seen_of_out hout, evidence_pass_of_requests_nil h.ready hnone, evidence_seen_of_out hout,
      Option.filter_filter]
    simp

/-- Once a pass has removed what may go, nothing more may. -/
lemma removals_pass (h : s.Ready l) (hmanage : l.config.managePeers = true)
    (hmay : mayRemove l s.device.peers chunk (seen l s.device.peers chunk s) = true) :
    removals l (pass l chunk s).2.device.peers (plan l (pass l chunk s).2.device.peers chunk.facts) = [] := by
  refine List.eq_nil_iff_forall_not_mem.mpr fun k hk => ?_
  obtain ⟨hin, hself, hout, hrouter⟩ := mem_removals_iff.mp hk
  obtain ⟨q, hq, rfl⟩ := List.mem_map.mp hin
  obtain ⟨hbefore, hkept, -⟩ := kept_pass h hq hself hout
  refine hkept (mem_requests_iff.mpr (.inr (.inr ⟨hmanage, hmay, _, mem_removals_iff.mpr ?_, rfl⟩)))
  refine ⟨List.mem_map_of_mem hbefore, hself, hout, fun ⟨hautomatic, hr⟩ => hrouter ⟨hautomatic, ?_⟩⟩
  obtain ⟨p, hp, hkey⟩ := List.mem_map.mp hr
  obtain ⟨hp, hisRouter⟩ := List.mem_filter.mp hp
  obtain rfl : p = q := List.inj_on_of_nodup_map h.distinct hp hbefore hkey
  exact mem_routers hq hisRouter

theorem requests_pass (h : Settled l chunk s) :
    requests l (pass l chunk s).2.device.peers chunk (pass l chunk s).2 = [] := by
  have hnext := settled_pass h.toPrimed
  by_cases hmay : (l.config.managePeers && mayRemove l s.device.peers chunk (seen l s.device.peers chunk s)) = true
  · rw [Bool.and_eq_true] at hmay
    rw [hnext.requests_eq, removals_pass h.ready hmay.1 hmay.2]
    split_ifs <;> rfl
  · have hnone : requests l s.device.peers chunk s = [] := by rw [h.requests_eq, if_neg hmay]
    rw [hnext.requests_eq, device_of_requests_nil h.ready hnone, mayRemove_congr (evidence_pass h hnone), if_neg hmay]

/-- The state after a number of passes over the same facts at the same instant. -/
def passes (l : Link) (chunk : FactChunk) (n : ℕ) (s : LinkState) : LinkState := (fun t => (pass l chunk t).2)^[n] s

lemma passes_succ (l : Link) (chunk : FactChunk) (n : ℕ) (s : LinkState) :
    passes l chunk (n + 1) s = (pass l chunk (passes l chunk n s)).2 :=
  Function.iterate_succ_apply' _ _ _

lemma settled_passes (h : s.Ready l) (chunk : FactChunk) {n : ℕ} (hn : 2 ≤ n) :
    Settled l chunk (passes l chunk n s) := by
  induction n, hn using Nat.le_induction with
  | base => exact settled_pass (primed_pass h chunk)
  | succ n hn ih =>
    rw [passes_succ]
    exact settled_pass ih.toPrimed

/-- From the fourth pass on over the same facts at the same instant no pass makes a call. -/
theorem passes_settle (l : Link) (chunk : FactChunk) (s : LinkState)
    (hd : (s.device.peers.map DevicePeer.publicKey).Nodup) (hwilling : s.device.failing = []) {n : ℕ} (hn : 3 ≤ n) :
    calls l chunk (passes l chunk n s) = [] ∧ callsMade l chunk (passes l chunk n s) = [] := by
  have hcalls : calls l chunk (passes l chunk n s) = [] := by
    by_cases hread : s.device.read l.config.iface = .ok s.device.state
    · obtain ⟨m, rfl⟩ : ∃ m, n = m + 1 := ⟨n - 1, by omega⟩
      have hsettled := settled_passes ⟨hread, hwilling, hd⟩ chunk (n := m) (by omega)
      have hready := (settled_pass hsettled.toPrimed).ready
      rw [passes_succ, calls_of_read hready.readable, requests_pass hsettled]
      rfl
    · have hstill : passes l chunk n s = s := Function.iterate_fixed (pass_of_unread hread) n
      rw [hstill]
      exact calls_of_unread hread
  exact ⟨hcalls, by rw [callsMade_eq, hcalls]; rfl⟩

/-- The first pass moves the hub, the second gives it its network, and the third removes a peer that it does not
introduce. -/
theorem passes_settle_hub :
    let hub : PublicKey := ⟨.ofNatLE 32 1⟩
    let orphan : PublicKey := ⟨.ofNatLE 32 2⟩
    let home : SocketAddr := .ofIp hub.overlayIp 5
    let peers : PeerTable := .ofList [(hub, { allowedIps := [.v4 0x0a000000 8], endpoints := ["hub"] })]
    let l : Link :=
      { config := { iface := "wg0", peers := peers }, self := ⟨.ofNatLE 32 3⟩, bootId := .zero 16, started := 0,
        resolve := fun _ => [home] }
    let found : DevicePeer := { publicKey := hub, lastHandshake := some 200000000000 }
    let s : LinkState :=
      { device := { state := ⟨"wg0", default, 51820, [found, { publicKey := orphan }]⟩ },
        knowledge := (Knowledge.empty.note (.alive hub) hub 300000000000).2,
        states := .ofList [(hub, { observed := true, aliveSince := some 0 })] }
    let chunk : FactChunk := ⟨[], 260000000000, false, false⟩
    removed l chunk (passes l chunk 2 s) = [orphan] ∧ callsMade l chunk (passes l chunk 3 s) = [] := by
  intro hub orphan home peers l found s chunk
  obtain ⟨-, hnone⟩ := passes_settle l chunk s (by decide +kernel) rfl (le_refl 3)
  exact ⟨by decide +kernel, hnone⟩

end Reconcile

end MeshFacts
