import MeshFacts.Proofs.PeerHistories

/-! # Independence of peers
What a pass asks of the device for one peer follows from what its state says of that peer. So two states that say
the same of a peer, on devices that answer the same to updates of it, still do so after the same steps, and what
becomes of a peer in a pass is its own configuration from what the pass has seen. -/
namespace MeshFacts

namespace DevicePeer
variable {peers : List DevicePeer} {u : PeerUpdate}

def entryAfter (u : PeerUpdate) (entry : Option DevicePeer) : Option DevicePeer :=
  if u.remove then none
  else match entry with
    | some p => some (p.apply u)
    | none => if u.updateOnly then none else some (apply { publicKey := u.publicKey } u)

lemma find?_eraseP_self (hd : (peers.map publicKey).Nodup) (k : PublicKey) :
    (peers.eraseP fun p => p.publicKey = k).find? (fun p => p.publicKey = k) = none := by
  induction peers with
  | nil => rfl
  | cons p peers ih =>
    rw [List.map_cons, List.nodup_cons] at hd
    by_cases hp : p.publicKey = k
    · rw [List.eraseP_cons_of_pos (by simpa using hp), List.find?_eq_none]
      intro q hq
      have hne : q.publicKey ≠ k := fun h => hd.1 ((hp.trans h.symm) ▸ List.mem_map_of_mem hq)
      simpa using hne
    · rw [List.eraseP_cons_of_neg (by simpa using hp), List.find?_cons_of_neg (by simpa using hp), ih hd.2]

lemma find?_applyTo_self (hd : (peers.map publicKey).Nodup) :
    (applyTo peers u).find? (fun p => p.publicKey = u.publicKey) =
      entryAfter u (peers.find? fun p => p.publicKey = u.publicKey) := by
  cases hr : u.remove with
  | true => simp [applyTo, entryAfter, hr, find?_eraseP_self hd]
  | false =>
    cases hp : peers.find? fun p => p.publicKey = u.publicKey with
    | some p => simp [find?_applyTo_change hr hp, entryAfter, hr]
    | none =>
      cases ho : u.updateOnly with
      | false => simp [find?_applyTo_add hr ho hp, entryAfter, hr, ho]
      | true =>
        have hany : ¬ (peers.any fun p => p.publicKey = u.publicKey) = true := by
          simpa [List.find?_eq_none] using hp
        simp [applyTo, entryAfter, hr, ho, hany, hp]

end DevicePeer

namespace LinkState

variable {P : PeerUpdate → Prop} {l : Link} {k : PublicKey} {s s' t t' r : LinkState}

lemma Same.symm (h : Same k s t) : Same k t s :=
  ⟨h.entry.symm, h.history.symm, fun key => (h.knows key).symm, h.bootId.symm⟩

/-- Two states say the same of a peer, and their devices, which have each peer once, answer the same to updates of
it. -/
structure Alike (l : Link) (k : PublicKey) (s t : LinkState) : Prop where
  same : Same k s t
  takes : s.Takes l k ↔ t.Takes l k
  distinct : (s.device.peers.map DevicePeer.publicKey).Nodup
  distinct' : (t.device.peers.map DevicePeer.publicKey).Nodup

namespace Alike

lemma advance (h : Alike l k s t) (hs : Same k s s') (hsu : s.UpdatedBy P s') (ht : Same k t t')
    (htu : t.UpdatedBy P t') : Alike l k s' t' where
  same := hs.symm.trans (h.same.trans ht)
  takes := hsu.takes_iff.trans (h.takes.trans htu.takes_iff.symm)
  distinct := hsu.nodup h.distinct
  distinct' := htu.nodup h.distinct'

lemma of_same (h : Alike l k s t) (hsame : Same k s' t') (hsu : s.UpdatedBy P s') (htu : t.UpdatedBy P t') :
    Alike l k s' t' :=
  ⟨hsame, hsu.takes_iff.trans (h.takes.trans htu.takes_iff.symm), hsu.nodup h.distinct, htu.nodup h.distinct'⟩

lemma of_device_eq (h : Alike l k s t) (hsame : Same k s' t') (hs : s'.device = s.device)
    (ht : t'.device = t.device) : Alike l k s' t' :=
  h.of_same (P := fun _ => True) hsame (.of_device_eq hs) (.of_device_eq ht)

lemma foldl {α : Type} {xs : List α} {f : LinkState → α → LinkState}
    (hf : ∀ x ∈ xs, ∀ s t, Alike l k s t → Alike l k (f s x) (f t x)) (h : Alike l k s t) :
    Alike l k (xs.foldl f s) (xs.foldl f t) := by
  induction xs generalizing s t with
  | nil => exact h
  | cons x xs ih => exact ih (fun y hy => hf y (by simp [hy])) (hf x (by simp) s t h)

lemma configure {u : PeerUpdate} (hu : u.publicKey = k) (h : Alike l k s t) :
    (l.configure s u).1 = (l.configure t u).1 ∧ Alike l k (l.configure s u).2 (l.configure t u).2 := by
  subst hu
  by_cases htakes : s.Takes l u.publicKey
  · have hsame : Same u.publicKey { s with device := s.device.make u, calls := s.calls ++ [[u]] }
        { t with device := t.device.make u, calls := t.calls ++ [[u]] } := by
      refine ⟨?_, h.same.history, h.same.knows, h.same.bootId⟩
      calc (t.device.make u).state.peer? u.publicKey
          = DevicePeer.entryAfter u (t.device.state.peer? u.publicKey) :=
            DevicePeer.find?_applyTo_self h.distinct'
        _ = DevicePeer.entryAfter u (s.device.state.peer? u.publicKey) := by rw [h.same.entry]
        _ = (s.device.make u).state.peer? u.publicKey := (DevicePeer.find?_applyTo_self h.distinct).symm
    rw [Link.configure_of_takes htakes, Link.configure_of_takes (h.takes.mp htakes)]
    exact ⟨rfl, h.of_same (P := fun _ => True) hsame ⟨[u], rfl, by simp⟩ ⟨[u], rfl, by simp⟩⟩
  · have hsame : Same u.publicKey { s with calls := s.calls ++ [[u]] } { t with calls := t.calls ++ [[u]] } :=
      ⟨h.same.entry, h.same.history, h.same.knows, h.same.bootId⟩
    rw [Link.configure_of_refuses htakes, Link.configure_of_refuses fun ht => htakes (h.takes.mpr ht)]
    exact ⟨rfl, h.of_device_eq hsame rfl rfl⟩

end Alike

end LinkState

namespace Reconcile
variable {l : Link} {peers : List DevicePeer} {chunk : FactChunk} {s t : LinkState} {p : DevicePeer}
  {k : PublicKey}

lemma netsChange_spec (l : Link) (p : DevicePeer) (facts : List Fact) (allow works reached : Bool) :
    (netsChange l p facts allow works reached).publicKey = p.publicKey ∧
      (netsChange l p facts allow works reached).remove = false ∧
      (netsChange l p facts allow works reached).updateOnly = true ∧
      (netsChange l p facts allow works reached).endpoint = none := by
  unfold netsChange
  dsimp only
  split_ifs <;> exact ⟨rfl, rfl, rfl, rfl⟩

def configuration (l : Link) (p : DevicePeer) (facts : List Fact) (allow : Bool) (now : Instant)
    (s : LinkState) : PeerUpdate :=
  { netsUpdate l s p facts allow now with
    endpoint := (rotate l p facts now s).1.filter fun e => p.endpoint ≠ some e }

lemma configurePeer_eq (l : Link) (p : DevicePeer) (facts : List Fact) (allow : Bool) (now : Instant)
    (s : LinkState) : configurePeer l p facts allow now s =
      apply l (configuration l p facts allow now s) (rotate l p facts now s).2 := rfl

lemma configuration_configures (l : Link) (p : DevicePeer) (facts : List Fact) (allow : Bool) (now : Instant)
    (s : LinkState) : Configures l p facts (configuration l p facts allow now s) := by
  have hn := netsUpdate_configures l s p facts allow now
  obtain ⟨-, he⟩ := rotate_spec l p facts now s
  exact ⟨hn.publicKey, hn.remove, hn.updateOnly, hn.nets, fun e h => he e (Option.eq_some_of_filter_eq_some h)⟩

lemma isHealthy_congr (h : s.Same k t) : t.states.isHealthy k = s.states.isHealthy k := by
  rw [PeerStates.isHealthy, PeerStates.isHealthy, h.history]

lemma peerAlive_congr (h : s.Same k t) (now : Instant) (margin : Span) :
    t.knowledge.peerAlive k now margin = s.knowledge.peerAlive k now margin := by
  simp only [Knowledge.peerAlive, Knowledge.aliveUntil?, h.knows]

lemma netsUpdate_congr (h : s.Same p.publicKey t) (facts : List Fact) (allow : Bool) (now : Instant) :
    netsUpdate l t p facts allow now = netsUpdate l s p facts allow now := by
  simp only [netsUpdate, isReached, isHealthy_congr h, peerAlive_congr h]

lemma timeForNextEndpoint_congr (h : s.Same k t) (now : Instant) :
    t.states.timeForNextEndpoint k now = s.states.timeForNextEndpoint k now := by
  rw [PeerStates.timeForNextEndpoint, PeerStates.timeForNextEndpoint, h.history]

lemma nextEndpoint_congr (h : s.Same k t) (candidates : List SocketAddr) (now : Instant) :
    (t.states.nextEndpoint k candidates now).1 = (s.states.nextEndpoint k candidates now).1 ∧
      LinkState.Same k { s with states := (s.states.nextEndpoint k candidates now).2 }
        { t with states := (t.states.nextEndpoint k candidates now).2 } := by
  have hget : t.states.get k = s.states.get k := by rw [PeerStates.get, PeerStates.get, h.history]
  unfold PeerStates.nextEndpoint
  rw [hget]
  exact ⟨rfl, h.entry, by simp [Table.find?_insert], h.knows, h.bootId⟩

lemma forcePing_congr (h : s.Same k t) (self : PublicKey) :
    LinkState.Same k { s with knowledge := (s.knowledge.forcePing self k).2 }
      { t with knowledge := (t.knowledge.forcePing self k).2 } := by
  refine ⟨h.entry, h.history, fun key => ?_, h.bootId⟩
  change (t.knowledge.entries.erase _).find? (key, k) = (s.knowledge.entries.erase _).find? (key, k)
  rw [Table.find?_erase, Table.find?_erase]
  exact congrArg (ite _ none) (h.knows key)

lemma rotate_congr (h : s.Same p.publicKey t) (facts : List Fact) (now : Instant) :
    (rotate l p facts now t).1 = (rotate l p facts now s).1 ∧
      (rotate l p facts now s).2.Same p.publicKey (rotate l p facts now t).2 := by
  obtain ⟨hnext, hstates⟩ := nextEndpoint_congr h (endpointCandidates l p.publicKey facts) now
  unfold rotate
  dsimp only
  rw [isHealthy_congr h, timeForNextEndpoint_congr h]
  split_ifs
  · cases hs : s.states.nextEndpoint p.publicKey (endpointCandidates l p.publicKey facts) now with
    | mk next states =>
      cases ht : t.states.nextEndpoint p.publicKey (endpointCandidates l p.publicKey facts) now with
      | mk next' states' =>
        rw [hs, ht] at hnext hstates
        obtain rfl : next' = next := hnext
        cases next' with
        | none => exact ⟨rfl, hstates⟩
        | some e => exact ⟨rfl, forcePing_congr hstates l.self⟩
  · exact ⟨rfl, h⟩

lemma configuration_congr (h : s.Same p.publicKey t) (facts : List Fact) (allow : Bool) (now : Instant) :
    configuration l p facts allow now t = configuration l p facts allow now s := by
  rw [configuration, configuration, netsUpdate_congr h, (rotate_congr h facts now).1]

lemma alike_apply {u : PeerUpdate} (h : s.Alike l u.publicKey t) :
    (apply l u s).Alike l u.publicKey (apply l u t) := by
  unfold apply
  split_ifs
  · exact h
  · exact (h.configure rfl).2

lemma alike_configurePeer (p : DevicePeer) (facts : List Fact) (allow : Bool) (now : Instant)
    (h : s.Alike l k t) :
    (configurePeer l p facts allow now s).Alike l k (configurePeer l p facts allow now t) := by
  have hupdated : ∀ r : LinkState, r.UpdatedBy (fun _ => True) (configurePeer l p facts allow now r) :=
    fun r => updatedBy_configurePeer (fun _ _ => trivial) allow now r
  by_cases hk : p.publicKey = k
  · subst hk
    have hkey := (configuration_configures l p facts allow now s).publicKey
    have hrotated : (rotate l p facts now s).2.Alike l p.publicKey (rotate l p facts now t).2 :=
      h.of_device_eq (rotate_congr h.same facts now).2 (rotate_spec l p facts now s).1 (rotate_spec l p facts now t).1
    rw [configurePeer_eq, configurePeer_eq, configuration_congr h.same, ← hkey]
    exact alike_apply (hkey.symm ▸ hrotated)
  · exact h.advance (same_configurePeer hk facts allow now s) (hupdated s) (same_configurePeer hk facts allow now t)
      (hupdated t)

lemma alike_addition (j : PublicKey) (h : s.Alike l k t) :
    (l.configure s (addition j)).2.Alike l k (l.configure t (addition j)).2 := by
  by_cases hj : j = k
  · exact (h.configure (u := addition j) hj).2
  · exact h.advance (same_addition hj s) (.configure (P := fun _ => True) l s trivial) (same_addition hj t)
      (.configure l t trivial)

lemma updatedBy_removePeer (s : LinkState) (j : PublicKey) : s.UpdatedBy (fun _ => True) (removePeer l s j) :=
  (LinkState.UpdatedBy.configure (P := fun _ => True) l s trivial).trans (.of_device_eq (device_removePeer l s j))

lemma alike_removePeer (j : PublicKey) (h : s.Alike l k t) : (removePeer l s j).Alike l k (removePeer l t j) := by
  by_cases hj : j = k
  · subst hj
    refine h.of_same ?_ (updatedBy_removePeer s j) (updatedBy_removePeer t j)
    obtain ⟨hanswer, hnext⟩ := h.configure (u := removal j) rfl
    unfold removePeer
    cases hs : l.configure s (removal j) with
    | mk answer s' =>
      cases ht : l.configure t (removal j) with
      | mk answer' t' =>
        rw [hs, ht] at hanswer hnext
        obtain rfl : answer = answer' := hanswer
        obtain ⟨hentry, hhistory, hknows, hboot⟩ : s'.Same j t' := hnext.same
        cases answer with
        | false => exact ⟨hentry, hhistory, hknows, hboot⟩
        | true =>
          refine ⟨hentry, ?_, fun key => ?_, ?_⟩
          · change (t'.states.erase j).find? j = (s'.states.erase j).find? j
            rw [Table.find?_erase, Table.find?_erase, if_pos rfl, if_pos rfl]
          · change (t'.knowledge.entries.filter _).find? (key, j) = (s'.knowledge.entries.filter _).find? (key, j)
            rw [Table.find?_filter, Table.find?_filter]
            exact congrArg (Option.filter _) (hknows key)
          · change (t'.knowledge.bootIds.erase j).find? j = (s'.knowledge.bootIds.erase j).find? j
            rw [Table.find?_erase, Table.find?_erase, if_pos rfl, if_pos rfl]
  · exact h.advance (same_removePeer hj s) (updatedBy_removePeer s j) (same_removePeer hj t)
      (updatedBy_removePeer t j)

lemma same_configurePeers_of_valid (hd : (s.device.peers.map DevicePeer.publicKey).Nodup) (hp : p ∈ localPeers peers)
    (hv : p.publicKey ∈ (plan l peers chunk.facts).valid) (hself : p.publicKey ≠ l.self) (allow : Bool) :
    (configurePeer l p (factsAbout p.publicKey chunk.facts) allow chunk.now s).Same p.publicKey
      (configurePeers l (plan l peers chunk.facts) chunk.facts allow chunk.now s) := by
  obtain ⟨t, hsame, hmade, hconfigured⟩ := configurePeers_at hp hv hself allow s
  have halike : s.Alike l p.publicKey t := ⟨hsame, hmade.takes_iff.symm, hd, hmade.nodup hd⟩
  exact (alike_configurePeer p (factsAbout p.publicKey chunk.facts) allow chunk.now halike).same.trans hconfigured

/-- What becomes of a valid peer in a pass is its own configuration from what the pass has seen. -/
lemma same_passOn_of_valid (hd : (s.device.peers.map DevicePeer.publicKey).Nodup) (hp : p ∈ s.device.peers)
    (hv : p.publicKey ∈ (plan l s.device.peers chunk.facts).valid) (hself : p.publicKey ≠ l.self) :
    (configurePeer l p (factsAbout p.publicKey chunk.facts) (l.allowDeconfigure chunk.router) chunk.now
      (seen l s.device.peers chunk s)).Same p.publicKey (passOn l s.device.peers chunk s) :=
  (same_configurePeers_of_valid (s := seen l s.device.peers chunk s) hd (mem_localPeers_of_mem hd hp) hv hself
    _).trans (same_afterConfiguring hp hv s)

def tended (l : Link) (peers : List DevicePeer) (facts : List Fact) : List DevicePeer :=
  let plan := plan l peers facts
  plan.localPeers.filter fun p => p.publicKey ∈ plan.valid && p.publicKey ≠ l.self

lemma mem_tended {facts : List Fact} : p ∈ tended l peers facts ↔
    p ∈ localPeers peers ∧ p.publicKey ∈ (plan l peers facts).valid ∧ p.publicKey ≠ l.self := by
  simp [tended, plan]

lemma nodup_tended (l : Link) (peers : List DevicePeer) (facts : List Fact) :
    ((tended l peers facts).map DevicePeer.publicKey).Nodup :=
  (nodup_localPeers peers).sublist (List.filter_sublist.map _)

lemma same_configurePeers_of_ne {facts : List Fact} (h : ∀ p ∈ tended l peers facts, p.publicKey ≠ k) (allow : Bool)
    (now : Instant) (s : LinkState) : s.Same k (configurePeers l (plan l peers facts) facts allow now s) :=
  .foldl (fun p hp t => same_configurePeer (h p hp) _ _ _ t) s

/-- A peer that is not to be configured a pass leaves as it has seen it, up to where it removes peers. -/
lemma same_beforeRemovals_of_out (hout : k ∉ (plan l peers chunk.facts).valid ∨ k = l.self) (s : LinkState) :
    (seen l peers chunk s).Same k (beforeRemovals l peers chunk s) := by
  have hconfigured : (seen l peers chunk s).Same k (configurePeers l (plan l peers chunk.facts) chunk.facts
      (l.allowDeconfigure chunk.router) chunk.now (seen l peers chunk s)) := by
    refine same_configurePeers_of_ne (fun p hp => ?_) _ _ _
    obtain ⟨-, hvalid, hself⟩ := mem_tended.mp hp
    rintro rfl
    exact hout.elim (absurd hvalid) (absurd · hself)
  unfold beforeRemovals
  dsimp only
  split_ifs
  · refine hconfigured.trans (same_addPeers (fun hk => ?_) _)
    obtain ⟨-, hk⟩ := List.mem_filter.mp hk
    simp only [Bool.and_eq_true, decide_eq_true_eq] at hk
    exact hout.elim (absurd hk.1.1.2) (absurd · hk.1.1.1)
  · exact hconfigured

def conclude (l : Link) (peers : List DevicePeer) (chunk : FactChunk) (s : LinkState) : LinkState :=
  let plan := plan l peers chunk.facts
  let s := if l.config.managePeers && l.allowDeconfigure chunk.router then addPeers l plan s else s
  if l.config.managePeers then deletePeers l peers plan chunk s else s

lemma passOn_eq_conclude (l : Link) (peers : List DevicePeer) (chunk : FactChunk) (s : LinkState) :
    passOn l peers chunk s = conclude l peers chunk (configurePeers l (plan l peers chunk.facts) chunk.facts
      (l.allowDeconfigure chunk.router) chunk.now (seen l peers chunk s)) := rfl

lemma isComplete_congr {a b : PeerState} (h : a.evidence = b.evidence) (now : Instant) :
    isComplete a now = isComplete b now := by
  simp only [PeerState.evidence, Prod.mk.injEq] at h
  obtain ⟨hhealthy, hsince, huntil, -⟩ := h
  unfold isComplete PeerState.aliveFor PeerState.stillAliveFor
  rw [hhealthy, hsince, huntil]

lemma mayRemove_congr (h : ∀ k, s.states.evidence? k = t.states.evidence? k) :
    mayRemove l peers chunk s = mayRemove l peers chunk t := by
  have hcomplete : ∀ k, (s.states.find? k).any (fun st => isComplete st chunk.now) =
      (t.states.find? k).any fun st => isComplete st chunk.now := by
    intro k
    have hk := h k
    unfold PeerStates.evidence? at hk
    cases hs : s.states.find? k with
    | none =>
      rw [hs] at hk
      rw [Option.map_eq_none_iff.mp hk.symm]
    | some a =>
      rw [hs] at hk
      obtain ⟨b, hb, hsame⟩ := Option.map_eq_some_iff.mp hk.symm
      rw [hb]
      exact isComplete_congr hsame.symm chunk.now
  unfold mayRemove
  rw [funext hcomplete]

/-- States that are alike for a peer, and agree on whether to remove any, are alike when a pass ends. -/
lemma alike_conclude (h : s.Alike l k t) (he : ∀ j, s.states.evidence? j = t.states.evidence? j) :
    (conclude l peers chunk s).Alike l k (conclude l peers chunk t) := by
  have hadded : (addPeers l (plan l peers chunk.facts) s).Alike l k (addPeers l (plan l peers chunk.facts) t) :=
    h.foldl fun j _ _ _ => alike_addition j
  have hdeleted : ∀ {s t : LinkState}, s.Alike l k t → (∀ j, s.states.evidence? j = t.states.evidence? j) →
      (deletePeers l peers (plan l peers chunk.facts) chunk s).Alike l k
        (deletePeers l peers (plan l peers chunk.facts) chunk t) := by
    intro s t h he
    unfold deletePeers
    rw [mayRemove_congr he]
    split_ifs
    · exact h.foldl fun j _ _ _ => alike_removePeer j
    · exact h
  unfold conclude
  dsimp only
  split_ifs
  · exact hdeleted hadded (by simpa only [states_addPeers] using he)
  · exact hdeleted h he
  · exact hadded
  · exact h

/-- What becomes of a peer in a pass follows from what the pass has seen of it, apart from removals. -/
lemma alike_passOn (h : (seen l peers chunk s).Alike l k (seen l peers chunk t))
    (he : ∀ j, (seen l peers chunk s).states.evidence? j = (seen l peers chunk t).states.evidence? j) :
    (passOn l peers chunk s).Alike l k (passOn l peers chunk t) := by
  rw [passOn_eq_conclude, passOn_eq_conclude]
  refine alike_conclude (h.foldl fun p _ _ _ => alike_configurePeer p _ _ _) fun j => ?_
  rw [evidence_configurePeers, evidence_configurePeers, he]

end Reconcile

end MeshFacts
