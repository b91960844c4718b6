import MeshFacts.Proofs.PeerFrames

/-! # Peer histories
What the history of a peer says of it goes back to the passes that saw the peer: whether it works to the last of
them, how long it has been alive to the one where its present streak began. A pass that does not see the peer
leaves its history as it is, so a history may be older than it looks. -/
namespace MeshFacts

namespace PeerState
variable {old new s : PeerState} {p : DevicePeer} {told : Option Instant} {id : Option Uuid} {now : Instant}

/-- The part of a history that only observations change. -/
def evidence (s : PeerState) : Bool × Option Instant × Option Instant × Option Uuid :=
  (s.healthy, s.aliveSince, s.aliveUntil, s.lastBootId)

lemma evidence_nextEndpoint (s : PeerState) (candidates : List SocketAddr) (now : Instant) :
    (s.nextEndpoint candidates now).2.evidence = s.evidence := by
  unfold nextEndpoint
  split <;> rfl

structure Observes (old : PeerState) (told : Option Instant) (id : Option Uuid) (now : Instant)
    (new : PeerState) : Prop where
  lasting : ∀ t, new.aliveUntil = some t → told = some t
  bootId : new.lastBootId = (id <|> old.lastBootId)
  streak : ∀ t, new.aliveSince = some t → (∃ e, told = some e ∧ now < e) ∧
    (t = now ∨ old.aliveSince = some t ∧ ∀ i j, id = some i → old.lastBootId = some j → i = j)

lemma observes_update (s : PeerState) (p : DevicePeer) (told : Option Instant) (id : Option Uuid)
    (now : Instant) : Observes s told id now (s.update p told id now) := by
  refine ⟨?_, rfl, ?_⟩
  · intro t ht
    exact Option.eq_some_of_filter_eq_some ht
  · intro t ht
    simp only [update] at ht
    split_ifs at ht with hdead hfresh
    all_goals
      obtain ⟨e, he⟩ : ∃ e, (told.filter fun e => now < e) = some e :=
        Option.ne_none_iff_exists'.mp (mt Option.isNone_iff_eq_none.mpr hdead)
      obtain ⟨htold, hlater⟩ := Option.filter_eq_some_iff.mp he
      refine ⟨⟨e, htold, by simpa using hlater⟩, ?_⟩
    · exact .inl (Option.some.inj ht).symm
    · refine .inr ⟨ht, ?_⟩
      rintro i j rfl hj
      simpa [ht, hj] using hfresh

lemma Observes.update (h : Observes old told id now new) (p : DevicePeer) :
    Observes old told id now (new.update p told id now) := by
  obtain ⟨hlasting, hbootId, hstreak⟩ := observes_update new p told id now
  refine ⟨hlasting, ?_, ?_⟩
  · rw [hbootId, h.bootId]
    cases id <;> rfl
  · intro t ht
    obtain ⟨halive, rfl | ⟨hsince, -⟩⟩ := hstreak t ht
    · exact ⟨halive, .inl rfl⟩
    · exact h.streak t hsince

lemma observes_foldl {first st : PeerState} {ps : List DevicePeer} (hfirst : Observes old told id now first)
    (h : ps.foldl (fun s p => some ((s.getD {}).update p told id now)) (some first) = some st) :
    Observes old told id now st := by
  induction ps generalizing first with
  | nil => exact Option.some.inj h ▸ hfirst
  | cons p ps ih => exact ih (hfirst.update p) h

end PeerState

def PeerStates.evidence? (t : PeerStates) (k : PublicKey) :
    Option (Bool × Option Instant × Option Instant × Option Uuid) :=
  (t.find? k).map PeerState.evidence

namespace Reconcile
variable {l : Link} {peers : List DevicePeer} {chunk : FactChunk} {s : LinkState} {p : DevicePeer}
  {k : PublicKey} {now : Instant} {st : PeerState}

lemma observes_of_sightings (hseen : sightings l peers k ≠ [])
    (h : (observe l peers now s).states.find? k = some st) :
    (s.states.get k).Observes (s.knowledge.aliveUntil? k) (s.knowledge.bootId? k) now st := by
  rw [find?_observe] at h
  obtain ⟨p, ps, hps⟩ := List.exists_cons_of_ne_nil hseen
  rw [hps, List.foldl_cons] at h
  exact PeerState.observes_foldl (PeerState.observes_update _ p _ _ now) h

lemma evidence_rotate (p : DevicePeer) (facts : List Fact) (now : Instant) (s : LinkState) (k : PublicKey) :
    (rotate l p facts now s).2.states.evidence? k = s.states.evidence? k := by
  unfold PeerStates.evidence?
  by_cases hk : p.publicKey = k
  · subst hk
    unfold rotate PeerStates.nextEndpoint
    dsimp only
    split
    · rename_i htime
      simp only [PeerStates.timeForNextEndpoint, Bool.and_eq_true, Option.any_eq_true] at htime
      obtain ⟨-, st, hst, -⟩ := htime
      have hnext := PeerState.evidence_nextEndpoint st (endpointCandidates l p.publicKey facts) now
      split
      all_goals
        rename_i he
        obtain ⟨-, rfl⟩ := Prod.mk.inj he
        simp [Table.find?_insert, PeerStates.get, hst, hnext]
    · rfl
  · rw [(same_rotate hk facts now s).history]

lemma evidence_configurePeer (p : DevicePeer) (facts : List Fact) (allow : Bool) (now : Instant) (s : LinkState)
    (k : PublicKey) :
    (configurePeer l p facts allow now s).states.evidence? k = s.states.evidence? k := by
  have hrotate := evidence_rotate (l := l) p facts now s k
  unfold configurePeer apply
  dsimp only
  split_ifs
  · exact hrotate
  · rw [Link.configure_snd]
    exact hrotate

lemma evidence_configurePeers (plan : Plan) (facts : List Fact) (allow : Bool) (now : Instant) (s : LinkState)
    (k : PublicKey) :
    (configurePeers l plan facts allow now s).states.evidence? k = s.states.evidence? k := by
  refine List.foldlRecOn (motive := fun t : LinkState => t.states.evidence? k = s.states.evidence? k) _ _ rfl
    fun t ht p hp => ?_
  rw [evidence_configurePeer, ht]

lemma states_addPeers (plan : Plan) (s : LinkState) : (addPeers l plan s).states = s.states := by
  refine List.foldlRecOn (motive := fun r : LinkState => r.states = s.states) _ _ rfl fun r hr j hj => ?_
  rw [Link.configure_snd, hr]

lemma evidence_beforeRemovals (l : Link) (peers : List DevicePeer) (chunk : FactChunk) (s : LinkState)
    (k : PublicKey) :
    (beforeRemovals l peers chunk s).states.evidence? k = (seen l peers chunk s).states.evidence? k := by
  unfold beforeRemovals
  dsimp only
  split_ifs
  · rw [states_addPeers, evidence_configurePeers]
  · exact evidence_configurePeers _ _ _ _ _ k

lemma find?_of_removePeer {j : PublicKey} (h : (removePeer l s j).states.find? k = some st) :
    s.states.find? k = some st := by
  have hstates : (l.configure s (removal j)).2.states = s.states := by rw [Link.configure_snd]
  unfold removePeer at h
  split at h
  · rename_i t ht
    rw [ht] at hstates
    rw [Table.find?_erase, hstates] at h
    split_ifs at h
    exact h
  · rename_i t ht
    rw [ht] at hstates
    rwa [← hstates]

lemma find?_of_deletePeers {plan : Plan} (h : (deletePeers l peers plan chunk s).states.find? k = some st) :
    s.states.find? k = some st := by
  unfold deletePeers at h
  split_ifs at h
  · revert h
    exact List.foldlRecOn (motive := fun t : LinkState => t.states.find? k = some st → s.states.find? k = some st) _ _ id
      fun t ht j hj h => ht (find?_of_removePeer h)
  · exact h

/-- What a history says after a pass, and before its removals, the pass has observed or was there before. -/
lemma evidence_of_beforeRemovals (h : (beforeRemovals l peers chunk s).states.find? k = some st) :
    ∃ seen, (observe l peers chunk.now s).states.find? k = some seen ∧ seen.evidence = st.evidence := by
  have hevidence := evidence_beforeRemovals l peers chunk s k
  rw [PeerStates.evidence?, PeerStates.evidence?, h, seen, find?_retain] at hevidence
  obtain ⟨seen, hseen, hsame⟩ := Option.map_eq_some_iff.mp hevidence.symm
  exact ⟨seen, Option.eq_some_of_filter_eq_some hseen, hsame⟩

lemma evidence_of_passOn (h : (passOn l peers chunk s).states.find? k = some st) :
    ∃ seen, (observe l peers chunk.now s).states.find? k = some seen ∧ seen.evidence = st.evidence := by
  rw [passOn_eq] at h
  split_ifs at h
  · exact evidence_of_beforeRemovals (find?_of_deletePeers h)
  · exact evidence_of_beforeRemovals h

end Reconcile

end MeshFacts
