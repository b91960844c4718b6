import MeshFacts.Proofs.PassRequests

/-! # Moves that the device refuses
Moving a peer to another endpoint is decided and put on record before the device is asked for it. Where the device
refuses, it stays as it was, but the record stands: the endpoint counts as tried from this instant on, and the peer
counts as one that has not been told that this node is alive. -/
namespace MeshFacts

namespace PeerState
variable {s : PeerState} {a b e : SocketAddr} {candidates : List SocketAddr} {now : Instant}

def lastUse (s : PeerState) (e : SocketAddr) : WithBot Instant := (s.lastUsed.find? e).elim ⊥ (↑·)

lemma unusedLonger_iff : s.unusedLonger a b = true ↔ s.lastUse a < s.lastUse b := by
  unfold unusedLonger lastUse
  cases s.lastUsed.find? a <;> cases s.lastUsed.find? b <;> simp

lemma leastRecent?_eq_argmin (s : PeerState) (candidates : List SocketAddr) :
    s.leastRecent? candidates = candidates.argmin s.lastUse := by
  have hstep : ∀ best c, some (if s.unusedLonger c best then c else best) =
      List.argAux (fun b c => s.lastUse b < s.lastUse c) (some best) c := by
    intro best c
    by_cases h : s.unusedLonger c best = true
    · simp [List.argAux, h, unusedLonger_iff.mp h]
    · have hle : ¬ s.lastUse c < s.lastUse best := fun hlt => h (unusedLonger_iff.mpr hlt)
      simp [List.argAux, h, hle]
  have hfold : ∀ (cs : List SocketAddr) (best : SocketAddr),
      some (cs.foldl (fun best c => if s.unusedLonger c best then c else best) best) =
        cs.foldl (List.argAux fun b c => s.lastUse b < s.lastUse c) (some best) := by
    intro cs
    induction cs with
    | nil => exact fun _ => rfl
    | cons c cs ih =>
      intro best
      rw [List.foldl_cons, List.foldl_cons, ih, hstep]
  cases candidates with
  | nil => rfl
  | cons e es => exact hfold es e

def moved (s : PeerState) (e : SocketAddr) (now : Instant) : PeerState :=
  { s with lastUsed := s.lastUsed.insert e now, lastRotation := some now }

lemma lastUse_moved (s : PeerState) (e c : SocketAddr) (now : Instant) :
    (s.moved e now).lastUse c = if c = e then (now : WithBot Instant) else s.lastUse c := by
  unfold lastUse moved
  rw [Table.find?_insert]
  split_ifs <;> rfl

lemma le_lastUse_iff : (now : WithBot Instant) ≤ s.lastUse e ↔ ∃ u, s.lastUsed.find? e = some u ∧ now ≤ u := by
  unfold lastUse
  cases s.lastUsed.find? e <;> simp

/-- An endpoint just moved to is chosen again only where no other has been left unused as long. -/
lemma leastRecent?_moved_iff (he : e ∈ candidates) :
    (s.moved e now).leastRecent? candidates = some e ↔
      ∀ c ∈ candidates, c ≠ e → ∃ u, s.lastUsed.find? c = some u ∧ now ≤ u ∧
        (u = now → candidates.idxOf e ≤ candidates.idxOf c) := by
  have hself : (s.moved e now).lastUse e = now := by rw [lastUse_moved, if_pos rfl]
  rw [leastRecent?_eq_argmin, List.argmin_eq_some_iff, hself]
  constructor
  · rintro ⟨-, hle, hplace⟩ c hc hne
    have hother : (s.moved e now).lastUse c = s.lastUse c := by rw [lastUse_moved, if_neg hne]
    obtain ⟨u, hu, hnow⟩ := le_lastUse_iff.mp (hother ▸ hle c hc)
    refine ⟨u, hu, hnow, fun heq => hplace c hc ?_⟩
    rw [hother, lastUse, hu, heq]
    exact le_rfl
  · intro h
    refine ⟨he, fun c hc => ?_, fun c hc hle => ?_⟩
    · by_cases hne : c = e
      · rw [hne, hself]
      · obtain ⟨u, hu, hnow, -⟩ := h c hc hne
        rw [lastUse_moved, if_neg hne]
        exact le_lastUse_iff.mpr ⟨u, hu, hnow⟩
    · by_cases hne : c = e
      · rw [hne]
      · obtain ⟨u, hu, hnow, hplace⟩ := h c hc hne
        rw [lastUse_moved, if_neg hne, lastUse, hu] at hle
        exact hplace (le_antisymm (WithBot.coe_le_coe.mp hle) hnow)

lemma timeForNextEndpoint_iff : s.timeForNextEndpoint now = true ↔ s.healthy = false ∧
    (∀ t, s.lastHandshake = some t → t + Clock.endpointAttempt ≤ now) ∧
      ∀ t, s.lastRotation = some t → t + Clock.endpointAttempt ≤ now := by
  have hle : ∀ t, Clock.endpointAttempt ≤ Clock.since now t ↔ t + Clock.endpointAttempt ≤ now :=
    fun t => Clock.le_since_iff (by decide)
  simp only [timeForNextEndpoint, Bool.and_eq_true, Bool.not_eq_true', hle]
  refine and_congr_right fun _ => ?_
  cases s.lastHandshake with
  | none => cases s.lastRotation <;> simp [later]
  | some a =>
    cases s.lastRotation with
    | none => simp [later]
    | some b =>
      simp only [later, Option.all_some, decide_eq_true_eq, Option.some.injEq, forall_eq']
      unfold Instant at *
      split_ifs <;> omega

lemma timeForNextEndpoint_of_lastRotation {at₀ : Instant} (h : s.lastRotation = some at₀)
    (hnow : now < at₀ + Clock.endpointAttempt) : s.timeForNextEndpoint now = false := by
  rw [Bool.eq_false_iff]
  intro hdue
  exact Int.not_le.mpr hnow ((timeForNextEndpoint_iff.mp hdue).2.2 at₀ h)

end PeerState

namespace Reconcile
variable {l : Link} {p q : DevicePeer} {facts : List Fact} {allow : Bool} {now : Instant} {s r : LinkState}
  {e : SocketAddr}

/-- What a rotation that chooses an endpoint has found of the peer, and what it puts on record. -/
structure Moves (l : Link) (p : DevicePeer) (facts : List Fact) (now : Instant) (s : LinkState) (e : SocketAddr)
    (st : PeerState) : Prop where
  history : s.states.find? p.publicKey = some st
  due : st.timeForNextEndpoint now = true
  next : st.leastRecent? (endpointCandidates l p.publicKey facts) = some e
  recorded : (rotate l p facts now s).2 =
    { s with
      states := s.states.insert p.publicKey (st.moved e now)
      knowledge := (s.knowledge.forcePing l.self p.publicKey).2 }

lemma rotate_of_due (l : Link) (facts : List Fact) {st : PeerState} (hst : s.states.find? p.publicKey = some st)
    (hdue : st.timeForNextEndpoint now = true) :
    rotate l p facts now s = match st.leastRecent? (endpointCandidates l p.publicKey facts) with
      | none => (none, { s with states := s.states.insert p.publicKey st })
      | some e => (some e, { s with
          states := s.states.insert p.publicKey (st.moved e now)
          knowledge := (s.knowledge.forcePing l.self p.publicKey).2 }) := by
  have hget : s.states.get p.publicKey = st := by simp [PeerStates.get, hst]
  have hsick : st.healthy = false := by
    simp only [PeerState.timeForNextEndpoint, Bool.and_eq_true, Bool.not_eq_true'] at hdue
    exact hdue.1
  have hboth : (!s.states.isHealthy p.publicKey && s.states.timeForNextEndpoint p.publicKey now) = true := by
    simp [PeerStates.isHealthy, PeerStates.timeForNextEndpoint, hst, hsick, hdue]
  unfold rotate
  dsimp only
  rw [if_pos hboth, PeerStates.nextEndpoint, hget, PeerState.nextEndpoint]
  cases st.leastRecent? (endpointCandidates l p.publicKey facts) <;> rfl

lemma moves_of_rotate (h : (rotate l p facts now s).1 = some e) : ∃ st, Moves l p facts now s e st := by
  obtain ⟨st, hst, hdue⟩ : ∃ st, s.states.find? p.publicKey = some st ∧ st.timeForNextEndpoint now = true := by
    unfold rotate at h
    dsimp only at h
    split_ifs at h with hdue
    simp only [Bool.and_eq_true, PeerStates.timeForNextEndpoint, Option.any_eq_true] at hdue
    exact hdue.2
  have hrotate := rotate_of_due l facts hst hdue
  cases hnext : st.leastRecent? (endpointCandidates l p.publicKey facts) with
  | none =>
    rw [hnext] at hrotate
    rw [hrotate] at h
    cases h
  | some best =>
    rw [hnext] at hrotate
    rw [hrotate] at h
    obtain rfl : best = e := Option.some.inj h
    exact ⟨st, hst, hdue, hnext, by rw [hrotate]⟩

lemma Moves.mem_candidates {st : PeerState} (h : Moves l p facts now s e st) :
    e ∈ endpointCandidates l p.publicKey facts := PeerState.mem_of_leastRecent? h.next

lemma configurePeer_of_refuses
    (hfail : (l.configure (rotate l p facts now s).2 (configuration l p facts allow now s)).1 = false) :
    ∃ calls, configurePeer l p facts allow now s = { (rotate l p facts now s).2 with calls := calls } := by
  have hrefuses : ¬ (rotate l p facts now s).2.Takes l (configuration l p facts allow now s).publicKey := by
    intro htakes
    rw [Link.configure_of_takes htakes] at hfail
    cases hfail
  rw [configurePeer_eq, apply, Link.configure_of_refuses hrefuses]
  split_ifs
  · exact ⟨_, rfl⟩
  · exact ⟨_, rfl⟩

lemma lastRotation_seen {peers : List DevicePeer} {chunk : FactChunk} {k : PublicKey} {st st' : PeerState}
    (h : r.states.find? k = some st) (h' : (seen l peers chunk r).states.find? k = some st') :
    st'.lastRotation = st.lastRotation := by
  rw [seen, find?_retain] at h'
  have hseen := Option.eq_some_of_filter_eq_some h'
  rw [find?_observe, h] at hseen
  clear h h'
  generalize sightings l peers k = seen at hseen
  induction seen generalizing st with
  | nil =>
    rw [List.foldl_nil] at hseen
    rw [Option.some.inj hseen]
  | cons q qs ih =>
    rw [List.foldl_cons] at hseen
    exact (ih hseen).trans rfl

lemma endpoint_change_of_lastRotation {peers : List DevicePeer} {chunk : FactChunk} {st : PeerState}
    (h : r.states.find? q.publicKey = some st) (hmoved : st.lastRotation = some now)
    (hchunk : chunk.now < now + Clock.endpointAttempt) : (change l peers chunk r q).endpoint = none := by
  have hnone : (rotate l q (factsAbout q.publicKey chunk.facts) chunk.now (seen l peers chunk r)).1 = none := by
    by_contra hsome
    obtain ⟨e, he⟩ := Option.ne_none_iff_exists'.mp hsome
    obtain ⟨st', hmoves⟩ := moves_of_rotate he
    have hlast := (lastRotation_seen h hmoves.history).trans hmoved
    have hdue := hmoves.due
    rw [PeerState.timeForNextEndpoint_of_lastRotation hlast hchunk] at hdue
    cases hdue
  rw [change, configuration, hnone]
  rfl

/-- A move that the device refuses uses up the peer's rotation: no pass asks for it, or for another, until an endpoint
has had its time, and the peer is no longer known to know that this node is alive. -/
theorem configurePeer_of_refused_move (he : (configuration l p facts allow now s).endpoint = some e)
    (hfail : (l.configure (rotate l p facts now s).2 (configuration l p facts allow now s)).1 = false) :
    let k := p.publicKey
    let candidates := endpointCandidates l k facts
    let t := configurePeer l p facts allow now s
    t.device = s.device ∧
      (∀ at', at' < now + Clock.endpointAttempt → t.states.timeForNextEndpoint k at' = false) ∧
      (∀ (r : LinkState) (peers : List DevicePeer) (chunk : FactChunk) (q : DevicePeer),
        r.states.find? k = t.states.find? k → q.publicKey = k → chunk.now < now + Clock.endpointAttempt →
          (change l peers chunk r q).endpoint = none) ∧
      (∀ at', (t.states.nextEndpoint k candidates at').1 = some e ↔
        ∀ c ∈ candidates, c ≠ e → ∃ u, (s.states.get k).lastUsed.find? c = some u ∧ now ≤ u ∧
          (u = now → candidates.idxOf e ≤ candidates.idxOf c)) ∧
      (∀ f : Fact, f.key = .alive l.self → ∀ margin, t.knowledge.peerKnows k f margin = false) ∧
      ∀ key j, (key, j) ≠ (FactKey.alive l.self, k) → t.knowledge.until? key j = s.knowledge.until? key j := by
  intro k candidates t
  obtain ⟨st, hmoves⟩ := moves_of_rotate (Option.eq_some_of_filter_eq_some he)
  obtain ⟨calls, hrefused⟩ := configurePeer_of_refuses hfail
  have ht : t = { s with
      states := s.states.insert k (st.moved e now)
      knowledge := (s.knowledge.forcePing l.self k).2
      calls := calls } := by
    rw [hmoves.recorded] at hrefused
    exact hrefused
  have hhistory : t.states.find? k = some (st.moved e now) := by
    rw [ht, Table.find?_insert, if_pos rfl]
  have hbefore : s.states.get k = st := by rw [PeerStates.get, hmoves.history, Option.getD_some]
  refine ⟨by rw [ht], fun at' hat => ?_, fun r peers chunk q hr hq hchunk => ?_, fun at' => ?_, fun f hf margin => ?_,
    fun key j hne => ?_⟩
  · rw [PeerStates.timeForNextEndpoint, hhistory, Option.any_some]
    exact PeerState.timeForNextEndpoint_of_lastRotation rfl hat
  · exact endpoint_change_of_lastRotation (hq ▸ hr.trans hhistory) rfl hchunk
  · have hget : t.states.get k = st.moved e now := by rw [PeerStates.get, hhistory, Option.getD_some]
    rw [hbefore, ← PeerState.leastRecent?_moved_iff hmoves.mem_candidates, PeerStates.nextEndpoint, hget,
      PeerState.nextEndpoint]
    cases (st.moved e now).leastRecent? candidates <;> rfl
  · have hnone : t.knowledge.until? f.key k = none := by
      rw [ht, hf]
      exact (Table.find?_erase _ _ _).trans (if_pos rfl)
    rw [Knowledge.peerKnows, hnone, Option.any_none]
  · rw [ht]
    exact (Table.find?_erase _ _ _).trans (if_neg hne)

/-- The device refuses the second of two endpoints. For a quarter of a minute there is no move, then the first is
next. -/
theorem configurePeer_of_refused_move_pair :
    let k : PublicKey := ⟨.ofNatLE 32 1⟩
    let first : SocketAddr := .v4 0xc0000201 51820
    let second : SocketAddr := .v4 0xc0000202 51820
    let l : Link :=
      { config := { iface := "wg0", peers := .ofList [(k, { endpoints := ["peer"] })] }, self := ⟨.ofNatLE 32 2⟩,
        bootId := .zero 16, started := 0, resolve := fun _ => [first, second] }
    let p : DevicePeer := { publicKey := k, endpoint := some first }
    let own : Fact := .alive l.self l.bootId 30000000000
    let s : LinkState :=
      { device := { state := ⟨"wg0", default, 51820, [p]⟩, failing := [k] }
        states := PeerStates.update .empty p none none 0
        knowledge := (Knowledge.empty.note own.key k own.expires).2 }
    let t := configurePeer l p [] true 0 s
    (configuration l p [] true 0 s).endpoint = some second ∧
      (l.configure (rotate l p [] 0 s).2 (configuration l p [] true 0 s)).1 = false ∧
      t.states.timeForNextEndpoint k 14000000000 = false ∧
      (t.states.nextEndpoint k (endpointCandidates l k []) 15000000000).1 ≠ some second ∧
      s.knowledge.peerKnows k own Clock.alivePeriod = true ∧ t.knowledge.peerKnows k own Clock.alivePeriod = false := by
  intro k first second l p own s t
  have hmove : (configuration l p [] true 0 s).endpoint = some second := by decide +kernel
  have hfail : (l.configure (rotate l p [] 0 s).2 (configuration l p [] true 0 s)).1 = false := by decide +kernel
  obtain ⟨-, htime, -, hnext, hknows, -⟩ := configurePeer_of_refused_move hmove hfail
  refine ⟨hmove, hfail, htime _ (by decide), fun hsecond => ?_, by decide +kernel, hknows own (by decide) _⟩
  obtain ⟨u, hu, -, hplace⟩ := (hnext _).mp hsecond first (by decide +kernel) (by decide +kernel)
  have huse : (s.states.get p.publicKey).lastUsed.find? first = some 0 := by decide +kernel
  obtain rfl : u = 0 := Option.some.inj (hu.symm.trans huse)
  exact absurd (hplace rfl) (by decide +kernel)

/-- A refused move is not left as it was for the next pass. -/
theorem refused_move_not_retried :
    ¬ ∀ (l : Link) (p : DevicePeer) (facts : List Fact) (allow : Bool) (now : Instant) (s : LinkState)
      (e : SocketAddr), (configuration l p facts allow now s).endpoint = some e →
      (l.configure (rotate l p facts now s).2 (configuration l p facts allow now s)).1 = false →
      let k := p.publicKey
      let t := configurePeer l p facts allow now s
      t.states.timeForNextEndpoint k now = true ∧
        (t.states.nextEndpoint k (endpointCandidates l k facts) now).1 = some e ∧
        ∀ f : Fact, f.key = .alive l.self → ∀ margin,
          t.knowledge.peerKnows k f margin = s.knowledge.peerKnows k f margin := by
  intro hall
  let k : PublicKey := ⟨.ofNatLE 32 1⟩
  let first : SocketAddr := .v4 0xc0000201 51820
  let second : SocketAddr := .v4 0xc0000202 51820
  let l : Link :=
    { config := { iface := "wg0", peers := .ofList [(k, { endpoints := ["peer"] })] }, self := ⟨.ofNatLE 32 2⟩,
      bootId := .zero 16, started := 0, resolve := fun _ => [first, second] }
  let p : DevicePeer := { publicKey := k, endpoint := some first }
  let s : LinkState :=
    { device := { state := ⟨"wg0", default, 51820, [p]⟩, failing := [k] }
      states := PeerStates.update .empty p none none 0 }
  obtain ⟨hdue, -⟩ := hall l p [] true 0 s second (by decide +kernel) (by decide +kernel)
  exact absurd hdue (by decide +kernel)

end Reconcile

end MeshFacts
