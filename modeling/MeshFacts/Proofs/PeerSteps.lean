import MeshFacts.Proofs.PassRequests

/-! # A peer in one pass
What a pass makes of a valid peer of its device follows from the entry of the peer, from its history and from whether
it can be reached. A change of its networks is made once: the same decision asks for nothing the next time. And once
an endpoint is chosen it has its time. -/
namespace MeshFacts

namespace DevicePeer

lemma publicKey_apply (p : DevicePeer) (u : PeerUpdate) : (p.apply u).publicKey = p.publicKey := rfl

def isRecent (p : DevicePeer) (now : Instant) : Bool :=
  p.lastHandshake.any fun t => Clock.since now t < Clock.handshakeValidity

def isFresh (p : DevicePeer) (now : Instant) : Bool := p.endpoint.isSome && p.isRecent now

end DevicePeer

namespace PeerState
variable {s : PeerState} {p : DevicePeer} {candidates : List SocketAddr} {now : Instant}

/-- A peer whose handshake is the one on record passes for working only if it is fresh. -/
lemma isHealthy_of_observed (ho : s.observed = true) (hl : s.lastHandshake = p.lastHandshake) (now : Instant) :
    s.isHealthy p now = p.isFresh now := by
  unfold isHealthy DevicePeer.isFresh DevicePeer.isRecent
  rw [ho, hl]
  cases p.endpoint <;> simp

lemma isHealthy_of_endpoint_none (h : p.endpoint = none) (s : PeerState) (now : Instant) :
    s.isHealthy p now = false := by
  simp [isHealthy, h]

def rotated (s : PeerState) (candidates : List SocketAddr) (now : Instant) : Option SocketAddr × PeerState :=
  if s.timeForNextEndpoint now then s.nextEndpoint candidates now else (none, s)

/-- There is no endpoint to move to, or the present one has not had its time. -/
def Rests (s : PeerState) (candidates : List SocketAddr) (now : Instant) : Prop :=
  candidates = [] ∨
    (later s.lastHandshake s.lastRotation).any (fun t => Clock.since now t < Clock.endpointAttempt) = true

lemma rotated_of_healthy (h : s.healthy = true) : s.rotated candidates now = (none, s) := by
  simp [rotated, timeForNextEndpoint, h]

lemma rotated_of_rests (h : s.Rests candidates now) : s.rotated candidates now = (none, s) := by
  unfold rotated
  split_ifs with htime
  · rcases h with rfl | h
    · rfl
    · unfold timeForNextEndpoint at htime
      cases hlater : later s.lastHandshake s.lastRotation with
      | none => simp [hlater] at h
      | some t =>
        simp only [hlater, Option.any_some, Option.all_some, Bool.and_eq_true, decide_eq_true_eq] at h htime
        exact absurd htime.2 (Nat.not_le.mpr h)
  · rfl

lemma rotated_spec (s : PeerState) (candidates : List SocketAddr) (now : Instant) :
    (s.rotated candidates now).2.observed = s.observed ∧
      (s.rotated candidates now).2.lastHandshake = s.lastHandshake := by
  unfold rotated nextEndpoint
  split
  · split <;> exact ⟨rfl, rfl⟩
  · exact ⟨rfl, rfl⟩

lemma since_later_of_now (t : Option Instant) (now : Instant) :
    (later t (some now)).any (fun u => Clock.since now u < Clock.endpointAttempt) = true := by
  have hpos : ∀ u : Instant, now ≤ u → Clock.since now u < Clock.endpointAttempt := by
    intro u hu
    have hzero : Clock.since now u = 0 := Int.toNat_of_nonpos (Int.sub_nonpos_of_le hu)
    rw [hzero]
    decide
  cases t with
  | none => simpa [later] using hpos now le_rfl
  | some u =>
    simp only [later, Option.any_some, decide_eq_true_eq]
    split_ifs with hle
    · exact hpos now le_rfl
    · exact hpos u (Int.le_of_lt (Int.not_le.mp hle))

/-- After a rotation the peer has an endpoint that has its time, or there is none to move to. -/
lemma rests_rotated (h : s.healthy = false) : (s.rotated candidates now).2.Rests candidates now := by
  unfold rotated
  split_ifs with htime
  · cases candidates with
    | nil => exact .inl rfl
    | cons e candidates => exact .inr (since_later_of_now _ _)
  · refine .inr ?_
    simp only [timeForNextEndpoint, h, Bool.not_false, Bool.true_and, Bool.not_eq_true] at htime
    cases hlater : later s.lastHandshake s.lastRotation with
    | none => simp [hlater] at htime
    | some t => simpa [hlater] using htime

lemma rests_update (hl : s.lastHandshake = p.lastHandshake) (told : Option Instant) (id : Option Uuid) :
    (s.update p told id now).Rests candidates now ↔ s.Rests candidates now := by
  unfold Rests update
  rw [hl]

end PeerState

namespace Reconcile
variable {l : Link} {p : DevicePeer} {facts : List Fact} {allow works reached : Bool} {now : Instant}
  {s : LinkState}

lemma netsChange_isNoop_iff : (netsChange l p facts allow works reached).isNoop = true ↔
    if works then
      reached = true → (∀ n ∈ desiredNets l p.publicKey facts, n ∈ p.allowedIps) ∧
        (allow = true → ∀ n ∈ p.allowedIps, n ∈ desiredNets l p.publicKey facts)
    else p.publicKey.overlayNet ∈ p.allowedIps ∧ (allow = true → ∀ n ∈ p.allowedIps, n = p.publicKey.overlayNet) := by
  unfold netsChange PeerUpdate.isNoop
  dsimp only
  cases works with
  | true =>
    cases reached with
    | true =>
      simp only [if_true]
      split_ifs with hextra
      · simp only [Bool.and_eq_true, List.any_eq_true, decide_eq_true_eq] at hextra
        obtain ⟨hallow, n, hn, hout⟩ := hextra
        simpa [hallow] using fun _ => ⟨n, hn, hout⟩
      · simp only [Bool.and_eq_true, List.any_eq_true, decide_eq_true_eq, not_and, not_exists, not_not] at hextra
        simpa using fun _ => hextra
    | false => simp
  | false =>
    simp only [Bool.false_eq_true, if_false]
    split_ifs with hcut hmissing
    · simp only [Bool.and_eq_true, Bool.or_eq_true, List.isEmpty_iff, List.any_eq_true, decide_eq_true_eq] at hcut
      obtain ⟨hallow, hnil | ⟨n, hn, hne⟩⟩ := hcut
      · simp [hnil]
      · simpa [hallow] using fun _ => ⟨n, hn, hne⟩
    · simp only [Bool.and_eq_true, Bool.or_eq_true, List.any_eq_true, decide_eq_true_eq, not_and, not_or, not_exists,
        not_not] at hcut
      simpa [hmissing] using fun hallow => (hcut hallow).2
    · simp [hmissing]

lemma mem_nets_apply {u : PeerUpdate} {n : Net} :
    n ∈ (p.apply u).allowedIps ↔ u.replaceAllowedIps = false ∧ n ∈ p.allowedIps ∨ n ∈ u.allowedIps := by
  rw [DevicePeer.apply, DevicePeer.mem_joinNets]
  cases u.replaceAllowedIps <;> simp

lemma netsChange_again (l : Link) (p : DevicePeer) (facts : List Fact) (allow works reached : Bool)
    (next : Option SocketAddr) :
    (netsChange l (p.apply { netsChange l p facts allow works reached with endpoint := next }) facts allow works
      reached).isNoop = true := by
  rw [netsChange_isNoop_iff, DevicePeer.publicKey_apply]
  simp only [mem_nets_apply]
  unfold netsChange
  cases works with
  | true =>
    simp only [if_true]
    rintro rfl
    simp only [if_true]
    split_ifs with hextra
    · simp
    · simp only [Bool.and_eq_true, List.any_eq_true, decide_eq_true_eq, not_and, not_exists, not_not] at hextra
      refine ⟨fun n hn => ?_, fun hallow n hn => ?_⟩
      · by_cases hin : n ∈ p.allowedIps <;> simp [hin, hn]
      · rcases hn with ⟨-, hn⟩ | hn
        · exact hextra hallow n hn
        · exact List.mem_of_mem_filter hn
  | false =>
    simp only [Bool.false_eq_true, if_false]
    split_ifs with hcut hmissing
    · simp
    · simp only [Bool.and_eq_true, Bool.or_eq_true, List.any_eq_true, decide_eq_true_eq, not_and, not_or, not_exists,
        not_not] at hcut
      simpa [hmissing] using fun hallow => (hcut hallow).2
    · simp only [Bool.and_eq_true, Bool.or_eq_true, List.any_eq_true, decide_eq_true_eq, not_and, not_or, not_exists,
        not_not] at hcut
      simpa [or_imp, forall_and] using fun hallow => (hcut hallow).2

/-- The history of a peer of the device with what a pass sees of the peer. -/
def sighting (s : LinkState) (p : DevicePeer) (now : Instant) : PeerState :=
  (s.states.get p.publicKey).update p (s.knowledge.aliveUntil? p.publicKey) (s.knowledge.bootId? p.publicKey) now

lemma rotate_of_find? {st : PeerState} (h : s.states.find? p.publicKey = some st) :
    (rotate l p facts now s).1 = (st.rotated (endpointCandidates l p.publicKey facts) now).1 ∧
      (rotate l p facts now s).2.states.find? p.publicKey =
        some (st.rotated (endpointCandidates l p.publicKey facts) now).2 := by
  have hhealthy : s.states.isHealthy p.publicKey = st.healthy := by simp [PeerStates.isHealthy, h]
  have htime : s.states.timeForNextEndpoint p.publicKey now = st.timeForNextEndpoint now := by
    simp [PeerStates.timeForNextEndpoint, h]
  have hget : s.states.get p.publicKey = st := by simp [PeerStates.get, h]
  have hboth : (!st.healthy && st.timeForNextEndpoint now) = st.timeForNextEndpoint now := by
    simp [PeerState.timeForNextEndpoint]
  unfold rotate PeerState.rotated PeerStates.nextEndpoint
  dsimp only
  rw [hhealthy, htime, hget, hboth]
  split_ifs
  · cases hnext : st.nextEndpoint (endpointCandidates l p.publicKey facts) now with
    | mk next st' => cases next <;> simp [Table.find?_insert]
  · exact ⟨rfl, h⟩

lemma apply_eq (l : Link) (u : PeerUpdate) (s : LinkState) :
    (apply l u s).states = s.states ∧ (apply l u s).knowledge = s.knowledge := by
  unfold apply
  split_ifs
  · exact ⟨rfl, rfl⟩
  · rw [l.configure_snd]
    exact ⟨rfl, rfl⟩

lemma alive_configurePeer (hself : p.publicKey ≠ l.self) (facts : List Fact) (allow : Bool) (now : Instant)
    (s : LinkState) (k : PublicKey) :
    (configurePeer l p facts allow now s).knowledge.aliveUntil? k = s.knowledge.aliveUntil? k ∧
      (configurePeer l p facts allow now s).knowledge.bootId? k = s.knowledge.bootId? k := by
  rw [configurePeer_eq, (apply_eq l _ _).2]
  unfold rotate
  dsimp only
  split
  · split
    · exact ⟨rfl, rfl⟩
    · refine ⟨?_, rfl⟩
      have hne : (FactKey.alive k, k) ≠ (FactKey.alive l.self, p.publicKey) := by
        rintro heq
        obtain ⟨hk, rfl⟩ := Prod.mk.inj heq
        exact hself (congrArg FactKey.subject hk)
      exact (Table.find?_erase _ _ _).trans (if_neg hne)
  · exact ⟨rfl, rfl⟩

variable {chunk : FactChunk}

lemma mem_tended_iff {peers : List DevicePeer} (hd : (peers.map DevicePeer.publicKey).Nodup) :
    p ∈ tended l peers facts ↔ p ∈ peers ∧ Belongs l facts p.publicKey ∧ p.publicKey ≠ l.self := by
  rw [mem_tended, mem_valid_iff]
  constructor
  · rintro ⟨hp, hv, hself⟩
    exact ⟨mem_localPeers hp, hv.resolve_left hself, hself⟩
  · rintro ⟨hp, hv, hself⟩
    exact ⟨mem_localPeers_of_mem hd hp, .inr hv, hself⟩

lemma find?_seen (hd : (s.device.peers.map DevicePeer.publicKey).Nodup) (hp : p ∈ s.device.peers)
    (hself : p.publicKey ≠ l.self) :
    (seen l s.device.peers chunk s).states.find? p.publicKey = some (sighting s p chunk.now) := by
  rw [seen, find?_retain_of_mem hp, find?_observe_of_mem hd hp hself]
  rfl

def candidates (l : Link) (chunk : FactChunk) (p : DevicePeer) : List SocketAddr :=
  endpointCandidates l p.publicKey (factsAbout p.publicKey chunk.facts)

section
variable (h : s.Ready l) (hp : p ∈ tended l s.device.peers chunk.facts)
include h hp

lemma change_eq : change l s.device.peers chunk s p =
    { netsChange l p (factsAbout p.publicKey chunk.facts) (l.allowDeconfigure chunk.router)
        (sighting s p chunk.now).healthy (isReached l s p.publicKey chunk.now) with
      endpoint := ((sighting s p chunk.now).rotated (candidates l chunk p) chunk.now).1.filter
        fun e => p.endpoint ≠ some e } := by
  obtain ⟨hp, -, hself⟩ := (mem_tended_iff h.distinct).mp hp
  have hseen : (seen l s.device.peers chunk s).states.find? p.publicKey = some (sighting s p chunk.now) :=
    find?_seen h.distinct hp hself
  have hhealthy : (seen l s.device.peers chunk s).states.isHealthy p.publicKey =
      (sighting s p chunk.now).healthy := by
    simp [PeerStates.isHealthy, hseen]
  have hreached : isReached l (seen l s.device.peers chunk s) p.publicKey chunk.now =
      isReached l s p.publicKey chunk.now := rfl
  rw [change, configuration, netsUpdate, hhealthy, hreached, (rotate_of_find? hseen).1, candidates]

lemma same_pass_of_tended :
    (configurePeer l p (factsAbout p.publicKey chunk.facts) (l.allowDeconfigure chunk.router) chunk.now
      (seen l s.device.peers chunk s)).Same p.publicKey (pass l chunk s).2 := by
  obtain ⟨hlocal, hv, hself⟩ := mem_tended.mp hp
  have hcached : LinkState.Alike l p.publicKey (seen l s.device.peers chunk s)
      (seen l s.device.peers chunk { s with cached := some s.device.state }) :=
    ⟨⟨rfl, rfl, fun _ => rfl, rfl⟩, Iff.rfl, h.distinct, h.distinct⟩
  rw [pass_of_read h.readable]
  exact (alike_configurePeer p _ _ _ hcached).same.trans
    (same_passOn_of_valid (s := { s with cached := some s.device.state }) h.distinct (mem_localPeers hlocal) hv hself)

lemma entry_pass : (pass l chunk s).2.device.state.peer? p.publicKey =
    some (p.apply (change l s.device.peers chunk s p)) := by
  obtain ⟨t, ht⟩ : ∃ t, t = (rotate l p (factsAbout p.publicKey chunk.facts) chunk.now
      (seen l s.device.peers chunk s)).2 := ⟨_, rfl⟩
  have hdevice : t.device = s.device := by
    rw [ht, (rotate_spec l p _ chunk.now _).1]
    rfl
  have hready : t.Ready l := h.of_updatedBy (P := fun _ => True) (.of_device_eq hdevice)
  have hu := change_configures l s.device.peers chunk s p
  have hentry : t.device.state.peer? (change l s.device.peers chunk s p).publicKey = some p := by
    rw [hu.publicKey, hdevice]
    exact h.peer?_eq_some_iff.mpr ⟨((mem_tended_iff h.distinct).mp hp).1, rfl⟩
  have hnext := peer?_apply hready hu.remove hentry
  rw [hu.publicKey] at hnext
  rw [(same_pass_of_tended h hp).entry, configurePeer_eq, ← ht]
  exact hnext

lemma history_pass : (pass l chunk s).2.states.find? p.publicKey =
    some ((sighting s p chunk.now).rotated (candidates l chunk p) chunk.now).2 := by
  obtain ⟨hin, -, hself⟩ := (mem_tended_iff h.distinct).mp hp
  rw [(same_pass_of_tended h hp).history, configurePeer_eq, (apply_eq l _ _).1]
  exact (rotate_of_find? (find?_seen h.distinct hin hself)).2

lemma isReached_pass :
    isReached l (pass l chunk s).2 p.publicKey chunk.now = isReached l s p.publicKey chunk.now := by
  have hself := (mem_tended.mp hp).2.2
  have halive : (pass l chunk s).2.knowledge.aliveUntil? p.publicKey = s.knowledge.aliveUntil? p.publicKey :=
    ((same_pass_of_tended h hp).knows _).trans (alive_configurePeer hself _ _ _ _ _).1
  rw [isReached, isReached, Knowledge.peerAlive, Knowledge.peerAlive, halive]

end

end Reconcile

end MeshFacts
