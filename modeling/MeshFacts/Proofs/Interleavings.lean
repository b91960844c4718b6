import MeshFacts.Proofs.PassRequests

/-! # Interleavings
The configurations of several peers may be under way at once, each of them going on by steps that touch what the
node keeps at most once. In whatever order their steps come, once all are done the device, the histories and what
peers know are as if the peers had been configured one after the other. -/
namespace MeshFacts

namespace DevicePeer

lemma filterMap_find?_keys {peers : List DevicePeer} (hd : (peers.map publicKey).Nodup) :
    (peers.map publicKey).filterMap (fun k => peers.find? fun p => p.publicKey = k) = peers := by
  have hself : ∀ p ∈ peers, (peers.find? fun q => q.publicKey = p.publicKey) = some p :=
    fun p hp => (find?_eq_some_iff hd).mpr ⟨hp, rfl⟩
  rw [List.filterMap_map]
  exact (List.filterMap_congr hself).trans List.filterMap_some

lemma eq_of_find?_eq {peers others : List DevicePeer} (hd : (peers.map publicKey).Nodup)
    (hkeys : others.map publicKey = peers.map publicKey)
    (h : ∀ k, (others.find? fun p => p.publicKey = k) = peers.find? fun p => p.publicKey = k) : others = peers := by
  calc others
      = (others.map publicKey).filterMap fun k => others.find? fun p => p.publicKey = k :=
        (filterMap_find?_keys (hkeys.symm ▸ hd)).symm
    _ = (peers.map publicKey).filterMap fun k => peers.find? fun p => p.publicKey = k := by
        rw [hkeys]
        exact List.filterMap_congr fun k _ => h k
    _ = peers := filterMap_find?_keys hd

end DevicePeer

namespace MemoryDevice
variable {d e : MemoryDevice}

lemma asked_congr (hstate : e.state = d.state) (hfailing : e.failing = d.failing) (name : String)
    (us : List PeerUpdate) :
    (e.asked name us).state = (d.asked name us).state ∧ (e.asked name us).failing = (d.asked name us).failing := by
  unfold asked configure
  rw [hstate, hfailing]
  split_ifs
  · exact ⟨hstate, hfailing⟩
  · split
    · exact ⟨hstate, hfailing⟩
    · simp [setPeers, peers, hstate, hfailing]

lemma foldl_asked_congr (hstate : e.state = d.state) (hfailing : e.failing = d.failing) (name : String)
    (calls : List (List PeerUpdate)) :
    (calls.foldl (asked name) e).state = (calls.foldl (asked name) d).state ∧
      (calls.foldl (asked name) e).failing = (calls.foldl (asked name) d).failing := by
  induction calls generalizing d e with
  | nil => exact ⟨hstate, hfailing⟩
  | cons us calls ih =>
    obtain ⟨hs, hf⟩ := asked_congr hstate hfailing name us
    exact ih hs hf

end MemoryDevice

namespace LinkState

/-- Updates that only change peers leave all else of the device as it is. -/
lemma UpdatedBy.keys_eq {s t : LinkState} (h : s.UpdatedBy (fun u => u.remove = false ∧ u.updateOnly = true) t) :
    t.device.state = { s.device.state with peers := t.device.peers } ∧ t.device.failing = s.device.failing ∧
      t.device.peers.map DevicePeer.publicKey = s.device.peers.map DevicePeer.publicKey := by
  obtain ⟨us, hdevice, hus⟩ := h
  rw [hdevice]
  clear hdevice
  generalize s.device = d
  induction us generalizing d with
  | nil => exact ⟨rfl, rfl, rfl⟩
  | cons u us ih =>
    obtain ⟨hstate, hfailing, hkeys⟩ := ih (fun v hv => hus v (by simp [hv])) (d.make u)
    obtain ⟨hremove, honly⟩ := hus u (by simp)
    refine ⟨hstate, hfailing, hkeys.trans ?_⟩
    change (DevicePeer.applyTo d.peers u).map DevicePeer.publicKey = _
    unfold DevicePeer.applyTo
    rw [if_neg (by simp [hremove]), if_pos honly]
    split_ifs
    · exact DevicePeer.map_publicKey_change (f := (·.apply u)) (fun _ => rfl) _
    · rfl

/-- Two states agree on the device, on histories and on what peers know, though not on the order of calls. -/
structure Agree (s t : LinkState) : Prop where
  device : t.device.state = s.device.state
  failing : t.device.failing = s.device.failing
  same : ∀ k, Same k s t

/-- States that come of one by changes of its peers agree if they say the same of each peer. -/
lemma UpdatedBy.agree {s t r : LinkState} (ht : s.UpdatedBy (fun u => u.remove = false ∧ u.updateOnly = true) t)
    (hr : s.UpdatedBy (fun u => u.remove = false ∧ u.updateOnly = true) r)
    (hd : (s.device.peers.map DevicePeer.publicKey).Nodup) (h : ∀ k, Same k t r) : t.Agree r := by
  obtain ⟨hstate, hfailing, hkeys⟩ := ht.keys_eq
  obtain ⟨hstate', hfailing', hkeys'⟩ := hr.keys_eq
  have hpeers : r.device.peers = t.device.peers :=
    DevicePeer.eq_of_find?_eq (hkeys.symm ▸ hd) (hkeys'.trans hkeys.symm) fun k => (h k).entry
  exact ⟨by rw [hstate', hstate, hpeers], hfailing'.trans hfailing.symm, h⟩

end LinkState

namespace Reconcile
variable {l : Link} {p : DevicePeer} {facts : List Fact} {allow : Bool} {now : Instant}
  {s t : LinkState} {k : PublicKey}

def decision (l : Link) (p : DevicePeer) (facts : List Fact) (allow works reached : Bool)
    (next : Option SocketAddr) : PeerUpdate :=
  { netsChange l p facts allow works reached with endpoint := next.filter fun e => p.endpoint ≠ some e }

inductive Progress where
  | begun
  /-- The peer works; whether it can be reached is not known yet. -/
  | working
  /-- The peer does not work; whether it is time for its next endpoint is not known yet. -/
  | silent
  | resolving
  | choosing (candidates : List SocketAddr)
  /-- The next endpoint is chosen, but the peer not yet held to have forgotten that this node is alive. -/
  | moved (next : SocketAddr)
  | decided (works reached : Bool) (next : Option SocketAddr)
  | done
deriving DecidableEq

/-- One step of the configuration of a peer: it reads what the node keeps, or it changes it, in one place. -/
def Progress.step (l : Link) (p : DevicePeer) (facts : List Fact) (allow : Bool) (now : Instant) :
    Progress × LinkState → Progress × LinkState
  | (begun, s) => (if s.states.isHealthy p.publicKey then working else silent, s)
  | (working, s) => (decided true (isReached l s p.publicKey now) none, s)
  | (silent, s) =>
    (if s.states.timeForNextEndpoint p.publicKey now then resolving else decided false false none, s)
  | (resolving, s) => (choosing (endpointCandidates l p.publicKey facts), s)
  | (choosing candidates, s) =>
    match s.states.nextEndpoint p.publicKey candidates now with
    | (none, states) => (decided false false none, { s with states := states })
    | (some e, states) => (moved e, { s with states := states })
  | (moved e, s) =>
    (decided false false (some e), { s with knowledge := (s.knowledge.forcePing l.self p.publicKey).2 })
  | (decided works reached next, s) => (done, apply l (decision l p facts allow works reached next) s)
  | (done, s) => (done, s)

namespace Progress

lemma iterate_done (n : ℕ) (s : LinkState) : (step l p facts allow now)^[n] (done, s) = (done, s) :=
  Function.iterate_fixed rfl n

lemma iterate_six (l : Link) (p : DevicePeer) (facts : List Fact) (allow : Bool) (now : Instant) (s : LinkState) :
    (step l p facts allow now)^[6] (begun, s) = (done, configurePeer l p facts allow now s) := by
  rw [configurePeer_eq, configuration, netsUpdate]
  cases hworks : s.states.isHealthy p.publicKey with
  | true =>
    have hrotate : rotate l p facts now s = (none, s) := by simp [rotate, hworks]
    simp [step, hworks, hrotate, decision]
  | false =>
    cases htime : s.states.timeForNextEndpoint p.publicKey now with
    | false =>
      have hrotate : rotate l p facts now s = (none, s) := by simp [rotate, htime]
      simp [step, hworks, htime, hrotate, decision, netsChange]
    | true =>
      cases hnext : s.states.nextEndpoint p.publicKey (endpointCandidates l p.publicKey facts) now with
      | mk next states =>
        cases next with
        | none =>
          have hrotate : rotate l p facts now s = (none, { s with states := states }) := by
            simp [rotate, hworks, htime, hnext]
          simp [step, hworks, htime, hnext, hrotate, decision, netsChange]
        | some e =>
          have hrotate : rotate l p facts now s = (some e, { s with
              states := states, knowledge := (s.knowledge.forcePing l.self p.publicKey).2 }) := by
            simp [rotate, hworks, htime, hnext]
          simp [step, hworks, htime, hnext, hrotate, decision, netsChange]

/-- However many steps it took, a configuration that is done has come to what it comes to alone. -/
lemma of_iterate_done {n : ℕ} (h : ((step l p facts allow now)^[n] (begun, s)).1 = done) :
    ((step l p facts allow now)^[n] (begun, s)).2 = configurePeer l p facts allow now s := by
  have hlong : (step l p facts allow now)^[6 + n] (begun, s) = (done, configurePeer l p facts allow now s) := by
    rw [Nat.add_comm, Function.iterate_add_apply, iterate_six, iterate_done]
  have hdone : (step l p facts allow now)^[n] (begun, s) = (done, ((step l p facts allow now)^[n] (begun, s)).2) :=
    Prod.ext h rfl
  rw [Function.iterate_add_apply, hdone, iterate_done] at hlong
  exact congrArg Prod.snd hlong

lemma updatedBy_step (g : Progress) (s : LinkState) :
    s.UpdatedBy (fun u => u.remove = false ∧ u.updateOnly = true) (step l p facts allow now (g, s)).2 := by
  cases g with
  | choosing candidates =>
    simp only [step]
    split <;> exact .of_device_eq rfl
  | decided works reached next =>
    obtain ⟨-, hremove, honly, -⟩ := netsChange_spec l p facts allow works reached
    exact updatedBy_apply (u := decision l p facts allow works reached next) ⟨hremove, honly⟩ s
  | begun | working | silent | resolving | moved | done => exact .of_device_eq rfl

lemma same_step (hk : p.publicKey ≠ k) (g : Progress) (s : LinkState) :
    s.Same k (step l p facts allow now (g, s)).2 := by
  cases g with
  | choosing candidates =>
    have hstates : LinkState.Same k s
        { s with states := (s.states.nextEndpoint p.publicKey candidates now).2 } :=
      ⟨rfl, (Table.find?_insert _ _ _ _).trans (if_neg hk.symm), fun _ => rfl, rfl⟩
    simp only [step]
    split <;> rename_i he <;> rw [he] at hstates <;> exact hstates
  | moved e =>
    refine ⟨rfl, rfl, fun key => ?_, rfl⟩
    exact (Table.find?_erase _ _ _).trans (if_neg (by simp [hk.symm]))
  | decided works reached next =>
    have hkey : (decision l p facts allow works reached next).publicKey = p.publicKey :=
      (netsChange_spec l p facts allow works reached).1
    exact same_apply (hkey ▸ hk) s
  | begun | working | silent | resolving | done => exact .refl k s

/-- What a step does follows from what the state says of its peer. -/
lemma alike_step (h : s.Alike l p.publicKey t) (g : Progress) :
    (step l p facts allow now (g, s)).1 = (step l p facts allow now (g, t)).1 ∧
      (step l p facts allow now (g, s)).2.Alike l p.publicKey (step l p facts allow now (g, t)).2 := by
  cases g with
  | begun => exact ⟨by simp only [step, isHealthy_congr h.same], h⟩
  | working => exact ⟨by simp only [step, isReached, peerAlive_congr h.same], h⟩
  | silent => exact ⟨by simp only [step, timeForNextEndpoint_congr h.same], h⟩
  | resolving => exact ⟨rfl, h⟩
  | choosing candidates =>
    obtain ⟨hnext, hstates⟩ := nextEndpoint_congr h.same candidates now
    cases hs : s.states.nextEndpoint p.publicKey candidates now with
    | mk next states =>
      cases ht : t.states.nextEndpoint p.publicKey candidates now with
      | mk next' states' =>
        rw [hs, ht] at hnext hstates
        obtain rfl : next' = next := hnext
        simp only [step, hs, ht]
        cases next' <;> exact ⟨rfl, h.of_device_eq hstates rfl rfl⟩
  | moved e => exact ⟨rfl, h.of_device_eq (forcePing_congr h.same l.self) rfl rfl⟩
  | decided works reached next =>
    have hkey : (decision l p facts allow works reached next).publicKey = p.publicKey :=
      (netsChange_spec l p facts allow works reached).1
    exact ⟨rfl, hkey ▸ alike_apply (hkey.symm ▸ h)⟩
  | done => exact ⟨rfl, h⟩

end Progress

/-- The configurations of several peers, all under way on what the node keeps. -/
structure Fanout where
  state : LinkState
  progress : PublicKey → Progress

namespace Fanout
variable {f : Fanout} {turns : List DevicePeer}

def start (s : LinkState) : Fanout := ⟨s, fun _ => .begun⟩

def turn (l : Link) (facts : List Fact) (allow : Bool) (now : Instant) (f : Fanout) (p : DevicePeer) : Fanout :=
  let next := Progress.step l p (factsAbout p.publicKey facts) allow now (f.progress p.publicKey, f.state)
  ⟨next.2, Function.update f.progress p.publicKey next.1⟩

def run (l : Link) (facts : List Fact) (allow : Bool) (now : Instant) (turns : List DevicePeer) (s : LinkState) :
    Fanout :=
  turns.foldl (turn l facts allow now) (start s)

lemma updatedBy_foldl_turn (turns : List DevicePeer) (f : Fanout) : f.state.UpdatedBy
    (fun u => u.remove = false ∧ u.updateOnly = true) (turns.foldl (turn l facts allow now) f).state := by
  induction turns generalizing f with
  | nil => exact .of_device_eq rfl
  | cons p turns ih => exact (Progress.updatedBy_step _ _).trans (ih (turn l facts allow now f p))

lemma same_foldl_turn (hk : ∀ p ∈ turns, p.publicKey ≠ k) (f : Fanout) :
    f.state.Same k (turns.foldl (turn l facts allow now) f).state := by
  induction turns generalizing f with
  | nil => exact .refl k _
  | cons p turns ih =>
    have hrest := ih (fun q hq => hk q (by simp [hq])) (turn l facts allow now f p)
    exact (Progress.same_step (hk p (by simp)) _ _).trans hrest

/-- For any one peer, turns of many come to its own turns alone. -/
lemma foldl_turn_at (hone : ∀ q ∈ turns, q.publicKey = p.publicKey → q = p) {c : Progress × LinkState}
    (hprogress : f.progress p.publicKey = c.1) (halike : f.state.Alike l p.publicKey c.2) :
    (turns.foldl (turn l facts allow now) f).progress p.publicKey =
        ((Progress.step l p (factsAbout p.publicKey facts) allow now)^[turns.count p] c).1 ∧
      (turns.foldl (turn l facts allow now) f).state.Alike l p.publicKey
        ((Progress.step l p (factsAbout p.publicKey facts) allow now)^[turns.count p] c).2 := by
  induction turns generalizing f c with
  | nil => exact ⟨hprogress, halike⟩
  | cons q turns ih =>
    have hrest : ∀ r ∈ turns, r.publicKey = p.publicKey → r = p := fun r hr => hone r (by simp [hr])
    rw [List.foldl_cons]
    by_cases hq : q.publicKey = p.publicKey
    · obtain rfl := hone q (by simp) hq
      let step := Progress.step l q (factsAbout q.publicKey facts) allow now
      obtain ⟨hnext, hstates⟩ : (step (c.1, f.state)).1 = (step c).1 ∧
          (step (c.1, f.state)).2.Alike l q.publicKey (step c).2 := Progress.alike_step halike c.1
      rw [List.count_cons_self, Function.iterate_succ_apply]
      refine ih hrest ?_ ?_
      · simpa [turn, hprogress] using hnext
      · simpa [turn, hprogress] using hstates
    · have hne : q ≠ p := fun h => hq (h ▸ rfl)
      rw [List.count_cons_of_ne hne]
      refine ih hrest ?_ ?_
      · simpa [turn, Function.update_of_ne (Ne.symm hq)] using hprogress
      · exact halike.advance (Progress.same_step hq _ _) (Progress.updatedBy_step _ _) (.refl _ _) (.of_device_eq rfl)

/-- All turns belong to peers that are to be configured, and in the end all of these are. -/
structure Completes (l : Link) (peers : List DevicePeer) (chunk : FactChunk) (s : LinkState)
    (turns : List DevicePeer) : Prop where
  tended : ∀ p ∈ turns, p ∈ tended l peers chunk.facts
  done : ∀ p ∈ Reconcile.tended l peers chunk.facts,
    (run l chunk.facts (l.allowDeconfigure chunk.router) chunk.now turns s).progress p.publicKey = .done

lemma run_at {peers : List DevicePeer} {chunk : FactChunk} (hd : (s.device.peers.map DevicePeer.publicKey).Nodup)
    (hturns : ∀ q ∈ turns, q ∈ tended l peers chunk.facts) (hp : p ∈ tended l peers chunk.facts) :
    let fanout := run l chunk.facts (l.allowDeconfigure chunk.router) chunk.now turns s
    let own := (Progress.step l p (factsAbout p.publicKey chunk.facts) (l.allowDeconfigure chunk.router)
      chunk.now)^[turns.count p] (.begun, s)
    fanout.progress p.publicKey = own.1 ∧ fanout.state.Alike l p.publicKey own.2 := by
  have hone : ∀ q ∈ turns, q.publicKey = p.publicKey → q = p := fun q hq heq =>
    List.inj_on_of_nodup_map (nodup_tended l peers chunk.facts) (hturns q hq) hp heq
  exact foldl_turn_at hone rfl ⟨.refl p.publicKey s, Iff.rfl, hd, hd⟩

/-- No configuration makes more than six steps. -/
lemma completes_of_count {peers : List DevicePeer} {chunk : FactChunk}
    (hd : (s.device.peers.map DevicePeer.publicKey).Nodup) (hturns : ∀ p ∈ turns, p ∈ tended l peers chunk.facts)
    (hsix : ∀ p ∈ tended l peers chunk.facts, 6 ≤ turns.count p) : Completes l peers chunk s turns := by
  refine ⟨hturns, fun p hp => ?_⟩
  obtain ⟨hprogress, -⟩ := run_at hd hturns hp
  obtain ⟨m, hm⟩ := Nat.exists_eq_add_of_le' (hsix p hp)
  rw [hprogress, hm, Function.iterate_add_apply, Progress.iterate_six, Progress.iterate_done]

lemma alike_run {peers : List DevicePeer} {chunk : FactChunk} (hd : (s.device.peers.map DevicePeer.publicKey).Nodup)
    (h : Completes l peers chunk s turns) (hp : p ∈ Reconcile.tended l peers chunk.facts) :
    (run l chunk.facts (l.allowDeconfigure chunk.router) chunk.now turns s).state.Alike l p.publicKey
      (configurePeer l p (factsAbout p.publicKey chunk.facts) (l.allowDeconfigure chunk.router) chunk.now s) := by
  obtain ⟨hprogress, halike⟩ := run_at hd h.tended hp
  have hown := Progress.of_iterate_done (hprogress.symm.trans (h.done p hp))
  rwa [hown] at halike

/-- Configurations that take turns, in whatever order, end like configurations one after the other. -/
lemma agree_run {peers : List DevicePeer} {chunk : FactChunk} (hd : (s.device.peers.map DevicePeer.publicKey).Nodup)
    (h : Completes l peers chunk s turns) :
    (configurePeers l (plan l peers chunk.facts) chunk.facts (l.allowDeconfigure chunk.router) chunk.now s).Agree
      (run l chunk.facts (l.allowDeconfigure chunk.router) chunk.now turns s).state := by
  have hsame : ∀ k, LinkState.Same k
      (configurePeers l (plan l peers chunk.facts) chunk.facts (l.allowDeconfigure chunk.router) chunk.now s)
      (run l chunk.facts (l.allowDeconfigure chunk.router) chunk.now turns s).state := by
    intro k
    by_cases hk : ∃ p ∈ Reconcile.tended l peers chunk.facts, p.publicKey = k
    · obtain ⟨p, hp, rfl⟩ := hk
      obtain ⟨hlocal, hvalid, hself⟩ := mem_tended.mp hp
      exact (same_configurePeers_of_valid hd hlocal hvalid hself _).symm.trans (alike_run hd h hp).same.symm
    · have hne : ∀ p ∈ Reconcile.tended l peers chunk.facts, p.publicKey ≠ k := fun p hp heq => hk ⟨p, hp, heq⟩
      exact (same_configurePeers_of_ne hne _ _ s).symm.trans
        (same_foldl_turn (fun p hp => hne p (h.tended p hp)) (start s))
  have hordered : s.UpdatedBy (fun u => u.remove = false ∧ u.updateOnly = true)
      (configurePeers l (plan l peers chunk.facts) chunk.facts (l.allowDeconfigure chunk.router) chunk.now s) :=
    .foldl (fun p _ t => updatedBy_configurePeer (fun u hu => ⟨hu.remove, hu.updateOnly⟩) _ _ t) s
  exact hordered.agree (updatedBy_foldl_turn turns (start s)) hd hsame

end Fanout

lemma agree_conclude {peers : List DevicePeer} {chunk : FactChunk}
    (hd : (s.device.peers.map DevicePeer.publicKey).Nodup) (h : s.Agree t) :
    (conclude l peers chunk s).Agree (conclude l peers chunk t) := by
  have hevidence : ∀ k, t.states.evidence? k = s.states.evidence? k := fun k => by
    rw [PeerStates.evidence?, PeerStates.evidence?, (h.same k).history]
  obtain ⟨hstate, hfailing⟩ := MemoryDevice.foldl_asked_congr h.device h.failing l.config.iface
    ((closing l peers chunk s).map ([·]))
  have hd' : (t.device.peers.map DevicePeer.publicKey).Nodup := by
    unfold MemoryDevice.peers at hd ⊢
    rwa [h.device]
  refine ⟨?_, ?_, fun k => ?_⟩
  · rw [(asks_conclude _ _ _ t).device, (asks_conclude _ _ _ s).device, closing_congr hevidence, hstate]
  · rw [(asks_conclude _ _ _ t).device, (asks_conclude _ _ _ s).device, closing_congr hevidence, hfailing]
  · have halike : s.Alike l k t := ⟨h.same k, by rw [LinkState.Takes, LinkState.Takes, h.device, h.failing], hd, hd'⟩
    exact (alike_conclude halike fun j => (hevidence j).symm).same

/-- A pass in which the configurations of peers take turns. -/
def passInTurns (l : Link) (chunk : FactChunk) (turns : List DevicePeer) (s : LinkState) :
    Except DeviceError Unit × LinkState :=
  match l.refresh s with
  | (.error e, s) => (.error e, s)
  | (.ok device, s) =>
    let fanout := Fanout.run l chunk.facts (l.allowDeconfigure chunk.router) chunk.now turns
      (seen l device.peers chunk s)
    (.ok (), conclude l device.peers chunk fanout.state)

/-- It does not matter in which order peers take their turns. -/
lemma passInTurns_agrees {chunk : FactChunk} {turns : List DevicePeer}
    (hd : (s.device.peers.map DevicePeer.publicKey).Nodup)
    (h : Fanout.Completes l s.device.peers chunk (seen l s.device.peers chunk (l.refresh s).2) turns) :
    (passInTurns l chunk turns s).1 = (pass l chunk s).1 ∧
      (pass l chunk s).2.Agree (passInTurns l chunk turns s).2 := by
  obtain ⟨hdevice, hread⟩ := l.refresh_spec s
  unfold passInTurns pass
  cases hr : l.refresh s with
  | mk result t =>
    rw [hr] at hdevice hread h
    cases result with
    | error e => exact ⟨rfl, rfl, rfl, fun k => .refl k t⟩
    | ok d =>
      obtain rfl := hread d rfl
      have hseen : ((seen l s.device.peers chunk t).device.peers.map DevicePeer.publicKey).Nodup := by
        rwa [← hdevice] at hd
      exact ⟨rfl, agree_conclude ((updatedBy_configurePeers _ _).nodup hseen) (Fanout.agree_run hseen h)⟩

end Reconcile

end MeshFacts
