import MeshFacts.Proofs.PeerFrames
import MeshFacts.Proofs.Removals

/-! # Networks after a pass
Which networks each peer has once a pass is over, on a device that can be read and takes every update. Whatever
of the two kinds of update a pass chooses and whatever the peer had, what it ends with depends only on whether
it works, whether it can be reached and whether this node may take networks away. -/
namespace MeshFacts

/-- The device can be read, takes every update and has each peer once. -/
structure LinkState.Ready (l : Link) (s : LinkState) : Prop where
  readable : s.device.read l.config.iface = .ok s.device.state
  willing : s.device.failing = []
  distinct : (s.device.peers.map DevicePeer.publicKey).Nodup

namespace LinkState.Ready
variable {l : Link} {s t : LinkState}

lemma name_eq (h : s.Ready l) : s.device.state.name = l.config.iface := by
  by_contra hne
  have hread := h.readable
  unfold MemoryDevice.read at hread
  simp [hne] at hread

lemma configure (h : s.Ready l) (u : PeerUpdate) :
    l.configure s u = (true, { s with device := s.device.make u, calls := s.calls ++ [[u]] }) :=
  Link.configure_of_takes ⟨h.name_eq, by simp [h.willing]⟩

lemma make (h : s.Ready l) (u : PeerUpdate) : Ready l { s with device := s.device.make u } := by
  refine ⟨?_, h.willing, DevicePeer.nodup_applyTo h.distinct⟩
  have hread := h.readable
  unfold MemoryDevice.read at hread ⊢
  split_ifs at hread with hfail
  exact if_neg hfail

lemma of_updatedBy {P : PeerUpdate → Prop} (h : s.Ready l) (hu : s.UpdatedBy P t) : t.Ready l := by
  obtain ⟨us, hdevice, -⟩ := hu
  induction us generalizing s with
  | nil =>
    rw [List.foldl_nil] at hdevice
    exact ⟨hdevice ▸ h.readable, hdevice ▸ h.willing, hdevice ▸ h.distinct⟩
  | cons u us ih => exact ih (h.make u) hdevice

lemma peer?_eq_some_iff (h : s.Ready l) {k : PublicKey} {p : DevicePeer} :
    s.device.state.peer? k = some p ↔ p ∈ s.device.peers ∧ p.publicKey = k :=
  DevicePeer.find?_eq_some_iff h.distinct

end LinkState.Ready

namespace Reconcile
variable {l : Link} {chunk : FactChunk} {s t : LinkState} {p : DevicePeer} {k : PublicKey}

def toldNets (facts : List Fact) (k : PublicKey) : Finset Net :=
  (facts.filterMap fun f =>
    match f.value with
    | .ipNet n => if f.subject = k ∧ (f.kind = .allowedIpsV4 ∨ f.kind = .allowedIpsV6) then some n else none
    | _ => none).toFinset

def due (l : Link) (facts : List Fact) (k : PublicKey) : Finset Net :=
  {k.overlayNet} ∪ toldNets facts k ∪ (l.config.peers.allowedIps k).toFinset

/-- The networks that a peer ends with, by whether it works, can be reached and may lose networks. -/
def settledNets (due old : Finset Net) (overlay : Net) (works reached allow : Bool) : Finset Net :=
  if works then
    if reached then if allow then due else old ∪ due
    else old
  else if allow then {overlay}
  else old ∪ {overlay}

/-- The networks that a valid peer of the device ends a pass with, by what the pass sees of it. -/
def netsAfter (l : Link) (chunk : FactChunk) (s : LinkState) (p : DevicePeer) : Finset Net :=
  let k := p.publicKey
  settledNets (due l chunk.facts k) p.allowedIps.toFinset k.overlayNet
    ((s.states.get k).isHealthy p chunk.now)
    (s.knowledge.peerAlive k chunk.now (Clock.chunkPeriod / 2) || l.config.peers.isBasic k)
    (l.allowDeconfigure chunk.router)

lemma toFinset_joinNets (nets others : List Net) :
    (DevicePeer.joinNets nets others).toFinset = nets.toFinset ∪ others.toFinset := by
  ext n
  simp [DevicePeer.mem_joinNets]

lemma mem_toldNets {facts : List Fact} {n : Net} : n ∈ toldNets facts k ↔ ∃ f ∈ facts,
    f.subject = k ∧ (f.kind = .allowedIpsV4 ∨ f.kind = .allowedIpsV6) ∧ f.value = .ipNet n := by
  rw [toldNets, List.mem_toFinset, List.mem_filterMap]
  refine exists_congr fun f => and_congr_right fun _ => ?_
  cases f.value <;> simp [and_assoc]

lemma toFinset_desiredNets (facts : List Fact) :
    (desiredNets l k (factsAbout k facts)).toFinset = due l facts k := by
  ext n
  simp only [due, List.mem_toFinset, mem_desiredNets, Finset.mem_union, Finset.mem_singleton, mem_toldNets,
    mem_factsAbout, Fact.allowedNet?_eq_some_iff_kind, Attribute.isAllowedIps_iff, and_assoc, or_assoc]

lemma subset_settledNets (due old : Finset Net) (overlay : Net) (works reached : Bool) :
    old ⊆ settledNets due old overlay works reached false := by
  cases works <;> cases reached <;> simp [settledNets]

lemma toFinset_apply_replace {u : PeerUpdate} (h : u.replaceAllowedIps = true) :
    (p.apply u).allowedIps.toFinset = u.allowedIps.toFinset := by
  rw [DevicePeer.apply, h, toFinset_joinNets]
  exact Finset.empty_union _

/-- What is missing joins what is there; if nothing else is there, that is all that is due. -/
lemma toFinset_apply_missing {desired : List Net} {allow : Bool}
    (h : ¬ (allow && p.allowedIps.any fun n => n ∉ desired) = true) {u : PeerUpdate}
    (hreplace : u.replaceAllowedIps = false) (hnets : u.allowedIps = desired.filter fun n => n ∉ p.allowedIps) :
    (p.apply u).allowedIps.toFinset =
      if allow then desired.toFinset else p.allowedIps.toFinset ∪ desired.toFinset := by
  have hall : (p.apply u).allowedIps.toFinset = p.allowedIps.toFinset ∪ desired.toFinset := by
    rw [DevicePeer.apply, hreplace, hnets, toFinset_joinNets]
    ext n
    by_cases hn : n ∈ p.allowedIps <;> simp [hn]
  rw [hall]
  split_ifs with ha
  · simp only [ha, Bool.true_and, List.any_eq_true, decide_eq_true_eq, not_exists, not_and, not_not] at h
    refine Finset.union_eq_right.mpr fun n hn => ?_
    exact List.mem_toFinset.mpr (h n (List.mem_toFinset.mp hn))
  · rfl

lemma nets_apply_netsUpdate (l : Link) (t : LinkState) (p : DevicePeer) (facts : List Fact) (allow : Bool)
    (now : Instant) :
    (p.apply (netsUpdate l t p (factsAbout p.publicKey facts) allow now)).allowedIps.toFinset =
      settledNets (due l facts p.publicKey) p.allowedIps.toFinset p.publicKey.overlayNet
        (t.states.isHealthy p.publicKey)
        (t.knowledge.peerAlive p.publicKey now (Clock.chunkPeriod / 2) || l.config.peers.isBasic p.publicKey)
        allow := by
  have hdue := toFinset_desiredNets (l := l) (k := p.publicKey) facts
  simp only [netsUpdate, netsChange, isReached, settledNets]
  cases t.states.isHealthy p.publicKey with
  | true =>
    cases t.knowledge.peerAlive p.publicKey now (Clock.chunkPeriod / 2) || l.config.peers.isBasic p.publicKey with
    | true =>
      simp only [if_true, ← hdue]
      split_ifs with hextra hallow
      · exact toFinset_apply_replace rfl
      · simp [hallow] at hextra
      · rw [toFinset_apply_missing hextra rfl rfl, if_pos ‹_›]
      · rw [toFinset_apply_missing hextra rfl rfl, if_neg ‹_›]
    | false => rfl
  | false =>
    simp only [Bool.false_eq_true, if_false]
    split_ifs with hcut hallow hmissing hallow hallow
    · exact toFinset_apply_replace rfl
    · simp [hallow] at hcut
    all_goals
      have hextra : ¬ (allow && p.allowedIps.any fun n => n ∉ [p.publicKey.overlayNet]) = true := by
        simp only [Bool.and_eq_true, Bool.or_eq_true, not_and, not_or, List.mem_singleton] at hcut ⊢
        exact fun h => (hcut h).2
      rw [toFinset_apply_missing hextra rfl (by simp [*])]
      simp [*]

lemma peer?_apply (h : t.Ready l) {u : PeerUpdate} (hremove : u.remove = false)
    (hp : t.device.state.peer? u.publicKey = some p) :
    (apply l u t).device.state.peer? u.publicKey = some (p.apply u) := by
  unfold apply
  split_ifs with hnoop
  · rw [hp, DevicePeer.apply_of_isNoop hnoop]
  · rw [h.configure]
    exact DevicePeer.find?_applyTo_change hremove hp

lemma nets_configurePeer (h : t.Ready l) (hp : t.device.state.peer? p.publicKey = some p) (facts : List Fact)
    (allow : Bool) (now : Instant) :
    ∃ q, (configurePeer l p facts allow now t).device.state.peer? p.publicKey = some q ∧
      q.allowedIps = (p.apply (netsUpdate l t p facts allow now)).allowedIps := by
  obtain ⟨hdevice, -⟩ := rotate_spec l p facts now t
  have hu := netsUpdate_configures l t p facts allow now
  have hready : (rotate l p facts now t).2.Ready l :=
    h.of_updatedBy (P := fun _ => True) (.of_device_eq hdevice)
  have hnext := peer?_apply (p := p) hready (u := { netsUpdate l t p facts allow now with
    endpoint := (rotate l p facts now t).1.filter fun e => p.endpoint ≠ some e }) hu.remove
    (by rw [hu.publicKey, hdevice, hp])
  rw [hu.publicKey] at hnext
  exact ⟨_, hnext, rfl⟩

lemma isHealthy_seen (hd : (s.device.peers.map DevicePeer.publicKey).Nodup) (hp : p ∈ s.device.peers)
    (hself : p.publicKey ≠ l.self) :
    (seen l s.device.peers chunk s).states.isHealthy p.publicKey =
      (s.states.get p.publicKey).isHealthy p chunk.now := by
  rw [seen, PeerStates.isHealthy, find?_retain_of_mem hp, find?_observe_of_mem hd hp hself]
  rfl

/-- A valid peer of the device has the networks that what is seen of it calls for. -/
lemma nets_of_valid (h : s.Ready l) (hp : p ∈ s.device.peers)
    (hv : p.publicKey ∈ (plan l s.device.peers chunk.facts).valid) (hself : p.publicKey ≠ l.self) :
    ∃ q, (passOn l s.device.peers chunk s).device.state.peer? p.publicKey = some q ∧
      q.allowedIps.toFinset = netsAfter l chunk s p := by
  have hlocal := mem_localPeers_of_mem h.distinct hp
  obtain ⟨t, hsame, hmade, hconfigured⟩ := configurePeers_at hlocal hv hself
    (l.allowDeconfigure chunk.router) (seen l s.device.peers chunk s)
  have hready : (seen l s.device.peers chunk s).Ready l :=
    h.of_updatedBy (P := fun _ => True) (.of_device_eq rfl)
  have hentry : t.device.state.peer? p.publicKey = some p :=
    hsame.entry.trans (h.peer?_eq_some_iff.mpr ⟨hp, rfl⟩)
  obtain ⟨q, hq, hnets⟩ := nets_configurePeer (hready.of_updatedBy hmade) hentry
    (factsAbout p.publicKey chunk.facts) (l.allowDeconfigure chunk.router) chunk.now
  have hworks : t.states.isHealthy p.publicKey = (s.states.get p.publicKey).isHealthy p chunk.now := by
    rw [← isHealthy_seen h.distinct hp hself, PeerStates.isHealthy, hsame.history, PeerStates.isHealthy]
  have halive : t.knowledge.aliveUntil? p.publicKey = s.knowledge.aliveUntil? p.publicKey := hsame.knows _
  refine ⟨q, ((same_afterConfiguring hp hv s).entry.trans hconfigured.entry).trans hq, ?_⟩
  rw [hnets, nets_apply_netsUpdate, hworks, Knowledge.peerAlive, halive]
  rfl

def Belongs (l : Link) (facts : List Fact) (k : PublicKey) : Prop :=
  l.config.peers.contains k = true ∨ ∃ f ∈ facts, f.subject = k ∧ f.kind = .membership

lemma Asked.eq_removal {u : PeerUpdate} {peers : List DevicePeer} (h : Asked l peers chunk u)
    (hout : ¬ (Belongs l chunk.facts u.publicKey ∧ u.publicKey ≠ l.self)) :
    u = Reconcile.removal u.publicKey := by
  cases h with
  | change hp hvalid hself hu =>
    rw [hu.publicKey] at hout
    exact absurd ⟨(mem_valid_iff.mp hvalid).resolve_left hself, hself⟩ hout
  | addition hnew =>
    obtain ⟨hself, hbelongs⟩ := of_mem_additions hnew
    exact absurd ⟨hbelongs, hself⟩ hout
  | removal => rfl

lemma Asked.eq_addition {u : PeerUpdate} {peers : List DevicePeer} (h : Asked l peers chunk u)
    (hk : u.publicKey ∉ peers.map DevicePeer.publicKey) : u = Reconcile.addition u.publicKey := by
  cases h with
  | change hp hvalid hself hu =>
    rw [hu.publicKey] at hk
    exact absurd (List.mem_map_of_mem (mem_localPeers hp)) hk
  | addition => rfl
  | removal hgone => exact absurd (removable_of_mem_removals hgone).present hk

lemma nets_make_addition {d : MemoryDevice} {q : DevicePeer}
    (hnets : ∀ p, d.state.peer? k = some p → p.allowedIps = [k.overlayNet])
    (hq : (d.make (addition k)).state.peer? k = some q) : q.allowedIps = [k.overlayNet] := by
  cases hp : d.state.peer? k with
  | none =>
    have hadded := DevicePeer.find?_applyTo_add (u := addition k) rfl rfl hp
    obtain rfl := Option.some.inj (hadded.symm.trans hq)
    rfl
  | some p =>
    have hchanged := DevicePeer.find?_applyTo_change (u := addition k) rfl hp
    obtain rfl := Option.some.inj (hchanged.symm.trans hq)
    simp [DevicePeer.apply, addition, hnets p hp, DevicePeer.joinNets]

lemma nets_of_added {made : List PeerUpdate} {d : MemoryDevice} {q : DevicePeer}
    (hmade : ∀ u ∈ made, u.publicKey = k → u = addition k)
    (hnets : ∀ p, d.state.peer? k = some p → p.allowedIps = [k.overlayNet])
    (hq : (made.foldl MemoryDevice.make d).state.peer? k = some q) : q.allowedIps = [k.overlayNet] := by
  induction made generalizing d with
  | nil => exact hnets q hq
  | cons u made ih =>
    refine ih (fun v hv => hmade v (by simp [hv])) (fun p hp => ?_) hq
    by_cases hk : u.publicKey = k
    · rw [hmade u (by simp) hk] at hp
      exact nets_make_addition hnets hp
    · rw [MemoryDevice.peer?_make_of_ne hk] at hp
      exact hnets p hp

lemma MayRemove.allows (h : MayRemove l chunk) : l.allowDeconfigure chunk.router = true := by
  simp [Link.allowDeconfigure, h.no_router, h.selfTrust]

lemma entry_of_untouched (hout : ¬ (Belongs l chunk.facts k ∧ k ≠ l.self)) (hkept : k ∉ removed l chunk s) :
    (pass l chunk s).2.device.state.peer? k = s.device.state.peer? k := by
  obtain ⟨made, hdevice, hasked⟩ := updatedBy_pass l chunk s
  rw [hdevice]
  refine MemoryDevice.peer?_foldl_make_of_ne fun u hu heq => hkept ?_
  have hremoval := (hasked u hu).eq_removal (heq ▸ hout)
  exact (mem_removed_of_made hdevice).mpr ⟨u, hu, by rw [hremoval]; rfl, heq⟩

/-- After a pass each valid peer has exactly the networks that what is seen of it calls for, new peers have their
overlay addresses only, and every other peer is as it was unless it is removed. -/
theorem nets_after_pass (h : s.Ready l) (chunk : FactChunk) :
    (pass l chunk s).1 = .ok () ∧
      (∀ p ∈ s.device.peers, Belongs l chunk.facts p.publicKey → p.publicKey ≠ l.self →
        ∃ q, (pass l chunk s).2.device.state.peer? p.publicKey = some q ∧
          q.allowedIps.toFinset = netsAfter l chunk s p) ∧
      (∀ p ∈ s.device.peers, ¬ (Belongs l chunk.facts p.publicKey ∧ p.publicKey ≠ l.self) →
        p.publicKey ∉ removed l chunk s →
          (pass l chunk s).2.device.state.peer? p.publicKey = some p) ∧
      (∀ q ∈ (pass l chunk s).2.device.peers, q.publicKey ∉ s.device.peers.map DevicePeer.publicKey →
        q.allowedIps = [q.publicKey.overlayNet]) ∧
      (l.allowDeconfigure chunk.router = false → ∀ p ∈ s.device.peers,
        ∃ q, (pass l chunk s).2.device.state.peer? p.publicKey = some q ∧
          p.allowedIps.toFinset ⊆ q.allowedIps.toFinset) := by
  obtain ⟨made, hdevice, hasked⟩ := updatedBy_pass l chunk s
  have hready : (pass l chunk s).2.Ready l := h.of_updatedBy ⟨made, hdevice, hasked⟩
  have hvalid : ∀ p ∈ s.device.peers, Belongs l chunk.facts p.publicKey → p.publicKey ≠ l.self →
      ∃ q, (pass l chunk s).2.device.state.peer? p.publicKey = some q ∧
        q.allowedIps.toFinset = netsAfter l chunk s p := by
    intro p hp hbelongs hself
    have hcached : LinkState.Ready l { s with cached := some s.device.state } :=
      h.of_updatedBy (P := fun _ => True) (.of_device_eq rfl)
    rw [pass_of_read h.readable]
    exact nets_of_valid hcached hp (mem_valid_iff.mpr (.inr hbelongs)) hself
  have hother : ∀ p ∈ s.device.peers, ¬ (Belongs l chunk.facts p.publicKey ∧ p.publicKey ≠ l.self) →
      p.publicKey ∉ removed l chunk s → (pass l chunk s).2.device.state.peer? p.publicKey = some p := by
    intro p hp hout hkept
    rw [entry_of_untouched hout hkept]
    exact h.peer?_eq_some_iff.mpr ⟨hp, rfl⟩
  refine ⟨by rw [pass_of_read h.readable], hvalid, hother, ?_, ?_⟩
  · intro q hq hnew
    have hentry := hready.peer?_eq_some_iff.mpr ⟨hq, rfl⟩
    rw [hdevice] at hentry
    refine nets_of_added (fun u hu heq => heq ▸ (hasked u hu).eq_addition (heq ▸ hnew)) ?_ hentry
    intro p hp
    obtain ⟨hp, hkey⟩ := h.peer?_eq_some_iff.mp hp
    exact absurd (hkey ▸ List.mem_map_of_mem hp) hnew
  · intro hallow p hp
    by_cases hin : Belongs l chunk.facts p.publicKey ∧ p.publicKey ≠ l.self
    · obtain ⟨q, hq, hnets⟩ := hvalid p hp hin.1 hin.2
      refine ⟨q, hq, ?_⟩
      rw [hnets, netsAfter, hallow]
      exact subset_settledNets _ _ _ _ _
    · refine ⟨p, hother p hp hin ?_, Finset.Subset.refl _⟩
      intro hgone
      obtain ⟨u, hu, hremove, -⟩ := (mem_removed_of_made hdevice).mp hgone
      have hallows := ((hasked u hu).of_removes hremove).1.allows
      rw [hallow] at hallows
      cases hallows

/-- A peer that works and is alive, one that does not work, one that works but is silent, and a new member. -/
theorem nets_after_pass_friend :
    let friend : PublicKey := ⟨.ofNatLE 32 1⟩
    let broken : PublicKey := ⟨.ofNatLE 32 2⟩
    let silent : PublicKey := ⟨.ofNatLE 32 4⟩
    let newcomer : PublicKey := ⟨.ofNatLE 32 5⟩
    let stale : Net := .v4 0x0a000000 8
    let due : Net := .v4 0xc0a80000 24
    let told : Net := .v4 0xac100000 12
    let peers : PeerTable := .ofList [(friend, { allowedIps := [due] }), (broken, { allowedIps := [due] }),
      (silent, { allowedIps := [due] })]
    let l : Link :=
      { config := { iface := "wg0", peers := peers }, self := ⟨.ofNatLE 32 3⟩, bootId := .zero 16, started := 0,
        resolve := fun _ => [] }
    let seen (k : PublicKey) : DevicePeer :=
      { publicKey := k, endpoint := some (.ofIp k.overlayIp 5), allowedIps := [stale], lastHandshake := some 0 }
    let device : DeviceState :=
      ⟨"wg0", default, 51820, [seen friend, { publicKey := broken, allowedIps := [stale] }, seen silent]⟩
    let s : LinkState :=
      { device := { state := device }, knowledge := (Knowledge.empty.note (.alive friend) friend 90000000000).2 }
    let chunk : FactChunk :=
      ⟨[.allowedIps friend told 90000000000, .membership newcomer 90000000000], 10000000000, false, false⟩
    (pass l chunk s).1 = .ok () ∧
      (∃ q, (pass l chunk s).2.device.state.peer? friend = some q ∧
        q.allowedIps.toFinset = {friend.overlayNet, told, due}) ∧
      (∃ q, (pass l chunk s).2.device.state.peer? broken = some q ∧ q.allowedIps.toFinset = {broken.overlayNet}) ∧
      (∃ q, (pass l chunk s).2.device.state.peer? silent = some q ∧ q.allowedIps.toFinset = {stale}) ∧
      ∃ q ∈ (pass l chunk s).2.device.peers, q.publicKey = newcomer ∧ q.allowedIps = [newcomer.overlayNet] := by
  intro friend broken silent newcomer stale due told peers l seen device s chunk
  have hready : s.Ready l := ⟨by decide +kernel, rfl, by decide +kernel⟩
  obtain ⟨hok, hvalid, -, hadded, -⟩ := nets_after_pass hready chunk
  refine ⟨hok, ?_, ?_, ?_, ?_⟩
  · obtain ⟨q, hq, hnets⟩ := hvalid (seen friend) (by simp [s, device, MemoryDevice.peers]) (.inl (by decide +kernel))
      (by decide +kernel)
    exact ⟨q, hq, hnets.trans (by decide +kernel)⟩
  · obtain ⟨q, hq, hnets⟩ := hvalid { publicKey := broken, allowedIps := [stale] }
      (by simp [s, device, MemoryDevice.peers]) (.inl (by decide +kernel)) (by decide +kernel)
    exact ⟨q, hq, hnets.trans (by decide +kernel)⟩
  · obtain ⟨q, hq, hnets⟩ := hvalid (seen silent) (by simp [s, device, MemoryDevice.peers]) (.inl (by decide +kernel))
      (by decide +kernel)
    exact ⟨q, hq, hnets.trans (by decide +kernel)⟩
  · have hin : newcomer ∈ (pass l chunk s).2.device.peers.map DevicePeer.publicKey := by decide +kernel
    obtain ⟨q, hq, hkey⟩ := List.mem_map.mp hin
    have hnew : q.publicKey ∉ s.device.peers.map DevicePeer.publicKey := by
      rw [hkey]
      decide +kernel
    exact ⟨q, hq, hkey, hkey ▸ hadded q hq hnew⟩

end Reconcile

end MeshFacts
