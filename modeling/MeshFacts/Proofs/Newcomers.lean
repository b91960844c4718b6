import MeshFacts.Proofs.PassRequests

/-! # Newcomers
What a pass brings onto the device. Whoever is new comes with its overlay address alone, and a pass that may add peers
leaves no member out. -/
namespace MeshFacts

def DevicePeer.newcomer (k : PublicKey) : DevicePeer := { publicKey := k, allowedIps := [k.overlayNet] }

namespace Reconcile
variable {l : Link} {chunk : FactChunk} {s : LinkState} {keys : List PublicKey} {peers : List DevicePeer}
  {us : List PeerUpdate} {u : PeerUpdate} {k : PublicKey}

lemma apply_addition (k : PublicKey) : (DevicePeer.newcomer k).apply (addition k) = .newcomer k := by
  simp [DevicePeer.apply, addition, DevicePeer.newcomer, DevicePeer.joinNets]

/-- All peers but those of these keys are as they come onto a device. -/
def New (keys : List PublicKey) (peers : List DevicePeer) : Prop :=
  ∀ q ∈ peers, q.publicKey ∉ keys → q = .newcomer q.publicKey

lemma New.applyTo (h : New keys peers) (hu : u.publicKey ∉ keys → u = addition u.publicKey) :
    New keys (DevicePeer.applyTo peers u) := by
  intro q hq hnew
  rcases DevicePeer.mem_applyTo hq with hq | ⟨p, hp, hkey, rfl⟩ | rfl
  · exact h q hq hnew
  · obtain ⟨k, rfl⟩ : ∃ k, u = addition k := ⟨_, hu (hkey ▸ hnew)⟩
    obtain rfl : p.publicKey = k := hkey
    have hp : p = .newcomer p.publicKey := h p hp hnew
    calc p.apply (addition p.publicKey) = (DevicePeer.newcomer p.publicKey).apply (addition p.publicKey) := by rw [← hp]
      _ = .newcomer p.publicKey := apply_addition p.publicKey
  · obtain ⟨k, rfl⟩ : ∃ k, u = addition k := ⟨_, hu hnew⟩
    rfl

lemma New.foldl_applyTo (h : New keys peers) (hus : ∀ u ∈ us, u.publicKey ∉ keys → u = addition u.publicKey) :
    New keys (us.foldl DevicePeer.applyTo peers) := by
  induction us generalizing peers with
  | nil => exact h
  | cons u us ih => exact ih (h.applyTo (hus u (by simp))) fun v hv => hus v (by simp [hv])

/-- Whatever a pass brings onto the device is configured or a member and comes with its overlay address alone. -/
lemma newcomer_of_mem_pass {q : DevicePeer} (hq : q ∈ (pass l chunk s).2.device.peers)
    (hnew : q.publicKey ∉ s.device.peers.map DevicePeer.publicKey) :
    q = .newcomer q.publicKey ∧ q.publicKey ≠ l.self ∧ (l.config.peers.contains q.publicKey = true ∨
      ∃ f ∈ chunk.facts, f.subject = q.publicKey ∧ f.kind = .membership) := by
  obtain ⟨made, hdevice, hasked⟩ := updatedBy_pass l chunk s
  rw [hdevice, MemoryDevice.peers_foldl_make] at hq
  have hold : New (s.device.peers.map DevicePeer.publicKey) s.device.peers := fun p hp hout =>
    absurd (List.mem_map_of_mem hp) hout
  obtain ⟨u, hu, hkey, hremove, honly⟩ :=
    (DevicePeer.mem_keys_foldl_applyTo (List.mem_map_of_mem hq)).resolve_left hnew
  have hall : New (s.device.peers.map DevicePeer.publicKey) (made.foldl DevicePeer.applyTo s.device.peers) :=
    hold.foldl_applyTo fun u hu => (hasked u hu).eq_addition
  exact ⟨hall q hq hnew, hkey ▸ (hasked u hu).ne_self, hkey ▸ (hasked u hu).of_adds hremove honly⟩

/-- A member is on the device after a pass that may add peers, whether it was there before or not. -/
lemma mem_keys_pass_of_membership (hread : s.device.read l.config.iface = .ok s.device.state)
    (hwilling : s.device.failing = []) (hmanage : l.config.managePeers = true)
    (hallow : l.allowDeconfigure chunk.router = true) {f : Fact} (hf : f ∈ chunk.facts)
    (hkind : f.kind = .membership) (hself : f.subject ≠ l.self) :
    f.subject ∈ (pass l chunk s).2.device.peers.map DevicePeer.publicKey := by
  have hkept : ∀ u ∈ requests l s.device.peers chunk s, u.remove = true → u.publicKey ≠ f.subject := by
    intro u hu hremove heq
    obtain ⟨-, hgone⟩ := (asked_of_mem_requests hu).of_removes hremove
    exact hgone.unintroduced f hf heq.symm hkind
  rw [device_pass_of_read hread hwilling, MemoryDevice.peers_foldl_make]
  by_cases hin : f.subject ∈ s.device.peers.map DevicePeer.publicKey
  · exact DevicePeer.mem_keys_of_mem_foldl_applyTo hin hkept
  · have hvalid : f.subject ∈ (plan l s.device.peers chunk.facts).valid :=
      mem_valid_iff.mpr (.inr (.inr ⟨f, hf, rfl, hkind⟩))
    have hadded : f.subject ∈ additions l (plan l s.device.peers chunk.facts) :=
      mem_additions_iff.mpr ⟨List.mem_map_of_mem hf, hvalid, hin, hself⟩
    have hrequest : addition f.subject ∈ requests l s.device.peers chunk s :=
      mem_requests_iff.mpr (.inr (.inl ⟨hmanage, hallow, _, hadded, rfl⟩))
    exact DevicePeer.mem_keys_foldl_applyTo_of_mem hrequest rfl rfl hkept

end Reconcile

end MeshFacts
