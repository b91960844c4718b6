import MeshFacts.Proofs.Standing

/-! # Held facts
Where the facts come from that a node holds after a chunk: it held them before, it accepted them or it asserts
them itself. -/
namespace MeshFacts

namespace Fact

lemma isEndpoint_endpoint (k : PublicKey) (addr : SocketAddr) (expires : Instant) :
    (endpoint k addr expires).kind.isEndpoint = true := by
  cases h : addr.ip.normalize <;> simp [endpoint, Value.endpointAttribute, Attribute.isEndpoint, h]

lemma isAllowedIps_allowedIps (k : PublicKey) (net : Net) (expires : Instant) :
    (allowedIps k net expires).kind.isAllowedIps = true := by
  cases h : net.normalize.addr <;> simp [allowedIps, Value.allowedIpsAttribute, Attribute.isAllowedIps, h]

lemma mem_of_mem_mergeInto {f g : Fact} {fs : List Fact} (h : g ∈ mergeInto f fs) : g = f ∨ g ∈ fs := by
  induction fs with
  | nil => simpa [mergeInto] using h
  | cons e fs ih =>
    simp only [mergeInto] at h
    split_ifs at h with hkey hexpires hbefore
    · exact .inr h
    · rcases List.mem_cons.mp h with h | h
      · exact .inl h
      · exact .inr (by simp [h])
    · exact List.mem_cons.mp h
    · rcases List.mem_cons.mp h with h | h
      · exact .inr (by simp [h])
      · rcases ih h with h | h
        · exact .inl h
        · exact .inr (by simp [h])

lemma mem_of_mem_merge {f : Fact} {fs : List Fact} (h : f ∈ merge fs) : f ∈ fs := by
  induction fs using List.reverseRecOn with
  | nil => exact h
  | append_singleton fs g ih =>
    rw [merge, List.foldl_append, ← merge] at h
    rcases mem_of_mem_mergeInto h with rfl | h
    · simp
    · simp [ih h]

end Fact

namespace Link

/-- What a node asserts: anything about itself, endpoints that it has seen work, and its configuration. -/
inductive Asserts (l : Link) (device : DeviceState) (now : Instant) : Fact → Prop
  | own {f : Fact} (h : f.subject = l.self) : Asserts l device now f
  | working {p : DevicePeer} {e : SocketAddr} {t : Instant} (hp : p ∈ device.peers)
      (hh : p.lastHandshake = some t) (ht : Clock.since now t < Clock.handshakeValidity)
      (he : p.endpoint = some e) : Asserts l device now (.endpoint p.publicKey e (now + Clock.factTtl))
  | member {k : PublicKey} (hk : l.config.peers.contains k = true) :
      Asserts l device now (.membership k (now + Clock.factTtl))
  | net {k : PublicKey} {n : Net} (hn : n ∈ l.config.peers.allowedIps k) :
      Asserts l device now (.allowedIps k n (now + Clock.factTtl))

lemma asserts_of_mem_memberFacts {l : Link} {device : DeviceState} {now : Instant} {k : PublicKey}
    {entry : PeerEntry} {f : Fact} (hk : l.config.peers.find? k = some entry)
    (h : f ∈ memberFacts (now + Clock.factTtl) k entry) : Asserts l device now f := by
  rcases List.mem_cons.mp h with rfl | h
  · exact .member (by simp [Table.contains, hk])
  · obtain ⟨n, hn, rfl⟩ := List.mem_map.mp h
    exact .net (by simpa [PeerTable.allowedIps, hk] using hn)

lemma asserts_of_workingEndpoint {l : Link} {device : DeviceState} {now : Instant} {p : DevicePeer} {f : Fact}
    (hp : p ∈ device.peers) (h : workingEndpoint now (now + Clock.factTtl) p = some f) :
    Asserts l device now f := by
  unfold workingEndpoint at h
  split_ifs at h with hfresh
  obtain ⟨t, hh, ht⟩ := (Option.any_eq_true _ _).mp hfresh
  obtain ⟨e, he, rfl⟩ := Option.map_eq_some_iff.mp h
  exact .working hp hh (by simpa using ht) he

lemma subject_of_mem_interfaceFacts {l : Link} {port : UInt16} {expires : Instant} {i : NetInterface}
    {f : Fact} (h : f ∈ l.interfaceFacts port expires i) : f.subject = l.self := by
  unfold interfaceFacts at h
  split_ifs at h
  · obtain ⟨n, -, rfl⟩ := List.mem_map.mp h
    rfl
  · obtain ⟨n, -, rfl⟩ := List.mem_map.mp h
    rfl

lemma asserts_of_mem_localFacts {l : Link} {device : DeviceState} {interfaces : List NetInterface}
    {now : Instant} {f : Fact} (h : f ∈ l.localFacts device interfaces now) : Asserts l device now f := by
  simp only [localFacts, List.mem_append, List.mem_singleton, or_assoc] at h
  rcases h with h | h | rfl | h | h
  · obtain ⟨i, -, hf⟩ := List.mem_flatMap.mp h
    exact .own (subject_of_mem_interfaceFacts hf)
  · obtain ⟨n, -, rfl⟩ := List.mem_map.mp h
    exact .own rfl
  · exact .own rfl
  · obtain ⟨p, hp, hf⟩ := List.mem_filterMap.mp h
    exact asserts_of_workingEndpoint hp hf
  · obtain ⟨⟨k, entry⟩, he, hf⟩ := List.mem_flatMap.mp h
    exact asserts_of_mem_memberFacts (Table.find?_eq_some_iff.mpr (List.mem_of_mem_filter he)) hf

lemma Asserts.contains_of_membership {l : Link} {device : DeviceState} {now : Instant} {f : Fact}
    (h : l.Asserts device now f) (hkind : f.kind = .membership)
    (hself : f.subject ≠ l.self) : l.config.peers.contains f.subject = true := by
  cases h with
  | own hown => exact absurd hown hself
  | working => cases (hkind ▸ Fact.isEndpoint_endpoint _ _ _ : Attribute.membership.isEndpoint = true)
  | member hk => exact hk
  | net => cases (hkind ▸ Fact.isAllowedIps_allowedIps _ _ _ : Attribute.membership.isAllowedIps = true)

lemma mem_heldFacts {current accepted own : List Fact} {now : Instant} {f : Fact}
    (h : f ∈ heldFacts current accepted own now) :
    now < f.expires ∧ (f ∈ current ∨ f ∈ accepted ∨ f ∈ own) := by
  obtain ⟨hm, he⟩ := List.mem_filter.mp h
  have hf := Fact.mem_of_mem_merge hm
  simp only [List.mem_append, or_assoc] at hf
  exact ⟨by simpa [Fact.isExpired] using he, hf⟩

end Link

end MeshFacts
