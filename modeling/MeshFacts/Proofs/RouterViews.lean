import MeshFacts.Proofs.HeldFacts
import MeshFacts.Proofs.NetRanges

/-! # Two views of a router
A node takes itself for a router by the addresses of its tunnel as they are written. Its peers see the networks that it publishes
of them, without host bits, and judge by the base. So they agree where no network with host bits has a reserved range inside, and
may differ elsewhere. -/
namespace MeshFacts

namespace Fact
lemma allowedNet?_allowedIps (k : PublicKey) (net : Net) (expires : Instant) :
    (allowedIps k net expires).allowedNet? = some net.normalize := by
  have hkind := isAllowedIps_allowedIps k net expires
  simp only [allowedIps] at hkind
  simp [allowedNet?, allowedIps, hkind]

lemma allowedNet?_endpoint (k : PublicKey) (addr : SocketAddr) (expires : Instant) :
    (endpoint k addr expires).allowedNet? = none := rfl

end Fact

namespace Link

def tunnelNets (l : Link) (interfaces : List NetInterface) : List Net :=
  ((interfaces.filter (·.name = l.config.iface)).flatMap NetInterface.addresses).filter (!·.addr.isLinkLocal)

def publishedNets (l : Link) (device : DeviceState) (interfaces : List NetInterface) (now : Instant) : List Net :=
  (l.localFacts device interfaces now).filterMap fun f => if f.subject = l.self then f.allowedNet? else none

variable {l : Link} {device : DeviceState} {interfaces : List NetInterface} {now : Instant} {net : Net}

lemma mem_tunnelNets :
    net ∈ l.tunnelNets interfaces ↔
      ∃ i ∈ interfaces, i.name = l.config.iface ∧ net ∈ i.addresses ∧ net.addr.isLinkLocal = false := by
  simp only [tunnelNets, List.mem_filter, List.mem_flatMap, decide_eq_true_eq, Bool.not_eq_true']
  tauto

lemma isLocalRouter_iff (h : l.config.router = none) :
    l.isLocalRouter interfaces = true ↔ ∃ net ∈ l.tunnelNets interfaces, net.isRouter = true := by
  simp only [isLocalRouter, h, mem_tunnelNets, List.any_eq_true, Bool.and_eq_true, beq_iff_eq, Bool.not_eq_true']
  constructor
  · rintro ⟨i, hi, hname, net, hnet, hlocal, hrouter⟩
    exact ⟨net, ⟨i, hi, hname, hnet, hlocal⟩, hrouter⟩
  · rintro ⟨net, ⟨i, hi, hname, hnet, hlocal⟩, hrouter⟩
    exact ⟨i, hi, hname, net, hnet, hlocal, hrouter⟩

lemma allowedNet?_of_mem_interfaceFacts {port : UInt16} {expires : Instant} {i : NetInterface} {f : Fact}
    (hf : f ∈ l.interfaceFacts port expires i) (hnet : f.allowedNet? = some net) :
    i.name = l.config.iface ∧ ∃ n ∈ i.addresses, n.addr.isLinkLocal = false ∧ net = n.normalize := by
  unfold interfaceFacts at hf
  split_ifs at hf with hname
  · obtain ⟨n, hn, rfl⟩ := List.mem_map.mp hf
    obtain ⟨hin, hlocal⟩ := List.mem_filter.mp hn
    rw [Fact.allowedNet?_allowedIps, Option.some.injEq] at hnet
    exact ⟨hname, n, hin, by simpa using hlocal, hnet.symm⟩
  · obtain ⟨n, -, rfl⟩ := List.mem_map.mp hf
    cases (Fact.allowedNet?_endpoint _ _ _).symm.trans hnet

/-- Without networks of its own in the configuration a node publishes those of its tunnel, in normal form. -/
lemma mem_publishedNets_iff (h : l.config.peers.allowedIps l.self = []) :
    net ∈ l.publishedNets device interfaces now ↔ ∃ n ∈ l.tunnelNets interfaces, net = n.normalize := by
  simp only [publishedNets, List.mem_filterMap, mem_tunnelNets]
  constructor
  · rintro ⟨f, hf, hnet⟩
    split_ifs at hnet with hself
    simp only [localFacts, h, List.map_nil, List.append_nil, List.mem_append, List.mem_singleton, or_assoc] at hf
    rcases hf with hf | rfl | hf | hf
    · obtain ⟨i, hi, hf⟩ := List.mem_flatMap.mp hf
      obtain ⟨hname, n, hin, hlocal, rfl⟩ := allowedNet?_of_mem_interfaceFacts hf hnet
      exact ⟨n, ⟨i, hi, hname, hin, hlocal⟩, rfl⟩
    · cases hnet
    · obtain ⟨p, -, hf⟩ := List.mem_filterMap.mp hf
      unfold workingEndpoint at hf
      split_ifs at hf
      obtain ⟨e, -, rfl⟩ := Option.map_eq_some_iff.mp hf
      cases (Fact.allowedNet?_endpoint _ _ _).symm.trans hnet
    · obtain ⟨⟨k, entry⟩, he, hf⟩ := List.mem_flatMap.mp hf
      have hother : k ≠ l.self := by simpa using (List.mem_filter.mp he).2
      have hk : f.subject = k := by
        rcases List.mem_cons.mp hf with rfl | hf
        · rfl
        · obtain ⟨n, -, rfl⟩ := List.mem_map.mp hf
          rfl
      exact absurd (hk.symm.trans hself) hother
  · rintro ⟨n, ⟨i, hi, hname, hin, hlocal⟩, rfl⟩
    refine ⟨.allowedIps l.self n (now + Clock.factTtl), ?_, ?_⟩
    · refine List.mem_append_left _ (List.mem_append_left _ (List.mem_append_left _ (List.mem_append_left _ ?_)))
      refine List.mem_flatMap.mpr ⟨i, hi, ?_⟩
      rw [interfaceFacts, if_pos hname]
      exact List.mem_map_of_mem (List.mem_filter.mpr ⟨hin, by simpa using hlocal⟩)
    · exact (if_pos rfl).trans (Fact.allowedNet?_allowedIps _ _ _)

/-- A node takes itself for a router by the addresses of its tunnel, all others by the base of the networks that it
publishes. They agree if no network with host bits has a reserved range inside. -/
theorem router_views (l : Link) (device : DeviceState) (interfaces : List NetInterface) (now : Instant)
    (hrouter : l.config.router = none) (hown : l.config.peers.allowedIps l.self = []) (p : DevicePeer)
    (hp : ∀ net, net ∈ p.allowedIps ↔ net ∈ l.publishedNets device interfaces now) :
    (l.isLocalRouter interfaces = true ↔
        ∃ net ∈ l.tunnelNets interfaces, net.length < net.width ∧ net.addr.isGlobalUnicast = true) ∧
      (p.isRouter = true ↔
        ∃ net ∈ l.tunnelNets interfaces, net.length < net.width ∧ net.truncate.addr.isGlobalUnicast = true) ∧
      ((∀ net ∈ l.tunnelNets interfaces, net.HasHostBits → ∀ range ∈ Net.reserved, ¬ net.normalize.Encloses range) →
        (l.isLocalRouter interfaces = true ↔ p.isRouter = true)) := by
  have hpeer : p.isRouter = true ↔ ∃ net ∈ l.tunnelNets interfaces, net.truncate.isRouter = true := by
    simp only [DevicePeer.isRouter, List.any_eq_true, hp, mem_publishedNets_iff hown]
    constructor
    · rintro ⟨_, ⟨n, hn, rfl⟩, hclass⟩
      exact ⟨n, hn, n.isRouter_normalize ▸ hclass⟩
    · rintro ⟨n, hn, hclass⟩
      exact ⟨n.normalize, ⟨n, hn, rfl⟩, n.isRouter_normalize ▸ hclass⟩
  have hself : l.isLocalRouter interfaces = true ↔ ∃ net ∈ l.tunnelNets interfaces, net.isRouter = true :=
    isLocalRouter_iff hrouter
  refine ⟨?_, ?_, fun h => ?_⟩
  · simpa [Net.isRouter] using hself
  · simpa [Net.isRouter] using hpeer
  · rw [hself, hpeer]
    refine exists_congr fun net => and_congr_right fun hnet => ?_
    by_cases hhost : net.HasHostBits
    · rw [Net.isRouter_truncate (h net hnet hhost)]
    · rw [Net.truncate_eq_self_iff.mpr hhost]

theorem router_views_private :
    let l : Link := { (default : Link) with config := { iface := "wg0" } }
    let interfaces : List NetInterface := [⟨"wg0", some 5, [.v4 0x0a090001 16]⟩]
    let p : DevicePeer := { publicKey := l.self, allowedIps := l.publishedNets default interfaces 0 }
    p.allowedIps = [.v4 0x0a090000 16] ∧ (l.isLocalRouter interfaces = true ↔ p.isRouter = true) ∧ p.isRouter = true := by
  intro l interfaces p
  have hnets : ∀ net ∈ l.tunnelNets interfaces, net.HasHostBits → ∀ range ∈ Net.reserved, ¬ net.normalize.Encloses range := by
    decide +kernel
  obtain ⟨-, -, hagree⟩ := router_views l default interfaces 0 rfl rfl p fun _ => Iff.rfl
  exact ⟨by decide +kernel, hagree hnets, by decide +kernel⟩

/-- At 10.9.0.1/1 a node takes itself for a router, and nobody else does; at 127.0.0.1/7 it is the other way round. -/
theorem router_views_differ :
    let l : Link := { (default : Link) with config := { iface := "wg0" } }
    let half : List NetInterface := [⟨"wg0", some 5, [.v4 0x0a090001 1]⟩]
    let loop : List NetInterface := [⟨"wg0", some 5, [.v4 0x7f000001 7]⟩]
    let peer (interfaces : List NetInterface) : DevicePeer :=
      { publicKey := l.self, allowedIps := l.publishedNets default interfaces 0 }
    l.config.router = none ∧ l.config.peers.allowedIps l.self = [] ∧
      (l.isLocalRouter half = true ∧ (peer half).allowedIps = [.v4 0 1] ∧ (peer half).isRouter = false) ∧
      l.isLocalRouter loop = false ∧ (peer loop).allowedIps = [.v4 0x7e000000 7] ∧ (peer loop).isRouter = true := by
  decide +kernel

end Link

end MeshFacts
