import MeshFacts.Proofs.Newcomers
import MeshFacts.Proofs.PeerSteps

/-! # Overlay routes after a pass
Facts reach a peer through its overlay address, so every valid peer is to have that address among its networks. A
pass sees to it for a peer that does not work, for one that can be reached and for one that is new. A peer that works
but cannot be reached it leaves alone, so such a peer has the address afterwards if it had it before. -/
namespace MeshFacts

namespace Reconcile
variable {l : Link} {chunk : FactChunk} {s : LinkState} {p q : DevicePeer}

/-- A pass sees that a peer works, yet the peer is neither alive nor taken to be without saying so. -/
structure LeftAlone (l : Link) (chunk : FactChunk) (s : LinkState) (p : DevicePeer) : Prop where
  works : (sighting s p chunk.now).healthy = true
  unreached : isReached l s p.publicKey chunk.now = false

lemma overlayNet_mem_due (l : Link) (facts : List Fact) (k : PublicKey) : k.overlayNet ∈ due l facts k := by
  simp [due]

lemma overlay_mem_settledNets {due old : Finset Net} {overlay : Net} (hdue : overlay ∈ due)
    (works reached allow : Bool) :
    overlay ∈ settledNets due old overlay works reached allow ↔
      (works = true → reached = false → overlay ∈ old) := by
  unfold settledNets
  split_ifs <;> simp_all

lemma overlayNet_mem_netsAfter :
    p.publicKey.overlayNet ∈ netsAfter l chunk s p ↔
      (LeftAlone l chunk s p → p.publicKey.overlayNet ∈ p.allowedIps) := by
  have hdue := overlayNet_mem_due l chunk.facts p.publicKey
  rw [netsAfter, overlay_mem_settledNets hdue, List.mem_toFinset]
  constructor
  · intro h halone
    exact h halone.works halone.unreached
  · intro h hworks hunreached
    exact h ⟨hworks, hunreached⟩

lemma nets_of_kept (h : s.Ready l) (hp : p ∈ s.device.peers) (hbelongs : Belongs l chunk.facts p.publicKey)
    (hself : p.publicKey ≠ l.self) (hq : q ∈ (pass l chunk s).2.device.peers) (hkey : q.publicKey = p.publicKey) :
    q.allowedIps.toFinset = netsAfter l chunk s p := by
  have hready : (pass l chunk s).2.Ready l := h.of_updatedBy (updatedBy_pass l chunk s)
  have hcached : LinkState.Ready l { s with cached := some s.device.state } :=
    h.of_updatedBy (P := fun _ => True) (.of_device_eq rfl)
  have hvalid : p.publicKey ∈ (plan l s.device.peers chunk.facts).valid := mem_valid_iff.mpr (.inr hbelongs)
  obtain ⟨r, hr, hnets⟩ := nets_of_valid hcached hp hvalid hself
  have hq : (pass l chunk s).2.device.state.peer? p.publicKey = some q := hready.peer?_eq_some_iff.mpr ⟨hq, hkey⟩
  rw [pass_of_read h.readable] at hq
  obtain rfl : q = r := Option.some.inj (hq.symm.trans hr)
  exact hnets

/-- After a pass a valid peer has its overlay address, unless it was there without and the pass has left it alone. -/
theorem overlayNet_after_pass_iff (h : s.Ready l) (chunk : FactChunk) :
    (pass l chunk s).1 = .ok () ∧
      ∀ q ∈ (pass l chunk s).2.device.peers, Belongs l chunk.facts q.publicKey → q.publicKey ≠ l.self →
        (q.publicKey.overlayNet ∈ q.allowedIps ↔
          ∀ p ∈ s.device.peers, p.publicKey = q.publicKey → LeftAlone l chunk s p →
            p.publicKey.overlayNet ∈ p.allowedIps) := by
  refine ⟨by rw [pass_of_read h.readable], fun q hq hbelongs hself => ?_⟩
  by_cases hin : q.publicKey ∈ s.device.peers.map DevicePeer.publicKey
  · obtain ⟨p, hp, hkey⟩ := List.mem_map.mp hin
    have hnets := nets_of_kept h hp (hkey ▸ hbelongs) (hkey ▸ hself) hq hkey.symm
    have honly : ∀ r ∈ s.device.peers, r.publicKey = q.publicKey → r = p := fun r hr hkeyr =>
      List.inj_on_of_nodup_map h.distinct hr hp (hkeyr.trans hkey.symm)
    rw [← List.mem_toFinset, hnets, ← hkey, overlayNet_mem_netsAfter]
    constructor
    · intro hkept r hr hkeyr halone
      obtain rfl := honly r hr (hkeyr.trans hkey)
      exact hkept halone
    · intro hkept halone
      exact hkept p hp rfl halone
  · obtain ⟨hnew, -⟩ := newcomer_of_mem_pass hq hin
    refine iff_of_true (by rw [hnew]; exact List.mem_singleton.mpr rfl) fun p hp hkey => ?_
    exact absurd (hkey ▸ List.mem_map_of_mem hp) hin

/-- Of two configured peers without their overlay addresses, the one that works keeps doing without. -/
theorem overlayNet_after_pass_pair :
    let working : PublicKey := ⟨.ofNatLE 32 1⟩
    let silent : PublicKey := ⟨.ofNatLE 32 2⟩
    let other : Net := .v4 0x0a000002 32
    let l : Link :=
      { config := { iface := "wg0", peers := .ofList [(working, {}), (silent, {})] }, self := ⟨.ofNatLE 32 3⟩,
        bootId := .zero 16, started := 0, resolve := fun _ => [] }
    let p : DevicePeer :=
      { publicKey := working, endpoint := some (.v4 0xc0000201 51820), allowedIps := [other],
        lastHandshake := some 0 }
    let device : DeviceState := ⟨"wg0", default, 51820, [p, { publicKey := silent, allowedIps := [other] }]⟩
    let s : LinkState := { device := { state := device } }
    let chunk : FactChunk := ⟨[], 0, false, false⟩
    s.Ready l ∧
      (∃ q ∈ (pass l chunk s).2.device.peers, q.publicKey = working ∧ q.publicKey.overlayNet ∉ q.allowedIps) ∧
      ∃ q ∈ (pass l chunk s).2.device.peers, q.publicKey = silent ∧ q.publicKey.overlayNet ∈ q.allowedIps := by
  intro working silent other l p device s chunk
  have hready : s.Ready l := ⟨by decide +kernel, rfl, by decide +kernel⟩
  obtain ⟨-, hafter⟩ := overlayNet_after_pass_iff hready chunk
  refine ⟨hready, ?_, ?_⟩
  · obtain ⟨q, hq, hkey⟩ : ∃ q ∈ (pass l chunk s).2.device.peers, q.publicKey = working := by decide +kernel
    refine ⟨q, hq, hkey, fun hin => ?_⟩
    have halone : LeftAlone l chunk s p := ⟨by decide +kernel, by decide +kernel⟩
    have hkept := (hafter q hq (.inl (hkey ▸ by decide +kernel)) (hkey ▸ by decide +kernel)).mp hin p
      (by simp [s, device, MemoryDevice.peers]) hkey.symm halone
    exact absurd hkept (by decide +kernel)
  · obtain ⟨q, hq, hkey⟩ : ∃ q ∈ (pass l chunk s).2.device.peers, q.publicKey = silent := by decide +kernel
    refine ⟨q, hq, hkey, ?_⟩
    refine (hafter q hq (.inl (hkey ▸ by decide +kernel)) (hkey ▸ by decide +kernel)).mpr fun r hr hkeyr halone => ?_
    have hfails : ∀ r ∈ s.device.peers, r.publicKey = silent → (sighting s r chunk.now).healthy = false := by
      decide +kernel
    have hsilent := hfails r hr (hkeyr.trans hkey)
    rw [halone.works] at hsilent
    cases hsilent

/-- A valid peer may be left without its overlay address. -/
theorem overlayNet_missing_after_pass :
    ¬ ∀ (l : Link) (chunk : FactChunk) (s : LinkState), s.Ready l →
      ∀ q ∈ (pass l chunk s).2.device.peers, Belongs l chunk.facts q.publicKey → q.publicKey ≠ l.self →
        q.publicKey.overlayNet ∈ q.allowedIps := by
  intro hall
  let working : PublicKey := ⟨.ofNatLE 32 1⟩
  let l : Link :=
    { config := { iface := "wg0", peers := .ofList [(working, {})] }, self := ⟨.ofNatLE 32 3⟩,
      bootId := .zero 16, started := 0, resolve := fun _ => [] }
  let p : DevicePeer :=
    { publicKey := working, endpoint := some (.v4 0xc0000201 51820), allowedIps := [.v4 0x0a000002 32],
      lastHandshake := some 0 }
  let s : LinkState := { device := { state := ⟨"wg0", default, 51820, [p]⟩ } }
  let chunk : FactChunk := ⟨[], 0, false, false⟩
  have hafter : p ∈ (pass l chunk s).2.device.peers := by decide +kernel
  have hkept := hall l chunk s ⟨by decide +kernel, rfl, by decide +kernel⟩ p hafter (.inl (by decide +kernel))
    (by decide +kernel)
  exact absurd hkept (by decide +kernel)

end Reconcile

end MeshFacts
