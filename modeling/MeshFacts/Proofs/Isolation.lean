import MeshFacts.Proofs.Interleavings

/-! # Isolation
A peer that the device rejects is left as it is, and for every other peer a pass does what it does where the device
rejects none. Nor does it matter in which order the configurations of peers go on. -/
namespace MeshFacts

/-- The same state on a device that rejects updates of the given peers. -/
def LinkState.refusing (s : LinkState) (failing : List PublicKey) : LinkState :=
  { s with device := { s.device with failing := failing } }

namespace Reconcile
variable {l : Link} {chunk : FactChunk} {s : LinkState} {k : PublicKey}

lemma entry_of_failing (hk : k ∈ s.device.failing) :
    (pass l chunk s).2.device.state.peer? k = s.device.state.peer? k := by
  by_cases hread : s.device.read l.config.iface = .ok s.device.state
  · obtain ⟨-, hname⟩ := read_eq_ok hread
    rw [(asks_pass hread).device, MemoryDevice.foldl_asked hname]
    refine MemoryDevice.peer?_foldl_make_of_ne fun u hu heq => ?_
    have hwilling := (List.mem_filter.mp hu).2
    simp [heq, hk] at hwilling
  · rw [pass_of_unread hread]

lemma same_pass_refusing (hd : (s.device.peers.map DevicePeer.publicKey).Nodup) {failing : List PublicKey}
    (hk : k ∉ failing) : (pass l chunk (s.refusing [])).2.Same k (pass l chunk (s.refusing failing)).2 := by
  by_cases hread : s.device.read l.config.iface = .ok s.device.state
  · have hseen : LinkState.Alike l k
        (seen l s.device.peers chunk { s.refusing [] with cached := some s.device.state })
        (seen l s.device.peers chunk { s.refusing failing with cached := some s.device.state }) :=
      ⟨⟨rfl, rfl, fun _ => rfl, rfl⟩,
        by simp [LinkState.Takes, seen, observe, retain, LinkState.refusing, hk], hd, hd⟩
    rw [pass_of_read (s := s.refusing []) hread, pass_of_read (s := s.refusing failing) hread]
    exact (alike_passOn hseen fun _ => rfl).same
  · rw [pass_of_unread (s := s.refusing []) hread, pass_of_unread (s := s.refusing failing) hread]
    exact ⟨rfl, rfl, fun _ => rfl, rfl⟩

/-- In whatever order the configurations of peers go on, a pass ends with the same device, histories and knowledge.
Peers that the device rejects stay as they were, and all others end as they would without them. -/
theorem pass_isolated (l : Link) (chunk : FactChunk) (s : LinkState)
    (hd : (s.device.peers.map DevicePeer.publicKey).Nodup) :
    (∀ turns, Fanout.Completes l s.device.peers chunk (seen l s.device.peers chunk (l.refresh s).2) turns →
      (passInTurns l chunk turns s).1 = (pass l chunk s).1 ∧
        (pass l chunk s).2.Agree (passInTurns l chunk turns s).2) ∧
      ∀ failing : List PublicKey,
        (pass l chunk (s.refusing failing)).1 = (pass l chunk (s.refusing [])).1 ∧
          (s.device.read l.config.iface = .ok s.device.state → (pass l chunk (s.refusing failing)).1 = .ok ()) ∧
          (∀ k ∈ failing,
            (pass l chunk (s.refusing failing)).2.device.state.peer? k = s.device.state.peer? k) ∧
          ∀ k ∉ failing, (pass l chunk (s.refusing [])).2.Same k (pass l chunk (s.refusing failing)).2 := by
  refine ⟨fun turns h => passInTurns_agrees hd h, fun failing => ⟨?_, ?_, ?_, ?_⟩⟩
  · unfold pass Link.refresh
    have hread : (s.refusing failing).device.read l.config.iface = (s.refusing []).device.read l.config.iface := rfl
    rw [hread]
    cases (s.refusing []).device.read l.config.iface <;> rfl
  · intro hread
    rw [pass_of_read (s := s.refusing failing) hread]
  · exact fun k hk => entry_of_failing (s := s.refusing failing) hk
  · exact fun k hk => same_pass_refusing hd hk

/-- Of two peers that take turns, one is rejected; the other gets its address and its next endpoint. -/
theorem pass_isolated_pair :
    let friend : PublicKey := ⟨.ofNatLE 32 1⟩
    let broken : PublicKey := ⟨.ofNatLE 32 2⟩
    let home : SocketAddr := .ofIp friend.overlayIp 5
    let peers : PeerTable := .ofList [(friend, { endpoints := ["home"] }), (broken, { endpoints := ["home"] })]
    let l : Link :=
      { config := { iface := "wg0", peers := peers }, self := ⟨.ofNatLE 32 3⟩, bootId := .zero 16, started := 0,
        resolve := fun _ => [home] }
    let p : DevicePeer := { publicKey := friend }
    let q : DevicePeer := { publicKey := broken }
    let s : LinkState := { device := { state := ⟨"wg0", default, 51820, [p, q]⟩ } }
    let chunk : FactChunk := ⟨[], 0, false, false⟩
    (pass l chunk s).2.Agree (passInTurns l chunk [p, q, q, p, q, p, p, q, q, p, q, p] s).2 ∧
      (pass l chunk (s.refusing [broken])).2.device.state.peer? broken = some q ∧
      (pass l chunk (s.refusing [broken])).2.device.state.peer? friend =
        some { p with endpoint := some home, allowedIps := [friend.overlayNet] } := by
  intro friend broken home peers l p q s chunk
  obtain ⟨hturns, hrefusing⟩ := pass_isolated l chunk s (by decide +kernel)
  obtain ⟨-, -, hbroken, hothers⟩ := hrefusing [broken]
  have hcompletes : Fanout.Completes l s.device.peers chunk (seen l s.device.peers chunk (l.refresh s).2)
      [p, q, q, p, q, p, p, q, q, p, q, p] :=
    Fanout.completes_of_count (by decide +kernel) (by decide +kernel) (by decide +kernel)
  refine ⟨(hturns _ hcompletes).2, hbroken broken (by simp), ?_⟩
  rw [(hothers friend (by decide +kernel)).entry]
  decide +kernel

end Reconcile

end MeshFacts
