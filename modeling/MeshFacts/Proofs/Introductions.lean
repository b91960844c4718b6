import MeshFacts.Proofs.Announcements
import MeshFacts.Proofs.Newcomers

/-! # Introductions
One exchange is enough for a hub to introduce all of its peers. Each fact that the hub tells comes through packing,
signing and unpacking, the spoke believes it, and the pass that follows adds the peers that are missing. -/
namespace MeshFacts

namespace Server
variable {sv hub spoke : Server} {other : PublicKey} {source : SocketAddr} {now : Instant}

/-- A node that holds nothing yet, may change the peers of its device, and lets another introduce peers. -/
structure Welcomes (sv : Server) (other : PublicKey) : Prop where
  readable : sv.device.read sv.link.config.iface = .ok sv.device.state
  willing : sv.device.failing = []
  own : sv.outlet.signer.publicKey = sv.link.self
  holds_nothing : sv.current = []
  no_router : sv.link.isLocalRouter sv.interfaces = false
  selfTrust : sv.link.selfTrust < .allowedIps
  manages : sv.link.config.managePeers = true
  trusts : ∃ level, sv.link.config.peers.trust? other = some level ∧ .addPeer ≤ level
  distinct : Opinion.Distinct sv.link.config.peers sv.device.peers other

/-- Takes all packets of a sender as one chunk and brings the device in line with it. -/
def receive (sv : Server) (source : SocketAddr) (now : Instant) (packets : List (List UInt8)) : Option Server :=
  match Packet.unpackAll source now sv.outlet.signer packets with
  | .error _ => none
  | .ok facts =>
    match sv.process now { facts := facts } with
    | (.error _, _) => none
    | (.ok chunk, next) =>
      match next.reconcile chunk with
      | (.error _, _) => none
      | (.ok (), last) => some last

/-- One exchange: the hub, which has received nothing, tells its peers, and the spoke receives what is for it. -/
def exchange (hub spoke : Server) (source : SocketAddr) (now : Instant) : Option Server :=
  match hub.packetsFor spoke.link.self now {} with
  | .error _ => none
  | .ok packets => spoke.receive source now packets

lemma exists_receive_of_unpackAll {packets : List (List UInt8)} {facts : List ReceivedFact}
    (hread : sv.device.read sv.link.config.iface = .ok sv.device.state) (hnone : sv.current = [])
    (hunpack : Packet.unpackAll source now sv.outlet.signer packets = .ok facts) :
    ∃ (s : LinkState) (after : Server), s.device = sv.device ∧ sv.receive source now packets = some after ∧
      after.device = (Reconcile.pass sv.link (sv.firstHeld { facts := facts } now) s).2.device := by
  have hprocess := process_of_read hread hnone { facts := facts } now
  set chunk := sv.firstHeld { facts := facts } now
  set s : LinkState := { sv.outlet.state with
    cached := some sv.device.state
    knowledge := ((Link.noteReceived sv.outlet.state.knowledge facts).expire now).2 }
  set next : Server := { sv.withState s with current := chunk.facts }
  have hreadable : s.device.read sv.link.config.iface = .ok s.device.state := hread
  have hdone : (Reconcile.pass sv.link chunk s).1 = .ok () := by rw [Reconcile.pass_of_read hreadable]
  have hreconcile : next.reconcile chunk = (.ok (), next.withState (Reconcile.pass sv.link chunk s).2) := by
    change ((Reconcile.pass sv.link chunk s).1.mapError EngineError.device, _) = _
    rw [hdone]
    rfl
  refine ⟨s, next.withState (Reconcile.pass sv.link chunk s).2, rfl, ?_, rfl⟩
  simp only [receive, hunpack, hprocess, hreconcile]

namespace Welcomes
variable {packets : List (List UInt8)} {told : List Fact}

lemma accepts (h : sv.Welcomes other) (hsource : source.ip = other.overlayIp) {f : Fact} (hkind : f.kind = .membership)
    (hlive : now < f.expires) :
    sv.link.accepts (Opinion.standard sv.link.config.peers sv.device.peers) now ⟨f, source, other⟩ = true := by
  obtain ⟨level, htrust, hle⟩ := h.trusts
  refine (Link.accepts_iff (r := ⟨f, source, other⟩) hsource h.distinct).mpr ⟨by simp [hkind], hlive, level, ?_, ?_⟩
  · simp [Opinion.standing, htrust]
  · simpa [shouldAccept, hkind] using hle

lemma exists_mem_firstHeld (h : sv.Welcomes other) (hsource : source.ip = other.overlayIp) {received : ReceivedChunk}
    {f : Fact} (hf : ⟨f, source, other⟩ ∈ received.facts) (hkind : f.kind = .membership) (hlive : now < f.expires) :
    ∃ g ∈ (sv.firstHeld received now).facts, g.kind = .membership ∧ g.subject = f.subject := by
  have haccepted : f ∈ (received.facts.filter (sv.link.accepts
      (Opinion.standard sv.link.config.peers sv.device.peers) now)).map ReceivedFact.fact :=
    List.mem_map.mpr ⟨_, List.mem_filter.mpr ⟨hf, h.accepts hsource hkind hlive⟩, rfl⟩
  obtain ⟨g, hg, hkey, -⟩ := Link.exists_mem_heldFacts (.inr (.inl haccepted)) hlive
  exact ⟨g, hg, (congrArg FactKey.kind hkey).trans hkind, congrArg FactKey.subject hkey⟩

/-- What a node receives brings the members onto its device, and besides them only peers that it has configured
itself. -/
theorem exists_receive (h : sv.Welcomes other) (hsource : source.ip = other.overlayIp)
    (hunpack : Packet.unpackAll source now sv.outlet.signer packets =
      .ok (told.map fun f => ⟨f.asRead now, source, other⟩)) :
    ∃ after, sv.receive source now packets = some after ∧
      (∀ f ∈ told, f.kind = .membership → now + Clock.factTtl ≤ f.expires → f.subject ≠ sv.link.self →
        f.subject ∈ after.device.peers.map DevicePeer.publicKey) ∧
      ∀ q ∈ after.device.peers, q.publicKey ∉ sv.device.peers.map DevicePeer.publicKey →
        q = .newcomer q.publicKey ∧ q.publicKey ≠ sv.link.self ∧
          (sv.link.config.peers.contains q.publicKey = true ∨
            ∃ f ∈ told, f.kind = .membership ∧ f.subject = q.publicKey) := by
  obtain ⟨s, after, hs, hafter, hdevice⟩ := exists_receive_of_unpackAll h.readable h.holds_nothing hunpack
  set received : ReceivedChunk := { facts := told.map fun f => ⟨f.asRead now, source, other⟩ }
  set chunk := sv.firstHeld received now with hchunk
  have hreadable : s.device.read sv.link.config.iface = .ok s.device.state := hs ▸ h.readable
  have hallow : sv.link.allowDeconfigure chunk.router = true := by
    simp [Link.allowDeconfigure, hchunk, firstHeld, h.no_router, h.selfTrust]
  refine ⟨after, hafter, ?_, ?_⟩
  · intro f hf hkind hlong hself
    have hread : ⟨f.asRead now, source, other⟩ ∈ received.facts := List.mem_map_of_mem hf
    obtain ⟨g, hg, hgkind, hsubject⟩ := h.exists_mem_firstHeld hsource hread hkind (Fact.lt_expires_asRead hlong)
    have hsubject : g.subject = f.subject := hsubject
    rw [hdevice, ← hsubject]
    exact Reconcile.mem_keys_pass_of_membership hreadable (hs ▸ h.willing) h.manages hallow hg hgkind (hsubject ▸ hself)
  · intro q hq hnew
    rw [hdevice] at hq
    obtain ⟨hcomes, hself, hwhy⟩ := Reconcile.newcomer_of_mem_pass hq (hs ▸ hnew)
    refine ⟨hcomes, hself, ?_⟩
    rcases hwhy with hconfigured | ⟨g, hg, hsubject, hkind⟩
    · exact .inl hconfigured
    · rcases mem_firstHeld hg with ⟨r, hr, rfl⟩ | hown
      · obtain ⟨f, hf, rfl⟩ := List.mem_map.mp hr
        exact .inr ⟨f, hf, hkind, hsubject⟩
      · refine .inl (hsubject ▸ ?_)
        exact (Link.asserts_of_mem_localFacts hown).contains_of_membership hkind (hsubject ▸ hself)

end Welcomes

/-- One exchange puts on the spoke's device all peers that the hub has configured but the two themselves, each with
its overlay address only, and nobody else but peers of its own configuration. -/
theorem exchange_introduces (hhub : hub.Announces spoke.link.self) (hspoke : spoke.Welcomes hub.link.self)
    (hagrees : hub.outlet.signer.Agrees spoke.outlet.signer) (hsource : source.ip = hub.link.self.overlayIp)
    (now : Instant) :
    ∃ after, hub.exchange spoke source now = some after ∧
      (∀ k ∈ hub.link.config.peers.keys, k ≠ hub.link.self → k ≠ spoke.link.self →
        k ∈ after.device.peers.map DevicePeer.publicKey) ∧
      ∀ q ∈ after.device.peers, q.publicKey ∉ spoke.device.peers.map DevicePeer.publicKey →
        q.allowedIps = [q.publicKey.overlayNet] ∧ q.endpoint = none ∧ q.publicKey ≠ spoke.link.self ∧
          (q.publicKey ∈ spoke.link.config.peers.keys ∨
            q.publicKey ∈ hub.link.config.peers.keys ∧ q.publicKey ≠ hub.link.self) := by
  obtain ⟨packets, told, hpackets, hasserted, hmembers, hunpack⟩ := hhub.exists_packetsFor now
  obtain ⟨after, hafter, hin, honly⟩ := hspoke.exists_receive hsource (hunpack _ source hspoke.own hagrees hsource)
  refine ⟨after, by simp only [exchange, hpackets, hafter], ?_, ?_⟩
  · intro k hk hhubSelf hspokeSelf
    obtain ⟨f, hf, hkind, rfl, hlong⟩ := hmembers k ((Table.mem_keys_iff _ _).mp hk) hhubSelf hspokeSelf
    exact hin f hf hkind hlong hspokeSelf
  · intro q hq hnew
    obtain ⟨hcomes, hself, hwhy⟩ := honly q hq hnew
    refine ⟨by rw [hcomes]; rfl, by rw [hcomes]; rfl, hself, ?_⟩
    rw [Table.mem_keys_iff, Table.mem_keys_iff]
    rcases hwhy with hconfigured | ⟨f, hf, hkind, hsubject⟩
    · exact .inl hconfigured
    · by_cases hhubSelf : q.publicKey = hub.link.self
      · have hconfigured : spoke.link.config.peers.contains q.publicKey = true := by
          obtain ⟨level, htrust, -⟩ := hspoke.trusts
          obtain ⟨entry, hentry, -⟩ := Option.bind_eq_some_iff.mp htrust
          simp [Table.contains, hhubSelf, hentry]
        exact .inl hconfigured
      · rw [← hsubject] at hhubSelf ⊢
        exact .inr ⟨(Link.asserts_of_mem_localFacts (hasserted f hf)).contains_of_membership hkind hhubSelf, hhubSelf⟩

/-- A hub with forty members, and a spoke that knows nobody but the hub. -/
theorem exchange_introduces_forty :
    let a := KeyPair.ofPrivate ⟨.ofNatLE 32 8⟩
    let b := KeyPair.ofPrivate ⟨.ofNatLE 32 16⟩
    let members : List PublicKey := (List.range 40).map fun n => ⟨.ofNatLE 32 (n + 1)⟩
    let hub : Server :=
      { link :=
          { config := { iface := "wg0", peers := .ofList (members.map fun k => (k, {})) }
            self := a.publicKey, bootId := .zero 16, started := 0, resolve := fun _ => [] }
        interfaces := [], lost := fun _ _ => false
        outlet :=
          { state := { device := { state := ⟨"wg0", a, 51820, [.newcomer b.publicKey]⟩ } }
            signer := .ofPair a, nonces := ⟨0⟩ } }
    let spoke : Server :=
      { link :=
          { config := { iface := "wg0", peers := .ofList [(a.publicKey, { trust := some .addPeer })] }
            self := b.publicKey, bootId := .zero 16, started := 0, resolve := fun _ => [] }
        interfaces := [], lost := fun _ _ => false
        outlet :=
          { state := { device := { state := ⟨"wg0", b, 51820, [.newcomer a.publicKey]⟩ } }
            signer := .ofPair b, nonces := ⟨0⟩ } }
    let source : SocketAddr := .ofIp a.publicKey.overlayIp 51821
    hub.Announces b.publicKey ∧ spoke.Welcomes a.publicKey ∧ hub.outlet.signer.Agrees spoke.outlet.signer ∧
      ∃ after, hub.exchange spoke source 0 = some after ∧
        ∀ k ∈ members, k ∈ after.device.peers.map DevicePeer.publicKey := by
  intro a b members hub spoke source
  have hhub : hub.Announces b.publicKey :=
    ⟨rfl, rfl, rfl, rfl, List.mem_singleton.mpr rfl, by decide +kernel, by decide +kernel, fun _ => rfl⟩
  have hspoke : spoke.Welcomes a.publicKey :=
    ⟨rfl, rfl, rfl, rfl, rfl, by decide +kernel, rfl, ⟨.addPeer, by decide +kernel, by decide⟩, by decide +kernel⟩
  have hagrees : hub.outlet.signer.Agrees spoke.outlet.signer := by decide +kernel
  have hsource : source.ip = hub.link.self.overlayIp := rfl
  obtain ⟨after, hafter, hin, -⟩ := exchange_introduces hhub hspoke hagrees hsource 0
  refine ⟨hhub, hspoke, hagrees, after, hafter, fun k hk => hin k ?_ ?_ ?_⟩
  · revert k
    decide +kernel
  · revert k
    decide +kernel
  · revert k
    decide +kernel

end Server

end MeshFacts
