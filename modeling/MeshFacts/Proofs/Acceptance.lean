import MeshFacts.Proofs.FactMerging

/-! # Acceptance
Whether a received fact enters the fact set follows from what its sender is: configured, a router or a peer of the
device, in that order. So whoever is configured as untrusted is never believed, whatever it is on the device. -/
namespace MeshFacts

namespace Link

/-- When a fact is believed of its sender. What is configured for the sender goes before what it is on the device. -/
inductive Admits (l : Link) (peers : List DevicePeer) (sender : PublicKey) (f : Fact) : Prop
  | configured {level : TrustLevel} (ht : l.config.peers.trust? sender = some level)
      (ha : shouldAccept f.kind (decide (l.Knows peers f.subject)) level = true)
  | router (ht : l.config.peers.trust? sender = none) {p : DevicePeer} (hp : p ∈ peers) (hk : p.publicKey = sender)
      {net : Net} (hn : net ∈ p.allowedIps) (hr : net.isRouter = true)
      (ha : shouldAccept f.kind (decide (l.Knows peers f.subject)) .addPeer = true)
  | acquainted (ht : l.config.peers.trust? sender = none)
      (hr : ∀ p ∈ peers, p.publicKey = sender → ∀ net ∈ p.allowedIps, net.isRouter = false)
      {p : DevicePeer} (hp : p ∈ peers) (hk : p.publicKey = sender) (he : f.kind.isEndpoint = true)
      (ha : shouldAccept f.kind (decide (l.Knows peers f.subject)) .endpoint = true)

variable {l : Link} {peers : List DevicePeer} {sender : PublicKey} {f : Fact}

/-- The standing of a sender says what is believed of it. -/
lemma admits_iff : l.Admits peers sender f ↔ ∃ level, Opinion.standing l.config.peers peers f sender = some level ∧
    shouldAccept f.kind (decide (l.Knows peers f.subject)) level = true := by
  cases ht : l.config.peers.trust? sender with
  | some trust =>
    have hs : Opinion.standing l.config.peers peers f sender = some trust := by simp [Opinion.standing, ht]
    rw [hs]
    constructor
    · rintro (⟨ht', ha⟩ | ⟨ht', _⟩ | ⟨ht', _⟩)
      · exact ⟨trust, rfl, Option.some.inj (ht.symm.trans ht') ▸ ha⟩
      · cases ht.symm.trans ht'
      · cases ht.symm.trans ht'
    · rintro ⟨level, hlevel, ha⟩
      exact .configured (ht.trans hlevel) ha
  | none =>
    have hrouter : (∃ p ∈ peers, p.publicKey = sender ∧ p.isRouter = true) ↔
        ∃ p ∈ peers, p.publicKey = sender ∧ ∃ net ∈ p.allowedIps, net.isRouter = true := by
      simp [DevicePeer.isRouter]
    have hs : Opinion.standing l.config.peers peers f sender =
        if ∃ p ∈ peers, p.publicKey = sender ∧ ∃ net ∈ p.allowedIps, net.isRouter = true then some .addPeer
        else if f.kind.isEndpoint = true ∧ ∃ p ∈ peers, p.publicKey = sender then some .endpoint else none := by
      simp [Opinion.standing, ht, hrouter]
    rw [hs]
    constructor
    · rintro (⟨ht', -⟩ | ⟨-, hp, hk, hn, hr, ha⟩ | ⟨-, hr, hp, hk, he, ha⟩)
      · cases ht.symm.trans ht'
      · exact ⟨.addPeer, if_pos ⟨_, hp, hk, _, hn, hr⟩, ha⟩
      · have hnone : ¬ ∃ p ∈ peers, p.publicKey = sender ∧ ∃ net ∈ p.allowedIps, net.isRouter = true := by
          rintro ⟨q, hq, hkq, net, hnet, hyes⟩
          simp [hr q hq hkq net hnet] at hyes
        exact ⟨.endpoint, by rw [if_neg hnone, if_pos ⟨he, _, hp, hk⟩], ha⟩
    · rintro ⟨level, hlevel, ha⟩
      split_ifs at hlevel with hr he
      · obtain ⟨p, hp, hk, net, hn, hnet⟩ := hr
        exact .router ht hp hk hn hnet (Option.some.inj hlevel ▸ ha)
      · obtain ⟨he, p, hp, hk⟩ := he
        refine .acquainted ht (fun q hq hkq net hnet => ?_) hp hk he (Option.some.inj hlevel ▸ ha)
        by_contra hyes
        exact hr ⟨q, hq, hkq, net, hnet, by simpa using hyes⟩

lemma shouldAccept_untrusted (a : Attribute) (known : Bool) : shouldAccept a known .untrusted = false := by
  cases a <;> cases known <;> rfl

lemma not_admits_of_untrusted (ht : l.config.peers.trust? sender = some .untrusted) : ¬ l.Admits peers sender f := by
  rintro (⟨ht', ha⟩ | ⟨ht', -⟩ | ⟨ht', -⟩)
  · obtain rfl := Option.some.inj (ht.symm.trans ht')
    rw [shouldAccept_untrusted] at ha
    cases ha
  · cases ht.symm.trans ht'
  · cases ht.symm.trans ht'

/-- Processing takes up the facts that have not ended and that their senders are believed for, none of them that a
peer is alive. What is held is these, what was held before and the node's own. -/
theorem process_admits (l : Link) (interfaces : List NetInterface) (current : List Fact) (chunk : ReceivedChunk)
    (now : Instant) (s : LinkState) {device : DeviceState} (hread : (l.refresh s).1 = .ok device)
    (hsource : ∀ r ∈ chunk.facts, r.source.ip = r.sender.overlayIp)
    (hdistinct : ∀ r ∈ chunk.facts, Opinion.Distinct l.config.peers device.peers r.sender) :
    ∃ (accepted : ReceivedFact → Bool) (held : List Fact),
      (l.process interfaces current chunk now s).1 = .ok ⟨held, now, l.isLocalRouter interfaces, chunk.print⟩ ∧
      held = heldFacts current ((chunk.facts.filter accepted).map ReceivedFact.fact) (l.localFacts device interfaces now)
        now ∧
      (∀ r ∈ chunk.facts,
        (accepted r = true ↔ r.fact.kind ≠ .alive ∧ now < r.fact.expires ∧ l.Admits device.peers r.sender r.fact) ∧
        (l.config.peers.trust? r.sender = some .untrusted → accepted r = false) ∧
        (accepted r = true → ∃ f ∈ held, f.key = r.fact.key ∧ r.fact.expires ≤ f.expires)) ∧
      ∀ f ∈ held, now < f.expires ∧ (f ∈ current ∨ f ∈ l.localFacts device interfaces now ∨
        ∃ r ∈ chunk.facts, accepted r = true ∧ r.fact = f) := by
  refine ⟨l.accepts (Opinion.standard l.config.peers device.peers) now, _, ?_, rfl, fun r hr => ?_, fun f hf => ?_⟩
  · obtain ⟨t, ht⟩ : ∃ t, l.refresh s = (.ok device, t) := ⟨_, Prod.ext hread rfl⟩
    simp only [process, ht]
  · have hiff : l.accepts (Opinion.standard l.config.peers device.peers) now r = true ↔
        r.fact.kind ≠ .alive ∧ now < r.fact.expires ∧ l.Admits device.peers r.sender r.fact := by
      rw [accepts_iff (hsource r hr) (hdistinct r hr), admits_iff]
    refine ⟨hiff, fun ht => ?_, fun haccepted => ?_⟩
    · rw [← Bool.not_eq_true, hiff]
      exact fun h => not_admits_of_untrusted ht h.2.2
    · have htaken : r.fact ∈ (chunk.facts.filter (l.accepts (Opinion.standard l.config.peers device.peers) now)).map
          ReceivedFact.fact := List.mem_map_of_mem (List.mem_filter.mpr ⟨hr, haccepted⟩)
      exact exists_mem_heldFacts (.inr (.inl htaken)) (hiff.mp haccepted).2.1
  · obtain ⟨htime, hcurrent | haccepted | hown⟩ := mem_heldFacts hf
    · exact ⟨htime, .inl hcurrent⟩
    · obtain ⟨r, hr, rfl⟩ := List.mem_map.mp haccepted
      exact ⟨htime, .inr (.inr ⟨r, (List.mem_filter.mp hr).1, (List.mem_filter.mp hr).2, rfl⟩)⟩
    · exact ⟨htime, .inr (.inl hown)⟩

/-- A router that is configured as untrusted, one that is not, and a peer that is no router. -/
theorem process_admits_routers :
    let untrusted : PublicKey := ⟨.ofNatLE 32 1⟩
    let router : PublicKey := ⟨.ofNatLE 32 2⟩
    let leaf : PublicKey := ⟨.ofNatLE 32 3⟩
    let newcomer : PublicKey := ⟨.ofNatLE 32 4⟩
    let peers : PeerTable := .ofList [(untrusted, { trust := some .untrusted }), (leaf, {})]
    let l : Link :=
      { config := { iface := "wg0", peers := peers }, self := ⟨.ofNatLE 32 5⟩, bootId := .zero 16, started := 0,
        resolve := fun _ => [] }
    let wide : Net := .v4 0x0a000000 8
    let device : DeviceState := ⟨"wg0", default, 51820,
      [{ publicKey := untrusted, allowedIps := [wide] }, { publicKey := router, allowedIps := [wide] },
        { publicKey := leaf }]⟩
    let member : Fact := .membership newcomer 90000000000
    let reached : Fact := .endpoint newcomer (.v4 0xc0000209 7) 90000000000
    let lured : Fact := .endpoint newcomer (.v4 0xc000020a 7) 90000000000
    let told (k : PublicKey) (f : Fact) : ReceivedFact := ⟨f, .ofIp k.overlayIp 51821, k⟩
    let chunk : ReceivedChunk :=
      { facts := [told untrusted lured, told untrusted reached, told router member, told leaf member,
          told leaf reached] }
    (∀ r ∈ chunk.facts, r.source.ip = r.sender.overlayIp) ∧
      (∀ r ∈ chunk.facts, Opinion.Distinct peers device.peers r.sender) ∧
      ∃ (accepted : ReceivedFact → Bool) (held : List Fact), accepted (told untrusted lured) = false ∧
        accepted (told untrusted reached) = false ∧
        accepted (told router member) = true ∧ accepted (told leaf member) = false ∧
        accepted (told leaf reached) = true ∧
        (l.process [] [] chunk 0 { device := { state := device } }).1 = .ok ⟨held, 0, false, false⟩ ∧
        held = heldFacts [] ((chunk.facts.filter accepted).map ReceivedFact.fact) (l.localFacts device [] 0) 0 ∧
        (∃ f ∈ held, f.key = member.key ∧ member.expires ≤ f.expires) ∧
        (∃ f ∈ held, f.key = reached.key ∧ reached.expires ≤ f.expires) ∧ lured ∉ held := by
  intro untrusted router leaf newcomer peers l wide device member reached lured told chunk
  have hsource : ∀ r ∈ chunk.facts, r.source.ip = r.sender.overlayIp := by decide +kernel
  have hdistinct : ∀ r ∈ chunk.facts, Opinion.Distinct peers device.peers r.sender := by decide +kernel
  have hread : (l.refresh { device := { state := device } }).1 = .ok device := by rfl
  obtain ⟨accepted, held, hprocess, hheld, haccepted, horigin⟩ :=
    process_admits l [] [] chunk 0 _ hread hsource hdistinct
  have huntrusted : ∀ f, told untrusted f ∈ chunk.facts → accepted (told untrusted f) = false :=
    fun f hf => (haccepted _ hf).2.1 (show peers.trust? untrusted = some .untrusted by decide +kernel)
  obtain ⟨hmember, -, hmemberHeld⟩ := haccepted (told router member) (by simp [chunk])
  obtain ⟨hreached, -, hreachedHeld⟩ := haccepted (told leaf reached) (by simp [chunk])
  have htaken : accepted (told router member) = true := hmember.mpr ⟨by decide, by decide, .router (by decide +kernel)
    (p := { publicKey := router, allowedIps := [wide] }) (by simp [device]) rfl (show wide ∈ [wide] by simp) (by decide)
    (by decide +kernel)⟩
  have htaken' : accepted (told leaf reached) = true := hreached.mpr ⟨by decide, by decide, .acquainted
    (by decide +kernel) (by decide +kernel) (p := { publicKey := leaf }) (by simp [device]) rfl rfl rfl⟩
  refine ⟨hsource, hdistinct, accepted, held, huntrusted lured (by simp [chunk]), huntrusted reached (by simp [chunk]),
    htaken, ?_, htaken', hprocess, hheld, hmemberHeld htaken, hreachedHeld htaken', fun hlured => ?_⟩
  · rw [← Bool.not_eq_true, (haccepted (told leaf member) (by simp [chunk])).1]
    rintro ⟨-, -, hadmits⟩
    obtain ⟨level, hlevel, -⟩ := admits_iff.mp hadmits
    have hnone : Opinion.standing peers device.peers member leaf = none := by decide +kernel
    cases hnone.symm.trans hlevel
  · obtain ⟨-, hbefore | hown | ⟨r, hr, hyes, hfact⟩⟩ := horigin lured hlured
    · cases hbefore
    · exact absurd hown (by decide +kernel)
    · have honly : ∀ r ∈ chunk.facts, r.fact = lured → r = told untrusted lured := by decide +kernel
      rw [honly r hr hfact, huntrusted lured (by simp [chunk])] at hyes
      cases hyes

end Link

end MeshFacts
