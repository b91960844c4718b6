import MeshFacts.Proofs.NodeRuns

/-! # Authority
Whatever a node changes on its device somebody vouches for: the configuration, a sender that had the level for
it when its fact was received, or the device itself. -/
namespace MeshFacts

namespace Fact

lemma endpointAddr?_eq_some {f : Fact} {e : SocketAddr} (h : f.endpointAddr? = some e) :
    f.value = .ipPort e ∧ f.kind.isEndpoint = true := by
  unfold endpointAddr? at h
  split at h
  · split_ifs at h with hk
    exact ⟨by simp_all, hk⟩
  · cases h

end Fact

variable {level : TrustLevel} {known : Bool}

lemma le_of_shouldAccept_endpoint {a : Attribute} (ha : a.isEndpoint = true)
    (h : shouldAccept a known level = true) : .endpoint ≤ level := by
  cases a <;> simp_all [Attribute.isEndpoint, shouldAccept]

lemma le_of_shouldAccept_allowedIps {a : Attribute} (ha : a.isAllowedIps = true)
    (h : shouldAccept a known level = true) : (if known then .allowedIps else .addPeer) ≤ level := by
  cases a <;> cases known <;> simp_all [Attribute.isAllowedIps, shouldAccept]

lemma le_of_shouldAccept_membership (h : shouldAccept .membership known level = true) : .addPeer ≤ level := by
  simpa [shouldAccept] using h

/-- Facts come from the overlay addresses of their senders, which no other key that is configured or on the device
has. -/
def Reception.Genuine (l : Link) (c : Reception) : Prop :=
  ∀ r ∈ c.facts, r.source.ip = r.sender.overlayIp ∧
    Opinion.Distinct l.config.peers c.device.peers r.sender

instance (l : Link) (c : Reception) : Decidable (c.Genuine l) :=
  inferInstanceAs (Decidable (∀ r ∈ _, _ ∧ _))

namespace Node

/-- A fact was told by a sender that then was of the level asked for. -/
def Told (l : Link) (history : List Reception) (f : Fact) (needed : Reception → TrustLevel) : Prop :=
  ∃ c ∈ history, ∃ r ∈ c.facts, r.fact = f ∧
    ∃ level, Opinion.standing l.config.peers c.device.peers f r.sender = some level ∧ needed c ≤ level

/-- The level that networks of a peer take: more for a peer that was not known. -/
def netsLevel (l : Link) (k : PublicKey) (c : Reception) : TrustLevel :=
  if l.Knows c.device.peers k then .allowedIps else .addPeer

/-- A fact was told by a sender that may introduce peers: by its configured trust or, if none is configured, as
a router on the device. -/
def Introduced (l : Link) (history : List Reception) (f : Fact) : Prop :=
  ∃ c ∈ history, ∃ r ∈ c.facts, r.fact = f ∧
    ((∃ level, l.config.peers.trust? r.sender = some level ∧ .addPeer ≤ level) ∨
      l.config.peers.trust? r.sender = none ∧
        ∃ p ∈ c.device.peers, p.publicKey = r.sender ∧ p.isRouter = true)

def Seen (history : List Reception) (k : PublicKey) (e : SocketAddr) (now : Instant) : Prop :=
  ∃ c ∈ history, now < c.now + Clock.factTtl ∧ ∃ p ∈ c.device.peers, p.publicKey = k ∧
    (∃ t, p.lastHandshake = some t ∧ Clock.since c.now t < Clock.handshakeValidity) ∧
      ∃ used, p.endpoint = some used ∧ e = .ofIp used.ip.normalize used.port

variable {l : Link} {history : List Reception} {f : Fact}

lemma told_of_accepts {needed : Reception → TrustLevel} {c : Reception} {r : ReceivedFact} (hg : c.Genuine l)
    (hc : c ∈ history) (hr : r ∈ c.facts)
    (ha : l.accepts (Opinion.standard l.config.peers c.device.peers) c.now r = true)
    (hneeded : ∀ level,
      shouldAccept r.fact.kind (decide (l.Knows c.device.peers r.fact.subject)) level = true →
        needed c ≤ level) : Told l history r.fact needed := by
  obtain ⟨hs, hd⟩ := hg r hr
  obtain ⟨-, -, level, hl, haccept⟩ := (Link.accepts_iff hs hd).mp ha
  exact ⟨c, hc, r, hr, rfl, level, hl, hneeded level haccept⟩

lemma introduced_of_told (h : Told l history f fun _ => .addPeer) : Introduced l history f := by
  obtain ⟨c, hc, r, hr, rfl, level, hl, hle⟩ := h
  refine ⟨c, hc, r, hr, rfl, ?_⟩
  unfold Opinion.standing at hl
  cases ht : l.config.peers.trust? r.sender with
  | some trust =>
    rw [ht] at hl
    obtain rfl : trust = level := by simpa using hl
    exact .inl ⟨trust, rfl, hle⟩
  | none =>
    refine .inr ⟨rfl, ?_⟩
    by_contra hrouter
    rw [ht, if_neg hrouter] at hl
    split_ifs at hl with hpeer
    · obtain rfl : TrustLevel.endpoint = level := Option.some.inj hl
      exact absurd hle (by simp only; decide)
    · cases hl

lemma Origin.membership (h : Origin l history f) (hg : ∀ c ∈ history, c.Genuine l)
    (hk : f.kind = .membership) (hself : f.subject ≠ l.self) :
    l.config.peers.contains f.subject = true ∨ Introduced l history f := by
  cases h with
  | told hc hr hf ha =>
    subst hf
    refine .inr (introduced_of_told (told_of_accepts (hg _ hc) hc hr ha fun level hl => ?_))
    rw [hk] at hl
    exact le_of_shouldAccept_membership hl
  | asserted hc ha => exact .inl (ha.contains_of_membership hk hself)

lemma Origin.net {net : Net} (h : Origin l history f) (hg : ∀ c ∈ history, c.Genuine l)
    (hn : f.allowedNet? = some net) (hself : f.subject ≠ l.self) :
    (∃ n ∈ l.config.peers.allowedIps f.subject, net = n.normalize) ∨
      Told l history f (netsLevel l f.subject) := by
  obtain ⟨hk, hvalue⟩ := Fact.allowedNet?_eq_some_iff_kind.mp hn
  cases h with
  | told hc hr hf ha =>
    subst hf
    refine .inr (told_of_accepts (hg _ hc) hc hr ha fun level hl => ?_)
    simpa only [netsLevel, decide_eq_true_eq] using le_of_shouldAccept_allowedIps hk hl
  | asserted hc ha =>
    cases ha with
    | own hown => exact absurd hown hself
    | working => cases hvalue
    | member => cases hvalue
    | @net k n hmem => exact .inl ⟨n, hmem, (Value.ipNet.inj hvalue).symm⟩

lemma Origin.address {e : SocketAddr} {now : Instant} (h : Origin l history f)
    (hg : ∀ c ∈ history, c.Genuine l) (he : f.endpointAddr? = some e) (hself : f.subject ≠ l.self)
    (hnow : now < f.expires) :
    Told l history f (fun _ => .endpoint) ∨ Seen history f.subject e now := by
  obtain ⟨hvalue, hk⟩ := Fact.endpointAddr?_eq_some he
  cases h with
  | told hc hr hf ha =>
    subst hf
    exact .inl (told_of_accepts (hg _ hc) hc hr ha fun level hl => le_of_shouldAccept_endpoint hk hl)
  | @asserted c hc ha =>
    cases ha with
    | own hown => exact absurd hown hself
    | @working p used t hp hh ht hused =>
      exact .inr ⟨c, hc, hnow, p, hp, rfl, ⟨t, hh, ht⟩, used, hused, (Value.ipPort.inj hvalue).symm⟩
    | member => cases hvalue
    | net => cases hvalue

/-- Who may be added to the device: who is configured, or was introduced and still is a member. -/
def MayAdd (l : Link) (history : List Reception) (now : Instant) (k : PublicKey) : Prop :=
  l.config.peers.contains k = true ∨
    ∃ f, f.kind = .membership ∧ f.subject = k ∧ now < f.expires ∧ Introduced l history f

/-- The networks that a peer may be given: its overlay address, those configured, and those that somebody of the
level for it told of. -/
def MayRoute (l : Link) (history : List Reception) (now : Instant) (k : PublicKey) (net : Net) : Prop :=
  net = k.overlayNet ∨ (∃ n ∈ l.config.peers.allowedIps k, net = n ∨ net = n.normalize) ∨
    ∃ f, f.allowedNet? = some net ∧ f.subject = k ∧ now < f.expires ∧ Told l history f (netsLevel l k)

/-- The endpoints that a peer may be moved to: those configured, those told of, and those seen to work. -/
def MayReach (l : Link) (history : List Reception) (now : Instant) (k : PublicKey) (e : SocketAddr) : Prop :=
  (∃ host ∈ l.config.peers.endpoints k, e ∈ l.resolve host) ∨
    (∃ f, f.endpointAddr? = some e ∧ f.subject = k ∧ now < f.expires ∧
      Told l history f fun _ => .endpoint) ∨
    Seen history k e now

/-- Facts held at the time of a pass, each of which has an origin. -/
structure Grounded (l : Link) (history : List Reception) (chunk : FactChunk) (now : Instant) : Prop where
  genuine : ∀ c ∈ history, c.Genuine l
  origin : ∀ f ∈ chunk.facts, Origin l history f
  unexpired : ∀ f ∈ chunk.facts, now < f.expires

namespace Grounded
variable {chunk : FactChunk} {now : Instant} {peers : List DevicePeer} {u : PeerUpdate}

lemma mayAdd (h : Grounded l history chunk now) (hu : Reconcile.Asked l peers chunk u)
    (hremove : u.remove = false) (honly : u.updateOnly = false) : MayAdd l history now u.publicKey := by
  have hself := hu.ne_self
  rcases hu.of_adds hremove honly with hk | ⟨f, hf, hs, hkind⟩
  · exact .inl hk
  · rcases (h.origin f hf).membership h.genuine hkind (hs ▸ hself) with hk | hi
    · exact .inl (hs ▸ hk)
    · exact .inr ⟨f, hkind, hs, h.unexpired f hf, hi⟩

lemma mayRoute (h : Grounded l history chunk now) (hu : Reconcile.Asked l peers chunk u) {net : Net}
    (hnet : net ∈ u.allowedIps) : MayRoute l history now u.publicKey net := by
  have hself := hu.ne_self
  rcases hu.net_cases hnet with ho | hc | ⟨f, hf, hs, hn⟩
  · exact .inl ho
  · exact .inr (.inl ⟨net, hc, .inl rfl⟩)
  · rcases (h.origin f hf).net h.genuine hn (hs ▸ hself) with ⟨n, hmem, heq⟩ | ht
    · exact .inr (.inl ⟨n, hs ▸ hmem, .inr heq⟩)
    · exact .inr (.inr ⟨f, hn, hs, h.unexpired f hf, hs ▸ ht⟩)

lemma mayReach (h : Grounded l history chunk now) (hu : Reconcile.Asked l peers chunk u) {e : SocketAddr}
    (he : u.endpoint = some e) : MayReach l history now u.publicKey e := by
  have hself := hu.ne_self
  rcases hu.endpoint_cases he with hc | ⟨f, hf, hs, haddr⟩
  · exact .inl hc
  · rcases (h.origin f hf).address h.genuine haddr (hs ▸ hself) (h.unexpired f hf) with ht | hseen
    · exact .inr (.inl ⟨f, haddr, hs, h.unexpired f hf, ht⟩)
    · exact .inr (.inr (hs ▸ hseen))

end Grounded

/-- What a node holds after a run of genuine receptions that began with nothing is grounded in them. -/
lemma grounded_process {start : LinkState} {rounds : List Round} {r : Round} {chunk : FactChunk}
    {s : LinkState}
    (hg : ∀ c ∈ receptions l ⟨[], start⟩ (rounds ++ [r]), c.Genuine l)
    (hr : (run l ⟨[], start⟩ rounds).process l r = (.ok chunk, s)) :
    Grounded l (receptions l ⟨[], start⟩ (rounds ++ [r])) chunk r.now := by
  obtain ⟨c, hc, -, -, hfacts⟩ := process_spec hr
  refine ⟨hg, ?_, fun f hf => (hfacts f hf).1⟩
  intro f hf
  rw [receptions_append, hc]
  rcases (hfacts f hf).2 with hf | hf
  · exact (run_origin (n := ⟨[], start⟩) rounds [] (by simp) f hf).mono (List.subset_append_left _ _)
  · exact hf.mono (List.subset_append_right _ _)

/-- For each update that a pass makes there is an authority in what is configured, what was received and what was seen
to work. -/
theorem changes_authorised (l : Link) (start : LinkState) (rounds : List Round) (r : Round)
    (hg : ∀ c ∈ receptions l ⟨[], start⟩ (rounds ++ [r]), c.Genuine l)
    {chunk : FactChunk} {s : LinkState} (hr : (run l ⟨[], start⟩ rounds).process l r = (.ok chunk, s)) :
    let history := receptions l ⟨[], start⟩ (rounds ++ [r])
    let before := (r.between s).device
    let after := (Reconcile.pass l chunk (r.between s)).2.device
    ∃ made : List PeerUpdate,
      after.calls = before.calls ++ made.map ([·]) ∧
      after.peers = made.foldl DevicePeer.applyTo before.peers ∧
      (∀ k ∈ after.peers.map DevicePeer.publicKey, k ∉ before.peers.map DevicePeer.publicKey →
        MayAdd l history r.now k) ∧
      ∀ u ∈ made, (∀ net ∈ u.allowedIps, MayRoute l history r.now u.publicKey net) ∧
        ∀ e, u.endpoint = some e → MayReach l history r.now u.publicKey e := by
  intro history before after
  have hgrounded : Grounded l history chunk r.now := grounded_process hg hr
  obtain ⟨made, hdevice, hmade⟩ := Reconcile.updatedBy_pass l chunk (r.between s)
  have hpeers : after.peers = made.foldl DevicePeer.applyTo before.peers := by
    rw [← MemoryDevice.peers_foldl_make, ← hdevice]
  refine ⟨made, by rw [← MemoryDevice.calls_foldl_make, ← hdevice], hpeers, ?_, ?_⟩
  · intro k hk hnew
    rw [hpeers] at hk
    obtain ⟨u, hu, rfl, hremove, honly⟩ := (DevicePeer.mem_keys_foldl_applyTo hk).resolve_left hnew
    exact hgrounded.mayAdd (hmade u hu) hremove honly
  · intro u hu
    exact ⟨fun net hn => hgrounded.mayRoute (hmade u hu) hn, fun e he => hgrounded.mayReach (hmade u hu) he⟩

/-- A peer that a router introduced comes onto the device a chunk later. -/
theorem changes_authorised_member :
    let router : PublicKey := ⟨.ofNatLE 32 1⟩
    let member : PublicKey := ⟨.ofNatLE 32 2⟩
    let l : Link :=
      { config := { iface := "wg0" }, self := ⟨.ofNatLE 32 3⟩, bootId := .zero 16, started := 0,
        resolve := fun _ => [] }
    let device : DeviceState :=
      ⟨"wg0", default, 51820, [{ publicKey := router, allowedIps := [.v4 0x0a000000 8] }]⟩
    let start : LinkState := { device := { state := device, failing := [member] } }
    let told : ReceivedFact := ⟨.membership member 100000000000, .ofIp router.overlayIp 51821, router⟩
    let heard : Round := { chunk := { facts := [told] }, now := 0 }
    let quiet : Round :=
      { chunk := {}, now := 5000000000,
        between := fun s => { s with device := s.device.failConfigure member false } }
    let history := receptions l ⟨[], start⟩ ([heard] ++ [quiet])
    (∀ c ∈ history, c.Genuine l) ∧
      member ∉ (run l ⟨[], start⟩ [heard]).state.device.peers.map DevicePeer.publicKey ∧
      member ∈ (run l ⟨[], start⟩ ([heard] ++ [quiet])).state.device.peers.map DevicePeer.publicKey ∧
      ∃ f, f.kind = .membership ∧ f.subject = member ∧ 5000000000 < f.expires ∧ Introduced l history f := by
  intro router member l device start told heard quiet history
  have hg : ∀ c ∈ history, c.Genuine l := by decide +kernel
  have hold : member ∉ (run l ⟨[], start⟩ [heard]).state.device.peers.map DevicePeer.publicKey := by
    decide +kernel
  have hnew : member ∈
      (run l ⟨[], start⟩ ([heard] ++ [quiet])).state.device.peers.map DevicePeer.publicKey := by decide +kernel
  refine ⟨hg, hold, hnew, ?_⟩
  have hread : ((run l ⟨[], start⟩ [heard]).process l quiet).1.toOption.isSome = true := by decide +kernel
  cases hr : (run l ⟨[], start⟩ [heard]).process l quiet with
  | mk result s =>
    cases result with
    | error e => simp [hr, Except.toOption] at hread
    | ok chunk =>
      obtain ⟨made, -, -, hadded, -⟩ := changes_authorised l start [heard] quiet hg hr
      obtain ⟨-, -, -, hdevice, -⟩ := process_spec hr
      rw [run_append, round_of_process hr] at hnew
      have hbefore : member ∉ (quiet.between s).device.peers.map DevicePeer.publicKey := by
        have hpeers : (quiet.between s).device.peers = s.device.peers := rfl
        have hstate : ∀ t, quiet.before t = t := fun t => rfl
        rw [hpeers, hdevice, hstate]
        exact hold
      rcases hadded member hnew hbefore with h | h
      · cases h
      · exact h

end Node

end MeshFacts
