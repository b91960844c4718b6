import MeshFacts.Proofs.Delivery
import MeshFacts.Proofs.GroupReading

/-! # Authenticity of packets
A packet yields facts just when it is one group and nothing else, comes from the own address of whom it says it is from,
bears that sender's signature for the receiver and has facts inside that are no groups. Of any other packet the first of
these that it lacks is told. -/
namespace MeshFacts.Packet

/-- A packet is one group of a sender in its written form, to the last octet. -/
def Carries (packet : List UInt8) (sender : PublicKey) (g : SignedGroup) : Prop :=
  ∃ expires, (Fact.signedGroup sender g expires).IsWritten packet

/-- What a packet lacks first of all that makes it a good one. -/
inductive Lacks (packet : List UInt8) (source : SocketAddr) (signer : Signer) (now : Instant) : PacketError → Prop
  | form {cause : FactError} (hno : ∀ (f : Fact) (part rest : List UInt8), f.IsWritten part → packet ≠ part ++ rest)
      (hc : Fact.decode packet now = .error cause) : Lacks packet source signer now (.malformed cause)
  | ending {f : Fact} {part rest : List UInt8} (hw : f.IsWritten part) (hp : packet = part ++ rest) (hne : rest ≠ []) :
      Lacks packet source signer now (.trailingBytes rest.length)
  | group {f : Fact} (hw : f.IsWritten packet) (hk : f.kind ≠ .signedGroup) :
      Lacks packet source signer now (.notSignedGroup f.kind)
  | source {sender : PublicKey} {g : SignedGroup} (hp : Carries packet sender g) (hs : source.ip ≠ sender.overlayIp) :
      Lacks packet source signer now (.wrongSource source.ip sender)
  | signature {sender : PublicKey} {g : SignedGroup} (hp : Carries packet sender g) (hs : source.ip = sender.overlayIp)
      (hv : (signer.verifyFrom g.nonce g.tag g.inner sender).1 = false) :
      Lacks packet source signer now (.verification .verification)
  | facts {sender : PublicKey} {g : SignedGroup} {cause : FactError} (hp : Carries packet sender g)
      (hs : source.ip = sender.overlayIp) (hv : (signer.verifyFrom g.nonce g.tag g.inner sender).1 = true)
      (hi : SignedGroup.Breaks now g.inner cause) : Lacks packet source signer now (.malformed cause)

variable {packet : List UInt8} {source : SocketAddr} {signer : Signer} {now : Instant} {sender : PublicKey}
  {g : SignedGroup} {facts : List Fact} {e : PacketError}

lemma Carries.decode (h : Carries packet sender g) (now : Instant) :
    ∃ expires, Fact.decode packet now = .ok (Fact.signedGroup sender g expires, []) := by
  obtain ⟨_, hw⟩ := h
  exact hw.decode_self now

lemma unpack_of_spells (hp : Carries packet sender g) (hs : source.ip = sender.overlayIp)
    (hv : (signer.verifyFrom g.nonce g.tag g.inner sender).1 = true) (hi : SignedGroup.Spells now g.inner facts) :
    (unpack packet source signer now).1 = .ok (facts.map fun f => ⟨f, source, sender⟩) := by
  obtain ⟨expires, hd⟩ := hp.decode now
  obtain ⟨s, hverify⟩ : ∃ s, signer.verifyFrom g.nonce g.tag g.inner sender = (true, s) := ⟨_, Prod.ext hv rfl⟩
  rw [unpack_of_signedGroup hd rfl hs hverify hi.parseInner]
  rfl

lemma Lacks.unpack (h : Lacks packet source signer now e) : (unpack packet source signer now).1 = .error e := by
  cases h with
  | form hno hc => simp [Packet.unpack, hc]
  | @ending f part rest hw hp hne =>
    obtain ⟨expires, hd⟩ := hw.decode now
    simp [Packet.unpack, hp, hd, hne]
  | @group f hw hk =>
    obtain ⟨expires, hd⟩ := hw.decode_self now
    have hv : ¬ ∃ g, (f.withExpires expires).value = .signedGroup g := hw.suits.eq_signedGroup_iff.not.mp hk
    simp only [Packet.unpack, hd, List.isEmpty_nil, Bool.not_true, Bool.false_eq_true, if_false]
    split
    · exact absurd ⟨_, ‹_›⟩ hv
    · rfl
  | source hp hs =>
    obtain ⟨expires, hd⟩ := hp.decode now
    simp [Packet.unpack, hd, Fact.signedGroup, hs]
  | @signature sender g hp hs hv =>
    obtain ⟨expires, hd⟩ := hp.decode now
    obtain ⟨s, hverify⟩ : ∃ s, signer.verifyFrom g.nonce g.tag g.inner sender = (false, s) := ⟨_, Prod.ext hv rfl⟩
    simp [Packet.unpack, hd, Fact.signedGroup, hs, hverify]
  | @facts sender g cause hp hs hv hi =>
    obtain ⟨expires, hd⟩ := hp.decode now
    obtain ⟨s, hverify⟩ : ∃ s, signer.verifyFrom g.nonce g.tag g.inner sender = (true, s) := ⟨_, Prod.ext hv rfl⟩
    simp [Packet.unpack, hd, Fact.signedGroup, hs, hverify, hi.parseInner]

/-- A packet has all that makes it a good one, or it lacks something first. -/
lemma good_or_lacks (packet : List UInt8) (source : SocketAddr) (signer : Signer) (now : Instant) :
    (∃ sender g facts, Carries packet sender g ∧ source.ip = sender.overlayIp ∧
        (signer.verifyFrom g.nonce g.tag g.inner sender).1 = true ∧ SignedGroup.Spells now g.inner facts) ∨
      ∃ e, Lacks packet source signer now e := by
  cases hd : Fact.decode packet now with
  | error e => exact .inr ⟨_, .form (fun f part rest hw => Fact.ne_append_of_decode hd hw rest) hd⟩
  | ok p =>
    obtain ⟨f, rest⟩ := p
    obtain ⟨part, hw, hp⟩ := Fact.isWritten_of_decode hd
    obtain rfl | hne := eq_or_ne rest []
    · rw [List.append_nil] at hp
      subst hp
      by_cases hk : f.kind = .signedGroup
      · obtain ⟨g, hg⟩ := hw.suits.eq_signedGroup_iff.mp hk
        have hf : f = Fact.signedGroup f.subject g f.expires := by rw [Fact.signedGroup, ← hk, ← hg]
        have hc : Carries packet f.subject g := ⟨f.expires, hf ▸ hw⟩
        by_cases hs : source.ip = f.subject.overlayIp
        · cases hv : (signer.verifyFrom g.nonce g.tag g.inner f.subject).1 with
          | false => exact .inr ⟨_, .signature hc hs hv⟩
          | true =>
            obtain ⟨facts, hi⟩ | ⟨cause, hi⟩ := SignedGroup.spells_or_breaks now g.inner
            · exact .inl ⟨_, g, facts, hc, hs, hv, hi⟩
            · exact .inr ⟨_, .facts hc hs hv hi⟩
        · exact .inr ⟨_, .source hc hs⟩
      · exact .inr ⟨_, .group hw hk⟩
    · exact .inr ⟨_, .ending hw hp hne⟩

/-- A packet yields facts just when it is one group of facts from the own address of its sender, signed for the
receiver. Otherwise the error tells what it lacks first. -/
theorem unpack_eq_iff (packet : List UInt8) (source : SocketAddr) (signer : Signer) (now : Instant) :
    (∀ received, (unpack packet source signer now).1 = .ok received ↔
      ∃ sender g facts, Carries packet sender g ∧ source.ip = sender.overlayIp ∧
        (signer.verifyFrom g.nonce g.tag g.inner sender).1 = true ∧ SignedGroup.Spells now g.inner facts ∧
        received = facts.map fun f => ⟨f, source, sender⟩) ∧
      ∀ e, (unpack packet source signer now).1 = .error e ↔ Lacks packet source signer now e := by
  obtain ⟨sender, g, facts, hp, hs, hv, hi⟩ | ⟨e, he⟩ := good_or_lacks packet source signer now
  · have hgood := unpack_of_spells hp hs hv hi
    refine ⟨fun received => ⟨fun h => ?_, ?_⟩, fun e => ⟨fun h => ?_, fun h => h.unpack⟩⟩
    · cases hgood.symm.trans h
      exact ⟨sender, g, facts, hp, hs, hv, hi, rfl⟩
    · rintro ⟨sender, g, facts, hp, hs, hv, hi, rfl⟩
      exact unpack_of_spells hp hs hv hi
    · cases hgood.symm.trans h
  · have hbad := he.unpack
    refine ⟨fun received => ⟨fun h => ?_, ?_⟩, fun e => ⟨fun h => ?_, fun h => h.unpack⟩⟩
    · cases hbad.symm.trans h
    · rintro ⟨sender, g, facts, hp, hs, hv, hi, rfl⟩
      exact unpack_of_spells hp hs hv hi
    · cases hbad.symm.trans h
      exact he

lemma pair_unpack (packet : List UInt8) (source : SocketAddr) (signer : Signer) (now : Instant) :
    (unpack packet source signer now).2.pair = signer.pair := by
  unfold unpack
  split
  · rfl
  · rename_i f rest hd
    split_ifs
    · rfl
    · cases f.value <;> rfl
    · cases f.value with
      | signedGroup g =>
        have hp := signer.pair_verifyFrom g.nonce g.tag g.inner f.subject
        dsimp only
        generalize signer.verifyFrom g.nonce g.tag g.inner f.subject = answer at hp ⊢
        obtain ⟨_ | _, s⟩ := answer
        · exact hp
        · dsimp only
          split <;> exact hp
      | _ => rfl

/-- What a packet yields does not depend on the secrets that the receiver remembers. -/
lemma unpack_congr {other : Signer} (h : other.pair = signer.pair) (packet : List UInt8) (source : SocketAddr)
    (now : Instant) : (unpack packet source other now).1 = (unpack packet source signer now).1 := by
  have hverify : ∀ (g : SignedGroup) (sender : PublicKey), (other.verifyFrom g.nonce g.tag g.inner sender).1 =
      (signer.verifyFrom g.nonce g.tag g.inner sender).1 := by simp [h]
  obtain ⟨sender, g, facts, hp, hs, hv, hi⟩ | ⟨e, he⟩ := good_or_lacks packet source signer now
  · rw [unpack_of_spells hp hs hv hi, unpack_of_spells hp hs ((hverify g sender).trans hv) hi]
  · rw [he.unpack]
    refine Lacks.unpack ?_
    cases he with
    | form hno hc => exact .form hno hc
    | ending hw hp hne => exact .ending hw hp hne
    | group hw hk => exact .group hw hk
    | source hp hs => exact .source hp hs
    | @signature sender g hp hs hv => exact .signature hp hs ((hverify g sender).trans hv)
    | @facts sender g cause hp hs hv hi => exact .facts hp hs ((hverify g sender).trans hv) hi

end MeshFacts.Packet
