import MeshFacts.Proofs.Delivery

/-! # Reflection
A tag is made under the secret that two signers share and of nothing that names either of them. So it does not tell
which of the two has made it: what one signs for the other it also takes for signed by the other, and its packets
come back to it as packets of the other once their subject is changed. -/
namespace MeshFacts
open SignedGroup (written)

namespace Signer
variable {a b : Signer} {now : Instant} {f : Fact} {part : List Fact}

/-- Two signers work out the same secret. -/
def Agrees (a b : Signer) : Prop :=
  a.pair.privateKey.sharedSecret b.publicKey = b.pair.privateKey.sharedSecret a.publicKey

instance (a b : Signer) : Decidable (a.Agrees b) := inferInstanceAs (Decidable (_ = _))

lemma verifyFrom_signFor_self (a : Signer) (nonce : Nonce) (data : List UInt8) (peer : PublicKey) :
    (a.verifyFrom nonce (a.signFor nonce data peer).1 data peer).1 = true := by
  rw [verifyFrom_fst, signFor_fst, SealedTag.opens_iff]

lemma Agrees.signFor_eq (h : a.Agrees b) (nonce : Nonce) (data : List UInt8) :
    (a.signFor nonce data b.publicKey).1 = (b.signFor nonce data a.publicKey).1 := by
  rw [signFor_fst, signFor_fst, h]

/-- With its subject changed, a group that one signs for the other is one that the other signs. -/
lemma Groups.reflect (h : a.Agrees b) (hg : a.Groups b.publicKey now f part) :
    b.Groups a.publicKey now { f with subject := b.publicKey } part := by
  obtain ⟨⟨nonce, rfl⟩, hshort⟩ := hg
  refine ⟨⟨nonce, ?_⟩, hshort⟩
  rw [groupOf, groupOf, h]
  rfl

end Signer

namespace Packet

def withSubject (k : PublicKey) (packet : List UInt8) : List UInt8 :=
  match LengthVarint.decode (packet.drop 3) with
  | .ok (_, width) => packet.take (3 + width) ++ (k.bytes ++ packet.drop (3 + width + 32))
  | .error _ => packet

lemma withSubject_formAt {f : Fact} (hl : f.value.encodedLength ≤ LengthVarint.max) (k : PublicKey) (now : Instant) :
    withSubject k (f.formAt now) = Fact.formAt { f with subject := k } now := by
  obtain ⟨header, hheader⟩ : ∃ header, header = [f.kind.byte, UInt8.ofNat (f.ttl now), 32] ++
      LengthVarint.form f.value.encodedLength := ⟨_, rfl⟩
  have hform : f.formAt now = header ++ (f.subject.bytes ++ f.value.encode) := by
    simp [Fact.formAt, Fact.form, hheader]
  have hlength : header.length = 3 + LengthVarint.width f.value.encodedLength := by
    rw [hheader, List.length_append, LengthVarint.length_form]
    rfl
  have hdecode : LengthVarint.decode ((f.formAt now).drop 3) =
      .ok (f.value.encodedLength, LengthVarint.width f.value.encodedLength) :=
    LengthVarint.decode_of_form hl _
  unfold withSubject
  rw [hdecode, hform]
  dsimp only
  rw [← hlength, List.take_left, ← List.drop_drop, List.drop_left, List.drop_left' f.length_subject]
  simp [Fact.formAt, Fact.form, hheader, Fact.ttl]

end Packet

namespace Broadcast

lemma sent_groups {l : Link} {lost : Failures} {peer : PublicKey} {chunk : FactChunk} {o : Outlet} {n : ℕ}
    (hc : ∀ f ∈ chunk.facts, f.Tellable) (h : (sendFacts l lost peer chunk o).1 = .ok n) :
    ∃ packing parts groups, select l o.state.knowledge peer chunk = .ok (packing, parts.flatten) ∧
      (∀ f ∈ parts.flatten, f.Packable) ∧ List.Forall₂ (o.signer.Groups peer chunk.now) groups parts ∧
      (sendFacts l lost peer chunk o).2.sent = o.sent ++ groups.map fun f => ⟨peer, f.formAt chunk.now⟩ := by
  obtain ⟨packing, included, hs, hheld, hmax, hnow, hpack⟩ :=
    select_holds l o.state.knowledge peer fun f hf => (hc f hf).packable
  obtain ⟨parts, rfl, hgroups⟩ := hheld.signedGroups hmax o.signer o.nonces peer
  rw [hnow] at hgroups
  obtain ⟨groups, signer, nonces, hsigned⟩ :
    ∃ groups signer nonces, packing.signedGroups o.signer o.nonces peer = (groups, signer, nonces) :=
      ⟨_, _, _, rfl⟩
  rw [hsigned] at hgroups
  refine ⟨packing, parts, groups, hs, hpack, hgroups, ?_⟩
  obtain ⟨result, sent, hr⟩ : ∃ result sent, deliver lost peer chunk.now groups o.sent = (result, sent) := ⟨_, _, rfl⟩
  cases result with
  | error e => simp [sendFacts, hs, hsigned, hr] at h
  | ok =>
    simp only [sendFacts, hs, hsigned, hr]
    exact sent_of_deliver (Signer.Groups.forall_le_max hgroups) hr

/-- Where two signers share their secret, each accepts what it has signed for the other as signed by the other. So it
takes its own packets for those of their recipient once they name it. -/
theorem reflected (l : Link) (lost : Failures) (chunk : FactChunk) (o : Outlet) (b : Signer)
    (h : o.signer.Agrees b) :
    (∀ nonce data, (o.signer.signFor nonce data b.publicKey).1 = (b.signFor nonce data o.signer.publicKey).1 ∧
      (b.verifyFrom nonce (o.signer.signFor nonce data b.publicKey).1 data o.signer.publicKey).1 = true ∧
      (o.signer.verifyFrom nonce (o.signer.signFor nonce data b.publicKey).1 data b.publicKey).1 = true) ∧
      ∀ n, (∀ f ∈ chunk.facts, f.Tellable) → (sendFacts l lost b.publicKey chunk o).1 = .ok n →
        ∃ packing included packets, select l o.state.knowledge b.publicKey chunk = .ok (packing, included) ∧
          (sendFacts l lost b.publicKey chunk o).2.sent = o.sent ++ packets.map (⟨b.publicKey, ·⟩) ∧
          ∀ there back : SocketAddr, there.ip = o.signer.publicKey.overlayIp → back.ip = b.publicKey.overlayIp →
            Packet.unpackAll there chunk.now b packets =
              .ok (included.map fun f => ⟨f.asRead chunk.now, there, o.signer.publicKey⟩) ∧
            Packet.unpackAll back chunk.now o.signer (packets.map (Packet.withSubject b.publicKey)) =
              .ok (included.map fun f => ⟨f.asRead chunk.now, back, b.publicKey⟩) := by
  refine ⟨fun nonce data => ⟨h.signFor_eq nonce data, ?_, Signer.verifyFrom_signFor_self _ _ _ _⟩, fun n hc hn => ?_⟩
  · rw [h.signFor_eq]
    exact Signer.verifyFrom_signFor_self _ _ _ _
  · obtain ⟨packing, parts, groups, hs, hpack, hgroups, hsent⟩ := sent_groups hc hn
    have hreflected : List.Forall₂ (b.Groups o.signer.publicKey chunk.now)
        (groups.map fun f => { f with subject := b.publicKey }) parts := by
      rw [List.forall₂_map_left_iff]
      exact hgroups.imp fun f part hg => hg.reflect h
    have hle : ∀ f ∈ groups, f.value.encodedLength ≤ LengthVarint.max :=
      ((List.forall₂_and_left _ _).mp (hgroups.imp fun f part hg => ⟨hg.le_max, hg⟩)).1
    have hpackets : (groups.map (·.formAt chunk.now)).map (Packet.withSubject b.publicKey) =
        (groups.map fun f => { f with subject := b.publicKey }).map (·.formAt chunk.now) := by
      rw [List.map_map, List.map_map]
      exact List.map_congr_left fun f hf => Packet.withSubject_formAt (hle f hf) b.publicKey chunk.now
    refine ⟨packing, parts.flatten, groups.map (·.formAt chunk.now), hs, ?_, fun there back hthere hback => ⟨?_, ?_⟩⟩
    · rw [hsent, List.map_map]
      rfl
    · exact Packet.unpackAll_groups hgroups hpack h.symm hthere
    · rw [hpackets]
      exact Packet.unpackAll_groups hreflected hpack h hback

/-- A node tells another that it is alive, and would believe the same of the other from its own packet. -/
theorem reflected_pair :
    let a : Signer := .ofPair (.ofPrivate ⟨.ofNatLE 32 8⟩)
    let b : Signer := .ofPair (.ofPrivate ⟨.ofNatLE 32 16⟩)
    let l : Link := { (default : Link) with self := a.publicKey }
    let o : Outlet := { (default : Outlet) with signer := a }
    let facts := [.membership ⟨.zero 32⟩ 90400000000, .alive a.publicKey (.zero 16) 255000000000]
    let chunk : FactChunk := ⟨facts, 0, false, false⟩
    let back : SocketAddr := .ofIp b.publicKey.overlayIp 51821
    a.Agrees b ∧ ∃ packets : List (List UInt8),
      (sendFacts l (fun _ _ => false) b.publicKey chunk o).2.sent = packets.map (⟨b.publicKey, ·⟩) ∧
      Packet.unpackAll back 0 a (packets.map (Packet.withSubject b.publicKey)) =
        .ok (facts.map fun f => ⟨f.asRead 0, back, b.publicKey⟩) := by
  intro a b l o facts chunk back
  have hf : ∀ f ∈ facts, f.Tellable := by
    intro f hf
    simp only [facts, List.mem_cons, List.not_mem_nil, or_false] at hf
    rcases hf with rfl | rfl
    · exact ⟨.inl (.membership ..), by decide⟩
    · exact ⟨.inl (.alive ..), by decide⟩
  have hagrees : a.Agrees b := by decide +kernel
  have hrun : (sendFacts l (fun _ _ => false) b.publicKey chunk o).1 = .ok 1 := by decide +kernel
  obtain ⟨-, hpackets⟩ := reflected l (fun _ _ => false) chunk o b hagrees
  obtain ⟨packing, included, packets, hs, hsent, hback⟩ := hpackets 1 hf hrun
  have hselected : (select l o.state.knowledge b.publicKey chunk).map Prod.snd = .ok facts := by decide +kernel
  rw [hs] at hselected
  obtain rfl : included = facts := Except.ok.inj hselected
  exact ⟨hagrees, packets, hsent, (hback (.ofIp a.publicKey.overlayIp 51821) back rfl rfl).2⟩

/-- A signer accepts from another, whose key is not its own, what it has signed for that one itself. -/
theorem own_signature_accepted :
    let a : Signer := .ofPair (.ofPrivate ⟨.ofNatLE 32 8⟩)
    let b : Signer := .ofPair (.ofPrivate ⟨.ofNatLE 32 16⟩)
    let nonce : Nonce := .zero 24
    let data : List UInt8 := [0x66, 0x61, 0x63, 0x74, 0x73, 0x20, 0x67, 0x6f, 0x20, 0x68, 0x65, 0x72, 0x65]
    let tag := (a.signFor nonce data b.publicKey).1
    a.publicKey ≠ b.publicKey ∧ a.Agrees b ∧ (b.verifyFrom nonce tag data a.publicKey).1 = true ∧
      ¬ (a.verifyFrom nonce tag data b.publicKey).1 = false := by
  decide +kernel

end Broadcast

end MeshFacts
