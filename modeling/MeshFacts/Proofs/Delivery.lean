import MeshFacts.Packet
import MeshFacts.Proofs.GroupPacking
import MeshFacts.Proofs.WireRoundTrip

/-! # Delivery
What a peer is told arrives. Each group that is packed is signed, sent in a packet that no path fragments, and
unpacked by whoever shares the sender's secret as the facts that were packed. -/
namespace MeshFacts
open SignedGroup (written)

def Signer.groupOf (s : Signer) (peer : PublicKey) (now : Instant) (nonce : Nonce) (part : List Fact) : Fact :=
  .signedGroup s.publicKey
    ⟨nonce, SealedTag.sealTag (s.pair.privateKey.sharedSecret peer) nonce (written part now),
      written part now⟩ now

lemma Signer.groupOf_congr {s t : Signer} (h : s.pair = t.pair) (peer : PublicKey) (now : Instant)
    (nonce : Nonce) (part : List Fact) : s.groupOf peer now nonce part = t.groupOf peer now nonce part := by
  simp only [groupOf, publicKey, h]

lemma Signer.verifyFrom_of_eq {q : Signer} {nonce : Nonce} {tag : Tag} {data : List UInt8} {sender : PublicKey}
    (h : tag = SealedTag.sealTag (q.pair.privateKey.sharedSecret sender) nonce data) :
    ∃ q', q'.pair = q.pair ∧ q.verifyFrom nonce tag data sender = (true, q') := by
  have hv : (q.verifyFrom nonce tag data sender).1 = true := by
    rw [verifyFrom_fst, SealedTag.opens_iff, h]
  exact ⟨(q.verifyFrom nonce tag data sender).2, q.pair_verifyFrom .., Prod.ext hv rfl⟩

structure Signer.Groups (s : Signer) (peer : PublicKey) (now : Instant) (f : Fact) (part : List Fact) :
    Prop where
  form : ∃ nonce, f = s.groupOf peer now nonce part
  short : (written part now).length ≤ Packing.maxGroupLength

namespace Signer.Groups
variable {s : Signer} {peer : PublicKey} {now : Instant} {f : Fact} {part : List Fact}

lemma encodedLength_eq (h : s.Groups peer now f part) :
    f.value.encodedLength = 40 + (written part now).length := by
  obtain ⟨⟨nonce, rfl⟩, -⟩ := h
  rfl

lemma le_max (h : s.Groups peer now f part) : f.value.encodedLength ≤ LengthVarint.max := by
  have hm : Packing.maxGroupLength = 1155 := rfl
  have hl := h.short
  rw [h.encodedLength_eq, LengthVarint.max]
  omega

lemma length_formAt_le (h : s.Groups peer now f part) : (f.formAt now).length ≤ 1232 := by
  have hm : Packing.maxGroupLength = 1155 := rfl
  have hl := h.short
  have hw : LengthVarint.width (40 + (written part now).length) ≤ 2 := by
    unfold LengthVarint.width
    split_ifs <;> omega
  rw [Fact.length_formAt, Fact.encodedLength, h.encodedLength_eq]
  omega

lemma congr {s' : Signer} (hpair : s.pair = s'.pair) (h : s.Groups peer now f part) : s'.Groups peer now f part := by
  obtain ⟨⟨nonce, rfl⟩, hl⟩ := h
  exact ⟨⟨nonce, Signer.groupOf_congr hpair peer now nonce part⟩, hl⟩

lemma forall_le_max {groups : List Fact} {parts : List (List Fact)}
    (h : List.Forall₂ (s.Groups peer now) groups parts) : ∀ f ∈ groups, f.value.encodedLength ≤ LengthVarint.max :=
  ((List.forall₂_and_left _ _).mp (h.imp fun _ _ hg => ⟨hg.le_max, hg⟩)).1

end Signer.Groups

namespace Packing

lemma sealAll_forall₂ {peer : PublicKey} {now : Instant} {parts : List (List Fact)}
    (hp : ∀ part ∈ parts, (written part now).length ≤ maxGroupLength) (s : Signer) (nonces : NonceSupply) :
    List.Forall₂ (s.Groups peer now) (sealAll peer now s nonces (parts.map (written · now))).1 parts := by
  induction parts generalizing s nonces with
  | nil => exact .nil
  | cons part parts ih =>
    obtain ⟨hl, hrest⟩ := List.forall_mem_cons.mp hp
    obtain ⟨nonce, rest, hd⟩ : ∃ nonce rest, nonces.draw = (nonce, rest) := ⟨_, _, rfl⟩
    set next := (s.signFor nonce (written part now) peer).2 with hnext
    have hpair : next.pair = s.pair := s.pair_signFor nonce (written part now) peer
    have hs : sealGroup s nonces peer now (written part now) =
        (s.groupOf peer now nonce part, next, rest) := by
      simp only [sealGroup, hd, Signer.groupOf, Signer.publicKey, Signer.pair_signFor, Signer.signFor_fst,
        hnext]
    simp only [List.map_cons, sealAll, hs]
    exact .cons ⟨⟨nonce, rfl⟩, hl⟩ ((ih hrest next rest).imp fun f part => .congr hpair)

lemma Splits.signedGroups {p : Packing} {now : Instant} {parts : List (List Fact)} (h : p.Splits now parts)
    (s : Signer) (nonces : NonceSupply) (peer : PublicKey) :
    List.Forall₂ (s.Groups peer now) (p.signedGroups s nonces peer).1 parts := by
  have hfilled : (p.groups.filter fun g => !g.isEmpty) = parts.map (written · now) := h.filled
  rw [Packing.signedGroups, hfilled, h.time]
  exact sealAll_forall₂ h.short s nonces

lemma Holds.signedGroups {p : Packing} {facts : List Fact} (h : p.Holds facts)
    (hmax : p.maxLength = maxGroupLength) (s : Signer) (nonces : NonceSupply) (peer : PublicKey) :
    ∃ parts : List (List Fact), parts.flatten = facts ∧
      List.Forall₂ (s.Groups peer p.now) (p.signedGroups s nonces peer).1 parts := by
  obtain ⟨parts, hsplits, hf⟩ := h.exists_splits hmax
  exact ⟨parts, hf, hsplits.signedGroups s nonces peer⟩

end Packing

namespace Broadcast

lemma deliver_eq (lost : Failures) (peer : PublicKey) (now : Instant) {facts : List Fact}
    (hf : ∀ f ∈ facts, f.value.encodedLength ≤ LengthVarint.max) (sent : List Outgoing) :
    deliver lost peer now facts sent = (.ok (), sent ++ facts.map fun f => ⟨peer, f.formAt now⟩) ∨
      (deliver lost peer now facts sent).1 = .error .io ∧ ∃ n, lost peer n = true := by
  induction facts generalizing sent with
  | nil => exact .inl (by simp [deliver])
  | cons f facts ih =>
    obtain ⟨hl, hrest⟩ := List.forall_mem_cons.mp hf
    have he : f.encode now = .ok (f.formAt now) := Fact.encode_eq_ok_iff.mpr ⟨hl, rfl⟩
    simp only [deliver, he]
    by_cases hlost : lost peer (sentTo peer sent) = true
    · exact .inr ⟨by simp [hlost], _, hlost⟩
    · simp only [hlost, Bool.false_eq_true, if_false]
      rcases ih hrest (sent ++ [⟨peer, f.formAt now⟩]) with h | h
      · exact .inl (by simp [h])
      · exact .inr h

lemma sent_of_deliver {lost : Failures} {peer : PublicKey} {now : Instant} {facts : List Fact}
    (hf : ∀ f ∈ facts, f.value.encodedLength ≤ LengthVarint.max) {sent sent' : List Outgoing}
    (h : deliver lost peer now facts sent = (.ok (), sent')) :
    sent' = sent ++ facts.map fun f => ⟨peer, f.formAt now⟩ := by
  rcases deliver_eq lost peer now hf sent with heq | ⟨herror, -⟩
  · exact (Prod.mk.inj (h.symm.trans heq)).2
  · rw [h] at herror
    cases herror

end Broadcast

namespace Packet

def unpackAll (source : SocketAddr) (now : Instant) :
    Signer → List (List UInt8) → Except PacketError (List ReceivedFact)
  | _, [] => .ok []
  | q, p :: r =>
    match unpack p source q now with
    | (.error e, _) => .error e
    | (.ok facts, q) => (unpackAll source now q r).map (facts ++ ·)

variable {s q : Signer} {peer : PublicKey} {now : Instant} {source : SocketAddr}

/-- A packet is accepted if it is one group from its sender's address, rightly signed, that holds facts. -/
lemma unpack_of_signedGroup {packet : List UInt8} {f : Fact} {g : SignedGroup} {facts : List Fact}
    {q' : Signer} (hd : Fact.decode packet now = .ok (f, [])) (hg : f.value = .signedGroup g)
    (hsource : source.ip = f.subject.overlayIp)
    (hv : q.verifyFrom g.nonce g.tag g.inner f.subject = (true, q')) (hi : g.parseInner now = .ok facts) :
    unpack packet source q now = (.ok (facts.map fun inner => ⟨inner, source, f.subject⟩), q') := by
  simp only [unpack, hd, List.isEmpty_nil, Bool.not_true, Bool.false_eq_true, if_false, hg, ne_eq, hsource,
    not_true_eq_false, hv, hi]

/-- Who shares the sender's secret takes the facts out of a packet again. -/
lemma unpack_group {f : Fact} {part : List Fact} (hg : s.Groups peer now f part)
    (hp : ∀ f ∈ part, f.Packable)
    (hq : q.pair.privateKey.sharedSecret s.publicKey = s.pair.privateKey.sharedSecret peer)
    (hsource : source.ip = s.publicKey.overlayIp) :
    ∃ q', q'.pair = q.pair ∧ unpack (f.formAt now) source q now =
      (.ok (part.map fun f => ⟨f.asRead now, source, s.publicKey⟩), q') := by
  have hmax := hg.le_max
  obtain ⟨⟨nonce, rfl⟩, -⟩ := hg
  have hd := Fact.decode_formAt hmax (.signedGroup _) now []
  rw [List.append_nil] at hd
  have htag := congrArg (SealedTag.sealTag · nonce (written part now)) hq.symm
  obtain ⟨q', hpair, hv⟩ := Signer.verifyFrom_of_eq htag
  refine ⟨q', hpair, ?_⟩
  rw [unpack_of_signedGroup hd rfl hsource hv (SignedGroup.parseInner_written hp rfl), List.map_map]
  rfl

lemma unpackAll_groups {groups : List Fact} {parts : List (List Fact)}
    (hg : List.Forall₂ (s.Groups peer now) groups parts) (hp : ∀ f ∈ parts.flatten, f.Packable)
    (hq : q.pair.privateKey.sharedSecret s.publicKey = s.pair.privateKey.sharedSecret peer)
    (hsource : source.ip = s.publicKey.overlayIp) :
    unpackAll source now q (groups.map (·.formAt now)) =
      .ok (parts.flatten.map fun f => ⟨f.asRead now, source, s.publicKey⟩) := by
  induction hg generalizing q with
  | nil => rfl
  | @cons f part groups parts hpart _ ih =>
    rw [List.flatten_cons] at hp
    obtain ⟨hpack, hrest⟩ := List.forall_mem_append.mp hp
    obtain ⟨q', hpair, hu⟩ := unpack_group hpart hpack hq hsource
    have hr := ih hrest (q := q') (hpair ▸ hq)
    simp only [List.map_cons, unpackAll, hu, hr, Except.map, List.flatten_cons, List.map_append]

end Packet

/-- A fact that was built by a constructor or read from the wire, and is no group. -/
structure Fact.Tellable (f : Fact) : Prop where
  arises : f.Built ∨ ∃ bytes now rest, decode bytes now = .ok (f, rest)
  not_group : f.kind ≠ .signedGroup

lemma Fact.Tellable.packable {f : Fact} (h : f.Tellable) : f.Packable := ⟨Arises.suits h.arises, h.not_group⟩

namespace Broadcast

/-- Unless a packet gets lost, what is selected for a peer reaches it in order, in safe payloads none of which it
refuses. -/
theorem unpackAll_sendFacts (l : Link) (lost : Failures) (peer : PublicKey) (chunk : FactChunk) (o : Outlet)
    (hc : ∀ f ∈ chunk.facts, f.Tellable) :
    (∀ e, (sendFacts l lost peer chunk o).1 = .error e → e = .io ∧ ∃ n, lost peer n = true) ∧
      ∀ n, (sendFacts l lost peer chunk o).1 = .ok n →
        ∃ (packing : Packing) (included : List Fact) (packets : List (List UInt8)),
          select l o.state.knowledge peer chunk = .ok (packing, included) ∧
          (sendFacts l lost peer chunk o).2.state.knowledge = noteSent o.state.knowledge peer included ∧
          (sendFacts l lost peer chunk o).2.sent = o.sent ++ packets.map (⟨peer, ·⟩) ∧
          packets.length = n ∧ (∀ p ∈ packets, p.length ≤ 1232) ∧
          ∀ (q : Signer) (source : SocketAddr), q.publicKey = peer →
            source.ip = o.signer.publicKey.overlayIp →
            q.pair.privateKey.sharedSecret o.signer.publicKey =
              o.signer.pair.privateKey.sharedSecret q.publicKey →
            Packet.unpackAll source chunk.now q packets =
              .ok (included.map fun f =>
                ⟨f.withExpires (chunk.now + f.ttl chunk.now * Clock.second), source, o.signer.publicKey⟩) := by
  obtain ⟨packing, included, hs, hheld, hmax, hnow, hpack⟩ :=
    select_holds l o.state.knowledge peer fun f hf => (hc f hf).packable
  obtain ⟨parts, hflat, hgroups⟩ := hheld.signedGroups hmax o.signer o.nonces peer
  rw [hnow] at hgroups
  obtain ⟨groups, signer, nonces, hsigned⟩ :
    ∃ groups signer nonces, packing.signedGroups o.signer o.nonces peer = (groups, signer, nonces) :=
      ⟨_, _, _, rfl⟩
  rw [hsigned] at hgroups
  have hle : ∀ f ∈ groups, f.value.encodedLength ≤ LengthVarint.max :=
    ((List.forall₂_and_left _ _).mp (hgroups.imp fun _ _ hg => ⟨hg.le_max, hg⟩)).1
  have hshort : ∀ f ∈ groups, (f.formAt chunk.now).length ≤ 1232 :=
    ((List.forall₂_and_left _ _).mp (hgroups.imp fun f part hg => ⟨hg.length_formAt_le, hg⟩)).1
  rcases deliver_eq lost peer chunk.now hle o.sent with hd | ⟨hd, hlost⟩
  · simp only [sendFacts, hs, hsigned, hd]
    refine ⟨by simp, fun n hn => ?_⟩
    refine ⟨packing, included, groups.map (·.formAt chunk.now), rfl, rfl, ?_, ?_, ?_, ?_⟩
    · simp [Function.comp_def]
    · simpa using hn
    · simpa using hshort
    · rintro q source rfl hsource hq
      rw [Packet.unpackAll_groups hgroups (hflat ▸ hpack) hq hsource, hflat]
      rfl
  · obtain ⟨result, sent, hr⟩ : ∃ result sent, deliver lost peer chunk.now groups o.sent = (result, sent) :=
      ⟨_, _, rfl⟩
    rw [hr] at hd
    obtain rfl : result = .error .io := hd
    simp only [sendFacts, hs, hsigned, hr]
    refine ⟨fun e he => ⟨?_, hlost⟩, by simp⟩
    simpa using he.symm

theorem unpackAll_sendFacts_pair :
    let sender := KeyPair.ofPrivate ⟨.ofNatLE 32 1⟩
    let recipient := KeyPair.ofPrivate ⟨.ofNatLE 32 2⟩
    let l : Link := { (default : Link) with self := sender.publicKey }
    let o : Outlet := { (default : Outlet) with signer := .ofPair sender }
    let facts := [.endpoint ⟨.zero 32⟩ (.v6 0xffff0a010203 51820 0) 70000000000,
      .membership ⟨.zero 32⟩ 90400000000, .alive sender.publicKey (.zero 16) 255000000000]
    let chunk : FactChunk := ⟨facts, 0, false, false⟩
    let lost : Failures := fun _ _ => false
    let source : SocketAddr := .ofIp sender.publicKey.overlayIp 51821
    (∀ f ∈ facts, f.Tellable) ∧ (sendFacts l lost recipient.publicKey chunk o).1 = .ok 1 ∧
      ∃ packets : List (List UInt8),
        (sendFacts l lost recipient.publicKey chunk o).2.sent = packets.map (⟨recipient.publicKey, ·⟩) ∧
        (∀ p ∈ packets, p.length ≤ 1232) ∧
        Packet.unpackAll source 0 (.ofPair recipient) packets =
          .ok (facts.map fun f => ⟨f.withExpires (0 + f.ttl 0 * Clock.second), source, sender.publicKey⟩) := by
  intro sender recipient l o facts chunk lost source
  have hf : ∀ f ∈ facts, f.Tellable := by
    intro f hf
    simp only [facts, List.mem_cons, List.not_mem_nil, or_false] at hf
    rcases hf with rfl | rfl | rfl
    · exact ⟨.inl (.endpoint ..), by decide⟩
    · exact ⟨.inl (.membership ..), by decide⟩
    · exact ⟨.inl (.alive ..), by decide⟩
  have hrun : (sendFacts l lost recipient.publicKey chunk o).1 = .ok 1 := by decide +kernel
  obtain ⟨packing, included, packets, hs, -, hsent, -, hshort, hunpack⟩ :=
    (unpackAll_sendFacts l lost recipient.publicKey chunk o hf).2 1 hrun
  have hselected : (select l o.state.knowledge recipient.publicKey chunk).map Prod.snd = .ok facts := by
    decide +kernel
  rw [hs] at hselected
  obtain rfl : included = facts := Except.ok.inj hselected
  have hagree : recipient.privateKey.sharedSecret sender.publicKey =
      sender.privateKey.sharedSecret recipient.publicKey := by decide +kernel
  refine ⟨hf, hrun, packets, hsent, hshort, ?_⟩
  have hsource : source.ip = o.signer.publicKey.overlayIp := rfl
  exact hunpack (.ofPair recipient) source rfl hsource hagree

end Broadcast

end MeshFacts
