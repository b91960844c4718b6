import MeshFacts.Proofs.LengthForms
import MeshFacts.Proofs.ValueForms

/-! # Forms of facts
The form of a fact follows from the fact and a time to live. Reading accepts exactly what begins with the form
of a fact whose value suits its attribute, and writing puts such a form behind the buffer or leaves the buffer
as it was. So nothing but what is written can be read, and what is written is read back. -/
namespace MeshFacts.Fact

def form (f : Fact) (ttl : UInt8) : List UInt8 :=
  f.kind.byte :: ttl :: 32 ::
    (LengthVarint.form f.value.encodedLength ++ (f.subject.bytes ++ f.value.encode))

lemma ttl_le (f : Fact) (now : Instant) : f.ttl now ≤ 255 := min_le_left _ _

lemma toNat_ttl (f : Fact) (now : Instant) : (UInt8.ofNat (f.ttl now)).toNat = f.ttl now := by
  have := f.ttl_le now
  rw [UInt8.toNat_ofNat', Nat.mod_eq_of_lt (by omega)]

def formAt (f : Fact) (now : Instant) : List UInt8 := f.form (UInt8.ofNat (f.ttl now))

/-- What is read, at the time of writing, of what is written of a fact. -/
def asRead (f : Fact) (now : Instant) : Fact := f.withExpires (now + f.ttl now * Clock.second)

lemma length_subject (f : Fact) : f.subject.bytes.length = 32 := f.subject.octets.length_bytes

lemma length_form (f : Fact) (ttl : UInt8) : (f.form ttl).length = f.encodedLength := by
  simp only [form, encodedLength, List.length_cons, List.length_append, LengthVarint.length_form,
    length_subject, Value.length_encode]
  omega

lemma write_of_le {f : Fact} (h : f.value.encodedLength ≤ LengthVarint.max) (now : Instant)
    (buffer : List UInt8) :
    f.write now buffer = (.ok (), buffer ++ f.formAt now) := by
  rw [write, if_neg (by omega), Writer.andThen_of_ok (Writer.put_apply _ _),
    Writer.andThen_of_ok (LengthVarint.write_of_le h _), Writer.put_apply]
  simp [formAt, form]

lemma write_of_lt {f : Fact} (h : LengthVarint.max < f.value.encodedLength) (now : Instant)
    (buffer : List UInt8) :
    f.write now buffer = (.error (.valueTooLong f.value.encodedLength), buffer) := by
  rw [write, if_pos h, Writer.fail_apply]

lemma encode_eq_ok_iff {f : Fact} {now : Instant} {bytes : List UInt8} :
    f.encode now = .ok bytes ↔
      f.value.encodedLength ≤ LengthVarint.max ∧ bytes = f.formAt now := by
  by_cases h : f.value.encodedLength ≤ LengthVarint.max
  · simp [encode, Writer.bytes_of_ok (write_of_le h now []), h, eq_comm]
  · simp [encode, Writer.bytes_of_error (write_of_lt (not_le.mp h) now []), h]

lemma readSubject_eq_ok_iff {a : Attribute} {bytes : List UInt8} {k : PublicKey} :
    readSubject a bytes = .ok k ↔ a ≠ .unknown ∧ bytes = k.bytes := by
  by_cases ha : a = .unknown
  · simp [readSubject, ha]
  · simp only [readSubject, ha, if_false, ne_eq, not_false_eq_true, true_and]
    constructor
    · intro h
      split at h
      · rename_i o ho
        simp only [Except.ok.injEq] at h
        subst h
        exact Octets.ofList?_eq_some_iff.mp ho
      · cases h
    · rintro rfl
      simp [PublicKey.bytes, Octets.ofList?_bytes]

lemma ne_unknown_of_suits {a : Attribute} {v : Value} (h : Value.Suits a v) : a ≠ .unknown := by
  cases h with
  | endpoint ip port => cases ip <;> simp [Value.endpointAttribute]
  | allowedIps net => cases net <;> simp [Value.allowedIpsAttribute, Net.addr]
  | membership => simp
  | alive => simp
  | signedGroup => simp

theorem decode_form {f : Fact} {ttl : UInt8} {now : Instant} (hl : f.value.encodedLength ≤ LengthVarint.max)
    (hs : f.value.Suits f.kind) (he : f.expires = now + ttl.toNat * Clock.second) (rest : List UInt8) :
    decode (f.form ttl ++ rest) now = .ok (f, rest) := by
  have hv := LengthVarint.decode_of_form hl (f.subject.bytes ++ (f.value.encode ++ rest))
  have hk := f.length_subject
  have hd : (LengthVarint.form f.value.encodedLength ++ (f.subject.bytes ++ (f.value.encode ++ rest))).drop
      (LengthVarint.width f.value.encodedLength) = f.subject.bytes ++ (f.value.encode ++ rest) := by
    rw [← LengthVarint.length_form, List.drop_left]
  have hsubject : readSubject f.kind f.subject.bytes = .ok f.subject :=
    readSubject_eq_ok_iff.mpr ⟨ne_unknown_of_suits hs, rfl⟩
  have hvalue : Value.decode f.kind f.value.encode = .ok f.value := Value.decode_eq_ok_iff.mpr ⟨hs, rfl⟩
  have hrest : (f.subject.bytes ++ (f.value.encode ++ rest)).drop (32 + f.value.encodedLength) = rest := by
    rw [← List.append_assoc, List.drop_left' (by simp [hk])]
  obtain ⟨b, bs, hb⟩ : ∃ b bs, LengthVarint.form f.value.encodedLength ++
      (f.subject.bytes ++ (f.value.encode ++ rest)) = b :: bs := ⟨_, _, rfl⟩
  rw [hb] at hv hd
  have hn : ¬ (f.subject.bytes ++ (f.value.encode ++ rest)).length < 32 + f.value.encodedLength := by
    simp only [List.length_append, Value.length_encode]
    omega
  simp only [form, List.cons_append, List.append_assoc, hb, decode, Attribute.ofByte?_byte, hv, hd,
    show (32 : UInt8) ≠ 0 by decide, if_false, UInt8.reduceToNat, hn, List.take_left' hk, List.drop_left' hk,
    List.take_left' (Value.length_encode f.value), hsubject, hvalue, hrest]
  simp only [bind, Except.bind, ← he]

lemma decode_formAt {f : Fact} (hl : f.value.encodedLength ≤ LengthVarint.max) (hs : f.value.Suits f.kind)
    (now : Instant) (rest : List UInt8) : decode (f.formAt now ++ rest) now = .ok (f.asRead now, rest) := by
  have he : (f.asRead now).expires = now + (UInt8.ofNat (f.ttl now)).toNat * Clock.second := by
    rw [toNat_ttl, asRead, withExpires]
  exact decode_form (f := f.asRead now) hl hs he rest

/-- Whatever is read begins with the form of the fact that comes of it. -/
theorem form_of_decode {f : Fact} {bytes rest : List UInt8} {now : Instant}
    (h : decode bytes now = .ok (f, rest)) :
    f.value.encodedLength ≤ LengthVarint.max ∧ f.value.Suits f.kind ∧
      ∃ ttl : UInt8, f.expires = now + ttl.toNat * Clock.second ∧ bytes = f.form ttl ++ rest := by
  unfold decode at h
  split at h
  · rename_i kind ttl size b bs
    cases ha : Attribute.ofByte? kind with
    | none => simp [ha] at h
    | some a =>
      simp only [ha] at h
      split_ifs at h with hz
      cases hv : LengthVarint.decode (b :: bs) with
      | error e => cases e <;> simp [hv] at h
      | ok p =>
        obtain ⟨n, w⟩ := p
        simp only [hv] at h
        split_ifs at h with hlen
        obtain ⟨k, hk, h⟩ := bind_eq_ok_iff.mp h
        obtain ⟨v, hval, h⟩ := bind_eq_ok_iff.mp h
        simp only [Except.ok.injEq, Prod.mk.injEq] at h
        obtain ⟨rfl, rfl⟩ := h
        obtain ⟨-, hkb⟩ := readSubject_eq_ok_iff.mp hk
        obtain ⟨hs, hvb⟩ := Value.decode_eq_ok_iff.mp hval
        obtain ⟨hmax, -, hform⟩ := LengthVarint.form_of_decode hv
        set body := (b :: bs).drop w
        have h32 : size.toNat = 32 := by
          have hl := congrArg List.length hkb
          rw [PublicKey.bytes, k.octets.length_bytes, List.length_take] at hl
          omega
        rw [h32] at hlen hkb hvb ⊢
        have hn : n = v.encodedLength := by
          have hl := congrArg List.length hvb
          rw [Value.length_encode, List.length_take, List.length_drop] at hl
          omega
        have hsize : size = 32 := UInt8.toNat_inj.mp (by simp [h32])
        refine ⟨hn ▸ hmax, hs, ttl, rfl, ?_⟩
        have hbody : body = k.bytes ++ (v.encode ++ body.drop (32 + n)) := by
          rw [← hkb, ← hvb, ← List.drop_drop, List.take_append_drop, List.take_append_drop]
        rw [form, Attribute.eq_byte_of_ofByte? ha, hsize, ← hn]
        simp only [List.cons_append, List.append_assoc]
        rw [← hbody, ← hform]
  · cases h

end MeshFacts.Fact
