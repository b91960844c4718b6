import MeshFacts.Proofs.FactForms

/-! # Truncation
The head of a fact tells how long the fact is. So its first octets alone are refused, with how many there are while the
head is not complete, and then with how many the rest should have and has. No written form of a fact is the beginning of
a longer one. -/
namespace MeshFacts.Fact
variable {f g : Fact} {bytes : List UInt8} {ttl : UInt8} {now : Instant} {k : ℕ}

def headLength (f : Fact) : ℕ := 3 + LengthVarint.width f.value.encodedLength

def bodyLength (f : Fact) : ℕ := 32 + f.value.encodedLength

lemma encodedLength_eq_add (f : Fact) : f.encodedLength = f.headLength + f.bodyLength := by
  simp only [encodedLength, headLength, bodyLength]
  omega

/-- As long as the length of the value cannot be read, nothing is told but how many octets there are. -/
lemma decode_of_truncated_length {a : Attribute} {n : ℕ} (h : LengthVarint.decode bytes = .error (.truncatedHeader n)) :
    decode (a.byte :: ttl :: 32 :: bytes) now = .error (.truncatedHeader (bytes.length + 3)) := by
  cases bytes with
  | nil => rfl
  | cons b bs => simp [decode, Attribute.ofByte?_byte, h, show (32 : UInt8) ≠ 0 by decide]

lemma decode_of_truncated_body {a : Attribute} {n width : ℕ} (h : LengthVarint.decode bytes = .ok (n, width))
    (hlt : bytes.length - width < 32 + n) :
    decode (a.byte :: ttl :: 32 :: bytes) now = .error (.truncatedBody (32 + n) (bytes.length - width)) := by
  cases bytes with
  | nil => cases h
  | cons b bs =>
    simp only [decode, Attribute.ofByte?_byte, h, show (32 : UInt8) ≠ 0 by decide, if_false, UInt8.reduceToNat,
      List.length_drop, if_pos hlt]

lemma take_form (f : Fact) (ttl : UInt8) (k : ℕ) :
    (f.form ttl).take (3 + k) = f.kind.byte :: ttl :: 32 ::
      (LengthVarint.form f.value.encodedLength ++ (f.subject.bytes ++ f.value.encode)).take k := by
  rw [Nat.add_comm, form]
  rfl

lemma decode_take_head (hl : f.value.encodedLength ≤ LengthVarint.max) (hk : k < f.headLength) :
    decode ((f.form ttl).take k) now = .error (.truncatedHeader k) := by
  by_cases hfixed : k < 3
  · interval_cases k <;> rfl
  · obtain ⟨j, rfl⟩ : ∃ j, k = 3 + j := ⟨k - 3, by omega⟩
    have hj : j < LengthVarint.width f.value.encodedLength := Nat.lt_of_add_lt_add_left hk
    have hlength := LengthVarint.length_form f.value.encodedLength
    rw [take_form, List.take_append_of_le_length (by omega)]
    rw [decode_of_truncated_length (LengthVarint.decode_take_form hl hj), List.length_take, hlength, min_eq_left hj.le,
      Nat.add_comm]

lemma decode_take_body (hl : f.value.encodedLength ≤ LengthVarint.max) (hhead : f.headLength ≤ k)
    (hk : k < f.encodedLength) :
    decode ((f.form ttl).take k) now = .error (.truncatedBody f.bodyLength (k - f.headLength)) := by
  obtain ⟨j, rfl⟩ : ∃ j, k = f.headLength + j := ⟨k - f.headLength, by omega⟩
  set width := LengthVarint.width f.value.encodedLength with hwidth
  set body := f.subject.bytes ++ f.value.encode with hbody
  have hlength : (LengthVarint.form f.value.encodedLength).length = width := LengthVarint.length_form _
  have hj : j < body.length := by
    rw [encodedLength_eq_add] at hk
    simp only [hbody, List.length_append, length_subject, Value.length_encode, bodyLength] at hk ⊢
    omega
  have htake : (LengthVarint.form f.value.encodedLength ++ body).take (width + j) =
      LengthVarint.form f.value.encodedLength ++ body.take j := by
    rw [← hlength, List.take_length_add_append]
  have hrest : (LengthVarint.form f.value.encodedLength ++ body.take j).length - width = j := by
    rw [List.length_append, hlength, List.length_take, min_eq_left hj.le, Nat.add_sub_cancel_left]
  have hneed : j < 32 + f.value.encodedLength := by
    simp only [encodedLength_eq_add, bodyLength] at hk
    omega
  rw [headLength, ← hwidth, Nat.add_assoc, take_form, ← hbody, htake]
  rw [decode_of_truncated_body (LengthVarint.decode_of_form hl _) (by rwa [hrest]), hrest]
  congr 2
  omega

/-- Forms of which one begins the other are equally long. -/
lemma form_eq_of_isPrefix {ttl' : UInt8} (hf : f.value.encodedLength ≤ LengthVarint.max)
    (hg : g.value.encodedLength ≤ LengthVarint.max) (h : f.form ttl <+: g.form ttl') : f.form ttl = g.form ttl' := by
  obtain ⟨tail, htail⟩ := h
  have hdrop := congrArg (fun bytes => LengthVarint.decode (bytes.drop 3)) htail
  simp only [form, List.cons_append, List.drop_succ_cons, List.drop_zero, List.append_assoc,
    LengthVarint.decode_of_form hf, LengthVarint.decode_of_form hg, Except.ok.injEq, Prod.mk.injEq] at hdrop
  have hlength : (f.form ttl).length = (g.form ttl').length := by
    rw [length_form, length_form, encodedLength, encodedLength, hdrop.1]
  rw [← htail] at hlength ⊢
  rw [List.length_append, left_eq_add, List.length_eq_zero_iff] at hlength
  rw [hlength, List.append_nil]

/-- The first octets of what is written of a fact are never read as a fact, and the error tells how many there are and
how many are wanted. -/
theorem decode_truncated {time : Instant} {written : List UInt8} (h : f.encode time = .ok written) :
    (∀ k < written.length, ∀ now,
      (k < 3 + LengthVarint.width f.value.encodedLength ∨ k < 4 →
        decode (written.take k) now = .error (.truncatedHeader k)) ∧
      (¬ (k < 3 + LengthVarint.width f.value.encodedLength ∨ k < 4) →
        decode (written.take k) now = .error (.truncatedBody (32 + f.value.encodedLength)
          (k - (3 + LengthVarint.width f.value.encodedLength))))) ∧
      ∀ (g : Fact) (later : Instant) (other : List UInt8), g.encode later = .ok other → written <+: other →
        written = other := by
  obtain ⟨hl, rfl⟩ := encode_eq_ok_iff.mp h
  have hpos := LengthVarint.width_pos f.value.encodedLength
  refine ⟨fun k hk now => ⟨fun hhead => decode_take_head hl ?_, fun hbody => decode_take_body hl ?_ ?_⟩, ?_⟩
  · rw [headLength]
    omega
  · rw [headLength]
    omega
  · rwa [formAt, length_form] at hk
  · intro g later other hg hprefix
    obtain ⟨hl', rfl⟩ := encode_eq_ok_iff.mp hg
    exact form_eq_of_isPrefix hl hl' hprefix

/-- A group whose length takes two octets, cut between these and cut in its value. -/
theorem decode_truncated_group :
    let f := signedGroup ⟨.zero 32⟩ ⟨.zero 24, .zero 16, List.replicate 100 7⟩ 30000000000
    ∃ written, f.encode 0 = .ok written ∧ written.length = 177 ∧
      decode (written.take 4) 9 = .error (.truncatedHeader 4) ∧
      decode (written.take 50) 9 = .error (.truncatedBody 172 45) := by
  intro f
  have h : f.encode 0 = .ok (f.formAt 0) := encode_eq_ok_iff.mpr ⟨by decide, rfl⟩
  have hlength : (f.formAt 0).length = 177 := by rw [formAt, length_form]; rfl
  have hcuts := (decode_truncated h).1
  exact ⟨_, h, hlength, (hcuts 4 (by omega) 9).1 (by decide), (hcuts 50 (by omega) 9).2 (by decide)⟩

end MeshFacts.Fact
