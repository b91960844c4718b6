import MeshFacts.Proofs.KeyTexts
import MeshFacts.Proofs.Outcomes

/-! # Spellings of keys
Base 64 is read only as it is written: what is read of a text is written as that very text, and no text is both padded and
unpadded unless it needs no padding. So a key has two spellings, which blanks may surround, and nothing else is read. -/
namespace MeshFacts

namespace Base64
variable {padded : Bool} {a b c d : Char} {v : ℕ} {bytes : List UInt8} {cs : List Char}

/-! ## Reading only what is written -/

lemma digit?_eq_some_iff : digit? c = some v ↔ v < 64 ∧ c = digit v :=
  ⟨fun h => ⟨(digit_digit? h).2, (digit_digit? h).1.symm⟩, fun ⟨hlt, hc⟩ => hc ▸ digit?_digit hlt⟩

lemma exists_octet (h : v < 256) : ∃ o : UInt8, UInt8.ofNat v = o ∧ o.toNat = v :=
  ⟨_, rfl, by rw [UInt8.toNat_ofNat']; omega⟩

lemma eq_of_lastOne (h : lastOne a b = some bytes) :
    ∃ o : UInt8, bytes = [o] ∧ a = digit (o.toNat / 4) ∧ b = digit (o.toNat % 4 * 16) := by
  simp only [lastOne, Option.bind_eq_bind, Option.bind_eq_some_iff, digit?_eq_some_iff, Option.ite_none_right_eq_some,
    Option.some.injEq] at h
  obtain ⟨x, ⟨hx, rfl⟩, y, ⟨hy, rfl⟩, hspare, rfl⟩ := h
  obtain ⟨o, ho, hov⟩ := exists_octet (v := x * 4 + y / 16) (by omega)
  exact ⟨o, by rw [ho], congrArg digit (by omega), congrArg digit (by omega)⟩

lemma eq_of_lastTwo (h : lastTwo a b c = some bytes) :
    ∃ o p : UInt8, bytes = [o, p] ∧ a = digit (o.toNat / 4) ∧ b = digit (o.toNat % 4 * 16 + p.toNat / 16) ∧
      c = digit (p.toNat % 16 * 4) := by
  simp only [lastTwo, Option.bind_eq_bind, Option.bind_eq_some_iff, digit?_eq_some_iff, Option.ite_none_right_eq_some,
    Option.some.injEq] at h
  obtain ⟨x, ⟨hx, rfl⟩, y, ⟨hy, rfl⟩, z, ⟨hz, rfl⟩, hspare, rfl⟩ := h
  obtain ⟨o, ho, hov⟩ := exists_octet (v := x * 4 + y / 16) (by omega)
  obtain ⟨p, hp, hpv⟩ := exists_octet (v := y % 16 * 16 + z / 4) (by omega)
  exact ⟨o, p, by rw [ho, hp], congrArg digit (by omega), congrArg digit (by omega), congrArg digit (by omega)⟩

lemma eq_of_group (h : group a b c d = some bytes) :
    ∃ o p q : UInt8, bytes = [o, p, q] ∧ a = digit (o.toNat / 4) ∧ b = digit (o.toNat % 4 * 16 + p.toNat / 16) ∧
      c = digit (p.toNat % 16 * 4 + q.toNat / 64) ∧ d = digit (q.toNat % 64) := by
  simp only [group, Option.bind_eq_bind, Option.bind_eq_some_iff, digit?_eq_some_iff, Option.some.injEq] at h
  obtain ⟨x, ⟨hx, rfl⟩, y, ⟨hy, rfl⟩, z, ⟨hz, rfl⟩, w, ⟨hw, rfl⟩, rfl⟩ := h
  obtain ⟨o, ho, hov⟩ := exists_octet (v := x * 4 + y / 16) (by omega)
  obtain ⟨p, hp, hpv⟩ := exists_octet (v := y % 16 * 16 + z / 4) (by omega)
  obtain ⟨q, hq, hqv⟩ := exists_octet (v := z % 4 * 64 + w) (by omega)
  exact ⟨o, p, q, by rw [ho, hp, hq], congrArg digit (by omega), congrArg digit (by omega), congrArg digit (by omega),
    congrArg digit (by omega)⟩

/-- What is read of a text is written as that text. -/
lemma encode_of_decode (h : decode padded cs = some bytes) : encode padded bytes = cs := by
  induction cs using decode.induct padded generalizing bytes with
  | case1 => rw [← Option.some.inj h, encode]
  | case2 c => cases h
  | case3 a b hpadded => simp [decode, hpadded] at h
  | case4 a b hpadded =>
    simp only [decode, hpadded, if_false, Bool.false_eq_true] at h
    obtain ⟨o, rfl, rfl, rfl⟩ := eq_of_lastOne h
    simp [encode, padding, hpadded]
  | case5 a b c hpadded => simp [decode, hpadded] at h
  | case6 a b c hpadded =>
    simp only [decode, hpadded, if_false, Bool.false_eq_true] at h
    obtain ⟨o, p, rfl, rfl, rfl, rfl⟩ := eq_of_lastTwo h
    simp [encode, padding, hpadded]
  | case7 a b c d r hlast hc =>
    simp only [decode, hlast, hc, if_true] at h
    obtain ⟨o, rfl, rfl, rfl⟩ := eq_of_lastOne h
    simp_all [encode, padding]
  | case8 a b c d r hlast hc =>
    simp only [decode, hlast, hc, if_true, if_false, Bool.false_eq_true] at h
    obtain ⟨o, p, rfl, rfl, rfl, rfl⟩ := eq_of_lastTwo h
    simp_all [encode, padding]
  | case9 a b c d r hlast ih =>
    simp only [decode, hlast, if_false, Bool.false_eq_true, Option.bind_eq_bind, Option.bind_eq_some_iff, Option.some.injEq] at h
    obtain ⟨head, hhead, tail, htail, rfl⟩ := h
    obtain ⟨o, p, q, rfl, rfl, rfl, rfl, rfl⟩ := eq_of_group hhead
    simp [encode, ih htail]

lemma decode_eq_some_iff : decode padded cs = some bytes ↔ cs = encode padded bytes :=
  ⟨fun h => (encode_of_decode h).symm, fun h => h ▸ decode_encode padded bytes⟩

/-! ## Padding -/

/-- A padded text is the unpadded one and an equals sign for each octet that its last group lacks. -/
lemma encode_true (bytes : List UInt8) :
    encode true bytes = encode false bytes ++ List.replicate ((3 - bytes.length % 3) % 3) '=' := by
  induction bytes using encode.induct with
  | case1 => rfl
  | case2 a => rfl
  | case3 a b => rfl
  | case4 a b c bytes ih =>
    have hlength : (a :: b :: c :: bytes).length % 3 = bytes.length % 3 := by
      simp only [List.length_cons]
      omega
    rw [encode, encode, ih, hlength]
    rfl

lemma ne_pad_of_mem_encode : ∀ c ∈ encode false bytes, c ≠ '=' := forall_mem_encode (fun _ => digit_ne_pad) (by simp)

lemma decode_orElse_eq_some_iff : (decode true cs <|> decode false cs) = some bytes ↔
    cs = encode true bytes ∨ cs = encode false bytes := by
  cases hpadded : decode true cs with
  | none =>
    have hne : cs ≠ encode true bytes := fun h => by
      rw [decode_eq_some_iff.mpr h] at hpadded
      cases hpadded
    simp [decode_eq_some_iff, hne]
  | some read =>
    have hcs := decode_eq_some_iff.mp hpadded
    have hunpadded : cs = encode false bytes → read = bytes := by
      intro h
      have hpad : '=' ∉ cs := fun hmem => ne_pad_of_mem_encode '=' (h ▸ hmem) rfl
      rw [hcs, encode_true, List.mem_append, not_or] at hpad
      have hnone : List.replicate ((3 - read.length % 3) % 3) '=' = [] := by
        simpa using hpad.2
      rw [h, encode_true, hnone, List.append_nil] at hcs
      exact Option.some.inj ((decode_encode false read).symm.trans (hcs ▸ decode_encode false bytes))
    simp only [Option.orElse_eq_orElse, Option.orElse_eq_or, Option.some_or, Option.some.injEq]
    constructor
    · rintro rfl
      exact .inl hcs
    · rintro (h | h)
      · exact Option.some.inj (hpadded.symm.trans (decode_eq_some_iff.mpr h))
      · exact hunpadded h

/-! ## Texts that lack one octet in the last group -/

def spareTwo (ds : List (Fin 64)) (last : Fin 16) : List Char := ds.map (fun d => digit d.val) ++ [digit (4 * last.val)]

lemma exists_spareTwo {n : ℕ} (h : bytes.length = 3 * n + 2) :
    ∃ ds last, ds.length = 4 * n + 2 ∧ encode false bytes = spareTwo ds last := by
  induction bytes using encode.induct generalizing n with
  | case1 => simp at h
  | case2 a =>
    simp only [List.length_cons, List.length_nil] at h
    omega
  | case3 a b =>
    have ha := a.toNat_lt
    have hb := b.toNat_lt
    obtain rfl : n = 0 := by simpa using h
    refine ⟨[⟨a.toNat / 4, by omega⟩, ⟨a.toNat % 4 * 16 + b.toNat / 16, by omega⟩], ⟨b.toNat % 16, by omega⟩, rfl, ?_⟩
    simp [encode, spareTwo, padding, mul_comm]
  | case4 a b c bytes ih =>
    have ha := a.toNat_lt
    have hb := b.toNat_lt
    have hc := c.toNat_lt
    obtain ⟨m, rfl⟩ : ∃ m, n = m + 1 := by
      simp only [List.length_cons] at h
      exact ⟨n - 1, by omega⟩
    obtain ⟨ds, last, hlength, htext⟩ := ih (n := m) (by simp only [List.length_cons] at h; omega)
    refine ⟨⟨a.toNat / 4, by omega⟩ :: ⟨a.toNat % 4 * 16 + b.toNat / 16, by omega⟩ ::
      ⟨b.toNat % 16 * 4 + c.toNat / 64, by omega⟩ :: ⟨c.toNat % 64, by omega⟩ :: ds, last, ?_, ?_⟩
    · simp only [List.length_cons]
      omega
    · simp [encode, spareTwo, htext]

lemma exists_of_spareTwo (n : ℕ) (ds : List (Fin 64)) (last : Fin 16) (h : ds.length = 4 * n + 2) :
    ∃ bytes, bytes.length = 3 * n + 2 ∧ encode false bytes = spareTwo ds last := by
  induction n generalizing ds with
  | zero =>
    obtain ⟨x, y, rfl⟩ := List.length_eq_two.mp h
    have hread : decode false (spareTwo [x, y] last) =
        some [UInt8.ofNat (x * 4 + y / 16), UInt8.ofNat (y % 16 * 16 + 4 * last / 4)] :=
      lastTwo_digits x.isLt y.isLt (by omega) (by omega)
    exact ⟨_, rfl, (decode_eq_some_iff.mp hread).symm⟩
  | succ n ih =>
    obtain ⟨x, y, z, w, ds, rfl⟩ : ∃ x y z w ds', ds = x :: y :: z :: w :: ds' := by
      match ds, h with
      | x :: y :: z :: w :: ds, _ => exact ⟨x, y, z, w, ds, rfl⟩
    obtain ⟨bytes, hlength, htext⟩ := ih ds (by simp only [List.length_cons] at h; omega)
    have hgroup := group_digits x.isLt y.isLt z.isLt w.isLt
    have hread : decode false (spareTwo (x :: y :: z :: w :: ds) last) = some ([UInt8.ofNat (x * 4 + y / 16),
        UInt8.ofNat (y % 16 * 16 + z / 4), UInt8.ofNat (z % 4 * 64 + w)] ++ bytes) := by
      have hrest : decode false (spareTwo ds last) = some bytes := decode_eq_some_iff.mpr htext.symm
      have htext : spareTwo (x :: y :: z :: w :: ds) last =
          digit x :: digit y :: digit z :: digit w :: spareTwo ds last := rfl
      rw [htext, decode, if_neg (by simp), hgroup, hrest]
      rfl
    exact ⟨_, by simp [hlength]; omega, (decode_eq_some_iff.mp hread).symm⟩

end Base64

namespace KeyText
variable {t : String} {o : Octets 32}

/-- Between blanks, a text is the padded base 64 of some octets, or that without its last character. -/
def Spells (t : String) (o : Octets 32) : Prop :=
  ∃ core, TrimsTo t.toList core ∧ (core = (base64 o).toList ∨ core = (base64 o).toList.dropLast)

lemma toList_base64 (o : Octets 32) : (base64 o).toList = Base64.encode false o.bytes ++ ['='] := by
  rw [base64, String.toList_ofList, Base64.encode_true, o.length_bytes]
  rfl

lemma spells_iff : Spells t o ↔
    trim t.toList = Base64.encode true o.bytes ∨ trim t.toList = Base64.encode false o.bytes := by
  rw [Spells, exists_trimsTo_iff, toList_base64, List.dropLast_concat, ← toList_base64, base64, String.toList_ofList]

lemma ofBytes_eq_ok_iff {bytes : List UInt8} : ofBytes bytes = .ok o ↔ bytes = o.bytes := by
  rw [ofBytes, ← Octets.ofList?_eq_some_iff]
  cases Octets.ofList? 32 bytes <;> simp

lemma ofBase64_eq_ok_iff : ofBase64 t = .ok o ↔ Spells t o := by
  rw [spells_iff, ← Base64.decode_orElse_eq_some_iff, ofBase64]
  cases hread : (Base64.decode true (trim t.toList) <|> Base64.decode false (trim t.toList)) with
  | none => simp
  | some bytes => simp [ofBytes_eq_ok_iff]

/-- What spells some key is 43 digits with two spare bits, with or without an equals sign behind them. -/
lemma exists_spells_iff : (∃ o, Spells t o) ↔ ∃ ds last, ds.length = 42 ∧ ∃ core, TrimsTo t.toList core ∧
    (core = Base64.spareTwo ds last ∨ core = Base64.spareTwo ds last ++ ['=']) := by
  simp only [Spells, exists_trimsTo_iff]
  constructor
  · rintro ⟨o, h⟩
    obtain ⟨ds, last, hlength, htext⟩ := Base64.exists_spareTwo (n := 10) o.length_bytes
    refine ⟨ds, last, hlength, ?_⟩
    rwa [toList_base64, List.dropLast_concat, htext, or_comm] at h
  · rintro ⟨ds, last, hlength, h⟩
    obtain ⟨bytes, hbytes, htext⟩ := Base64.exists_of_spareTwo 10 ds last hlength
    refine ⟨⟨bytes, hbytes⟩, ?_⟩
    rwa [toList_base64, List.dropLast_concat, htext, or_comm]

end KeyText

open KeyText
variable {t : String}

lemma PublicKey.ofBase64_eq_ok_iff {k : PublicKey} : ofBase64 t = .ok k ↔ Spells t k.octets := by
  simp only [ofBase64, map_eq_ok_iff, KeyText.ofBase64_eq_ok_iff]
  constructor
  · rintro ⟨o, ho, rfl⟩
    exact ho
  · intro h
    exact ⟨k.octets, h, rfl⟩

lemma PrivateKey.ofBase64_eq_ok_iff {k : PrivateKey} : ofBase64 t = .ok k ↔ Spells t k.octets := by
  simp only [ofBase64, map_eq_ok_iff, KeyText.ofBase64_eq_ok_iff]
  constructor
  · rintro ⟨o, ho, rfl⟩
    exact ho
  · intro h
    exact ⟨k.octets, h, rfl⟩

lemma KeyPair.ofBase64_eq_ok_iff {p : KeyPair} :
    ofBase64 t = .ok p ↔ ∃ k : PrivateKey, Spells t k.octets ∧ .ofPrivate k = p := by
  simp only [ofBase64, map_eq_ok_iff, PrivateKey.ofBase64_eq_ok_iff]

lemma refused_iff : (∃ e, PublicKey.ofBase64 t = .error e ∧ PrivateKey.ofBase64 t = .error e ∧
    KeyPair.ofBase64 t = .error e) ↔ ∀ o, ¬ Spells t o := by
  simp only [← KeyText.ofBase64_eq_ok_iff, PublicKey.ofBase64, PrivateKey.ofBase64, KeyPair.ofBase64]
  cases KeyText.ofBase64 t with
  | error e => simp
  | ok o => simp

/-- A key is read of its padded base 64 and of that without the equals sign, both with or without blanks around them,
and of nothing else. -/
theorem key_spellings (t : String) :
    (∀ k : PublicKey, PublicKey.ofBase64 t = .ok k ↔ Spells t k.octets) ∧
      (∀ k : PrivateKey, PrivateKey.ofBase64 t = .ok k ↔ Spells t k.octets) ∧
      (∀ p : KeyPair, KeyPair.ofBase64 t = .ok p ↔ ∃ k : PrivateKey, Spells t k.octets ∧ .ofPrivate k = p) ∧
      ((∃ e, PublicKey.ofBase64 t = .error e ∧ PrivateKey.ofBase64 t = .error e ∧ KeyPair.ofBase64 t = .error e) ↔
        ∀ o, ¬ Spells t o) ∧
      ((∃ o, Spells t o) ↔ ∃ ds last, ds.length = 42 ∧ ∃ core, TrimsTo t.toList core ∧
        (core = Base64.spareTwo ds last ∨ core = Base64.spareTwo ds last ++ ['='])) ∧
      ∀ o : Octets 32, (base64 o).toList.getLast? = some '=' := by
  refine ⟨fun k => PublicKey.ofBase64_eq_ok_iff, fun k => PrivateKey.ofBase64_eq_ok_iff,
    fun p => KeyPair.ofBase64_eq_ok_iff, refused_iff, exists_spells_iff, fun o => ?_⟩
  rw [toList_base64, List.getLast?_concat]

/-- A key is read of its text between blanks; with a blank inside the text is refused. -/
theorem key_spellings_between_blanks :
    let k : PublicKey := ⟨⟨List.replicate 32 7, rfl⟩⟩
    PublicKey.ofBase64 "  BwcHBwcHBwcHBwcHBwcHBwcHBwcHBwcHBwcHBwcHBwc=\n" = .ok k ∧
      PublicKey.ofBase64 "BwcHBwcHBwcHBwcHBwcHBwcHBwcHBwcHBwcHBwcHBwc\t" = .ok k ∧
      ∃ e, PublicKey.ofBase64 "BwcH BwcHBwcHBwcHBwcHBwcHBwcHBwcHBwcHBwcHBwc=" = .error e := by
  intro k
  refine ⟨((key_spellings _).1 k).mpr ⟨(base64 k.octets).toList, trim_eq_iff.mp ?_, .inl rfl⟩,
    ((key_spellings _).1 k).mpr ⟨(base64 k.octets).toList.dropLast, trim_eq_iff.mp ?_, .inr rfl⟩, ?_⟩
  · decide +kernel
  · decide +kernel
  · obtain ⟨-, -, -, hrefused, hspelled, -⟩ :=
      key_spellings "BwcH BwcHBwcHBwcHBwcHBwcHBwcHBwcHBwcHBwcHBwc="
    have hnone : ∀ o, ¬ Spells "BwcH BwcHBwcHBwcHBwcHBwcHBwcHBwcHBwcHBwcHBwc=" o := by
      intro o h
      obtain ⟨ds, last, hds, core, hcore, hform⟩ := hspelled.mp ⟨o, h⟩
      have hlength : core.length = 45 := by
        rw [← trim_eq_iff.mpr hcore]
        decide +kernel
      rcases hform with rfl | rfl <;> simp [Base64.spareTwo, hds] at hlength
    obtain ⟨e, he, -⟩ := hrefused.mpr hnone
    exact ⟨e, he⟩

end MeshFacts
