import Mathlib
import MeshFacts.Key

/-! # Keys read back from their texts
Octets are read back from their base 64, padded or not, and a key from the text that is written for it. -/
namespace MeshFacts

lemma trim_of_not_blank {cs : List Char} (h : ∀ c ∈ cs, isBlank c = false) : trim cs = cs := by
  have hstart : ∀ cs : List Char, (∀ c ∈ cs, isBlank c = false) → trimStart cs = cs := by
    intro cs h
    cases cs with
    | nil => rfl
    | cons c cs => simp [trimStart, h c (by simp)]
  rw [trim, hstart cs h, trimEnd, hstart cs.reverse fun c hc => h c (List.mem_reverse.mp hc), List.reverse_reverse]

namespace Base64
variable {padded : Bool} {x y z w : ℕ} {c : Char} {bytes : List UInt8}

lemma lastOne_digits (hx : x < 64) (hy : y < 64) (hspare : y % 16 = 0) :
    lastOne (digit x) (digit y) = some [UInt8.ofNat (x * 4 + y / 16)] := by
  simp [lastOne, digit?_digit hx, digit?_digit hy, hspare]

lemma lastTwo_digits (hx : x < 64) (hy : y < 64) (hz : z < 64) (hspare : z % 4 = 0) :
    lastTwo (digit x) (digit y) (digit z) =
      some [UInt8.ofNat (x * 4 + y / 16), UInt8.ofNat (y % 16 * 16 + z / 4)] := by
  simp [lastTwo, digit?_digit hx, digit?_digit hy, digit?_digit hz, hspare]

lemma group_digits (hx : x < 64) (hy : y < 64) (hz : z < 64) (hw : w < 64) :
    group (digit x) (digit y) (digit z) (digit w) = some [UInt8.ofNat (x * 4 + y / 16),
      UInt8.ofNat (y % 16 * 16 + z / 4), UInt8.ofNat (z % 4 * 64 + w)] := by
  simp [group, digit?_digit hx, digit?_digit hy, digit?_digit hz, digit?_digit hw]

lemma ofNat_eq {n : ℕ} {a : UInt8} (h : n = a.toNat) : UInt8.ofNat n = a := by rw [h, UInt8.ofNat_toNat]

lemma decode_encode (padded : Bool) (bytes : List UInt8) : decode padded (encode padded bytes) = some bytes := by
  induction bytes using encode.induct with
  | case1 => rfl
  | case2 a =>
    have ha := a.toNat_lt
    have hlast : lastOne (digit (a.toNat / 4)) (digit (a.toNat % 4 * 16)) = some [a] := by
      rw [lastOne_digits (by omega) (by omega) (by omega), ofNat_eq (a := a) (by omega)]
    cases padded <;> simpa [encode, padding, decode] using hlast
  | case3 a b =>
    have ha := a.toNat_lt
    have hb := b.toNat_lt
    have hlast : lastTwo (digit (a.toNat / 4)) (digit (a.toNat % 4 * 16 + b.toNat / 16)) (digit (b.toNat % 16 * 4)) =
        some [a, b] := by
      rw [lastTwo_digits (by omega) (by omega) (by omega) (by omega), ofNat_eq (a := a) (by omega),
        ofNat_eq (a := b) (by omega)]
    have hpad : digit (b.toNat % 16 * 4) ≠ '=' := digit_ne_pad (by omega)
    cases padded <;> simpa [encode, padding, decode, hpad] using hlast
  | case4 a b c bytes ih =>
    have ha := a.toNat_lt
    have hb := b.toNat_lt
    have hc := c.toNat_lt
    have hpad : digit (c.toNat % 64) ≠ '=' := digit_ne_pad (by omega)
    rw [encode, decode, if_neg (by simp [hpad]), ih, group_digits (by omega) (by omega) (by omega) (by omega),
      ofNat_eq (a := a) (by omega), ofNat_eq (a := b) (by omega), ofNat_eq (a := c) (by omega)]
    rfl

/-- What holds of all digits, and of the padding if there is any, holds throughout a text. -/
lemma forall_mem_encode {P : Char → Prop} (hdigit : ∀ v < 64, P (digit v)) (hpad : padded = true → P '=') :
    ∀ c ∈ encode padded bytes, P c := by
  have hpadding : ∀ n, ∀ c ∈ padding padded n, P c := by
    intro n c hc
    unfold padding at hc
    split_ifs at hc with hpadded
    · exact List.eq_of_mem_replicate hc ▸ hpad hpadded
    · cases hc
  induction bytes using encode.induct with
  | case1 => simp [encode]
  | case2 a =>
    have ha := a.toNat_lt
    simp only [encode, List.forall_mem_cons]
    exact ⟨hdigit _ (by omega), hdigit _ (by omega), hpadding 2⟩
  | case3 a b =>
    have ha := a.toNat_lt
    have hb := b.toNat_lt
    simp only [encode, List.forall_mem_cons]
    exact ⟨hdigit _ (by omega), hdigit _ (by omega), hdigit _ (by omega), hpadding 1⟩
  | case4 a b c bytes ih =>
    have ha := a.toNat_lt
    have hb := b.toNat_lt
    have hc := c.toNat_lt
    simp only [encode, List.forall_mem_cons]
    exact ⟨hdigit _ (by omega), hdigit _ (by omega), hdigit _ (by omega), hdigit _ (by omega), ih⟩

lemma isBlank_of_mem_encode : ∀ c ∈ encode padded bytes, isBlank c = false :=
  forall_mem_encode (by decide) fun _ => by decide

lemma ne_nul_of_mem_encode : ∀ c ∈ encode padded bytes, c ≠ '\x00' :=
  forall_mem_encode (by decide) fun _ => by decide

end Base64

lemma KeyText.ofBase64_base64 (o : Octets 32) : ofBase64 (base64 o) = .ok o := by
  have htrim : trim (base64 o).toList = Base64.encode true o.bytes := by
    rw [base64, String.toList_ofList]
    exact trim_of_not_blank Base64.isBlank_of_mem_encode
  simp [ofBase64, htrim, Base64.decode_encode, ofBytes, Octets.ofList?_bytes]

namespace PublicKey

lemma ofBase64_base64 (k : PublicKey) : ofBase64 k.base64 = .ok k := by
  rw [ofBase64, base64, KeyText.ofBase64_base64]
  rfl

lemma ne_nul_of_mem_base64 {k : PublicKey} {c : Char} (h : c ∈ k.base64.toList) : c ≠ '\x00' := by
  rw [base64, KeyText.base64, String.toList_ofList] at h
  exact Base64.ne_nul_of_mem_encode c h

end PublicKey

end MeshFacts
