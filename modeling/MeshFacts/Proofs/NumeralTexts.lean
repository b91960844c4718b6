import Mathlib
import MeshFacts.AddressText

/-! # Numerals read back from their texts
The numbers inside addresses, decimal and hexadecimal. A number takes the digits that a text begins with, so it is read
back from its text in front of anything that does not begin with a digit. -/
namespace MeshFacts.AddressText

def base (hexadecimal : Bool) : ℕ := if hexadecimal then 16 else 10

def digitValue (hexadecimal : Bool) (c : Char) : Option ℕ :=
  let n := c.toNat
  if 48 ≤ n ∧ n ≤ 57 then some (n - 48)
  else if hexadecimal && decide (97 ≤ n ∧ n ≤ 102) then some (n - 87)
  else if hexadecimal && decide (65 ≤ n ∧ n ≤ 70) then some (n - 55)
  else none

def numeral (hexadecimal : Bool) (n : ℕ) : List Char := Nat.toDigits (base hexadecimal) n

def valueOf (hexadecimal : Bool) (run : List Char) : ℕ :=
  run.foldl (fun v c => v * base hexadecimal + (digitValue hexadecimal c).getD 0) 0

def leading (hexadecimal : Bool) (cs : List Char) : List Char := cs.takeWhile fun c => (digitValue hexadecimal c).isSome

def behind (hexadecimal : Bool) (cs : List Char) : List Char := cs.dropWhile fun c => (digitValue hexadecimal c).isSome

/-- The digits of a number do not go on in a text. -/
def Ends (hexadecimal : Bool) (rest : List Char) : Prop := ∀ c ∈ rest.head?, digitValue hexadecimal c = none

variable {x zeros : Bool} {n d digits max : ℕ} {c : Char} {cs rest : List Char}

lemma one_lt_base (x : Bool) : 1 < base x := by cases x <;> decide

lemma digitValue_digitChar (h : d < base x) : digitValue x d.digitChar = some d := by
  have hdecimal : ∀ d : Fin 10, digitValue false d.val.digitChar = some d.val := by decide
  have hhexadecimal : ∀ d : Fin 16, digitValue true d.val.digitChar = some d.val := by decide
  cases x
  · exact hdecimal ⟨d, h⟩
  · exact hhexadecimal ⟨d, h⟩

lemma digitValue_false_of_true (h : digitValue true c = none) : digitValue false c = none := by
  by_cases hdigit : 48 ≤ c.toNat ∧ c.toNat ≤ 57
  · simp [digitValue, hdigit] at h
  · simp [digitValue, hdigit]

lemma Ends.decimal (h : Ends true rest) : Ends false rest := fun c hc => digitValue_false_of_true (h c hc)

lemma leading_of_ends (h : Ends x rest) : leading x rest = [] := by
  cases rest with
  | nil => rfl
  | cons c rest => simp [leading, h c (by simp)]

lemma behind_of_ends (h : Ends x rest) : behind x rest = rest := by
  cases rest with
  | nil => rfl
  | cons c rest => simp [behind, h c (by simp)]

lemma drop_length_takeWhile {α : Type} (p : α → Bool) (xs : List α) :
    xs.drop (xs.takeWhile p).length = xs.dropWhile p :=
  calc xs.drop (xs.takeWhile p).length
      _ = (xs.takeWhile p ++ xs.dropWhile p).drop (xs.takeWhile p).length := by rw [List.takeWhile_append_dropWhile]
      _ = xs.dropWhile p := List.drop_left

lemma number?_eq (x : Bool) (digits max : ℕ) (zeros : Bool) (cs : List Char) : number? x digits max zeros cs =
    if (leading x cs).isEmpty || (leading x cs).length > digits then none
    else if (leading x cs).head? == some '0' && (leading x cs).length > 1 && !zeros then none
    else if valueOf x (leading x cs) > max then none else some (valueOf x (leading x cs), behind x cs) := by
  have hbehind : behind x cs = cs.drop (leading x cs).length := (drop_length_takeWhile _ cs).symm
  rw [hbehind]
  rfl

lemma text_eq (n : ℕ) : Numeral.text n = numeral false n := rfl

lemma numeral_eq (x : Bool) (n : ℕ) :
    numeral x n = if n < base x then [n.digitChar] else numeral x (n / base x) ++ [(n % base x).digitChar] :=
  Nat.toDigits_eq_if (one_lt_base x)

lemma numeral_ne_nil (x : Bool) (n : ℕ) : numeral x n ≠ [] := Nat.toDigits_ne_nil

lemma length_numeral_le {k : ℕ} (h : n < base x ^ k) (hk : 0 < k) : (numeral x n).length ≤ k :=
  (Nat.length_toDigits_le_iff (one_lt_base x) hk).mpr h

lemma isSome_digitValue (hc : c ∈ numeral x n) : (digitValue x c).isSome = true := by
  induction n using Nat.strong_induction_on with
  | h n ih =>
    have hpos := one_lt_base x
    rw [numeral_eq] at hc
    split_ifs at hc with hlt
    · rw [List.mem_singleton.mp hc, digitValue_digitChar hlt]
      rfl
    · rcases List.mem_append.mp hc with hc | hc
      · exact ih _ (Nat.div_lt_self (by omega) hpos) hc
      · rw [List.mem_singleton.mp hc, digitValue_digitChar (Nat.mod_lt _ (by omega))]
        rfl

lemma head?_numeral (h : (numeral x n).head? = some '0') : n = 0 := by
  induction n using Nat.strong_induction_on with
  | h n ih =>
    have hpos := one_lt_base x
    rw [numeral_eq] at h
    split_ifs at h with hlt
    · simpa using h
    · rw [List.head?_append_of_ne_nil _ (numeral_ne_nil x _)] at h
      have := ih _ (Nat.div_lt_self (by omega) hpos) h
      rcases Nat.div_eq_zero_iff.mp this with hzero | hsmall <;> omega

lemma valueOf_numeral (x : Bool) (n : ℕ) : valueOf x (numeral x n) = n := by
  induction n using Nat.strong_induction_on with
  | h n ih =>
    have hpos := one_lt_base x
    rw [valueOf, numeral_eq]
    split_ifs with hlt
    · simp [digitValue_digitChar hlt]
    · have hfront := ih _ (Nat.div_lt_self (by omega) hpos)
      rw [valueOf] at hfront
      rw [List.foldl_append, hfront, List.foldl_cons, List.foldl_nil,
        digitValue_digitChar (Nat.mod_lt _ (by omega)), Option.getD_some, Nat.div_add_mod']

lemma leading_numeral (h : Ends x rest) : leading x (numeral x n ++ rest) = numeral x n := by
  rw [leading, List.takeWhile_append_of_pos fun c hc => isSome_digitValue hc]
  exact (congrArg _ (leading_of_ends h)).trans (List.append_nil _)

lemma behind_numeral (h : Ends x rest) : behind x (numeral x n ++ rest) = rest := by
  rw [behind, List.dropWhile_append_of_pos fun c hc => isSome_digitValue hc]
  exact behind_of_ends h

lemma number?_numeral (zeros : Bool) (hdigits : (numeral x n).length ≤ digits) (hmax : n ≤ max) (h : Ends x rest) :
    number? x digits max zeros (numeral x n ++ rest) = some (n, rest) := by
  have hlead : ((numeral x n).head? == some '0' && (numeral x n).length > 1 && !zeros) = false := by
    by_cases hhead : (numeral x n).head? = some '0'
    · have hbase := one_lt_base x
      rw [head?_numeral hhead, numeral_eq, if_pos (by omega)]
      simp
    · simp [hhead]
  rw [number?_eq, leading_numeral h, behind_numeral h, valueOf_numeral, if_neg (by simp [numeral_ne_nil, hdigits]), hlead,
    if_neg (by simp), if_neg (by omega)]

lemma number?_of_ends (h : Ends x rest) : number? x digits max zeros rest = none := by
  rw [number?_eq, leading_of_ends h]
  rfl

/-- What a number leaves of a text is what follows its digits. -/
lemma rest_number? {v : ℕ} {r : List Char} (h : number? x digits max zeros cs = some (v, r)) : r = behind x cs := by
  rw [number?_eq] at h
  split_ifs at h
  rw [Option.some.injEq, Prod.mk.injEq] at h
  exact h.2.symm

lemma char?_cons (c : Char) (r : List Char) : char? c (c :: r) = some r := if_pos rfl

end MeshFacts.AddressText

namespace MeshFacts.Numeral
open AddressText
variable {n v bits : ℕ} {cs : List Char}

lemma digit?_eq (c : Char) : digit? c = digitValue false c := by
  unfold digit? digitValue
  simp

lemma readOnto_eq (h : ∀ c ∈ cs, (digitValue false c).isSome = true) (v : ℕ) :
    readOnto v cs = some (cs.foldl (fun v c => v * base false + (digitValue false c).getD 0) v) := by
  induction cs generalizing v with
  | nil => rfl
  | cons c cs ih =>
    obtain ⟨hc, hcs⟩ := List.forall_mem_cons.mp h
    obtain ⟨d, hd⟩ := Option.isSome_iff_exists.mp hc
    rw [readOnto, digit?_eq, hd, List.foldl_cons, hd]
    exact ih hcs _

lemma word?_text (h : n < 2 ^ bits) : word? bits (String.ofList (text n)) = some n := by
  have hdigits : ∀ c ∈ text n, (digitValue false c).isSome = true := fun c hc =>
    isSome_digitValue (n := n) hc
  have hdecimal : decimal? (text n) = some n := by
    have hvalue := valueOf_numeral false n
    rw [decimal?, readOnto_eq hdigits]
    · exact congrArg some hvalue
    · exact numeral_ne_nil false n
  have hplus : ∀ r, text n ≠ '+' :: r := fun r hr => by
    have hsign := hdigits '+' (by simp [hr])
    exact absurd hsign (by decide)
  have hmax : n ≤ (1 <<< bits) - 1 := by
    rw [Nat.shiftLeft_eq, one_mul]
    omega
  rw [word?, String.toList_ofList, unsigned?]
  · simp [hdecimal, hmax]
  · exact hplus

end MeshFacts.Numeral
