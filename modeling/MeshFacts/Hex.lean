/-! # Hexadecimal octets
Two digits an octet, written in lower case and read in either. Main statement: what is written is
read back. -/
namespace MeshFacts.Hex

def digit (v : Nat) : Char := if v < 10 then Char.ofNat (48 + v) else Char.ofNat (87 + v)

def digit? (c : Char) : Option Nat :=
  let n := c.toNat
  if 48 ≤ n ∧ n ≤ 57 then some (n - 48)
  else if 97 ≤ n ∧ n ≤ 102 then some (n - 87)
  else if 65 ≤ n ∧ n ≤ 70 then some (n - 55)
  else none

def octet (b : UInt8) : List Char := [digit (b.toNat / 16), digit (b.toNat % 16)]

def encode (bytes : List UInt8) : List Char := bytes.flatMap octet

/-- Refuses an odd number of digits and anything that is no digit. -/
def decode : List Char → Option (List UInt8)
  | [] => some []
  | [_] => none
  | a :: b :: r => do
    let x ← digit? a
    let y ← digit? b
    let tail ← decode r
    some (UInt8.ofNat (x * 16 + y) :: tail)

def text (bytes : List UInt8) : String := String.ofList (encode bytes)

theorem digit?_digit {v : Nat} (h : v < 16) : digit? (digit v) = some v := by
  have : ∀ v : Fin 16, digit? (digit v.1) = some v.1 := by decide
  exact this ⟨v, h⟩

theorem decode_encode (bytes : List UInt8) : decode (encode bytes) = some bytes := by
  induction bytes with
  | nil => rfl
  | cons b bs ih =>
    have hb : b.toNat < 256 := b.toNat_lt
    have h1 : b.toNat / 16 < 16 := by omega
    have h2 : b.toNat % 16 < 16 := by omega
    have h3 : b.toNat / 16 * 16 + b.toNat % 16 = b.toNat := by omega
    simp only [encode, List.flatMap_cons, octet, List.cons_append, List.nil_append, decode] at ih ⊢
    simp only [digit?_digit h1, digit?_digit h2, ih, h3, Option.bind_eq_bind, Option.bind_some]
    simp

end MeshFacts.Hex
