/-! # Numerals
Unsigned numbers in text. `digits` writes without leading zeros; `unsigned?` reads digits with an
optional plus sign in front, up to a given bound. -/
namespace MeshFacts.Numeral

def digit? (c : Char) : Option Nat :=
  let n := c.toNat
  if 48 ≤ n ∧ n ≤ 57 then some (n - 48) else none

def readOnto (v : Nat) : List Char → Option Nat
  | [] => some v
  | c :: r => do
    let d ← digit? c
    readOnto (v * 10 + d) r

/-- A number written with at least one decimal digit and nothing else. -/
def decimal? : List Char → Option Nat
  | [] => none
  | cs => readOnto 0 cs

/-- An optional plus sign and a decimal number of at most `max`. -/
def unsigned? (max : Nat) (cs : List Char) : Option Nat := do
  let digits := match cs with
    | '+' :: r => r
    | _ => cs
  let v ← decimal? digits
  if v ≤ max then some v else none

def word? (bits : Nat) (s : String) : Option Nat := unsigned? ((1 <<< bits) - 1) s.toList

def text (n : Nat) : List Char := Nat.toDigits 10 n

def hexText (n : Nat) : List Char := Nat.toDigits 16 n

end MeshFacts.Numeral
