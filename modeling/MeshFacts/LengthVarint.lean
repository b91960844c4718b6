import MeshFacts.Writer

/-! # Variable-length lengths
Numbers of up to twenty-one bits in one to four octets. The first octet tells how many there are, the
others carry six bits each:

    0xxxxxxx
    110xxxxx 10xxxxxx
    1110xxxx 10xxxxxx 10xxxxxx
    11110xxx 10xxxxxx 10xxxxxx 10xxxxxx

A number is written with as few octets as hold it, and no other form of it is read. -/
namespace MeshFacts.LengthVarint

def max : Nat := 0x1FFFFF

def width (v : Nat) : Nat := if v < 0x80 then 1 else if v < 0x800 then 2 else if v < 0x10000 then 3 else 4

/-- An octet that continues a number, with the last six bits of `v`. -/
def continuation (v : Nat) : UInt8 := UInt8.ofNat (0x80 + v % 64)

/-- Writes a number that is not too large, and nothing otherwise. -/
def write (v : Nat) : Writer :=
  if v > max then .fail (.valueTooLong v)
  else if v < 0x80 then .put [UInt8.ofNat v]
  else if v < 0x800 then .put [UInt8.ofNat (0xC0 + v / 64), continuation v]
  else if v < 0x10000 then
    .put [UInt8.ofNat (0xE0 + v / 4096), continuation (v / 64), continuation v]
  else
    .put [UInt8.ofNat (0xF0 + v / 262144), continuation (v / 4096), continuation (v / 64),
      continuation v]

def encode (v : Nat) : Except FactError (List UInt8) := (write v).bytes

/-- Takes the low six bits of each octet, all of which must be continuations. -/
def continue? (v : Nat) : List UInt8 → Option Nat
  | [] => some v
  | b :: r =>
    if 0x80 ≤ b.toNat ∧ b.toNat < 0xC0 then continue? (v * 64 + (b.toNat - 0x80)) r else none

/-- The width that a first octet announces and the bits of the number in it. -/
def lead? (b : UInt8) : Option (Nat × Nat) :=
  let n := b.toNat
  if n < 0x80 then some (1, n)
  else if n < 0xC0 then none
  else if n < 0xE0 then some (2, n - 0xC0)
  else if n < 0xF0 then some (3, n - 0xE0)
  else if n < 0xF8 then some (4, n - 0xF0)
  else none

/-- The number in front and how many octets it takes. -/
def decode (bytes : List UInt8) : Except FactError (Nat × Nat) :=
  match bytes with
  | [] => .error (.truncatedHeader 0)
  | b :: r =>
    match lead? b with
    | none => .error .invalidVarint
    | some (n, v) =>
      if bytes.length < n then .error (.truncatedHeader bytes.length)
      else
        match continue? v (r.take (n - 1)) with
        | none => .error .invalidVarint
        | some v => if width v = n then .ok (v, n) else .error .invalidVarint

end MeshFacts.LengthVarint
