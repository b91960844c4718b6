/-! # Octet strings
Octet strings of fixed length, and numerals in base 256 with the most or the least significant octet
first. Main statements: a numeral has the width asked for, and reading one back gives the number
reduced modulo the width. -/
namespace MeshFacts

/-- Exactly `n` octets. -/
structure Octets (n : Nat) where
  bytes : List UInt8
  length_bytes : bytes.length = n
deriving DecidableEq, Repr

namespace Octets

def ofList? (n : Nat) (bytes : List UInt8) : Option (Octets n) :=
  if h : bytes.length = n then some ⟨bytes, h⟩ else none

def zero (n : Nat) : Octets n := ⟨List.replicate n 0, List.length_replicate⟩

instance (n : Nat) : Inhabited (Octets n) := ⟨zero n⟩

theorem ofList?_bytes {n : Nat} (o : Octets n) : ofList? n o.bytes = some o := by
  simp [ofList?, o.length_bytes]

theorem ofList?_eq_some_iff {n : Nat} {bytes : List UInt8} {o : Octets n} :
    ofList? n bytes = some o ↔ bytes = o.bytes := by
  constructor
  · intro h
    simp only [ofList?] at h
    split at h
    · cases h; rfl
    · cases h
  · rintro rfl
    exact ofList?_bytes o

end Octets

/-- The `w` low octets of `v`, least significant first. -/
def littleEndian : (w : Nat) → (v : Nat) → List UInt8
  | 0, _ => []
  | w + 1, v => UInt8.ofNat (v % 256) :: littleEndian w (v / 256)

def ofLittleEndian : List UInt8 → Nat
  | [] => 0
  | b :: bs => b.toNat + 256 * ofLittleEndian bs

/-- The `w` low octets of `v`, most significant first. -/
def bigEndian (w v : Nat) : List UInt8 := (littleEndian w v).reverse

def ofBigEndian (bs : List UInt8) : Nat := bs.foldl (fun v b => v * 256 + b.toNat) 0

def Octets.count : (n : Nat) → Nat
  | 0 => 1
  | n + 1 => 256 * count n

theorem length_littleEndian (w v : Nat) : (littleEndian w v).length = w := by
  induction w generalizing v with
  | zero => rfl
  | succ w ih => simp [littleEndian, ih]

theorem length_bigEndian (w v : Nat) : (bigEndian w v).length = w := by
  simp [bigEndian, length_littleEndian]

theorem ofLittleEndian_littleEndian (w v : Nat) :
    ofLittleEndian (littleEndian w v) = v % Octets.count w := by
  induction w generalizing v with
  | zero => simp [littleEndian, ofLittleEndian, Octets.count, Nat.mod_one]
  | succ w ih =>
    simp only [littleEndian, ofLittleEndian, ih, UInt8.toNat_ofNat', Octets.count]
    rw [Nat.mod_mul]
    omega

theorem ofBigEndian_reverse (bs : List UInt8) : ofBigEndian bs.reverse = ofLittleEndian bs := by
  induction bs with
  | nil => rfl
  | cons b bs ih =>
    simp only [ofBigEndian, List.reverse_cons, List.foldl_append, List.foldl_cons, List.foldl_nil] at *
    rw [ih]
    simp only [ofLittleEndian]
    omega

theorem ofBigEndian_bigEndian (w v : Nat) : ofBigEndian (bigEndian w v) = v % Octets.count w := by
  rw [bigEndian, ofBigEndian_reverse, ofLittleEndian_littleEndian]

theorem littleEndian_ofLittleEndian (bs : List UInt8) :
    littleEndian bs.length (ofLittleEndian bs) = bs := by
  induction bs with
  | nil => rfl
  | cons b bs ih =>
    simp only [List.length_cons, littleEndian, ofLittleEndian]
    have hb : b.toNat < 256 := b.toNat_lt
    have h1 : (b.toNat + 256 * ofLittleEndian bs) % 256 = b.toNat := by omega
    have h2 : (b.toNat + 256 * ofLittleEndian bs) / 256 = ofLittleEndian bs := by omega
    rw [h1, h2, ih]
    simp

theorem bigEndian_ofBigEndian (bs : List UInt8) : bigEndian bs.length (ofBigEndian bs) = bs := by
  have h := littleEndian_ofLittleEndian bs.reverse
  rw [← ofBigEndian_reverse, List.reverse_reverse, List.length_reverse] at h
  simp [bigEndian, h]

theorem ofLittleEndian_lt (bs : List UInt8) : ofLittleEndian bs < Octets.count bs.length := by
  induction bs with
  | nil => simp [ofLittleEndian, Octets.count]
  | cons b bs ih =>
    have hb : b.toNat < 256 := b.toNat_lt
    simp only [ofLittleEndian, List.length_cons, Octets.count]
    omega

theorem ofBigEndian_lt (bs : List UInt8) : ofBigEndian bs < Octets.count bs.length := by
  have h := ofLittleEndian_lt bs.reverse
  rwa [← ofBigEndian_reverse, List.reverse_reverse, List.length_reverse] at h

namespace Octets

/-- The `n` low octets of a number, least significant first. -/
def ofNatLE (n v : Nat) : Octets n := ⟨littleEndian n v, length_littleEndian n v⟩

def toNatLE {n : Nat} (o : Octets n) : Nat := ofLittleEndian o.bytes

end Octets

end MeshFacts
