import MeshFacts.Octets

/-! # X25519
Key agreement on the curve of Montgomery form with constant 486662 over the field of 2^255 - 19
elements, by the ladder on x-coordinates in exact arithmetic on natural numbers. -/
namespace MeshFacts.Curve25519

def prime : Nat := (1 <<< 255) - 19

/-- Powers in the field, by the binary digits of the exponent from the most significant down. -/
def power (x e : Nat) : Nat :=
  (List.range 255).reverse.foldl
    (fun acc i => (if e.testBit i then acc * acc % prime * x else acc * acc) % prime) 1

/-- The inverse of a nonzero element, and zero for zero. -/
def inverse (x : Nat) : Nat := power x (prime - 2)

def subtract (x y : Nat) : Nat := (x + (prime - y % prime)) % prime

/-- Two points in projective x-coordinates whose difference is known. -/
structure Rung where
  x2 : Nat
  z2 : Nat
  x3 : Nat
  z3 : Nat

/-- Doubles the first point and adds the second, where their difference has x-coordinate `x1`. -/
def Rung.climb (x1 : Nat) (r : Rung) : Rung :=
  let a := (r.x2 + r.z2) % prime
  let b := subtract r.x2 r.z2
  let c := (r.x3 + r.z3) % prime
  let d := subtract r.x3 r.z3
  let aa := a * a % prime
  let bb := b * b % prime
  let e := subtract aa bb
  let da := d * a % prime
  let cb := c * b % prime
  let sum := (da + cb) % prime
  let difference := subtract da cb
  ⟨aa * bb % prime, e * ((aa + 121665 * e) % prime) % prime,
    sum * sum % prime, x1 * (difference * difference % prime) % prime⟩

def Rung.swap (r : Rung) : Rung := ⟨r.x3, r.z3, r.x2, r.z2⟩

/-- The multiple of the point with x-coordinate `x1`. -/
def multiply (scalar x1 : Nat) : Nat :=
  let top := (List.range 255).reverse.foldl
    (fun (r : Rung) i => if scalar.testBit i then (r.swap.climb x1).swap else r.climb x1)
    ⟨1, 0, x1, 1⟩
  top.x2 * inverse top.z2 % prime

/-- A secret scalar: a multiple of eight with the second highest bit as its highest. -/
def clamp (secret : Octets 32) : Nat := secret.toNatLE / 8 * 8 % (1 <<< 254) + (1 <<< 254)

/-- The x-coordinate in an octet string, without its highest bit. -/
def coordinate (point : Octets 32) : Nat := point.toNatLE % (1 <<< 255) % prime

def agree (secret point : Octets 32) : Octets 32 :=
  .ofNatLE 32 (multiply (clamp secret) (coordinate point))

/-- The public point of a secret: its multiple of the point with x-coordinate nine. -/
def publicPoint (secret : Octets 32) : Octets 32 := .ofNatLE 32 (multiply (clamp secret) 9)

end MeshFacts.Curve25519
