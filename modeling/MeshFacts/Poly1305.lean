import MeshFacts.Octets

/-! # Poly1305
The one-time authenticator: a polynomial over the field of 2^130 - 5 elements, with the sixteen-octet
pieces of the message as coefficients. -/
namespace MeshFacts.Poly1305

def prime : Nat := (1 <<< 130) - 5

def clamp (r : Nat) : Nat := r &&& 0x0ffffffc0ffffffc0ffffffc0fffffff

/-- Adds `n` pieces to the value of the polynomial at `r`. A piece counts with a one bit above it. -/
def absorb (r : Nat) : Nat → Nat → List UInt8 → Nat
  | 0, acc, _ => acc
  | n + 1, acc, message =>
    absorb r n ((acc + ofLittleEndian (message.take 16 ++ [1])) * r % prime) (message.drop 16)

/-- The first half of the key is the point of evaluation, the second is added to the value. -/
def authenticate (key : List UInt8) (message : List UInt8) : Octets 16 :=
  let r := clamp (ofLittleEndian (key.take 16))
  let s := ofLittleEndian ((key.drop 16).take 16)
  .ofNatLE 16 (absorb r ((message.length + 15) / 16) 0 message + s)

end MeshFacts.Poly1305
