import MeshFacts.FactWire
import MeshFacts.Signer

/-! # Packing facts into groups
Facts are written one after the other into groups of limited length, one group a packet. -/
namespace MeshFacts

namespace Packing

/-- The largest payload that no sane path fragments. -/
def safePayload : Nat := 1232

/-- What a group costs besides its facts: header, two octets of length, sender, nonce and tag. -/
def groupOverhead : Nat := 3 + 2 + 32 + 24 + 16

/-- The most that the facts of a packet may take. -/
def maxGroupLength : Nat := safePayload - groupOverhead

end Packing

/-- Groups in the making, the current one first. Their facts live from `now`. -/
structure Packing where
  maxLength : Nat
  now : Instant
  newestFirst : List (List UInt8)
deriving Repr, Inhabited

namespace Packing

def empty (maxLength : Nat) (now : Instant) : Packing := ⟨maxLength, now, []⟩

def forPackets (now : Instant) : Packing := empty maxGroupLength now

/-- All groups in the order in which they were begun. -/
def groups (p : Packing) : List (List UInt8) := p.newestFirst.reverse

def isEmpty (p : Packing) : Bool := p.groups.all List.isEmpty

def grown? (p : Packing) (bytes : List UInt8) : Option Packing :=
  match p.newestFirst with
  | [] => none
  | g :: r =>
    if g.length + bytes.length ≤ p.maxLength then some { p with newestFirst := (g ++ bytes) :: r }
    else none

/-- Writes a fact into the current group, or into a new one if it does not fit. -/
def add (p : Packing) (f : Fact) : Except FactError Packing := do
  let bytes ← f.encode p.now
  if bytes.length > p.maxLength then .error (.factTooLarge bytes.length p.maxLength)
  else .ok <| (p.grown? bytes).getD { p with newestFirst := bytes :: p.newestFirst }

/-- Writes a fact into the current group only if it fits there, and tells whether it did. -/
def addIfRoom (p : Packing) (f : Fact) : Except FactError (Bool × Packing) := do
  let bytes ← f.encode p.now
  match p.grown? bytes with
  | some p => .ok (true, p)
  | none => .ok (false, p)

/-- Signs one group for a recipient. It expires at once: only the facts inside have a life. -/
def sealGroup (s : Signer) (nonces : NonceSupply) (recipient : PublicKey) (now : Instant)
    (inner : List UInt8) : Fact × Signer × NonceSupply :=
  let (nonce, nonces) := nonces.draw
  let (tag, s) := s.signFor nonce inner recipient
  (.signedGroup s.publicKey ⟨nonce, tag, inner⟩ now, s, nonces)

def sealAll (recipient : PublicKey) (now : Instant) :
    Signer → NonceSupply → List (List UInt8) → List Fact × Signer × NonceSupply
  | s, nonces, [] => ([], s, nonces)
  | s, nonces, inner :: r =>
    let (f, s, nonces) := sealGroup s nonces recipient now inner
    let (fs, s, nonces) := sealAll recipient now s nonces r
    (f :: fs, s, nonces)

def signedGroups (p : Packing) (s : Signer) (nonces : NonceSupply) (recipient : PublicKey) :
    List Fact × Signer × NonceSupply :=
  sealAll recipient p.now s nonces (p.groups.filter fun g => !g.isEmpty)

end Packing

end MeshFacts
