import MeshFacts.FactWire

/-! # Identity of facts
Two facts with one key say the same thing; when they expire is no part of it. A peer is alive in one way
only, so alive facts have no value in their keys. Merging keeps of the facts with one key the one that
expires last, the first of those that expire together, and puts the rest in the order of keys. -/
namespace MeshFacts

structure FactKey where
  kind : Attribute
  subject : PublicKey
  value : List UInt8
deriving DecidableEq, Repr, Inhabited

namespace FactKey

/-- The key of whatever is said about a peer being alive. -/
def alive (peer : PublicKey) : FactKey := ⟨.alive, peer, []⟩

def octets (k : FactKey) : List UInt8 := k.kind.byte :: (k.subject.bytes ++ k.value)

/-- Keys are ordered by attribute, then subject, then value. -/
instance : LT FactKey := ⟨fun a b => a.octets < b.octets⟩

instance (a b : FactKey) : Decidable (a < b) := inferInstanceAs (Decidable (a.octets < b.octets))

def debug (k : FactKey) : String :=
  "FactKey(" ++ k.kind.text ++ ":" ++ k.subject.base64 ++ "/" ++ toString k.value.length ++ "B)"

theorem octets_injective {a b : FactKey} (h : a.octets = b.octets) : a = b := by
  cases a with
  | mk ka sa va => cases b with
    | mk kb sb vb =>
      simp only [octets, List.cons.injEq] at h
      obtain ⟨hk, h⟩ := h
      have hl : sa.bytes.length = sb.bytes.length := by
        simp [PublicKey.bytes, Octets.length_bytes]
      obtain ⟨hs, hv⟩ := List.append_inj h hl
      rw [Attribute.byte_injective hk, PublicKey.bytes_injective hs, hv]

end FactKey

namespace Fact

def key (f : Fact) : FactKey :=
  ⟨f.kind, f.subject, if f.kind = .alive then [] else f.value.encode⟩

/-- Puts a fact into a list in the order of keys, unless one with its key is there that expires no
earlier. -/
def mergeInto (f : Fact) : List Fact → List Fact
  | [] => [f]
  | g :: r =>
    if f.key = g.key then (if f.expires ≤ g.expires then g :: r else f :: r)
    else if f.key < g.key then f :: g :: r
    else g :: mergeInto f r

/-- One fact for each key, in the order of keys. -/
def merge (fs : List Fact) : List Fact := fs.foldl (fun merged f => mergeInto f merged) []

end Fact

end MeshFacts
