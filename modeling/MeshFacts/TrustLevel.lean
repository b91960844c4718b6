import MeshFacts.Blank
import MeshFacts.Document

/-! # Trust levels
What a source of facts may assert. Every level includes the levels below it. -/
namespace MeshFacts

inductive TrustLevel where
  | untrusted
  /-- May report endpoints. -/
  | endpoint
  /-- May change the networks of known peers. -/
  | allowedIps
  /-- May introduce peers. -/
  | addPeer
  /-- May cause peers to be removed. -/
  | delPeer
  /-- May hand trust to others. -/
  | setTrust
deriving DecidableEq, Repr, Inhabited

namespace TrustLevel

def all : List TrustLevel := [untrusted, endpoint, allowedIps, addPeer, delPeer, setTrust]

def rank : TrustLevel → Nat
  | untrusted => 0
  | endpoint => 1
  | allowedIps => 2
  | addPeer => 3
  | delPeer => 4
  | setTrust => 5

instance : LE TrustLevel := ⟨fun a b => a.rank ≤ b.rank⟩

instance : LT TrustLevel := ⟨fun a b => a.rank < b.rank⟩

instance (a b : TrustLevel) : Decidable (a ≤ b) := inferInstanceAs (Decidable (a.rank ≤ b.rank))

instance (a b : TrustLevel) : Decidable (a < b) := inferInstanceAs (Decidable (a.rank < b.rank))

def text : TrustLevel → String
  | untrusted => "untrusted"
  | endpoint => "endpoint"
  | allowedIps => "allowed-ips"
  | addPeer => "add-peer"
  | delPeer => "del-peer"
  | setTrust => "set-trust"

/-- The level of that exact name, or of one of two older names. -/
def ofName? (s : String) : Option TrustLevel :=
  if s = "membership" then some addPeer
  else if s = "delegate" then some setTrust
  else all.find? fun l => l.text = s

structure Unknown where
  text : String
deriving DecidableEq, Repr

def Unknown.message (e : Unknown) : String := "unknown trust level: " ++ e.text

/-- Names are read between blanks, in either case of the ASCII letters, with underscores for hyphens. -/
def parse (s : String) : Except Unknown TrustLevel :=
  let plain := (trim s.toList).map fun c => if c.toLower = '_' then '-' else c.toLower
  match ofName? (String.ofList plain) with
  | some l => .ok l
  | none => .error ⟨s⟩

def toDocument (l : TrustLevel) : Document := .str l.text

/-- A name, or an object whose only field is a name with nothing in it. -/
def ofDocument? : Document → Option TrustLevel
  | .str s => ofName? s
  | .obj [(s, .null)] => ofName? s
  | _ => none

theorem ofName?_text (l : TrustLevel) : ofName? l.text = some l := by cases l <;> decide

end TrustLevel

end MeshFacts
