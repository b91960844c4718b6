/-! # Documents
The values that structured texts are read into, and how records are taken from them. A record is an object,
in which unknown fields are skipped and no known field may occur twice, or an array with the fields in
their order. A field that is missing takes its default, as a text that ends early leaves its last fields
to their defaults. -/
namespace MeshFacts

inductive Document where
  | null
  | bool (value : Bool)
  | int (value : Int)
  /-- A number that is no integer. -/
  | real
  | str (value : String)
  | arr (items : List Document)
  | obj (fields : List (String × Document))
  /-- A value of a kind that no record has a use for: it may be skipped. -/
  | unusable
deriving Repr, Inhabited

namespace Document

/-- The last field of a name. -/
def field? (name : String) : Document → Option Document
  | obj fields => (fields.reverse.find? (·.1 == name)).map (·.2)
  | _ => none

def text? : Document → Option String
  | str s => some s
  | _ => none

def bool? : Document → Option Bool
  | bool b => some b
  | _ => none

def nat? (max : Nat) : Document → Option Nat
  | int n => if 0 ≤ n ∧ n ≤ max then some n.toNat else none
  | _ => none

def list? {α : Type} (read : Document → Option α) : Document → Option (List α)
  | arr items => items.mapM read
  | _ => none

def optional? {α : Type} (read : Document → Option α) : Document → Option (Option α)
  | null => some none
  | d => (read d).map some

/-- The values of the named fields, `none` for one that is missing. Whether an array may hold more items
than the record has fields is up to the format. -/
def record? (surplus : Bool) (names : List String) : Document → Option (List (Option Document))
  | obj fields =>
    let known := names.map fun n => fields.filter (·.1 == n)
    if known.all (·.length ≤ 1) then some (known.map fun fs => fs.head?.map (·.2)) else none
  | arr items =>
    if surplus || items.length ≤ names.length then
      some ((items.take names.length).map some ++ List.replicate (names.length - items.length) none)
    else none
  | _ => none

def orDefault {α : Type} (read : Document → Option α) (default : α) : Option Document → Option α
  | some d => read d
  | none => some default

end Document

end MeshFacts
