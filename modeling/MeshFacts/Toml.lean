import MeshFacts.TomlScalar

/-! # TOML
Reading a document of keys and values, tables and arrays of tables. A name is defined once: by a value, by
a header of its own, or bit by bit by dotted keys. A table that headers of its parts have only implied may
still get a header. -/
namespace MeshFacts.Toml

inductive Origin where
  | header
  /-- By the header of a table inside it. -/
  | implied
  /-- By a dotted key. -/
  | dotted
deriving DecidableEq, Repr

inductive Node where
  | value (d : Document)
  | table (origin : Origin) (fields : List (String × Node))
  /-- An array of tables: those before the last one, and the last one. -/
  | tables (before : List (List (String × Node))) (last : List (String × Node))
deriving Inhabited

/-- The fields of a table in the order in which they were defined. -/
abbrev Fields := List (String × Node)

/-- Puts what `f` makes of a field in its place. -/
def alter (key : String) (f : Option Node → Option Node) : Fields → Option Fields
  | [] => (f none).map fun n => [(key, n)]
  | (k, n) :: r =>
    if k = key then (f (some n)).map fun n => (k, n) :: r else (alter key f r).map ((k, n) :: ·)

/-- Changes the fields of the table that the parts of a header lead to; of an array that is its last table. -/
def inTable (f : Fields → Option Fields) : List String → Fields → Option Fields
  | [], fs => f fs
  | key :: path, fs => fs |> alter key fun
    | none => (inTable f path []).map (.table .implied)
    | some (.value _) => none
    | some (.table o inner) => (inTable f path inner).map (.table o)
    | some (.tables before last) => (inTable f path last).map (.tables before)

def openTable (path : List String) (key : String) (root : Fields) : Option Fields :=
  root |> inTable (alter key fun
    | none => some (.table .header [])
    | some (.table .implied inner) => some (.table .header inner)
    | _ => none) path

/-- Adds a table to an array of tables by its header. -/
def openTables (path : List String) (key : String) (root : Fields) : Option Fields :=
  root |> inTable (alter key fun
    | none => some (.tables [] [])
    | some (.tables before last) => some (.tables (before ++ [last]) [])
    | _ => none) path

/-- Defines a field by a key. All but the last part of a dotted key lead through tables without a header; the
last of these must have come to be by a dotted key. -/
def define (value : Node) (key : String) : (path : List String) → (mayHold : Bool) → Fields → Option Fields
  | [], mayHold, fs =>
    if mayHold then fs |> alter key fun
      | none => some value
      | some _ => none
    else none
  | part :: path, _, fs => fs |> alter part fun
    | none => (define value key path true []).map (.table .dotted)
    | some (.table .dotted inner) => (define value key path true inner).map (.table .dotted)
    | some (.table .implied inner) => (define value key path false inner).map (.table .implied)
    | some (.tables before last) => (define value key path false last).map (.tables before)
    | _ => none

mutual

def Node.document : Node → Document
  | .value d => d
  | .table _ fs => .obj (fieldDocuments fs)
  | .tables before last => .arr (tableDocuments before ++ [.obj (fieldDocuments last)])

def fieldDocuments : List (String × Node) → List (String × Document)
  | [] => []
  | (k, n) :: r => (k, n.document) :: fieldDocuments r

def tableDocuments : List (List (String × Node)) → List Document
  | [] => []
  | fs :: r => .obj (fieldDocuments fs) :: tableDocuments r

end

def splitKey (ks : List String) : List String × String := (ks.dropLast, ks.getLastD "")

abbrev ValueReader := List Char → Option (Document × List Char)

/-- The items of an array up to its bracket. A comma may follow the last one. -/
def items? (value : ValueReader) : Nat → List Char → Option (List Document × List Char)
  | 0, _ => none
  | fuel + 1, cs =>
    match skipLines fuel cs with
    | ']' :: r => some ([], r)
    | cs => do
      let (x, r) ← value cs
      match skipLines fuel r with
      | ',' :: r => do
        let (xs, rest) ← items? value fuel r
        some (x :: xs, rest)
      | ']' :: r => some ([x], r)
      | _ => none

/-- A key, an equals sign and a value. -/
def pair? (value : ValueReader) (cs : List Char) : Option (List String × Document × List Char) := do
  let (ks, r) ← key? cs
  let r ← char? '=' (skipSpace r)
  let (x, r) ← value (skipSpace r)
  some (ks, x, r)

/-- The fields of an inline table up to its brace, on one line. -/
def pairs? (value : ValueReader) : Nat → Fields → List Char → Option (Fields × List Char)
  | 0, _, _ => none
  | fuel + 1, fs, cs => do
    let (ks, x, r) ← pair? value cs
    let (path, key) := splitKey ks
    let fs ← define (.value x) key path true fs
    match skipSpace r with
    | ',' :: r => pairs? value fuel fs r
    | '\x7d' :: r => some (fs, r)
    | _ => none

/-- A value with others nested in it up to a depth. -/
def value? : (depth : Nat) → ValueReader
  | 0, cs => scalar? cs
  | depth + 1, cs =>
    match cs with
    | '[' :: r => (items? (value? depth) cs.length r).map fun (xs, rest) => (.arr xs, rest)
    | '\x7b' :: r =>
      match skipSpace r with
      | '\x7d' :: r => some (.obj [], r)
      | _ => (pairs? (value? depth) cs.length [] r).map fun (fs, rest) => (.obj (fieldDocuments fs), rest)
    | _ => scalar? cs

/-- A header after its opening brackets: the key, and what follows its closing brackets. -/
def header? (closing : List Char) (cs : List Char) : Option (List String × List Char) := do
  let (ks, r) ← key? cs
  let r ← Json.expect closing (skipSpace r)
  some (ks, r)

/-- Reads line after line. `here` leads to the table that keys are defined in. -/
def lines : Nat → (here : List String) → Fields → List Char → Option Fields
  | 0, _, _, _ => none
  | fuel + 1, here, root, cs =>
    match skipSpace cs with
    | [] => some root
    | '[' :: '[' :: r => do
      let (ks, r) ← header? [']', ']'] r
      let (path, key) := splitKey ks
      lines fuel ks (← openTables path key root) (← endOfLine? r)
    | '[' :: r => do
      let (ks, r) ← header? [']'] r
      let (path, key) := splitKey ks
      lines fuel ks (← openTable path key root) (← endOfLine? r)
    | cs@(c :: _) =>
      if c = '#' || c = '\n' || c = '\r' then do lines fuel here root (← endOfLine? cs)
      else do
        let (ks, x, r) ← pair? (value? maxDepth) cs
        let (path, key) := splitKey ks
        lines fuel here (← inTable (define (.value x) key path true) here root) (← endOfLine? r)

/-- The value of a whole document. A byte order mark may stand before it. -/
def parse (text : String) : Option Document :=
  let cs := match text.toList with
    | '\uFEFF' :: r => r
    | cs => cs
  (lines (cs.length + 1) [] [] cs).map fun fs => .obj (fieldDocuments fs)

end MeshFacts.Toml
