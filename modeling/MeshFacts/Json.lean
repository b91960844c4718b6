import MeshFacts.Document
import MeshFacts.Numeral

/-! # JSON
A reader that follows the grammar to the letter, and a compact writer. A number without fraction or
exponent that fits 64 bits is an integer. A text that the grammar admits but that denotes nothing (half
a surrogate pair, a number beyond the largest double) is read as an unusable value. -/
namespace MeshFacts.Json

def isSpace (c : Char) : Bool := c == ' ' || c == '\n' || c == '\t' || c == '\r'

def skipSpace (cs : List Char) : List Char := cs.dropWhile isSpace

def expect (text rest : List Char) : Option (List Char) :=
  if text.isPrefixOf rest then some (rest.drop text.length) else none

def hexDigit? (c : Char) : Option Nat :=
  let n := c.toNat
  if 48 ≤ n ∧ n ≤ 57 then some (n - 48)
  else if 97 ≤ n ∧ n ≤ 102 then some (n - 87)
  else if 65 ≤ n ∧ n ≤ 70 then some (n - 55)
  else none

def unit? : List Char → Option (Nat × List Char)
  | a :: b :: c :: d :: r => do
    let w ← hexDigit? a
    let x ← hexDigit? b
    let y ← hexDigit? c
    let z ← hexDigit? d
    some (((w * 16 + x) * 16 + y) * 16 + z, r)
  | _ => none

def simpleEscape? : Char → Option Char
  | '"' => some '"'
  | '\\' => some '\\'
  | '/' => some '/'
  | 'b' => some '\x08'
  | 'f' => some '\x0c'
  | 'n' => some '\n'
  | 'r' => some '\r'
  | 't' => some '\t'
  | _ => none

/-- A piece of a string: a character, half a surrogate pair, or the closing quote. -/
inductive Piece where
  | char (c : Char)
  | half (unit : Nat)
  | close

/-- The next piece after the opening quote, and the rest. -/
def piece? : List Char → Option (Piece × List Char)
  | [] => none
  | '"' :: r => some (.close, r)
  | '\\' :: 'u' :: r => do
    let (u, r) ← unit? r
    some (if 0xD800 ≤ u ∧ u < 0xE000 then .half u else .char (Char.ofNat u), r)
  | '\\' :: c :: r => do
    let c ← simpleEscape? c
    some (.char c, r)
  | ['\\'] => none
  | c :: r => if c.toNat < 0x20 then none else some (.char c, r)

def joinHalves? (high low : Nat) : Option Char :=
  if 0xD800 ≤ high ∧ high < 0xDC00 ∧ 0xDC00 ≤ low ∧ low < 0xE000 then
    some (Char.ofNat (0x10000 + (high - 0xD800) * 0x400 + (low - 0xDC00)))
  else none

/-- Reads the pieces up to the closing quote. The text is `none` if it has an unpaired half. -/
def pieces? : Nat → List Char → Option (Option (List Char) × List Char)
  | 0, _ => none
  | fuel + 1, cs =>
    match piece? cs with
    | none => none
    | some (.close, r) => some (some [], r)
    | some (.char c, r) => do
      let (text, rest) ← pieces? fuel r
      some (text.map (c :: ·), rest)
    | some (.half high, r) =>
      match piece? r with
      | some (.half low, r') => do
        let (text, rest) ← pieces? fuel r'
        some (do let c ← joinHalves? high low; let t ← text; some (c :: t), rest)
      | _ => do
        let (_, rest) ← pieces? fuel r
        some (none, rest)

def digitRun (cs : List Char) : List Char × List Char :=
  (cs.takeWhile Char.isDigit, cs.dropWhile Char.isDigit)

def natOfDigits (ds : List Char) : Nat := (Numeral.readOnto 0 ds).getD 0

/-- Whether the magnitude of `digits` times ten to the `exponent` rounds to a double. -/
def isFinite (digits : List Char) (exponent : Int) : Bool :=
  let significant := digits.dropWhile (· == '0')
  let magnitude := (significant.length : Int) + exponent
  if significant.isEmpty || magnitude < 309 then true
  else if magnitude > 309 then false
  else
    let v := natOfDigits significant
    let limit := (1 <<< 1024) - (1 <<< 970)
    if exponent ≥ 0 then v * Nat.pow 10 exponent.toNat < limit else v < limit * Nat.pow 10 (-exponent).toNat

def fraction? : List Char → Option (Option (List Char) × List Char)
  | '.' :: r =>
    let (ds, r') := digitRun r
    if ds.isEmpty then none else some (some ds, r')
  | r => some (none, r)

def exponent? : List Char → Option (Option Int × List Char)
  | c :: r =>
    if c == 'e' || c == 'E' then
      let (negative, r) := match r with
        | '-' :: r => (true, r)
        | '+' :: r => (false, r)
        | r => (false, r)
      let (ds, r') := digitRun r
      if ds.isEmpty then none
      else
        let v : Int := natOfDigits ds
        some (some (if negative then -v else v), r')
    else some (none, c :: r)
  | [] => some (none, [])

/-- An integer that fits 64 bits is kept; zero with a sign is no integer. -/
def ofInteger (negative : Bool) (v : Nat) : Option Document :=
  if negative then
    if 0 < v ∧ v ≤ 0x8000000000000000 then some (.int (-(v : Int))) else none
  else if v < 0x10000000000000000 then some (.int v)
  else none

/-- A number and the rest. A zero starts no longer run of digits. -/
def number? (cs : List Char) : Option (Document × List Char) := do
  let (negative, cs) := match cs with
    | '-' :: r => (true, r)
    | r => (false, r)
  let (ds, r) := digitRun cs
  if ds.isEmpty || (ds.head? == some '0' && ds.length > 1) then none
  else
    let (fraction, r) ← fraction? r
    let (exponent, r) ← exponent? r
    let whole := if fraction.isNone && exponent.isNone then ofInteger negative (natOfDigits ds) else none
    let inexact : Document :=
      if isFinite (ds ++ fraction.getD []) (exponent.getD 0 - (fraction.getD []).length) then .real
      else .unusable
    some (whole.getD inexact, r)

mutual

def value? : Nat → List Char → Option (Document × List Char)
  | 0, _ => none
  | fuel + 1, cs =>
    match skipSpace cs with
    | 'n' :: r => (expect "ull".toList r).map (.null, ·)
    | 't' :: r => (expect "rue".toList r).map (.bool true, ·)
    | 'f' :: r => (expect "alse".toList r).map (.bool false, ·)
    | '"' :: r => do
      let (text, rest) ← pieces? (r.length + 1) r
      some (match text with | some t => .str (String.ofList t) | none => .unusable, rest)
    | '[' :: r =>
      match skipSpace r with
      | ']' :: r => some (.arr [], r)
      | r => do
        let (xs, rest) ← items? fuel r
        some (.arr xs, rest)
    | '{' :: r =>
      match skipSpace r with
      | '}' :: r => some (.obj [], r)
      | r => do
        let (fields, sound, rest) ← fields? fuel r
        some (if sound then .obj fields else .unusable, rest)
    | r => number? r

def items? : Nat → List Char → Option (List Document × List Char)
  | 0, _ => none
  | fuel + 1, cs => do
    let (x, r) ← value? fuel cs
    match skipSpace r with
    | ',' :: r => do
      let (xs, rest) ← items? fuel r
      some (x :: xs, rest)
    | ']' :: r => some ([x], r)
    | _ => none

/-- The fields of a nonempty object, whether every name denotes a text, and the rest. -/
def fields? : Nat → List Char → Option (List (String × Document) × Bool × List Char)
  | 0, _ => none
  | fuel + 1, cs =>
    match skipSpace cs with
    | '"' :: r => do
      let (name, r) ← pieces? (r.length + 1) r
      match skipSpace r with
      | ':' :: r => do
        let (x, r) ← value? fuel r
        let field := (String.ofList (name.getD []), x)
        match skipSpace r with
        | ',' :: r => do
          let (more, sound, rest) ← fields? fuel r
          some (field :: more, name.isSome && sound, rest)
        | '}' :: r => some ([field], name.isSome, r)
        | _ => none
      | _ => none
    | _ => none

end

def parse (text : String) : Option Document := do
  let cs := text.toList
  let (x, rest) ← value? (cs.length + 1) cs
  if (skipSpace rest).isEmpty then some x else none

/-- A character inside quotes: the short escapes, numbers for other controls, all else itself. -/
def escape (c : Char) : List Char :=
  match c with
  | '"' => ['\\', '"']
  | '\\' => ['\\', '\\']
  | '\x08' => ['\\', 'b']
  | '\x0c' => ['\\', 'f']
  | '\n' => ['\\', 'n']
  | '\r' => ['\\', 'r']
  | '\t' => ['\\', 't']
  | c =>
    if c.toNat < 0x20 then
      "\\u00".toList ++ [Nat.digitChar (c.toNat / 16), Nat.digitChar (c.toNat % 16)]
    else [c]

def quote (s : String) : String := "\"" ++ String.ofList (s.toList.flatMap escape) ++ "\""

mutual

/-- The shortest text of a value. A number that is no integer has no text of its own. -/
def render : Document → String
  | .null => "null"
  | .bool b => if b then "true" else "false"
  | .int n => toString n
  | .real => "0.0"
  | .str s => quote s
  | .arr xs => "[" ++ renderItems xs ++ "]"
  | .obj fields => "\x7b" ++ renderFields fields ++ "\x7d"
  | .unusable => "null"

def renderItems : List Document → String
  | [] => ""
  | [x] => render x
  | x :: y :: r => render x ++ "," ++ renderItems (y :: r)

def renderFields : List (String × Document) → String
  | [] => ""
  | [(k, x)] => quote k ++ ":" ++ render x
  | (k, x) :: y :: r => quote k ++ ":" ++ render x ++ "," ++ renderFields (y :: r)

end

end MeshFacts.Json
