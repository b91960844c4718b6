import MeshFacts.Json
import MeshFacts.TomlText

/-! # Scalars of TOML
Strings, truth values, integers of 64 bits, other numbers and dates. A date is read as a record of one
text, whose field no other record has. -/
namespace MeshFacts.Toml

/-- A run of digits, between which single underscores may stand, and the rest. The run must begin with a digit
if `expected`. -/
def digitRun? (isDigit : Char → Bool) : (expected : Bool) → List Char → Option (List Char × List Char)
  | expected, [] => if expected then none else some ([], [])
  | expected, c :: r =>
    if isDigit c then (digitRun? isDigit false r).map fun (ds, rest) => (c :: ds, rest)
    else if expected then none
    else if c = '_' then digitRun? isDigit true r
    else some ([], c :: r)

def digits? (isDigit : Char → Bool) (cs : List Char) : Option (List Char × List Char) :=
  digitRun? isDigit true cs

def sign : List Char → Bool × List Char
  | '-' :: r => (true, r)
  | '+' :: r => (false, r)
  | r => (false, r)

/-- The whole part of a number: a zero stands alone. -/
def whole? (cs : List Char) : Option (List Char × List Char) :=
  match cs with
  | '0' :: r => some (['0'], r)
  | _ => digits? Char.isDigit cs

def int? (v : Int) : Option Document := if -0x8000000000000000 ≤ v ∧ v < 0x8000000000000000 then some (.int v) else none

def based? (base : Nat) (cs : List Char) : Option (Document × List Char) := do
  let isDigit (c : Char) : Bool := (Hex.digit? c).any (· < base)
  let (ds, r) ← digits? isDigit cs
  let v := ds.foldl (fun v c => v * base + (Hex.digit? c).getD 0) 0
  some (← int? v, r)

def integer? (cs : List Char) : Option (Document × List Char) :=
  match cs with
  | '0' :: 'x' :: r => based? 16 r
  | '0' :: 'o' :: r => based? 8 r
  | '0' :: 'b' :: r => based? 2 r
  | _ => do
    let (negative, r) := sign cs
    let (ds, r) ← whole? r
    let v : Int := Json.natOfDigits ds
    some (← int? (if negative then -v else v), r)

def fraction? : List Char → Option (List Char × List Char)
  | '.' :: r => digits? Char.isDigit r
  | r => some ([], r)

def exponent? : List Char → Option (Option Int × List Char)
  | c :: r =>
    if c == 'e' || c == 'E' then do
      let (negative, r) := sign r
      let (ds, r) ← digits? Char.isDigit r
      let v : Int := Json.natOfDigits ds
      some (some (if negative then -v else v), r)
    else some (none, c :: r)
  | [] => some (none, [])

/-- A number with a fraction or an exponent. One that is too large is refused unless it is negative. -/
def real? (cs : List Char) : Option (Document × List Char) := do
  let (negative, r) := sign cs
  match Json.expect "inf".toList r <|> Json.expect "nan".toList r with
  | some r => some (.real, r)
  | none => do
    let (ds, r) ← whole? r
    let (fraction, r) ← fraction? r
    let (exponent, r) ← exponent? r
    if fraction.isEmpty && exponent.isNone then none
    else if negative || Json.isFinite (ds ++ fraction) (exponent.getD 0 - fraction.length) then some (.real, r)
    else none

/-- A number of exactly `width` digits from `least` to `most`. -/
def field? (width least most : Nat) (cs : List Char) : Option (Nat × List Char) :=
  let ds := cs.take width
  let v := Json.natOfDigits ds
  if ds.length = width ∧ ds.all Char.isDigit ∧ least ≤ v ∧ v ≤ most then some (v, cs.drop width) else none

def char? (c : Char) : List Char → Option (List Char)
  | d :: r => if c = d then some r else none
  | [] => none

def daysOf (year month : Nat) : Nat :=
  if month = 2 then
    if year % 4 = 0 ∧ (year % 100 ≠ 0 ∨ year % 400 = 0) then 29 else 28
  else if month ∈ [4, 6, 9, 11] then 30
  else 31

def calendar? (cs : List Char) : Option (List Char) := do
  let (year, r) ← field? 4 0 9999 cs
  let (month, r) ← field? 2 1 12 (← char? '-' r)
  let (_, r) ← field? 2 1 (daysOf year month) (← char? '-' r)
  some r

/-- What follows a time of day. A minute may have a leap second. -/
def timeOfDay? (cs : List Char) : Option (List Char) := do
  let (_, r) ← field? 2 0 23 cs
  let (_, r) ← field? 2 0 59 (← char? ':' r)
  let (_, r) ← field? 2 0 60 (← char? ':' r)
  match r with
  | '.' :: d :: r => if d.isDigit then some (r.dropWhile Char.isDigit) else none
  | '.' :: [] => none
  | r => some r

/-- What follows the distance from universal time, if it is there. -/
def offset? (cs : List Char) : Option (List Char) :=
  match cs with
  | c :: r =>
    if c == 'Z' || c == 'z' then some r
    else if c == '+' || c == '-' then do
      let (_, r) ← field? 2 0 23 r
      let (_, r) ← field? 2 0 59 (← char? ':' r)
      some r
    else some cs
  | [] => some cs

def date? (cs : List Char) : Option (Document × List Char) := do
  let rest ← match calendar? cs with
    | none => timeOfDay? cs
    | some r =>
      match r with
      | c :: t =>
        if c == 'T' || c == 't' || c == ' ' then
          match timeOfDay? t with
          | some r => offset? r
          | none => some r
        else some r
      | [] => some r
  let text := cs.take (cs.length - rest.length)
  some (.obj [("date", .str (String.ofList text))], rest)

def scalar? (cs : List Char) : Option (Document × List Char) :=
  match cs with
  | '"' :: _ | '\'' :: _ => (string? cs).map fun (s, r) => (.str (String.ofList s), r)
  | 't' :: _ => (Json.expect "true".toList cs).map (.bool true, ·)
  | 'f' :: _ => (Json.expect "false".toList cs).map (.bool false, ·)
  | _ => date? cs <|> real? cs <|> integer? cs

end MeshFacts.Toml
