import MeshFacts.Hex

/-! # The text of TOML
Blanks, comments, line ends, strings and keys. Every reader gives what it read and the rest. A line ends
with a line feed, with a carriage return before it or not; inside strings both count as a line feed. -/
namespace MeshFacts.Toml

def isSpace (c : Char) : Bool := c == ' ' || c == '\t'

def isPlain (c : Char) : Bool := c == '\t' || (0x20 ≤ c.toNat && c.toNat != 0x7F)

def skipSpace (cs : List Char) : List Char := cs.dropWhile isSpace

def lineEnd? : List Char → Option (List Char)
  | '\n' :: r => some r
  | '\r' :: '\n' :: r => some r
  | _ => none

def skipComment : List Char → List Char
  | '#' :: r => r.dropWhile isPlain
  | cs => cs

/-- What follows the rest of a line, which may hold a comment only. -/
def endOfLine? (cs : List Char) : Option (List Char) :=
  match skipComment (skipSpace cs) with
  | [] => some []
  | cs => lineEnd? cs

def skipLines : Nat → List Char → List Char
  | 0, cs => cs
  | fuel + 1, cs =>
    let r := skipComment (skipSpace cs)
    match lineEnd? r with
    | some r => skipLines fuel r
    | none => r

def skipBlankLines : Nat → List Char → List Char
  | 0, cs => cs
  | fuel + 1, cs =>
    let r := skipSpace cs
    match lineEnd? r with
    | some r => skipBlankLines fuel r
    | none => r

def codePoint? (digits : Nat) (cs : List Char) : Option (Char × List Char) := do
  let ds ← (cs.take digits).mapM Hex.digit?
  let v := ds.foldl (fun v d => v * 16 + d) 0
  if ds.length = digits ∧ (v < 0xD800 ∨ (0xE000 ≤ v ∧ v < 0x110000)) then
    some (Char.ofNat v, cs.drop digits)
  else none

def escape? : List Char → Option (Char × List Char)
  | 'b' :: r => some ('\x08', r)
  | 'f' :: r => some ('\x0c', r)
  | 'n' :: r => some ('\n', r)
  | 'r' :: r => some ('\r', r)
  | 't' :: r => some ('\t', r)
  | '"' :: r => some ('"', r)
  | '\\' :: r => some ('\\', r)
  | 'u' :: r => codePoint? 4 r
  | 'U' :: r => codePoint? 8 r
  | _ => none

def basic? : Nat → List Char → Option (List Char × List Char)
  | 0, _ => none
  | fuel + 1, cs =>
    match cs with
    | '"' :: r => some ([], r)
    | '\\' :: r => do
      let (c, r) ← escape? r
      let (text, rest) ← basic? fuel r
      some (c :: text, rest)
    | c :: r =>
      if isPlain c then do
        let (text, rest) ← basic? fuel r
        some (c :: text, rest)
      else none
    | [] => none

/-- A string without escapes on one line, after its opening quote. -/
def literal? (cs : List Char) : Option (List Char × List Char) :=
  let inside (c : Char) : Bool := isPlain c && c != '\''
  match cs.dropWhile inside with
  | '\'' :: r => some (cs.takeWhile inside, r)
  | _ => none

/-- How many of a run of quotes belong to the string, if the run ends it: a string over several lines may end
in up to two quotes of its own. -/
def closing? (run : Nat) : Option Nat := if run < 3 then none else some (min (run - 3) 2)

/-- A string over several lines, after its opening quotes. Only with escapes does a backslash have a meaning;
at the end of a line it takes away all blanks and line ends that follow. -/
def lines? (escapes : Bool) (quote : Char) : Nat → List Char → Option (List Char × List Char)
  | 0, _ => none
  | fuel + 1, cs =>
    let onward (text rest : List Char) : Option (List Char × List Char) := do
      let (more, rest) ← lines? escapes quote fuel rest
      some (text ++ more, rest)
    match lineEnd? cs with
    | some r => onward ['\n'] r
    | none =>
      match cs with
      | [] => none
      | c :: r =>
        if c = quote then
          let run := (cs.takeWhile (· == quote)).length
          match closing? run with
          | some own => some (List.replicate own quote, cs.drop (3 + own))
          | none => onward (List.replicate run quote) (cs.drop run)
        else if c = '\\' && escapes then
          match lineEnd? (skipSpace r) with
          | some r => onward [] (skipBlankLines r.length r)
          | none => do
            let (c, r) ← escape? r
            onward [c] r
        else if isPlain c then onward [c] r
        else none

/-- A string of any of the four kinds. A line end right after three opening quotes is no part of it. -/
def string? (cs : List Char) : Option (List Char × List Char) :=
  let body (r : List Char) : List Char := (lineEnd? r).getD r
  match cs with
  | '"' :: '"' :: '"' :: r => lines? true '"' cs.length (body r)
  | '\'' :: '\'' :: '\'' :: r => lines? false '\'' cs.length (body r)
  | '"' :: r => basic? cs.length r
  | '\'' :: r => literal? r
  | _ => none

def isBare (c : Char) : Bool := c.isAlphanum || c == '_' || c == '-'

/-- A part of a key: bare, or a string on one line. -/
def simpleKey? : List Char → Option (String × List Char)
  | '"' :: r => (basic? (r.length + 1) r).map fun (k, r) => (String.ofList k, r)
  | '\'' :: r => (literal? r).map fun (k, r) => (String.ofList k, r)
  | cs =>
    let k := cs.takeWhile isBare
    if k.isEmpty then none else some (String.ofList k, cs.dropWhile isBare)

/-- The parts of a key between dots, with blanks around any of them. -/
def keyParts? : Nat → List Char → Option (List String × List Char)
  | 0, _ => none
  | fuel + 1, cs => do
    let (k, r) ← simpleKey? (skipSpace cs)
    match skipSpace r with
    | '.' :: r => do
      let (ks, rest) ← keyParts? fuel r
      some (k :: ks, rest)
    | r => some ([k], r)

/-- How deep values may be nested, and one more than how many parts a key may have. -/
def maxDepth : Nat := 79

def key? (cs : List Char) : Option (List String × List Char) := do
  let (ks, r) ← keyParts? (cs.length + 1) cs
  if ks.length ≤ maxDepth then some (ks, r) else none

end MeshFacts.Toml
