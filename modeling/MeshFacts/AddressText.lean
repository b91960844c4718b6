import MeshFacts.Address
import MeshFacts.Blank
import MeshFacts.Numeral

/-! # Addresses in text
Writing and reading addresses, socket addresses and networks. Addresses of the sixth family are written
with their first longest run of zero groups left out, those that hold an address of the fourth family
with that address at the end. A plain address and the address of a network are read by slightly
different rules, which `Reading` records. -/
namespace MeshFacts

/-- Where the two readers of addresses differ. -/
structure Reading where
  /-- Octets may have leading zeros. -/
  leadingZeros : Bool
  /-- A double colon may stand for no group at all. -/
  emptyGap : Bool

namespace AddressText

/-- Plain addresses: octets as they are written, and a double colon leaves something out. -/
def plain : Reading := ⟨false, false⟩

def beforeLength : Reading := ⟨true, true⟩

def octetsText (a : V4) : List Char :=
  let octet (i : Nat) := Numeral.text (a.toNat >>> (8 * i) % 256)
  octet 3 ++ ['.'] ++ octet 2 ++ ['.'] ++ octet 1 ++ ['.'] ++ octet 0

def groups (a : V6) : List Nat := (List.range 8).map fun i => a.toNat >>> (16 * (7 - i)) % 65536

/-- Start and length of the first longest run of zeros, from index `i` on. -/
def longestRun : Nat → List Nat → Nat × Nat
  | _, [] => (0, 0)
  | i, gs@(_ :: r) =>
    let here := (gs.takeWhile (· == 0)).length
    let later := longestRun (i + 1) r
    if here ≥ later.2 && here > 0 then (i, here) else later

def joinGroups (gs : List Nat) : List Char :=
  [':'].intercalate (gs.map Numeral.hexText)

def groupsText (a : V6) : List Char :=
  match V6.mapped? a with
  | some b => "::ffff:".toList ++ octetsText b
  | none =>
    let gs := groups a
    let (start, count) := longestRun 0 gs
    if count > 1 then joinGroups (gs.take start) ++ "::".toList ++ joinGroups (gs.drop (start + count))
    else joinGroups gs

/-- A run of digits and the rest: at most `digits` of them, for a number of at most `max`. -/
def number? (hexadecimal : Bool) (digits max : Nat) (leadingZeros : Bool) (cs : List Char) :
    Option (Nat × List Char) :=
  let value (c : Char) : Option Nat :=
    let n := c.toNat
    if 48 ≤ n ∧ n ≤ 57 then some (n - 48)
    else if hexadecimal && decide (97 ≤ n ∧ n ≤ 102) then some (n - 87)
    else if hexadecimal && decide (65 ≤ n ∧ n ≤ 70) then some (n - 55)
    else none
  let run := cs.takeWhile fun c => (value c).isSome
  if run.isEmpty || run.length > digits then none
  else if run.head? == some '0' && run.length > 1 && !leadingZeros then none
  else
    let v := run.foldl (fun v c => v * (if hexadecimal then 16 else 10) + (value c).getD 0) 0
    if v > max then none else some (v, cs.drop run.length)

def char? (c : Char) : List Char → Option (List Char)
  | d :: r => if c = d then some r else none
  | [] => none

def v4? (rule : Reading) (cs : List Char) : Option (V4 × List Char) := do
  let octet := number? false 3 255 rule.leadingZeros
  let (a, r) ← octet cs
  let (b, r) ← octet (← char? '.' r)
  let (c, r) ← octet (← char? '.' r)
  let (d, r) ← octet (← char? '.' r)
  some (BitVec.ofNat 32 (((a * 256 + b) * 256 + c) * 256 + d), r)

/-- Up to `limit` groups between colons, whether the last two came as four octets, and the rest. -/
def groups? (rule : Reading) : (limit : Nat) → (first : Bool) → List Char →
    List Nat × Bool × List Char
  | 0, _, cs => ([], false, cs)
  | limit + 1, first, cs =>
    match if first then some cs else char? ':' cs with
    | none => ([], false, cs)
    | some r =>
      match if limit ≥ 1 then v4? rule r else none with
      | some (a, r) => ([a.toNat / 65536, a.toNat % 65536], true, r)
      | none =>
        match number? true 4 65535 true r with
        | none => ([], false, cs)
        | some (g, r) =>
          let (gs, octets, rest) := groups? rule limit false r
          (g :: gs, octets, rest)

def ofGroups (gs : List Nat) : V6 := BitVec.ofNat 128 (gs.foldl (fun v g => v * 65536 + g) 0)

/-- Eight groups, or fewer around a double colon, and the rest. Octets end the address. -/
def v6? (rule : Reading) (cs : List Char) : Option (V6 × List Char) :=
  let (head, octets, r) := groups? rule 8 true cs
  if head.length = 8 then some (ofGroups head, r)
  else if octets then none
  else do
    let r ← char? ':' (← char? ':' r)
    let room := if rule.emptyGap then 8 - head.length else 7 - head.length
    let (tail, _, rest) := groups? rule room true r
    some (ofGroups (head ++ List.replicate (8 - head.length - tail.length) 0 ++ tail), rest)

def ip? (rule : Reading) (cs : List Char) : Option (IpAddr × List Char) :=
  match v4? rule cs with
  | some (a, r) => some (.v4 a, r)
  | none => (v6? rule cs).map fun (a, r) => (.v6 a, r)

def whole {α : Type} : Option (α × List Char) → Option α
  | some (x, []) => some x
  | _ => none

def portAfter? (cs : List Char) : Option (UInt16 × List Char) := do
  let (p, r) ← number? false cs.length 65535 true (← char? ':' cs)
  some (UInt16.ofNat p, r)

def scope (cs : List Char) : Nat × List Char :=
  match cs with
  | '%' :: r => (number? false r.length 0xffffffff true r).getD (0, cs)
  | _ => (0, cs)

def socket? (cs : List Char) : Option (SocketAddr × List Char) :=
  match v4? plain cs with
  | some (a, r) => (portAfter? r).map fun (p, r) => (.v4 a p, r)
  | none => do
    let (a, r) ← v6? plain (← char? '[' cs)
    let (s, r) := scope r
    let (p, r) ← portAfter? (← char? ']' r)
    some (.v6 a p (UInt32.ofNat s), r)

def net? (cs : List Char) : Option (Net × List Char) :=
  match v4? beforeLength cs with
  | some (a, r) => do
    let (n, r) ← number? false 2 32 true (← char? '/' r)
    (Net.ofLength? (.v4 a) n).map (·, r)
  | none => do
    let (a, r) ← v6? beforeLength cs
    let (n, r) ← number? false 3 128 true (← char? '/' r)
    (Net.ofLength? (.v6 a) n).map (·, r)

end AddressText

open AddressText

def IpAddr.text : IpAddr → String
  | v4 a => String.ofList (octetsText a)
  | v6 a => String.ofList (groupsText a)

def IpAddr.ofText? (s : String) : Option IpAddr := whole (ip? plain s.toList)

/-- A scope of zero is not written. -/
def SocketAddr.text : SocketAddr → String
  | v4 a p => String.ofList (octetsText a ++ [':'] ++ Numeral.text p.toNat)
  | v6 a p s =>
    let scope := if s = 0 then [] else '%' :: Numeral.text s.toNat
    String.ofList (['['] ++ groupsText a ++ scope ++ "]:".toList ++ Numeral.text p.toNat)

def SocketAddr.ofText? (s : String) : Option SocketAddr := whole (socket? s.toList)

def Net.text (net : Net) : String :=
  net.addr.text ++ "/" ++ String.ofList (Numeral.text net.length)

/-- An address and a length, host bits kept. -/
def Net.ofText? (s : String) : Option Net := whole (net? s.toList)

inductive AddressError where
  | address (text : String)
  | network (text : String)
deriving DecidableEq, Repr

def AddressError.message : AddressError → String
  | address s => "invalid address: " ++ s
  | network s => "invalid network: " ++ s

/-- A network in normal form from an address with or without a length, between blanks. -/
def Net.parse (s : String) : Except AddressError Net :=
  let s := trimText s
  match Net.ofText? s with
  | some net => .ok net.normalize
  | none =>
    match IpAddr.ofText? s with
    | some ip => .ok (Net.host ip).normalize
    | none => .error (.network s)

/-- An address in normal form, between blanks. -/
def IpAddr.parse (s : String) : Except AddressError IpAddr :=
  match IpAddr.ofText? (trimText s) with
  | some ip => .ok ip.normalize
  | none => .error (.address s)

end MeshFacts
