import MeshFacts.Packet

/-! # The packet reader
Takes packets from the network one after the other and hands on the facts of those that are good. A packet
that is bad yields nothing, and an error of the network is answered by trying again, after a pause that
grows with the number of errors in a row. Neither ends the reader: only a cancellation does, or that nobody
wants the facts. -/
namespace MeshFacts

/-- What the network answers when it is asked for a packet. -/
inductive Receipt where
  | packet (bytes : List UInt8) (source : SocketAddr)
  | failure
deriving DecidableEq, Repr, Inhabited

structure Reader where
  signer : Signer
  /-- The errors since the last packet. -/
  failures : Nat := 0
deriving Inhabited

namespace Reader

/-- The pause after a number of errors in a row. The first error is not waited for; then the pause doubles
from ten milliseconds up to a second. -/
def backoff (failures : Nat) : Span :=
  if failures ≤ 1 then 0
  else min (10 * (1 <<< min (failures - 2) 7) * Clock.millisecond) Clock.second

/-- What one receipt comes to: the facts to hand on and the pause before asking again. -/
def receive (r : Reader) (now : Instant) : Receipt → List ReceivedFact × Span × Reader
  | .failure =>
    let failures := r.failures + 1
    ([], backoff failures, { r with failures := failures })
  | .packet bytes source =>
    let (result, signer) := Packet.unpack bytes source r.signer now
    (result.toOption.getD [], 0, { signer := signer, failures := 0 })

def receiveAll (now : Instant) : Reader → List Receipt → List ReceivedFact
  | _, [] => []
  | r, x :: xs =>
    let (facts, _, r) := r.receive now x
    facts ++ receiveAll now r xs

structure Trace where
  /-- When the network was asked. -/
  asked : List Span
  facts : List ReceivedFact
  ended : Span
deriving DecidableEq, Repr, Inhabited

structure Setting where
  /-- The clock that facts are dated by. It stands still. -/
  now : Instant := 0
  /-- Whether anybody takes the facts. -/
  heard : Bool := true
  /-- When the reader is cancelled, if it is before the receipts are used up. What it has to do at that time it
  does first. -/
  cancelAt : Option Span := none
deriving Repr, Inhabited

/-- When a cancellation ends what lasts until a time, if it does. -/
def Setting.cutShort (s : Setting) (ending : Span) : Option Span :=
  s.cancelAt.filter fun c => c < ending

/-- A run from a given time on. When the receipts are used up the reader is cancelled as it asks for more; a
cancellation that comes in a pause ends the pause. -/
def run (s : Setting) : Reader → (time : Span) → List Receipt → Trace
  | _, time, [] => ⟨[time], [], time⟩
  | r, time, x :: xs =>
    let (facts, pause, r) := r.receive s.now x
    if !s.heard && !facts.isEmpty then ⟨[time], [], time⟩
    else
      let rest : Trace := match s.cutShort (time + pause) with
        | some c => ⟨[], [], max time c⟩
        | none => run s r (time + pause) xs
      ⟨time :: rest.asked, facts ++ rest.facts, rest.ended⟩

end Reader

end MeshFacts
