import MeshFacts.Link

/-! # Cutting the stream of facts into chunks
Received facts are gathered and handed on once a period. A request to print hands on what there is at once
and marks the chunk. When the stream of facts ends what is left is handed on, and that is the end. At each
look the chunker sees to a due period first, then to a request, then to the next fact. -/
namespace MeshFacts

/-- The inputs that wait for the chunker, and what it has gathered. -/
structure Chunker where
  /-- Whether a period has ended. -/
  due : Bool := false
  /-- Requests to print. -/
  requests : Nat := 0
  /-- Facts that have come and have not been taken. -/
  waiting : List ReceivedFact := []
  /-- Whether no more facts can come. -/
  closed : Bool := false
  gathered : List ReceivedFact := []
deriving Repr, Inhabited

namespace Chunker

inductive Input where
  | period
  | request
  | fact (f : ReceivedFact)
  | close
deriving DecidableEq, Repr, Inhabited

/-- What comes is put to the rest. After the end of the stream no fact comes any more. -/
def accept (c : Chunker) : Input → Chunker
  | .period => { c with due := true }
  | .request => { c with requests := c.requests + 1 }
  | .fact f => if c.closed then c else { c with waiting := c.waiting ++ [f] }
  | .close => { c with closed := true }

inductive Turn where
  | idle
  | took (c : Chunker)
  | handOn (chunk : ReceivedChunk) (c : Chunker)
  | finish (last : Option ReceivedChunk)
deriving Repr, Inhabited

def flush (c : Chunker) (print : Bool) : Turn :=
  .handOn ⟨c.gathered ++ c.waiting, print⟩ { c with gathered := [], waiting := [] }

def turn (c : Chunker) : Turn :=
  if c.due then { c with due := false }.flush false
  else
    match c.requests, c.waiting, c.closed with
    | n + 1, _, _ => { c with requests := n }.flush true
    | 0, f :: r, _ => .took { c with waiting := r, gathered := c.gathered ++ [f] }
    | 0, [], true => .finish (if c.gathered.isEmpty then none else some ⟨c.gathered, false⟩)
    | 0, [], false => .idle

/-- How many looks it takes until nothing is left to see to. -/
def backlog (c : Chunker) : Nat := (if c.due then 1 else 0) + c.requests + c.waiting.length

theorem backlog_took {c d : Chunker} (h : c.turn = .took d) : d.backlog < c.backlog := by
  unfold turn at h
  split at h
  · simp [flush] at h
  · split at h
    · simp [flush] at h
    · rename_i hw
      simp only [Turn.took.injEq] at h
      subst h
      simp [backlog, hw]
    · cases h
    · cases h

theorem backlog_handOn {c d : Chunker} {chunk : ReceivedChunk} (h : c.turn = .handOn chunk d) :
    d.backlog < c.backlog := by
  unfold turn at h
  split at h
  · rename_i hd
    simp only [flush, Turn.handOn.injEq] at h
    obtain ⟨_, rfl⟩ := h
    simp [backlog, hd]
    omega
  · split at h
    · rename_i hr
      simp only [flush, Turn.handOn.injEq] at h
      obtain ⟨_, rfl⟩ := h
      simp [backlog, hr]
      omega
    · cases h
    · cases h
    · cases h

/-- Looks at the inputs until nothing is left to see to: the chunks handed on, and the chunker unless it has
ended. There may be room for some chunks only, and then the first that finds no room is the end. -/
def settle (room : Option Nat) (c : Chunker) : List ReceivedChunk × Option Chunker :=
  match _h : c.turn with
  | .idle => ([], some c)
  | .took d => settle room d
  | .handOn chunk d =>
    if room = some 0 then ([], none)
    else
      let (chunks, e) := settle (room.map (· - 1)) d
      (chunk :: chunks, e)
  | .finish last => (if room = some 0 then [] else last.toList, none)
termination_by c.backlog
decreasing_by
  · exact backlog_took _h
  · exact backlog_handOn _h

structure Dated where
  time : Span
  chunk : ReceivedChunk
deriving DecidableEq, Repr, Inhabited

structure Moment where
  time : Span
  inputs : List Input
deriving DecidableEq, Repr, Inhabited

structure Trace where
  chunks : List Dated
  ended : Span
deriving DecidableEq, Repr, Inhabited

structure Output where
  /-- How many chunks may lie in it. -/
  capacity : Nat
  /-- When it closes, if it does. -/
  closing : Option Span := none
deriving DecidableEq, Repr, Inhabited

/-- How many of the chunks of an instant an output takes, if not all. An output that closes takes what lies in
it. In the instant in which it closes that is as much as it holds if a period ends, for then the chunker comes
first, and otherwise nothing. -/
def Output.room (o : Output) (m : Moment) : Option Nat :=
  o.closing.bind fun t =>
    if m.time < t then none
    else if m.time = t ∧ .period ∈ m.inputs then some o.capacity
    else some 0

/-- All that comes at one instant is there before the chunker looks. -/
def atMoment (o : Output) (c : Chunker) (m : Moment) : List Dated × Option Chunker :=
  let (chunks, c) := settle (o.room m) (m.inputs.foldl accept c)
  (chunks.map fun chunk => ⟨m.time, chunk⟩, c)

/-- Goes through instants until the chunker ends. What comes after its end is waited for all the same. -/
def runFrom (o : Output) : Option Chunker → (ended : Span) → List Moment → Trace
  | _, ended, [] => ⟨[], ended⟩
  | none, ended, m :: r =>
    let inputs := m.inputs.filter fun i => i ≠ .period
    runFrom o none (if inputs.isEmpty then ended else max ended m.time) r
  | some c, _, m :: r =>
    let (chunks, c) := atMoment o c m
    let rest := runFrom o c m.time r
    ⟨chunks ++ rest.chunks, rest.ended⟩

/-- The instants before `time` at which a period ends, from the `n`-th on. -/
def periodsBefore (period : Span) (n : Nat) (time : Span) : List Moment :=
  (List.range' n ((time + period - 1) / period - n)).map fun k => ⟨k * period, [.period]⟩

/-- Adds the ends of periods, the first of them at zero, to instants in their order. -/
def withPeriods (period : Span) : (n : Nat) → List Moment → List Moment
  | _, [] => []
  | n, m :: r =>
    let inputs := if m.time % period = 0 then m.inputs ++ [.period] else m.inputs
    periodsBefore period n m.time ++ ⟨m.time, inputs⟩ :: withPeriods period (m.time / period + 1) r

/-- Ends the stream of facts in the last instant, or at zero if there is none. -/
def withClose : List Moment → List Moment
  | [] => [⟨0, [.close]⟩]
  | [m] => [⟨m.time, m.inputs ++ [.close]⟩]
  | m :: r => m :: withClose r

/-- Runs a new chunker on instants in their order. The stream of facts ends in the last of them at the
latest. -/
def run (period : Span) (o : Output) (moments : List Moment) : Trace :=
  runFrom o (some {}) 0 (withPeriods period 0 (withClose moments))

end Chunker

end MeshFacts
