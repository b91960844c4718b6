/-! # Time
Instants of a clock that never goes back, in nanoseconds from some fixed instant, and the spans that the
exchange of facts is built on. -/
namespace MeshFacts

/-- Nanoseconds after a fixed instant, negative before it. -/
abbrev Instant := Int

/-- A length of time in nanoseconds. -/
abbrev Span := Nat

namespace Clock

def microsecond : Span := 1000

def millisecond : Span := 1000000

def second : Span := 1000000000

/-- How long after `earlier` an instant is, zero if it is not. -/
def since (later earlier : Instant) : Span := (later - earlier).toNat

theorem le_since_iff {n : Span} {later earlier : Instant} (hn : 0 < n) :
    n ≤ since later earlier ↔ earlier + n ≤ later := by
  unfold since Instant Span at *
  omega

theorem lt_since_iff {n : Span} {later earlier : Instant} :
    n < since later earlier ↔ earlier + n < later := by
  unfold since Instant Span at *
  omega

/-- What a fact lives for at most, and what a new fact is given. -/
def factTtl : Span := 255 * second

/-- How often the facts received are gathered into a chunk. -/
def chunkPeriod : Span := 5 * second

/-- How long before its end an alive fact is told again. -/
def alivePeriod : Span := 30 * second

/-- How long before its end any other fact is told again. -/
def factInterval : Span := 30 * second

/-- How long a handshake proves that the tunnel works. -/
def handshakeValidity : Span := 140 * second

def endpointAttempt : Span := 15 * second

/-- The part of a fact's life in which it need not be told again. -/
def refreshWindow : Span := factTtl - factInterval

/-- How long a source of members must have been alive before it justifies a removal. -/
def minAliveForDelete : Span := factTtl + chunkPeriod

/-- How much longer a source of members must be alive to justify a removal. -/
def minStillAliveForDelete : Span := chunkPeriod + chunkPeriod / 2

end Clock

end MeshFacts
