import MeshFacts.FactKey
import MeshFacts.Table

/-! # What peers know
For each peer the facts that it is taken to know and until when. A peer knows what it told us and, most
likely, what we told it. A new boot identifier means that it has started again and forgotten all. -/
namespace MeshFacts

structure Knowledge where
  /-- Until when a peer knows a fact. -/
  entries : Table (FactKey × PublicKey) Instant
  /-- The start that each peer last told of. -/
  bootIds : Table PublicKey Uuid

namespace Knowledge

def empty : Knowledge := ⟨.empty, .empty⟩

instance : Inhabited Knowledge := ⟨empty⟩

def size (k : Knowledge) : Nat := k.entries.size

/-- Until when a peer knows the fact of a key. -/
def until? (k : Knowledge) (key : FactKey) (peer : PublicKey) : Option Instant :=
  k.entries.find? (key, peer)

/-- Keeps the later of the end already noted and a new one, and tells whether that is the new one. -/
def note (k : Knowledge) (key : FactKey) (peer : PublicKey) (expires : Instant) : Bool × Knowledge :=
  match k.until? key peer with
  | some known =>
    if expires ≤ known then (false, k)
    else (true, { k with entries := k.entries.insert (key, peer) expires })
  | none => (true, { k with entries := k.entries.insert (key, peer) expires })

def dropEntries (k : Knowledge) (peer : PublicKey) : Knowledge :=
  { k with entries := k.entries.filter fun e _ => e.2 ≠ peer }

/-- Takes note of the start that a peer tells of. If it differs from the one before, the peer has forgotten
everything. -/
def noteBoot (k : Knowledge) (source : PublicKey) (id : Uuid) : Knowledge :=
  let restarted := (k.bootIds.find? source).any fun previous => previous ≠ id
  let k := { k with bootIds := k.bootIds.insert source id }
  if restarted then k.dropEntries source else k

def received (k : Knowledge) (f : Fact) (source : PublicKey) : Bool × Knowledge :=
  let k := match f.bootId? with
    | some id => if f.subject = source then k.noteBoot source id else k
    | none => k
  k.note f.key source f.expires

def sent (k : Knowledge) (peer : PublicKey) (f : Fact) : Bool × Knowledge :=
  k.note f.key peer f.expires

/-- Whether a peer knows a fact, or a form of it that ends no more than `hysteresis` earlier. -/
def peerKnows (k : Knowledge) (peer : PublicKey) (f : Fact) (hysteresis : Span) : Bool :=
  (k.until? f.key peer).any fun known => f.expires ≤ known + hysteresis

/-- Whether a peer does not know a fact, or will forget it within `maxTtl` and before it ends. -/
def peerNeeds (k : Knowledge) (peer : PublicKey) (f : Fact) (maxTtl : Span) (now : Instant) : Bool :=
  match k.until? f.key peer with
  | none => true
  | some known => known < now + maxTtl && known < f.expires

/-- Until when a peer says of itself that it is alive. -/
def aliveUntil? (k : Knowledge) (peer : PublicKey) : Option Instant := k.until? (.alive peer) peer

/-- Whether a peer is alive for more than `margin` from now. -/
def peerAlive (k : Knowledge) (peer : PublicKey) (now : Instant) (margin : Span) : Bool :=
  (k.aliveUntil? peer).any fun t => now + margin < t

def bootId? (k : Knowledge) (peer : PublicKey) : Option Uuid := k.bootIds.find? peer

def expire (k : Knowledge) (now : Instant) : Nat × Knowledge :=
  let entries := k.entries.filter fun _ t => now < t
  (k.size - entries.size, { k with entries := entries })

/-- Forgets that a peer knows us to be alive, so that it is told again. Tells whether it did know. -/
def forcePing (k : Knowledge) (self peer : PublicKey) : Bool × Knowledge :=
  ((k.until? (.alive self) peer).isSome, { k with entries := k.entries.erase (.alive self, peer) })

def forget (k : Knowledge) (peer : PublicKey) : Knowledge :=
  let k := k.dropEntries peer
  { k with bootIds := k.bootIds.erase peer }

end Knowledge

end MeshFacts
