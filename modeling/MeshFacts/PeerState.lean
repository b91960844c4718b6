import MeshFacts.Device
import MeshFacts.Fact
import MeshFacts.Table

/-! # The history of a peer
What earlier observations of a peer say about touching its configuration now: whether its tunnel works,
how long it has been alive, and which endpoints were tried when. -/
namespace MeshFacts

structure PeerState where
  observed : Bool := false
  lastHandshake : Option Instant := none
  healthy : Bool := false
  aliveSince : Option Instant := none
  aliveUntil : Option Instant := none
  lastBootId : Option Uuid := none
  lastRotation : Option Instant := none
  /-- When each endpoint was last chosen or seen in use. -/
  lastUsed : Table SocketAddr Instant := .empty

namespace PeerState

instance : Inhabited PeerState := ⟨{}⟩

/-- The later of two instants, and any instant rather than none. -/
def later : Option Instant → Option Instant → Option Instant
  | none, b => b
  | a, none => a
  | some a, some b => some (if a ≤ b then b else a)

/-- Whether a peer's tunnel works: it has an endpoint, and its handshake is recent or has changed since the
last observation. -/
def isHealthy (s : PeerState) (p : DevicePeer) (now : Instant) : Bool :=
  if p.endpoint.isNone then false
  else if p.lastHandshake.any fun t => Clock.since now t < Clock.handshakeValidity then true
  else s.observed && p.lastHandshake != s.lastHandshake

/-- Adds an observation of a peer, its claim to be alive and the start it last told of. A new start begins
the streak of being alive anew. -/
def update (s : PeerState) (p : DevicePeer) (aliveUntil : Option Instant) (bootId : Option Uuid)
    (now : Instant) : PeerState :=
  let alive := aliveUntil.filter fun t => now < t
  let rebooted := bootId.isSome && s.lastBootId.isSome && bootId != s.lastBootId
  { s with
    observed := true
    healthy := s.isHealthy p now
    lastHandshake := p.lastHandshake
    aliveSince :=
      if alive.isNone then none
      else if s.aliveSince.isNone || rebooted then some now
      else s.aliveSince
    aliveUntil := alive
    lastBootId := bootId <|> s.lastBootId
    lastUsed := match p.endpoint with
      | some e => s.lastUsed.insert e now
      | none => s.lastUsed }

def isAlive (s : PeerState) (now : Instant) : Bool := s.aliveUntil.any fun t => now < t

/-- How long the peer has been alive without a break. -/
def aliveFor (s : PeerState) (now : Instant) : Span := (s.aliveSince.map (Clock.since now)).getD 0

def stillAliveFor (s : PeerState) (now : Instant) : Span :=
  (s.aliveUntil.map fun t => Clock.since t now).getD 0

/-- Whether the present endpoint has had its time, counted from the later of the last handshake and the last
change. -/
def timeForNextEndpoint (s : PeerState) (now : Instant) : Bool :=
  !s.healthy && (later s.lastHandshake s.lastRotation).all fun t =>
    Clock.endpointAttempt ≤ Clock.since now t

def unusedLonger (s : PeerState) (a b : SocketAddr) : Bool :=
  match s.lastUsed.find? a, s.lastUsed.find? b with
  | none, some _ => true
  | some t, some u => t < u
  | _, none => false

/-- The first of the candidates that have been unused longest. -/
def leastRecent? (s : PeerState) : List SocketAddr → Option SocketAddr
  | [] => none
  | e :: es => some (es.foldl (fun best c => if s.unusedLonger c best then c else best) e)

/-- Chooses the next endpoint and counts it as used. -/
def nextEndpoint (s : PeerState) (candidates : List SocketAddr) (now : Instant) :
    Option SocketAddr × PeerState :=
  match s.leastRecent? candidates with
  | none => (none, s)
  | some e => (some e, { s with lastUsed := s.lastUsed.insert e now, lastRotation := some now })

def describe (s : PeerState) (now : Instant) : String :=
  let seconds (n : Span) : String := toString (n / Clock.second)
  let flag (b : Bool) : String := if b then "true" else "false"
  let handshake := (s.lastHandshake.map fun t => seconds (Clock.since now t) ++ "s ago").getD "never"
  "healthy=" ++ flag s.healthy ++ " alive=" ++ flag (s.isAlive now)
    ++ " alive_for=" ++ seconds (s.aliveFor now) ++ "s still_alive_for=" ++ seconds (s.stillAliveFor now)
    ++ "s handshake=" ++ handshake ++ " endpoints_tried=" ++ toString s.lastUsed.size

end PeerState

/-- The history of every peer, from its first observation on. -/
abbrev PeerStates := Table PublicKey PeerState

namespace PeerStates

def get (t : PeerStates) (k : PublicKey) : PeerState := (t.find? k).getD {}

def update (t : PeerStates) (p : DevicePeer) (aliveUntil : Option Instant) (bootId : Option Uuid)
    (now : Instant) : PeerStates :=
  t.insert p.publicKey ((t.get p.publicKey).update p aliveUntil bootId now)

def isHealthy (t : PeerStates) (k : PublicKey) : Bool := (t.find? k).any PeerState.healthy

def timeForNextEndpoint (t : PeerStates) (k : PublicKey) (now : Instant) : Bool :=
  (t.find? k).any fun s => s.timeForNextEndpoint now

def nextEndpoint (t : PeerStates) (k : PublicKey) (candidates : List SocketAddr) (now : Instant) :
    Option SocketAddr × PeerStates :=
  let (e, s) := (t.get k).nextEndpoint candidates now
  (e, t.insert k s)

/-- Without the peers that are not to be kept, and how many those are. -/
def retain (t : PeerStates) (keep : PublicKey → Bool) : Nat × PeerStates :=
  let kept := t.filter fun k _ => keep k
  (t.size - kept.size, kept)

def inOrder (t : PeerStates) : List (PublicKey × PeerState) :=
  t.entries.mergeSort fun a b => !(b.1 < a.1)

end PeerStates

end MeshFacts
