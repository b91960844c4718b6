import MeshFacts.Device
import MeshFacts.FactPacking
import MeshFacts.Knowledge
import MeshFacts.Overlay
import MeshFacts.PeerState
import MeshFacts.PeerTable

/-! # A node's end of the mesh
What a node is told once and what it keeps from chunk to chunk. Everything that it does to its device goes
through `refresh` and `configure`. -/
namespace MeshFacts

/-- The settings of a node, resolved from whatever layers they come from. -/
structure LinkConfig where
  iface : String
  /-- The port that facts are exchanged on, by default the one above the device's own. -/
  port : Option Nat := none
  /-- Whether this node is a router, by default as its addresses say. -/
  router : Option Bool := none
  /-- Without it peers are changed but never added or removed. -/
  managePeers : Bool := true
  chatty : Bool := false
  peers : PeerTable := .empty
deriving Inhabited

/-- What stays the same while a node runs. -/
structure Link where
  config : LinkConfig
  self : PublicKey
  bootId : Uuid
  started : Instant
  /-- The addresses that a configured endpoint stands for. -/
  resolve : String → List SocketAddr
deriving Inhabited

/-- What changes while a node runs. -/
structure LinkState where
  device : MemoryDevice
  knowledge : Knowledge := .empty
  states : PeerStates := .empty
  /-- The device as it was last read. -/
  cached : Option DeviceState := none
  /-- The calls made to the device, whether it took them or not. -/
  calls : List (List PeerUpdate) := []
deriving Inhabited

structure ReceivedFact where
  fact : Fact
  source : SocketAddr
  sender : PublicKey
deriving DecidableEq, Repr, Inhabited

/-- What was received between two ticks. -/
structure ReceivedChunk where
  facts : List ReceivedFact := []
  print : Bool := false
deriving DecidableEq, Repr, Inhabited

/-- The facts that are held to be true at some instant. -/
structure FactChunk where
  facts : List Fact
  now : Instant
  /-- Whether this node counts as a router. -/
  router : Bool
  print : Bool
deriving DecidableEq, Repr, Inhabited

inductive EngineError where
  | io
  | device (cause : DeviceError)
  | fact (cause : FactError)
  | noInterfaceIndex (iface : String)
  | stage (detail : String)
deriving DecidableEq, Repr

def EngineError.message : EngineError → String
  | io => "I/O error"
  | device e => "device error: " ++ e.message
  | fact e => "fact error: " ++ e.message
  | noInterfaceIndex iface => "interface " ++ iface ++ " has no index"
  | stage s => "pipeline stage " ++ s ++ " failed"

/-- Only texts that are socket addresses stand for anything. -/
def literalAddress (host : String) : List SocketAddr := (SocketAddr.ofText? host).toList

namespace Link

def selfTrust (l : Link) : TrustLevel := l.config.peers.trust l.self .untrusted

/-- Routers, and nodes that may set networks themselves, never take configuration away from peers. -/
def allowDeconfigure (l : Link) (router : Bool) : Bool := !router && l.selfTrust < .allowedIps

def refresh (l : Link) (s : LinkState) : Except DeviceError DeviceState × LinkState :=
  match s.device.read l.config.iface with
  | .ok d => (.ok d, { s with cached := some d })
  | .error e => (.error e, s)

/-- Asks one change of the device, and tells whether it was made. -/
def configure (l : Link) (s : LinkState) (u : PeerUpdate) : Bool × LinkState :=
  let s := { s with calls := s.calls ++ [[u]] }
  match s.device.configure l.config.iface [u] with
  | (.ok (), d) => (true, { s with device := d })
  | (.error _, d) => (false, { s with device := d })

end Link

end MeshFacts
