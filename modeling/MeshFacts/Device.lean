import MeshFacts.AddressText
import MeshFacts.Clock
import MeshFacts.Key

/-! # The WireGuard device
The peer table of a device as it is read, and the changes that can be asked of it. -/
namespace MeshFacts

/-- A peer as it is on the device now. -/
structure DevicePeer where
  publicKey : PublicKey
  endpoint : Option SocketAddr := none
  allowedIps : List Net := []
  lastHandshake : Option Instant := none
  /-- In seconds. -/
  keepalive : Option Nat := none
deriving DecidableEq, Repr, Inhabited

structure DeviceState where
  name : String
  pair : KeyPair
  listenPort : UInt16
  peers : List DevicePeer
deriving DecidableEq, Inhabited

def DeviceState.publicKey (s : DeviceState) : PublicKey := s.pair.publicKey

def DeviceState.peer? (s : DeviceState) (k : PublicKey) : Option DevicePeer :=
  s.peers.find? fun p => p.publicKey = k

/-- One peer's worth of change. What is left at its default stays as it is. -/
structure PeerUpdate where
  publicKey : PublicKey
  remove : Bool := false
  /-- Leaves a peer alone that is not there yet. -/
  updateOnly : Bool := false
  endpoint : Option SocketAddr := none
  /-- The networks take the place of the peer's own instead of joining them. -/
  replaceAllowedIps : Bool := false
  allowedIps : List Net := []
deriving DecidableEq, Repr, Inhabited

/-- Whether applying the update could change nothing. -/
def PeerUpdate.isNoop (u : PeerUpdate) : Bool :=
  !u.remove && u.endpoint.isNone && !u.replaceAllowedIps && u.allowedIps.isEmpty

structure NetInterface where
  name : String
  index : Option Nat
  addresses : List Net
deriving DecidableEq, Repr, Inhabited

inductive DeviceError where
  | notFound (detail : String)
  | permissionDenied (detail : String)
  | command (detail : String)
  | parse (detail : String)
  | io
deriving DecidableEq, Repr

def DeviceError.message : DeviceError → String
  | notFound s => "device not found: " ++ s
  | permissionDenied s => "permission denied: " ++ s
  | command s => "device command failed: " ++ s
  | parse s => "could not parse device state: " ++ s
  | io => "I/O error"

namespace DevicePeer

def joinNets (nets : List Net) : List Net → List Net
  | [] => nets
  | n :: r => joinNets (if n ∈ nets then nets else nets ++ [n]) r

/-- What an update that removes nothing makes of a peer. -/
def apply (p : DevicePeer) (u : PeerUpdate) : DevicePeer :=
  { p with
    endpoint := u.endpoint <|> p.endpoint
    allowedIps := joinNets (if u.replaceAllowedIps then [] else p.allowedIps) u.allowedIps }

def change (k : PublicKey) (f : DevicePeer → DevicePeer) : List DevicePeer → List DevicePeer
  | [] => []
  | p :: r => if p.publicKey = k then f p :: r else p :: change k f r

def applyTo (peers : List DevicePeer) (u : PeerUpdate) : List DevicePeer :=
  if u.remove then peers.eraseP fun p => p.publicKey = u.publicKey
  else if peers.any fun p => p.publicKey = u.publicKey then
    change u.publicKey (·.apply u) peers
  else if u.updateOnly then peers
  else peers ++ [apply { publicKey := u.publicKey } u]

end DevicePeer

/-- A device in memory. It records the calls that succeed; reading may be made to fail, and so may
configuring given peers. -/
structure MemoryDevice where
  state : DeviceState
  calls : List (List PeerUpdate) := []
  failReads : Bool := false
  failing : List PublicKey := []
deriving Inhabited

namespace MemoryDevice

def read (d : MemoryDevice) (name : String) : Except DeviceError DeviceState :=
  if d.failReads || d.state.name != name then .error (.notFound name) else .ok d.state

def peers (d : MemoryDevice) : List DevicePeer := d.state.peers

def setPeers (d : MemoryDevice) (peers : List DevicePeer) : MemoryDevice :=
  { d with state := { d.state with peers := peers } }

/-- Applies all the updates, or none if one names a failing peer. -/
def configure (d : MemoryDevice) (name : String) (updates : List PeerUpdate) :
    Except DeviceError Unit × MemoryDevice :=
  if d.state.name != name then (.error (.notFound name), d)
  else
    match updates.find? fun u => u.publicKey ∈ d.failing with
    | some u => (.error (.command ("configuring " ++ u.publicKey.base64 ++ " rejected")), d)
    | none =>
      let changed := d.setPeers (updates.foldl DevicePeer.applyTo d.peers)
      (.ok (), { changed with calls := d.calls ++ [updates] })

def setHandshake (d : MemoryDevice) (k : PublicKey) (time : Instant) : MemoryDevice :=
  d.setPeers (DevicePeer.change k (fun p => { p with lastHandshake := some time }) d.peers)

def failConfigure (d : MemoryDevice) (k : PublicKey) (fail : Bool) : MemoryDevice :=
  { d with failing := if fail then k :: d.failing else d.failing.filter (· ≠ k) }

end MemoryDevice

end MeshFacts
