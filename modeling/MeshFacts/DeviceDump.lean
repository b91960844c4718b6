import MeshFacts.Blank
import MeshFacts.Device

/-! # Dumps of a device
The text in which the `wg` tool tells the state of a device: a line for the interface, then a line for each
peer, with fields between tabs. Handshakes are told in seconds of the wall clock and are moved to the
monotonic clock by what both clocks show now. -/
namespace MeshFacts

/-- Lines end with a line feed, and may end with a carriage return before it. -/
def textLines (cs : List Char) : List (List Char) :=
  let pieces := cs.splitOn '\n'
  let ended := pieces.dropLast.map fun l => if l.getLast? = some '\r' then l.dropLast else l
  match pieces.getLast? with
  | some [] | none => ended
  | some l => ended ++ [l]

namespace DeviceDump

def earliest : Instant := -((1 <<< 63) * Clock.second : Nat)

/-- The instant of a handshake, unless it is too far back to tell. One in the future counts as just now. -/
def handshakeAt (now : Instant) (wallSeconds handshake : Nat) : Option Instant :=
  let t := now - ((wallSeconds - handshake) * Clock.second : Nat)
  if earliest ≤ t then some t else none

def absent : String := "(none)"

def fieldTexts (line : List Char) : List String := (line.splitOn '\t').map String.ofList

def malformed {α : Type} (what : String) : Except DeviceError α := .error (.parse what)

def readEndpoint (s : String) : Except DeviceError (Option SocketAddr) :=
  if s = absent then .ok none
  else
    match SocketAddr.ofText? s with
    | some a => .ok (some a)
    | none => malformed ("bad endpoint: " ++ s)

/-- Networks between commas, some of which may have nothing between them. -/
def readNets (s : String) : Except DeviceError (List Net) :=
  if s = absent then .ok []
  else
    ((s.toList.splitOn ',').filter fun n => !n.isEmpty).mapM fun n =>
      (Net.parse (String.ofList n)).mapError fun e => .parse e.message

def readKey (s : String) : Except DeviceError PublicKey :=
  (PublicKey.ofBase64 s).mapError fun e => .parse e.message

/-- A peer's line has at least eight fields; the second, the sixth and the seventh are of no interest. -/
def readPeer (now : Instant) (wallSeconds : Nat) (line : List Char) : Except DeviceError DevicePeer :=
  match fieldTexts line with
  | key :: _ :: endpoint :: nets :: handshake :: _ :: _ :: keepalive :: _ => do
    let publicKey ← readKey key
    let endpoint ← readEndpoint endpoint
    let allowedIps ← readNets nets
    match Numeral.word? 64 handshake with
    | none => malformed ("bad handshake time: " ++ handshake)
    | some h =>
      .ok {
        publicKey := publicKey
        endpoint := endpoint
        allowedIps := allowedIps
        lastHandshake := if h = 0 then none else handshakeAt now wallSeconds h
        keepalive := Numeral.word? 64 keepalive }
  | _ => malformed ("bad peer line: " ++ String.ofList line)

/-- The interface's line begins with its private key, its public key and its port. -/
def readInterface (line : List Char) : Except DeviceError (KeyPair × UInt16) :=
  match fieldTexts line with
  | key :: _ :: port :: _ => do
    let pair ← (KeyPair.ofBase64 key).mapError fun e => .parse e.message
    match Numeral.word? 16 port with
    | some p => .ok (pair, UInt16.ofNat p)
    | none => malformed ("bad listen port: " ++ port)
  | _ => malformed ("bad interface line: " ++ String.ofList line)

/-- The state of a device from its dump. Blank lines count for nothing. Both clocks are in nanoseconds; of
the wall clock, whole seconds since its epoch matter. -/
def parse (name dump : String) (now : Instant) (wall : Int) : Except DeviceError DeviceState :=
  match (textLines dump.toList).filter fun l => !isBlankText l with
  | [] => malformed "empty dump"
  | line :: peerLines => do
    let (pair, port) ← readInterface line
    let peers ← peerLines.mapM (readPeer now (wall / Clock.second).toNat)
    .ok ⟨name, pair, port, peers⟩

end DeviceDump

end MeshFacts
