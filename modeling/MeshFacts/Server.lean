import MeshFacts.Broadcast
import MeshFacts.FactSet
import MeshFacts.Reconcile

/-! # The exchange of facts on one interface
A server ties the stages together: each chunk is processed, told to the peers and brought onto the device.
The first stage that fails ends it. -/
namespace MeshFacts

structure Server where
  link : Link
  interfaces : List NetInterface
  lost : Failures
  /-- The facts held so far. -/
  current : List Fact := []
  outlet : Outlet
deriving Inhabited

namespace Server

/-- The port that facts are exchanged on: the one configured, or else the one above the device's own. -/
def factPort (config : LinkConfig) (device : DeviceState) : Except EngineError UInt16 :=
  match config.port with
  | some p => .ok (UInt16.ofNat p)
  | none =>
    if device.listenPort = 65535 then .error (.stage ("no port above " ++ toString device.listenPort.toNat))
    else .ok (device.listenPort + 1)

/-- Where a server is to listen: on its overlay address, in the scope of its interface. The device has to be
read first. -/
def listenAddress (config : LinkConfig) (read : Except DeviceError DeviceState)
    (interfaces : List NetInterface) : Except EngineError SocketAddr :=
  match read with
  | .error e => .error (.device e)
  | .ok state => do
    let port ← factPort config state
    match (interfaces.find? fun i => i.name = config.iface).bind NetInterface.index with
    | some index => .ok (.v6 state.publicKey.overlay port (UInt32.ofNat index))
    | none => .error (.noInterfaceIndex config.iface)

def device (sv : Server) : MemoryDevice := sv.outlet.state.device

def withState (sv : Server) (s : LinkState) : Server := { sv with outlet := { sv.outlet with state := s } }

def process (sv : Server) (now : Instant) (received : ReceivedChunk) :
    Except EngineError FactChunk × Server :=
  match sv.link.process sv.interfaces sv.current received now sv.outlet.state with
  | (.error e, s) => (.error (.device e), sv.withState s)
  | (.ok chunk, s) => (.ok chunk, { sv.withState s with current := chunk.facts })

/-- Tells the peers of a chunk, and counts the packets of those that got all of theirs. -/
def broadcast (sv : Server) (chunk : FactChunk) : Nat × Server :=
  let (n, outlet) := Broadcast.run sv.link sv.lost chunk sv.outlet
  (n, { sv with outlet := outlet })

def reconcile (sv : Server) (chunk : FactChunk) : Except EngineError Unit × Server :=
  let (result, s) := Reconcile.pass sv.link chunk sv.outlet.state
  (result.mapError .device, sv.withState s)

/-- Brings the device in line with one chunk after the other, up to the first failure. -/
def reconcileAll (sv : Server) : List FactChunk → Except EngineError Unit × Server
  | [] => (.ok (), sv)
  | c :: r =>
    match sv.reconcile c with
    | (.error e, sv) => (.error e, sv)
    | (.ok (), sv) => reconcileAll sv r

/-- Processes one chunk after the other, up to the first failure or as long as anybody takes what comes of
them, and gives what came of them. -/
def processAll (sv : Server) (now : Instant) (taken : Bool) :
    List ReceivedChunk → List FactChunk × Except EngineError Unit × Server
  | [] => ([], .ok (), sv)
  | c :: r =>
    match sv.process now c with
    | (.error e, sv) => ([], .error e, sv)
    | (.ok chunk, sv) =>
      if taken then
        let (chunks, result) := processAll sv now taken r
        (chunk :: chunks, result)
      else ([chunk], .ok (), sv)

def chunk (sv : Server) (now : Instant) (received : ReceivedChunk) : Except EngineError Unit × Server :=
  match sv.process now received with
  | (.error e, sv) => (.error e, sv)
  | (.ok chunk, sv) => (sv.broadcast chunk).2.reconcile chunk

inductive Happening where
  | print
  | stop
  /-- Somebody else changes the device. -/
  | change (f : MemoryDevice → MemoryDevice)

def Happening.isPrint : Happening → Bool
  | print => true
  | _ => false

def Happening.isStop : Happening → Bool
  | stop => true
  | _ => false

def change (sv : Server) (happenings : List Happening) : Server :=
  let f (d : MemoryDevice) : Happening → MemoryDevice
    | .change g => g d
    | _ => d
  sv.withState { sv.outlet.state with device := happenings.foldl f sv.device }

structure Moment where
  time : Span
  happenings : List Happening

def chunks (now : Instant) (sv : Server) : List ReceivedChunk → Except EngineError Unit × Server
  | [] => (.ok (), sv)
  | c :: r =>
    match sv.chunk now c with
    | (.error e, sv) => (.error e, sv)
    | (.ok (), sv) => chunks now sv r

/-- The chunks of the periods that end before an instant, from the `n`-th on. -/
def periodsBefore (n : Nat) (time : Span) : List ReceivedChunk :=
  List.replicate ((time + Clock.chunkPeriod - 1) / Clock.chunkPeriod - n) { print := false }

/-- The chunks of an instant: that of a period ending just then, and one for a request to print. -/
def chunksAt (m : Moment) : List ReceivedChunk :=
  (if m.time % Clock.chunkPeriod = 0 then [{ print := false }] else [])
    ++ (if m.happenings.any Happening.isPrint then [{ print := true }] else [])

/-- For how many periods a run goes on when nothing happens any more. -/
def quietPeriods : Nat := 64

/-- Runs a server that receives nothing, with the first period ending at zero, until it is stopped or a stage
fails. The clock that facts are dated by stands still. The device goes on changing after the end. -/
def run (now : Instant) : (n : Nat) → Server → List Moment → Except EngineError Unit × Server
  | _, sv, [] => sv.chunks now (List.replicate quietPeriods { print := false })
  | n, sv, m :: r =>
    let after (sv : Server) : Server := r.foldl (fun sv m => sv.change m.happenings) sv
    match sv.chunks now (periodsBefore n m.time) with
    | (.error e, sv) => (.error e, after (sv.change m.happenings))
    | (.ok (), sv) =>
      match (sv.change m.happenings).chunks now (chunksAt m) with
      | (.error e, sv) => (.error e, after sv)
      | (.ok (), sv) =>
        if m.happenings.any Happening.isStop then (.ok (), after sv)
        else run now (m.time / Clock.chunkPeriod + 1) sv r

end Server

end MeshFacts
