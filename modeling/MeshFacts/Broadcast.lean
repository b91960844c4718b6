import MeshFacts.Link

/-! # Broadcast
Telling each peer what it is about to forget. For each recipient the facts are selected and packed, the
packets are sent, and only when all of them went out is it noted that the peer knows the facts. -/
namespace MeshFacts

structure Outgoing where
  recipient : PublicKey
  packet : List UInt8
deriving DecidableEq, Repr, Inhabited

/-- Whether the next packet to a peer gets lost, given how many went to it before. -/
abbrev Failures := PublicKey → Nat → Bool

/-- Everything that a broadcast changes: besides the node's state its signer, its nonces and what it sent. -/
structure Outlet where
  state : LinkState
  signer : Signer
  nonces : NonceSupply
  sent : List Outgoing := []
deriving Inhabited

namespace Broadcast

/-- Whether a fact is told to a peer at all. Of itself a peer is only told how others reach it. -/
def concerns (peer : PublicKey) (now : Instant) (f : Fact) : Bool :=
  f.kind ≠ .alive && !f.isExpired now && (f.subject ≠ peer || f.kind.isEndpoint)

/-- Whether a peer must be told a fact again. -/
def isDue (k : Knowledge) (peer : PublicKey) (now : Instant) (f : Fact) : Bool :=
  k.peerNeeds peer f Clock.refreshWindow now && !k.peerKnows peer f Clock.chunkPeriod

/-- The last of the facts that say that this node is alive. -/
def ownAlive (self : PublicKey) (facts : List Fact) : Option Fact :=
  facts.reverse.find? fun f => f.kind = .alive && f.subject = self

def packAll (p : Packing) : List Fact → Except FactError Packing
  | [] => .ok p
  | f :: r => do packAll (← p.add f) r

/-- What a peer is told of a chunk, packed, and the facts packed in their order. That this node is alive is
told when the peer is about to forget it, and whenever it costs no packet of its own. -/
def select (l : Link) (k : Knowledge) (peer : PublicKey) (chunk : FactChunk) :
    Except FactError (Packing × List Fact) := do
  let due := chunk.facts.filter fun f =>
    concerns peer chunk.now f && isDue k peer chunk.now f
  let packing ← packAll (.forPackets chunk.now) due
  match ownAlive l.self chunk.facts with
  | none => .ok (packing, due)
  | some alive =>
    if k.peerKnows peer alive Clock.alivePeriod then
      match ← packing.addIfRoom alive with
      | (true, packing) => .ok (packing, due ++ [alive])
      | (false, packing) => .ok (packing, due)
    else .ok (← packing.add alive, due ++ [alive])

def sentTo (peer : PublicKey) (sent : List Outgoing) : Nat :=
  (sent.filter fun o => o.recipient = peer).length

def deliver (lost : Failures) (peer : PublicKey) (now : Instant) :
    List Fact → List Outgoing → Except EngineError Unit × List Outgoing
  | [], sent => (.ok (), sent)
  | f :: r, sent =>
    match f.encode now with
    | .error e => (.error (.fact e), sent)
    | .ok packet =>
      if lost peer (sentTo peer sent) then (.error .io, sent)
      else deliver lost peer now r (sent ++ [⟨peer, packet⟩])

def noteSent (k : Knowledge) (peer : PublicKey) (facts : List Fact) : Knowledge :=
  facts.foldl (fun k f => (k.sent peer f).2) k

/-- Tells one peer, and counts the packets. -/
def sendFacts (l : Link) (lost : Failures) (peer : PublicKey) (chunk : FactChunk) (o : Outlet) :
    Except EngineError Nat × Outlet :=
  match select l o.state.knowledge peer chunk with
  | .error e => (.error (.fact e), o)
  | .ok (packing, included) =>
    let (packets, signer, nonces) := packing.signedGroups o.signer o.nonces peer
    match deliver lost peer chunk.now packets o.sent with
    | (.error e, sent) => (.error e, { o with signer := signer, nonces := nonces, sent := sent })
    | (.ok (), sent) =>
      let knowledge := noteSent o.state.knowledge peer included
      (.ok packets.length,
        { state := { o.state with knowledge := knowledge }, signer := signer, nonces := nonces,
          sent := sent })

/-- The peers on the device, as last read, that take facts. -/
def recipients (l : Link) (s : LinkState) : List PublicKey :=
  match s.cached with
  | none => []
  | some d =>
    (d.peers.map DevicePeer.publicKey).filter fun k => k ≠ l.self && l.config.peers.isFactExchanger k

/-- Tells each recipient, and counts the packets of those that got all of theirs. -/
def sendAll (l : Link) (lost : Failures) (chunk : FactChunk) : List PublicKey → Outlet → Nat × Outlet
  | [], o => (0, o)
  | peer :: r, o =>
    let (result, o) := sendFacts l lost peer chunk o
    let (n, o) := sendAll l lost chunk r o
    ((match result with | .ok m => m | .error _ => 0) + n, o)

def run (l : Link) (lost : Failures) (chunk : FactChunk) (o : Outlet) : Nat × Outlet :=
  sendAll l lost chunk (recipients l o.state) o

end Broadcast

end MeshFacts
