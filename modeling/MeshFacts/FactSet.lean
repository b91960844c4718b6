import MeshFacts.LocalFacts
import MeshFacts.Trust

/-! # The fact set
Each chunk of received facts is judged, merged with the local facts into the facts held so far, and what
has ended is dropped. -/
namespace MeshFacts.Link

/-- Whether a received fact enters the fact set. That a peer is alive is only known of the peer, and never
told on. -/
def accepts (l : Link) (o : Opinion) (now : Instant) (r : ReceivedFact) : Bool :=
  r.fact.kind ≠ .alive && !r.fact.isExpired now &&
    match o.level r.fact r.source.ip with
    | some level => shouldAccept r.fact.kind (r.fact.subject = l.self || o.knows r.fact.subject) level
    | none => false

def noteReceived (k : Knowledge) (facts : List ReceivedFact) : Knowledge :=
  facts.foldl (fun k r => (k.received r.fact r.sender).2) k

/-- The facts held after a chunk: those from before, those accepted and the node's own, each once, without
what has ended. -/
def heldFacts (current accepted own : List Fact) (now : Instant) : List Fact :=
  (Fact.merge (current ++ accepted ++ own)).filter fun f => !f.isExpired now

/-- Processes a chunk. It fails only if the device cannot be read, and then changes nothing. -/
def process (l : Link) (interfaces : List NetInterface) (current : List Fact) (chunk : ReceivedChunk)
    (now : Instant) (s : LinkState) : Except DeviceError FactChunk × LinkState :=
  match l.refresh s with
  | (.error e, s) => (.error e, s)
  | (.ok device, s) =>
    let opinion := Opinion.standard l.config.peers device.peers
    let accepted := (chunk.facts.filter (l.accepts opinion now)).map ReceivedFact.fact
    let held := heldFacts current accepted (l.localFacts device interfaces now) now
    let knowledge := ((noteReceived s.knowledge chunk.facts).expire now).2
    (.ok ⟨held, now, l.isLocalRouter interfaces, chunk.print⟩, { s with knowledge := knowledge })

end MeshFacts.Link
