import MeshFacts.Link
import MeshFacts.SortedSet
import MeshFacts.Trust

/-! # Reconciliation
Bringing the device in line with the facts. A peer is valid if it is configured, is a member or is this
node; it is local if the device has it. Local valid peers are configured, valid peers that are not local
are added, and local peers that are not valid are removed, but only once this node can be sure of its
facts. What one peer's configuration comes to concerns that peer alone. -/
namespace MeshFacts

/-- Networks are ordered by family, then address, then length. -/
def Net.octets : Net → List UInt8
  | n@(.v4 ..) => 4 :: (n.addr.bytes ++ [UInt8.ofNat n.length])
  | n@(.v6 ..) => 6 :: (n.addr.bytes ++ [UInt8.ofNat n.length])

def Net.set (nets : List Net) : List Net := SortedSet.ofList Net.octets nets

def PublicKey.set (keys : List PublicKey) : List PublicKey := SortedSet.ofList PublicKey.bytes keys

namespace Reconcile

/-- What a pass makes of every peer in view. -/
structure Plan where
  /-- The peers that facts are about. -/
  subjects : List PublicKey
  /-- The peers on the device. -/
  localPeers : List DevicePeer
  valid : List PublicKey
  remove : List PublicKey
deriving Repr, Inhabited

def factsAbout (k : PublicKey) (facts : List Fact) : List Fact := facts.filter fun f => f.subject = k

def isMember (facts : List Fact) (k : PublicKey) : Bool :=
  (factsAbout k facts).any fun f => f.kind = .membership

/-- The last entry for each key, in the order of keys. -/
def localPeers (peers : List DevicePeer) : List DevicePeer :=
  (PublicKey.set (peers.map DevicePeer.publicKey)).filterMap fun k =>
    peers.reverse.find? fun p => p.publicKey = k

def plan (l : Link) (peers : List DevicePeer) (facts : List Fact) : Plan :=
  let subjects := PublicKey.set (facts.map Fact.subject)
  let here := localPeers peers
  let fixed := l.self :: l.config.peers.keys
  let members := subjects.filter fun k => k ∉ fixed && isMember facts k
  let strangers := subjects.filter fun k => k ∉ fixed && !isMember facts k
  let valid := fixed ++ members
  let unheard := (here.map DevicePeer.publicKey).filter fun k => k ∉ valid && k ∉ subjects
  ⟨subjects, here, valid, PublicKey.set (strangers ++ unheard)⟩

/-- Adds what is seen of each peer on the device to its history. -/
def observe (l : Link) (peers : List DevicePeer) (now : Instant) (s : LinkState) : LinkState :=
  let states := (peers.filter fun p => p.publicKey ≠ l.self).foldl
    (fun t p => t.update p (s.knowledge.aliveUntil? p.publicKey) (s.knowledge.bootId? p.publicKey) now)
    s.states
  { s with states := states }

/-- Forgets the history of peers that are out of view. -/
def retain (p : Plan) (s : LinkState) : LinkState :=
  let inView (k : PublicKey) : Bool :=
    k ∈ p.subjects || k ∈ p.valid || p.localPeers.any fun d => d.publicKey = k
  { s with states := (s.states.retain inView).2 }

/-- The networks a peer is to have: its overlay address, those that facts tell of and those configured. -/
def desiredNets (l : Link) (k : PublicKey) (facts : List Fact) : List Net :=
  Net.set (k.overlayNet :: facts.filterMap Fact.allowedNet? ++ l.config.peers.allowedIps k)

/-- The networks to change of a peer that works or not and can be reached or not. One that does both gets what it
is to have; one that does not work is cut back to its overlay address, or at least gets that. Nothing is taken
away unless that is allowed. -/
def netsChange (l : Link) (p : DevicePeer) (facts : List Fact) (allow works reached : Bool) : PeerUpdate :=
  let k := p.publicKey
  let update : PeerUpdate := { publicKey := k, updateOnly := true }
  let overlay := k.overlayNet
  if works then
    if reached then
      let desired := desiredNets l k facts
      if allow && p.allowedIps.any fun n => n ∉ desired then
        { update with replaceAllowedIps := true, allowedIps := desired }
      else { update with allowedIps := desired.filter fun n => n ∉ p.allowedIps }
    else update
  else if allow && (p.allowedIps.isEmpty || p.allowedIps.any fun n => n ≠ overlay) then
    { update with replaceAllowedIps := true, allowedIps := [overlay] }
  else if overlay ∉ p.allowedIps then { update with allowedIps := [overlay] }
  else update

/-- Whether a peer that works can be reached: it is alive for a while yet, or does not run the daemon. -/
def isReached (l : Link) (s : LinkState) (k : PublicKey) (now : Instant) : Bool :=
  s.knowledge.peerAlive k now (Clock.chunkPeriod / 2) || l.config.peers.isBasic k

def netsUpdate (l : Link) (s : LinkState) (p : DevicePeer) (facts : List Fact) (allow : Bool)
    (now : Instant) : PeerUpdate :=
  netsChange l p facts allow (s.states.isHealthy p.publicKey) (isReached l s p.publicKey now)

/-- Where a peer might be reached: endpoints told of first, then those configured, each once. -/
def endpointCandidates (l : Link) (k : PublicKey) (facts : List Fact) : List SocketAddr :=
  (facts.filterMap Fact.endpointAddr? ++ (l.config.peers.endpoints k).flatMap l.resolve).eraseDups

/-- Moves a peer that does not work to its next endpoint when the present one has had its time, and sees to it
that the peer is told again that this node is alive. -/
def rotate (l : Link) (p : DevicePeer) (facts : List Fact) (now : Instant) (s : LinkState) :
    Option SocketAddr × LinkState :=
  let k := p.publicKey
  if !s.states.isHealthy k && s.states.timeForNextEndpoint k now then
    match s.states.nextEndpoint k (endpointCandidates l k facts) now with
    | (none, states) => (none, { s with states := states })
    | (some e, states) =>
      (some e, { s with states := states, knowledge := (s.knowledge.forcePing l.self k).2 })
  else (none, s)

/-- Asks an update of the device if it changes anything. -/
def apply (l : Link) (u : PeerUpdate) (s : LinkState) : LinkState :=
  if u.isNoop then s else (l.configure s u).2

def configurePeer (l : Link) (p : DevicePeer) (facts : List Fact) (allow : Bool) (now : Instant)
    (s : LinkState) : LinkState :=
  let update := netsUpdate l s p facts allow now
  let (next, s) := rotate l p facts now s
  let endpoint := next.filter fun e => p.endpoint ≠ some e
  apply l { update with endpoint := endpoint } s

/-- Configures every local peer that is valid, apart from this node itself. -/
def configurePeers (l : Link) (plan : Plan) (facts : List Fact) (allow : Bool) (now : Instant)
    (s : LinkState) : LinkState :=
  (plan.localPeers.filter fun p => p.publicKey ∈ plan.valid && p.publicKey ≠ l.self).foldl
    (fun s p => configurePeer l p (factsAbout p.publicKey facts) allow now s) s

/-- The peers to add: those that facts are about, that are valid and not yet local. -/
def additions (l : Link) (plan : Plan) : List PublicKey :=
  plan.subjects.filter fun k =>
    k ≠ l.self && k ∈ plan.valid && !(plan.localPeers.any fun p => p.publicKey = k)
      && k ∉ plan.remove

/-- A new peer has its overlay address only. -/
def addition (k : PublicKey) : PeerUpdate := { publicKey := k, allowedIps := [k.overlayNet] }

def addPeers (l : Link) (plan : Plan) (s : LinkState) : LinkState :=
  (additions l plan).foldl (fun s k => (l.configure s (addition k)).2) s

def routers (peers : List DevicePeer) : List PublicKey :=
  (peers.filter DevicePeer.isRouter).map DevicePeer.publicKey

/-- Whether nobody is configured to introduce members, so that routers are taken for those who do. -/
def isAutomatic (l : Link) : Bool := !l.config.peers.hasMembershipSources

def removals (l : Link) (peers : List DevicePeer) (plan : Plan) : List PublicKey :=
  plan.remove.filter fun k =>
    (plan.localPeers.any fun p => p.publicKey = k) && !l.config.peers.contains k
      && !(isAutomatic l && k ∈ routers peers)

/-- Whose facts this node must have heard for long enough. -/
def sources (l : Link) (peers : List DevicePeer) : List PublicKey :=
  if isAutomatic l then routers peers else l.config.peers.membershipSources

/-- Whether a source works, has been alive for so long that all its facts must have come, and stays so. -/
def isComplete (s : PeerState) (now : Instant) : Bool :=
  s.healthy && Clock.minAliveForDelete ≤ s.aliveFor now
    && Clock.minStillAliveForDelete < s.stillAliveFor now

/-- Whether this node may remove peers now: it has been up for a fact's whole life, is no router, may not set
networks itself, and has a complete source. -/
def mayRemove (l : Link) (peers : List DevicePeer) (chunk : FactChunk) (s : LinkState) : Bool :=
  Clock.factTtl ≤ Clock.since chunk.now l.started && !chunk.router && l.selfTrust < .allowedIps
    && (sources l peers).any fun k => (s.states.find? k).any fun st => isComplete st chunk.now

def removal (k : PublicKey) : PeerUpdate := { publicKey := k, remove := true }

def removePeer (l : Link) (s : LinkState) (k : PublicKey) : LinkState :=
  match l.configure s (removal k) with
  | (true, s) => { s with states := s.states.erase k, knowledge := s.knowledge.forget k }
  | (false, s) => s

def deletePeers (l : Link) (peers : List DevicePeer) (plan : Plan) (chunk : FactChunk) (s : LinkState) :
    LinkState :=
  if mayRemove l peers chunk s then (removals l peers plan).foldl (removePeer l) s else s

/-- What a pass does once it has read the device. -/
def passOn (l : Link) (peers : List DevicePeer) (chunk : FactChunk) (s : LinkState) : LinkState :=
  let s := observe l peers chunk.now s
  let plan := plan l peers chunk.facts
  let s := retain plan s
  let allow := l.allowDeconfigure chunk.router
  let s := configurePeers l plan chunk.facts allow chunk.now s
  let s := if l.config.managePeers && allow then addPeers l plan s else s
  if l.config.managePeers then deletePeers l peers plan chunk s else s

/-- One pass. It fails only if the device cannot be read; what fails of a single peer is left to the next
pass. -/
def pass (l : Link) (chunk : FactChunk) (s : LinkState) : Except DeviceError Unit × LinkState :=
  match l.refresh s with
  | (.error e, s) => (.error e, s)
  | (.ok device, s) => (.ok (), passOn l device.peers chunk s)

end Reconcile

end MeshFacts
