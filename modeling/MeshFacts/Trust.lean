import MeshFacts.Device
import MeshFacts.Fact
import MeshFacts.Overlay
import MeshFacts.PeerTable

/-! # Trust
Whose facts are believed. An opinion tells which peers it knows and what level it gives to whoever speaks
from an address; whether a fact is accepted follows from the level and from whether its subject is
known. -/
namespace MeshFacts

/-- Whether a fact about a known or unknown subject may come from a source of this level. -/
def shouldAccept (a : Attribute) (known : Bool) (level : TrustLevel) : Bool :=
  match a with
  | .endpointV4 | .endpointV6 => TrustLevel.endpoint ≤ level
  | .allowedIpsV4 | .allowedIpsV6 =>
    if known then TrustLevel.allowedIps ≤ level else TrustLevel.addPeer ≤ level
  | .membership => TrustLevel.addPeer ≤ level
  | .unknown | .alive | .signedGroup => false

def DevicePeer.isRouter (p : DevicePeer) : Bool := p.allowedIps.any Net.isRouter

namespace DevicePeer

def isRouterIn (peers : List DevicePeer) (k : PublicKey) : Bool :=
  (peers.reverse.find? fun p => p.publicKey = k).any isRouter

def routersIn (peers : List DevicePeer) : List PublicKey :=
  (peers.map publicKey).eraseDups.filter (isRouterIn peers)

end DevicePeer

structure Opinion where
  knows : PublicKey → Bool
  /-- The level of whoever tells a fact from an address, if there is an opinion on it. -/
  level : Fact → IpAddr → Option TrustLevel

namespace Opinion

/-- Configured peers are known, and have their configured trust at their own addresses. -/
def ofTable (t : PeerTable) : Opinion where
  knows := t.contains
  level _ source :=
    (t.entries.find? fun e => e.2.trust.isSome && e.1.overlayIp == source).bind fun e => e.2.trust

/-- Device peers are known, and the routers among them may introduce peers. -/
def ofRouters (peers : List DevicePeer) : Opinion where
  knows k := peers.any fun p => p.publicKey = k
  level _ source :=
    if peers.any fun p => p.isRouter && p.publicKey.overlayIp == source then some .addPeer else none

/-- Device peers are known, and may tell of endpoints. -/
def ofAcquaintance (peers : List DevicePeer) : Opinion where
  knows k := peers.any fun p => p.publicKey = k
  level f source :=
    if f.kind.isEndpoint && peers.any fun p => p.publicKey.overlayIp == source then some .endpoint
    else none

/-- Always the same level, and at most one peer known. -/
def constant (level : Option TrustLevel) (known : Option PublicKey) : Opinion where
  knows k := known = some k
  level _ _ := level

/-- How several opinions are brought together: the first, the lowest or the highest level given. -/
inductive Mode where
  | first
  | least
  | most
deriving DecidableEq, Repr

def Mode.choose : Mode → List TrustLevel → Option TrustLevel
  | first, ls => ls.head?
  | least, [] => none
  | least, l :: ls => some (ls.foldl (fun a b => if a ≤ b then a else b) l)
  | most, [] => none
  | most, l :: ls => some (ls.foldl (fun a b => if b ≤ a then a else b) l)

/-- What any of the opinions knows is known; of the levels that they give one is chosen. -/
def combine (mode : Mode) (opinions : List Opinion) : Opinion where
  knows k := opinions.any fun o => o.knows k
  level f source := mode.choose (opinions.filterMap fun o => o.level f source)

/-- What facts are judged by: the configuration first, then routers, then acquaintance. -/
def standard (t : PeerTable) (peers : List DevicePeer) : Opinion :=
  combine .first [ofTable t, ofRouters peers, ofAcquaintance peers]

end Opinion

end MeshFacts
