import MeshFacts.AddressText
import MeshFacts.Document
import MeshFacts.Key
import MeshFacts.Table
import MeshFacts.TrustLevel

/-! # Configured peers
What the configuration says of each peer. It is read by trust decisions and by reconciliation and never
changes while the daemon runs. -/
namespace MeshFacts

structure PeerEntry where
  name : Option String := none
  trust : Option TrustLevel := none
  allowedIps : List Net := []
  /-- Texts of host and port, resolved when an endpoint is needed. -/
  endpoints : List String := []
  /-- Whether the peer takes facts, unless it is basic. -/
  factExchanger : Bool := true
  /-- A basic peer does not run the daemon: it is configured and gets no facts. -/
  basic : Bool := false
deriving DecidableEq, Repr, Inhabited

namespace PeerEntry

def fieldNames : List String :=
  ["name", "trust", "allowed_ips", "endpoints", "fact_exchanger", "basic"]

def ofDocument? (d : Document) : Option PeerEntry := do
  match ← d.record? false fieldNames with
  | [name, trust, allowedIps, endpoints, factExchanger, basic] =>
    let net (d : Document) : Option Net := do Net.ofText? (← d.text?)
    some {
      name := ← Document.orDefault (Document.optional? Document.text?) none name
      trust := ← Document.orDefault (Document.optional? TrustLevel.ofDocument?) none trust
      allowedIps := ← Document.orDefault (Document.list? net) [] allowedIps
      endpoints := ← Document.orDefault (Document.list? Document.text?) [] endpoints
      factExchanger := ← Document.orDefault Document.bool? true factExchanger
      basic := ← Document.orDefault Document.bool? false basic }
  | _ => none

end PeerEntry

abbrev PeerTable := Table PublicKey PeerEntry

namespace PeerTable

/-- The configured name, or the key itself. -/
def name (t : PeerTable) (k : PublicKey) : String :=
  ((t.find? k).bind PeerEntry.name).getD k.base64

def trust? (t : PeerTable) (k : PublicKey) : Option TrustLevel := (t.find? k).bind PeerEntry.trust

def trust (t : PeerTable) (k : PublicKey) (default : TrustLevel) : TrustLevel :=
  (t.trust? k).getD default

def isBasic (t : PeerTable) (k : PublicKey) : Bool := (t.find? k).any PeerEntry.basic

/-- Peers that are not configured are taken to run the daemon. -/
def isFactExchanger (t : PeerTable) (k : PublicKey) : Bool :=
  (t.find? k).all fun e => e.factExchanger && !e.basic

def allowedIps (t : PeerTable) (k : PublicKey) : List Net :=
  ((t.find? k).map PeerEntry.allowedIps).getD []

def endpoints (t : PeerTable) (k : PublicKey) : List String :=
  ((t.find? k).map PeerEntry.endpoints).getD []

/-- Whether an entry makes its peer a source of members. -/
def introduces (e : PeerEntry) : Bool := e.trust.any fun l => TrustLevel.addPeer ≤ l

def membershipSources (t : PeerTable) : List PublicKey := (t.filter fun _ e => introduces e).keys

def hasMembershipSources (t : PeerTable) : Bool := !t.membershipSources.isEmpty

end PeerTable

end MeshFacts
