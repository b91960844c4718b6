import MeshFacts.Document

/-! # Configuration layers
What one source says of the configuration. A layer leaves open what its source does not say, so that layers
can be put on top of each other. -/
namespace MeshFacts

/-- A peer as it is written in a configuration. -/
structure PeerText where
  publicKey : String := ""
  name : Option String := none
  trust : Option String := none
  allowedIps : List String := []
  endpoints : List String := []
  factExchanger : Option Bool := none
  basic : Option Bool := none
deriving DecidableEq, Repr, Inhabited

structure Layer where
  iface : Option String := none
  port : Option Nat := none
  router : Option Bool := none
  managePeers : Option Bool := none
  chatty : Option Bool := none
  debug : Option Bool := none
  logJson : Option Bool := none
  peers : Option (List PeerText) := none
deriving DecidableEq, Repr, Inhabited

namespace Layer

def empty : Layer := {}

/-- Puts a layer on top: what it says wins, the peers as a whole. -/
def merge (below above : Layer) : Layer where
  iface := above.iface <|> below.iface
  port := above.port <|> below.port
  router := above.router <|> below.router
  managePeers := above.managePeers <|> below.managePeers
  chatty := above.chatty <|> below.chatty
  debug := above.debug <|> below.debug
  logJson := above.logJson <|> below.logJson
  peers := above.peers <|> below.peers

theorem merge_empty (l : Layer) : l.merge empty = l := by
  cases l
  simp [merge, empty]

theorem empty_merge (l : Layer) : empty.merge l = l := by
  cases l
  simp [merge, empty]

theorem merge_assoc (a b c : Layer) : (a.merge b).merge c = a.merge (b.merge c) := by
  simp [merge, Option.or_assoc]

end Layer

def PeerText.fieldNames : List String :=
  ["public_key", "name", "trust", "allowed_ips", "endpoints", "fact_exchanger", "basic"]

def PeerText.ofDocument? (surplus : Bool) (d : Document) : Option PeerText := do
  match ← d.record? surplus fieldNames with
  | [publicKey, name, trust, allowedIps, endpoints, factExchanger, basic] =>
    let text := Document.optional? Document.text?
    let flag := Document.optional? Document.bool?
    let texts := Document.list? Document.text?
    some {
      publicKey := ← Document.orDefault Document.text? "" publicKey
      name := ← Document.orDefault text none name
      trust := ← Document.orDefault text none trust
      allowedIps := ← Document.orDefault texts [] allowedIps
      endpoints := ← Document.orDefault texts [] endpoints
      factExchanger := ← Document.orDefault flag none factExchanger
      basic := ← Document.orDefault flag none basic }
  | _ => none

def Layer.fieldNames : List String :=
  ["iface", "port", "router", "manage_peers", "chatty", "debug", "log_json", "peers"]

def Layer.ofDocument? (surplus : Bool) (d : Document) : Option Layer := do
  match ← d.record? surplus fieldNames with
  | [iface, port, router, managePeers, chatty, debug, logJson, peers] =>
    let flag := Document.optional? Document.bool?
    let peerTexts := Document.list? (PeerText.ofDocument? surplus)
    some {
      iface := ← Document.orDefault (Document.optional? Document.text?) none iface
      port := ← Document.orDefault (Document.optional? (Document.nat? 65535)) none port
      router := ← Document.orDefault flag none router
      managePeers := ← Document.orDefault flag none managePeers
      chatty := ← Document.orDefault flag none chatty
      debug := ← Document.orDefault flag none debug
      logJson := ← Document.orDefault flag none logJson
      peers := ← Document.orDefault (Document.optional? peerTexts) none peers }
  | _ => none

end MeshFacts
