import MeshFacts.Blank
import MeshFacts.Layer
import MeshFacts.Link

/-! # Configuration
What a layer comes to when all that it says makes sense: a name for the interface, a port that is one, and
peers whose keys, levels, networks and endpoints can be read, each of them once. -/
namespace MeshFacts

inductive ConfigError where
  | fileRead (path : String)
  | toml (path : String)
  | invalidValue (field reason : String)
  | validation (reason : String)
deriving DecidableEq, Repr

/-- What is wrong, without what the system or the format has to say of it. -/
def ConfigError.message : ConfigError → String
  | fileRead _ => "failed to read"
  | toml _ => "TOML parse error in"
  | invalidValue field reason => "invalid value for " ++ field ++ ": " ++ reason
  | validation reason => "validation error: " ++ reason

structure Config extends LinkConfig where
  debug : Bool
  logJson : Bool
deriving Inhabited

namespace Config

/-- Whether a text is a host, a colon and a port. -/
def isEndpoint (text : String) : Bool :=
  let rev := text.toList.reverse
  let port := (rev.takeWhile (· ≠ ':')).reverse
  match rev.dropWhile (· ≠ ':') with
  | ':' :: host => !host.isEmpty && (Numeral.unsigned? 65535 port).isSome
  | _ => false

def checkEndpoint (field text : String) : Except ConfigError String :=
  if isEndpoint text then .ok text
  else .error (.invalidValue field ("'" ++ text ++ "' is not host:port"))

def peer (index : Nat) (p : PeerText) : Except ConfigError (PublicKey × PeerEntry) := do
  let field (name : String) : String := "peers[" ++ toString index ++ "]." ++ name
  let key ← (PublicKey.ofBase64 p.publicKey).mapError fun e => .invalidValue (field "public_key") e.message
  let trust ← match p.trust with
    | none => .ok none
    | some t =>
      (some <$> TrustLevel.parse t).mapError fun e => .invalidValue (field "trust") e.message
  let allowedIps ← p.allowedIps.mapM fun n =>
    (Net.parse n).mapError fun e => .invalidValue (field "allowed_ips") e.message
  let endpoints ← p.endpoints.mapM (checkEndpoint (field "endpoints"))
  .ok (key, {
    name := p.name
    trust := trust
    allowedIps := allowedIps
    endpoints := endpoints
    factExchanger := p.factExchanger.getD true
    basic := p.basic.getD false })

def addPeers (index : Nat) (t : PeerTable) : List PeerText → Except ConfigError PeerTable
  | [] => .ok t
  | p :: r => do
    let (key, entry) ← peer index p
    if t.contains key then .error (.validation ("duplicate peer " ++ key.base64))
    else addPeers (index + 1) (t.insert key entry) r

/-- Of several things that are wrong the first is told: the interface, the port, then entry by entry. -/
def ofLayer (l : Layer) : Except ConfigError Config :=
  let iface := l.iface.getD ""
  if isBlankText iface.toList then .error (.validation "interface name must not be empty")
  else if l.port = some 0 then .error (.invalidValue "port" "must not be 0")
  else do
    let peers ← addPeers 0 .empty (l.peers.getD [])
    .ok {
      iface := iface
      port := l.port
      router := l.router
      managePeers := l.managePeers.getD true
      chatty := l.chatty.getD false
      peers := peers
      debug := l.debug.getD false
      logJson := l.logJson.getD false }

end Config

end MeshFacts
