import MeshFacts.Broadcast
import MeshFacts.Chunker
import MeshFacts.FactKey
import MeshFacts.Reader
import MeshFacts.Source

/-! # Reports
Documents that show values of the library to tools. Keys, addresses and networks are shown as texts, instants
and spans in milliseconds, and what is missing as null. An error is shown by the name of its cause and by
what it says, unless those are the words of somebody else. -/
namespace MeshFacts

class Report (α : Type) where
  report : α → Document

export Report (report)

def millis (t : Instant) : Document := .int (t / Clock.millisecond)

instance : Report Document := ⟨id⟩

instance : Report Bool := ⟨.bool⟩

instance : Report Nat := ⟨fun n => .int n⟩

instance : Report String := ⟨.str⟩

instance : Report Unit := ⟨fun _ => .null⟩

instance {α : Type} [Report α] : Report (Option α) := ⟨fun x => (x.map report).getD .null⟩

instance {α : Type} [Report α] : Report (List α) := ⟨fun xs => .arr (xs.map report)⟩

instance {ε α : Type} [Report ε] [Report α] : Report (Except ε α) where
  report
    | .ok x => report x
    | .error e => report e

instance : Report PublicKey := ⟨PublicKey.toDocument⟩

instance : Report SocketAddr := ⟨fun a => .str a.text⟩

instance : Report Net := ⟨fun n => .str n.text⟩

instance : Report TrustLevel := ⟨TrustLevel.toDocument⟩

instance : Report IpAddr where
  report ip := .obj [
    ("ip", .str ip.text), ("normalized", .str ip.normalize.text),
    ("link_local", .bool ip.isLinkLocal), ("global", .bool ip.isGlobalUnicast)]

def TrustLevel.details (l : TrustLevel) : Document := .obj [
  ("level", report l), ("json", report l),
  ("at_least", report (TrustLevel.all.filter fun m => decide (m ≤ l)).length)]

def Attribute.details (a : Attribute) : Document := .obj [
  ("name", .str a.text), ("byte", report a.byte.toNat), ("endpoint", .bool a.isEndpoint),
  ("allowed_cidr", .bool a.isAllowedIps), ("rank", report a.rank)]

def Net.details (n : Net) : Document := .obj [
  ("net", report n), ("normalized", report n.normalize), ("router", .bool n.isRouter),
  ("addr", report n.addr)]

def PublicKey.details (k : PublicKey) : Document := .obj [
  ("base64", report k), ("hex", .str k.hex), ("display", report k), ("debug", .str k.debug),
  ("json", .str (Json.render k.toDocument))]

def PublicKey.overlayDetails (k : PublicKey) : Document := .obj [
  ("address", .str k.overlayIp.text), ("net", report k.overlayNet),
  ("link_local", .bool k.overlayIp.isLinkLocal), ("global", .bool k.overlayIp.isGlobalUnicast)]

/-- The texts of a key pair, of which all but the first two may be shown to anybody. -/
def KeyPair.details (p : KeyPair) : Document :=
  let k := p.privateKey
  .obj [
    ("base64", .str k.base64), ("hex", .str (Hex.text k.bytes)), ("public", report p.publicKey),
    ("display", .str k.display), ("debug", .str k.debug), ("json", .str (Json.render k.toDocument)),
    ("pair_debug", .str p.debug), ("signer_debug", .str (Signer.ofPair p).debug)]

/-! ## Errors -/

def failure (name message : String) : Document := .obj [("error", .str name), ("message", .str message)]

def nameless (name : String) : Document := .obj [("error", .str name)]

instance : Report KeyError where
  report e := e.message |> failure (match e with
    | .length _ => "InvalidLength"
    | .base64 => "InvalidBase64"
    | .hex => "InvalidHex")

instance : Report AddressError where
  report e := e.message |> failure (match e with
    | .address _ => "InvalidAddress"
    | .network _ => "InvalidNetwork")

instance : Report TrustLevel.Unknown := ⟨fun e => failure "ParseTrustLevelError" e.message⟩

instance : Report FactError where
  report e := e.message |> failure (match e with
    | .truncatedHeader _ => "TruncatedHeader"
    | .truncatedBody .. => "TruncatedBody"
    | .invalidSubjectLength _ => "InvalidSubjectLength"
    | .unknownAttribute _ => "UnknownAttribute"
    | .invalidSubject .. => "InvalidSubject"
    | .invalidValue .. => "InvalidValue"
    | .invalidVarint => "InvalidVarint"
    | .nestedSignedGroup => "NestedSignedGroup"
    | .valueTooLong _ => "ValueTooLong"
    | .factTooLarge .. => "FactTooLarge")

instance : Report SignerError := ⟨fun e => failure "Verification" e.message⟩

instance : Report PacketError where
  report e := e.message |> failure (match e with
    | .malformed _ => "Malformed"
    | .trailingBytes _ => "TrailingBytes"
    | .notSignedGroup _ => "NotSignedGroup"
    | .wrongSource .. => "WrongSource"
    | .verification _ => "Verification")

instance : Report DeviceError where
  report e := match e with
    | .notFound _ => failure "NotFound" e.message
    | .permissionDenied _ => failure "PermissionDenied" e.message
    | .command _ => failure "Command" e.message
    | .parse _ => failure "Parse" e.message
    | .io => nameless "Io"

instance : Report EngineError where
  report e := match e with
    | .io => nameless "Io"
    | .device _ => failure "Device" e.message
    | .fact _ => failure "Fact" e.message
    | .noInterfaceIndex _ => failure "NoInterfaceIndex" e.message
    | .stage _ => failure "Stage" e.message

instance : Report ConfigError where
  report e := match e with
    | .fileRead _ => nameless "FileRead"
    | .toml _ => nameless "TomlParse"
    | .invalidValue .. => failure "InvalidValue" e.message
    | .validation _ => failure "Validation" e.message

/-! ## Facts, devices and peers -/

instance : Report Fact where
  report f := .obj [
    ("attr", .str f.kind.text), ("subject", report f.subject), ("value", .str f.value.text),
    ("expires", millis f.expires)]

instance : Report ReceivedFact where
  report r := .obj [("fact", report r.fact), ("source", report r.source), ("sender", report r.sender)]

instance : Report DevicePeer where
  report p := .obj [
    ("key", report p.publicKey), ("endpoint", report p.endpoint), ("allowed_ips", report p.allowedIps),
    ("handshake", report (p.lastHandshake.map millis)), ("keepalive", report p.keepalive)]

instance : Report DeviceState where
  report s := .obj [
    ("name", .str s.name), ("private", .str s.pair.privateKey.base64), ("public", report s.publicKey),
    ("port", report s.listenPort.toNat), ("peers", report s.peers)]

instance : Report PeerUpdate where
  report u := .obj [
    ("key", report u.publicKey), ("remove", .bool u.remove), ("update_only", .bool u.updateOnly),
    ("endpoint", report u.endpoint), ("replace", .bool u.replaceAllowedIps),
    ("allowed_ips", report u.allowedIps), ("noop", .bool u.isNoop)]

def Fact.details (f : Fact) (now : Instant) : Document := .obj [
  ("display", .str f.text), ("key", .str f.key.debug), ("len", report f.encodedLength),
  ("ttl", report (f.ttl now)), ("expired", .bool (f.isExpired now)), ("endpoint", report f.endpointAddr?),
  ("net", report f.allowedNet?), ("boot", report (f.bootId?.map Uuid.text))]

def PeerTable.details (t : PeerTable) (default : TrustLevel) (k : PublicKey) : Document := .obj [
  ("contains", .bool (t.contains k)), ("name", .str (t.name k)), ("trust", report (t.trust k default)),
  ("basic", .bool (t.isBasic k)), ("exchanger", .bool (t.isFactExchanger k)),
  ("allowed_ips", report (t.allowedIps k)), ("endpoints", report (t.endpoints k))]

/-- The constants of the exchange: spans, sizes of packets, and the longest life of a fact in seconds. -/
def Clock.details : Document := .obj [
  ("refresh", millis refreshWindow), ("min_alive", millis minAliveForDelete),
  ("min_still", millis minStillAliveForDelete), ("handshake", millis handshakeValidity),
  ("attempt", millis endpointAttempt), ("max_group", report Packing.maxGroupLength),
  ("overhead", report Packing.groupOverhead), ("safe", report Packing.safePayload),
  ("max_ttl", report (factTtl / second))]

def PeerState.reportAt (s : PeerState) (now : Instant) : Document := .obj [
  ("healthy", .bool s.healthy), ("handshake", report (s.lastHandshake.map millis)),
  ("alive", .bool (s.isAlive now)), ("alive_for", millis (s.aliveFor now)),
  ("still_alive_for", millis (s.stillAliveFor now)), ("boot", report (s.lastBootId.map Uuid.text)),
  ("rotate", .bool (s.timeForNextEndpoint now)), ("describe", .str (s.describe now))]

def PeerStates.reportAt (t : PeerStates) (now : Instant) : Document :=
  .arr (t.inOrder.map fun e => .obj [("key", report e.1), ("describe", .str (e.2.describe now))])

/-- The signer of a packet and the facts in it, if both can be read. -/
def Outgoing.contents? (o : Outgoing) (now : Instant) : Option (PublicKey × List Fact) := do
  let (f, _) ← (Fact.decode o.packet now).toOption
  let .signedGroup g := f.value | none
  return (f.subject, ← (g.parseInner now).toOption)

/-- All about a packet on its way: whom it is for and, if it can be read, whom it is from and what it says. -/
def Outgoing.details (o : Outgoing) (now : Instant) : Document :=
  let contents := match o.contents? now with
    | some (signer, facts) => [("from", report signer), ("facts", report facts)]
    | none => []
  .obj ([("to", report o.recipient), ("len", report o.packet.length)] ++ contents)

instance : Report Chunker.Dated where
  report d := .obj [
    ("at", millis d.time), ("print", .bool d.chunk.print),
    ("facts", report (d.chunk.facts.map fun r => r.fact.text))]

instance : Report Chunker.Trace where
  report t := .obj [("chunks", report t.chunks), ("ended", millis t.ended), ("result", .null)]

def Reader.Trace.reportAt (t : Reader.Trace) (now : Instant) : Document :=
  let fact (r : ReceivedFact) : Document := .obj [
    ("fact", .str r.fact.text), ("ttl", report (r.fact.ttl now)), ("sender", report r.sender),
    ("source", report r.source)]
  .obj [
    ("calls", .arr (t.asked.map fun (n : Span) => millis n)), ("received", .arr (t.facts.map fact)),
    ("ended", millis t.ended), ("result", .null)]

/-! ## Configuration -/

instance : Report PeerEntry where
  report e := .obj [
    ("name", report e.name), ("trust", report e.trust), ("allowed_ips", report e.allowedIps),
    ("endpoints", report e.endpoints), ("fact_exchanger", .bool e.factExchanger), ("basic", .bool e.basic)]

instance : Report PeerText where
  report p := .obj [
    ("public_key", .str p.publicKey), ("name", report p.name), ("trust", report p.trust),
    ("allowed_ips", report p.allowedIps), ("endpoints", report p.endpoints),
    ("fact_exchanger", report p.factExchanger), ("basic", report p.basic)]

instance : Report Layer where
  report l := .obj [
    ("iface", report l.iface), ("port", report l.port), ("router", report l.router),
    ("manage_peers", report l.managePeers), ("chatty", report l.chatty), ("debug", report l.debug),
    ("log_json", report l.logJson), ("peers", report l.peers)]

/-- A record with a field set, in place of any other field of that name. -/
def Document.withField (d : Document) (name : String) (value : Document) : Document :=
  match d with
  | obj fields => obj ((name, value) :: fields.filter (·.1 != name))
  | d => d

/-- Peers are shown in the order of their keys. -/
instance : Report PeerTable where
  report t :=
    let inOrder := t.entries.mergeSort fun a b => !(b.1 < a.1)
    .arr (inOrder.map fun e => (report e.2).withField "key" (report e.1))

instance : Report Config where
  report c := .obj [
    ("iface", .str c.iface), ("port", report c.port), ("router", report c.router),
    ("manage_peers", .bool c.managePeers), ("chatty", .bool c.chatty), ("debug", .bool c.debug),
    ("log_json", .bool c.logJson), ("peers", report c.peers)]

end MeshFacts
