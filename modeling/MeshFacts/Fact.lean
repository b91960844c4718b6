import MeshFacts.AddressText
import MeshFacts.Clock
import MeshFacts.FactError
import MeshFacts.Key

/-! # Facts
A fact is a short-lived assertion about one peer. The constructors bring addresses and networks into normal
form; `new` takes any parts that suit each other. -/
namespace MeshFacts

abbrev Uuid := Octets 16

abbrev Nonce := Octets 24

abbrev Tag := Octets 16

/-- Lower-case hexadecimal digits in five groups. -/
def Uuid.text (id : Uuid) : String :=
  let part (i n : Nat) := Hex.text ((id.bytes.drop i).take n)
  part 0 4 ++ "-" ++ part 4 2 ++ "-" ++ part 6 2 ++ "-" ++ part 8 2 ++ "-" ++ part 10 6

/-- A batch of facts in their wire form, with the tag that authenticates it. -/
structure SignedGroup where
  nonce : Nonce
  tag : Tag
  inner : List UInt8
deriving DecidableEq, Repr, Inhabited

inductive Value where
  | ipPort (addr : SocketAddr)
  | ipNet (net : Net)
  | empty
  | uuid (id : Uuid)
  | signedGroup (group : SignedGroup)
deriving DecidableEq, Repr, Inhabited

structure Fact where
  kind : Attribute
  subject : PublicKey
  value : Value
  expires : Instant
deriving DecidableEq, Repr, Inhabited

namespace Value

def text : Value → String
  | ipPort a => a.text
  | ipNet n => n.text
  | empty => "-"
  | uuid id => Uuid.text id
  | signedGroup g => "<signed " ++ toString g.inner.length ++ " bytes>"

def endpointAttribute : IpAddr → Attribute
  | .v4 _ => .endpointV4
  | .v6 _ => .endpointV6

def allowedIpsAttribute : IpAddr → Attribute
  | .v4 _ => .allowedIpsV4
  | .v6 _ => .allowedIpsV6

/-- Whether the value is of the kind that the attribute tells of. -/
def check (v : Value) (a : Attribute) : Except FactError Unit :=
  let address (kind : IpAddr → Attribute) (ip : IpAddr) : Except FactError Unit :=
    if ip.normalize ≠ ip then .error (.invalidValue a .notNormalized)
    else if kind ip = a then .ok ()
    else .error (.invalidValue a .mismatch)
  match a, v with
  | .endpointV4, ipPort s => address endpointAttribute s.ip
  | .endpointV6, ipPort s => address endpointAttribute s.ip
  | .allowedIpsV4, ipNet n => address allowedIpsAttribute n.addr
  | .allowedIpsV6, ipNet n => address allowedIpsAttribute n.addr
  | .membership, empty => .ok ()
  | .alive, uuid _ => .ok ()
  | .signedGroup, signedGroup _ => .ok ()
  | _, _ => .error (.invalidValue a .mismatch)

end Value

namespace Fact

def new (kind : Attribute) (subject : PublicKey) (value : Value) (expires : Instant) :
    Except FactError Fact :=
  match value.check kind with
  | .ok () => .ok ⟨kind, subject, value, expires⟩
  | .error e => .error e

/-- Where a peer can be reached: the address in normal form, without a scope. -/
def endpoint (peer : PublicKey) (addr : SocketAddr) (expires : Instant) : Fact :=
  let ip := addr.ip.normalize
  ⟨Value.endpointAttribute ip, peer, .ipPort (.ofIp ip addr.port), expires⟩

/-- A network behind a peer, in normal form. -/
def allowedIps (peer : PublicKey) (net : Net) (expires : Instant) : Fact :=
  let net := net.normalize
  ⟨Value.allowedIpsAttribute net.addr, peer, .ipNet net, expires⟩

def membership (peer : PublicKey) (expires : Instant) : Fact := ⟨.membership, peer, .empty, expires⟩

/-- A peer runs, since the start that the identifier stands for. -/
def alive (peer : PublicKey) (bootId : Uuid) (expires : Instant) : Fact :=
  ⟨.alive, peer, .uuid bootId, expires⟩

def signedGroup (sender : PublicKey) (group : SignedGroup) (expires : Instant) : Fact :=
  ⟨.signedGroup, sender, .signedGroup group, expires⟩

def withExpires (f : Fact) (expires : Instant) : Fact := { f with expires := expires }

def isExpired (f : Fact) (now : Instant) : Bool := f.expires ≤ now

def endpointAddr? (f : Fact) : Option SocketAddr :=
  match f.value with
  | .ipPort a => if f.kind.isEndpoint then some a else none
  | _ => none

def allowedNet? (f : Fact) : Option Net :=
  match f.value with
  | .ipNet n => if f.kind.isAllowedIps then some n else none
  | _ => none

theorem allowedNet?_eq_some_iff_kind {f : Fact} {n : Net} :
    f.allowedNet? = some n ↔ f.kind.isAllowedIps = true ∧ f.value = .ipNet n := by
  unfold allowedNet?
  cases f.value <;> simp

def bootId? (f : Fact) : Option Uuid :=
  match f.value with
  | .uuid id => if f.kind = .alive then some id else none
  | _ => none

/-- Whole seconds until the fact expires, to the nearest one and as many as an octet holds. -/
def ttl (f : Fact) (now : Instant) : Nat :=
  min 255 ((Clock.since f.expires now / Clock.millisecond + 500) / 1000)

def text (f : Fact) : String := f.kind.text ++ ":" ++ f.subject.base64 ++ "=" ++ f.value.text

end Fact

end MeshFacts
