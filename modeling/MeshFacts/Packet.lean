import MeshFacts.Link

/-! # Packets
A packet is one signed group from the sender's own overlay address. Nothing else yields facts, and of what
is wrong with a packet the first thing in this order is told: its form, octets after it, its kind, its
source, its signature, the form of what is inside. -/
namespace MeshFacts

inductive PacketError where
  | malformed (cause : FactError)
  | trailingBytes (count : Nat)
  | notSignedGroup (kind : Attribute)
  | wrongSource (addr : IpAddr) (claimed : PublicKey)
  | verification (cause : SignerError)
deriving DecidableEq, Repr

namespace PacketError

def message : PacketError → String
  | malformed e => "malformed packet: " ++ e.message
  | trailingBytes n => toString n ++ " trailing bytes after fact"
  | notSignedGroup a => "top-level " ++ a.text ++ " fact is not a signed group"
  | wrongSource addr k => "packet from " ++ addr.text ++ " claims to be from " ++ k.base64
  | verification e => "signed group failed verification: " ++ e.message

/-- Whether somebody seems to pretend to be somebody else. -/
def isAuthFailure : PacketError → Bool
  | wrongSource .. | verification _ => true
  | _ => false

end PacketError

namespace Packet

/-- The facts of a packet, each with its sender and its source. -/
def unpack (packet : List UInt8) (source : SocketAddr) (signer : Signer) (now : Instant) :
    Except PacketError (List ReceivedFact) × Signer :=
  match Fact.decode packet now with
  | .error e => (.error (.malformed e), signer)
  | .ok (f, rest) =>
    if !rest.isEmpty then (.error (.trailingBytes rest.length), signer)
    else
      match f.value with
      | .signedGroup g =>
        if source.ip ≠ f.subject.overlayIp then (.error (.wrongSource source.ip f.subject), signer)
        else
          match signer.verifyFrom g.nonce g.tag g.inner f.subject with
          | (false, signer) => (.error (.verification .verification), signer)
          | (true, signer) =>
            match g.parseInner now with
            | .error e => (.error (.malformed e), signer)
            | .ok facts => (.ok (facts.map fun inner => ⟨inner, source, f.subject⟩), signer)
      | _ => (.error (.notSignedGroup f.kind), signer)

end Packet

end MeshFacts
