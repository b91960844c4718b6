import MeshFacts.Fact
import MeshFacts.LengthVarint

/-! # Facts on the wire
    attribute, time to live, length of subject : one octet each
    length of value : one to four octets
    subject, value
The end of a fact's life travels as whole seconds from now. -/
namespace MeshFacts

namespace Value

def encode : Value → List UInt8
  | ipPort s => s.ip.bytes ++ bigEndian 2 s.port.toNat
  | ipNet n => n.addr.bytes ++ [UInt8.ofNat n.length]
  | empty => []
  | uuid id => id.bytes
  | signedGroup g => g.nonce.bytes ++ (g.tag.bytes ++ g.inner)

def encodedLength : Value → Nat
  | ipPort (.v4 ..) => 6
  | ipPort (.v6 ..) => 18
  | ipNet (.v4 ..) => 5
  | ipNet (.v6 ..) => 17
  | empty => 0
  | uuid _ => 16
  | signedGroup g => 40 + g.inner.length

/-- An address of the fourth family in four octets or of the sixth in sixteen. -/
def readIp (wide : Bool) (bytes : List UInt8) : IpAddr :=
  if wide then .v6 (BitVec.ofNat 128 (ofBigEndian bytes)) else .v4 (BitVec.ofNat 32 (ofBigEndian bytes))

def readIpPort (wide : Bool) (bytes : List UInt8) : Except ValueFault Value :=
  let width := if wide then 16 else 4
  if bytes.length ≠ width + 2 then .error (.width (width + 2) bytes.length)
  else .ok (ipPort (.ofIp (readIp wide (bytes.take width)) (UInt16.ofNat (ofBigEndian (bytes.drop width)))))

def readIpNet (wide : Bool) (bytes : List UInt8) : Except ValueFault Value :=
  let width := if wide then 16 else 4
  if bytes.length ≠ width + 1 then .error (.width (width + 1) bytes.length)
  else
    match Net.ofLength? (readIp wide (bytes.take width)) (ofBigEndian (bytes.drop width)) with
    | some n => .ok (ipNet n)
    | none => .error .netLength

def readGroup (bytes : List UInt8) : Except ValueFault Value :=
  match Octets.ofList? 24 (bytes.take 24), Octets.ofList? 16 ((bytes.drop 24).take 16) with
  | some nonce, some tag => .ok (signedGroup ⟨nonce, tag, bytes.drop 40⟩)
  | _, _ => .error (.tooShort 40 bytes.length)

/-- The value that an attribute has in these octets, all of which it must use. -/
def decode (a : Attribute) (bytes : List UInt8) : Except FactError Value :=
  match a with
  | .unknown => .error (.unknownAttribute a.byte)
  | .endpointV4 => (readIpPort false bytes).mapError (.invalidValue a)
  | .endpointV6 => (readIpPort true bytes).mapError (.invalidValue a)
  | .allowedIpsV4 => (readIpNet false bytes).mapError (.invalidValue a)
  | .allowedIpsV6 => (readIpNet true bytes).mapError (.invalidValue a)
  | .membership => if bytes.isEmpty then .ok empty else .error (.invalidValue a (.notEmpty bytes.length))
  | .alive =>
    match Octets.ofList? 16 bytes with
    | some id => .ok (uuid id)
    | none => .error (.invalidValue a (.width 16 bytes.length))
  | .signedGroup => (readGroup bytes).mapError (.invalidValue a)

end Value

namespace Fact

def encodedLength (f : Fact) : Nat :=
  3 + LengthVarint.width f.value.encodedLength + 32 + f.value.encodedLength

/-- Writes header, subject and value. Fails only if the value is too long for its length to be written, and
finds that out before it writes anything. -/
def write (f : Fact) (now : Instant) : Writer :=
  let length := f.value.encodedLength
  if length > LengthVarint.max then .fail (.valueTooLong length)
  else
    Writer.andThen (.put [f.kind.byte, UInt8.ofNat (f.ttl now), 32]) <|
      Writer.andThen (LengthVarint.write length) (.put (f.subject.bytes ++ f.value.encode))

def encode (f : Fact) (now : Instant) : Except FactError (List UInt8) := (f.write now).bytes

def readSubject (a : Attribute) (bytes : List UInt8) : Except FactError PublicKey :=
  if a = .unknown then .error (.unknownAttribute a.byte)
  else
    match Octets.ofList? 32 bytes with
    | some o => .ok ⟨o⟩
    | none => .error (.invalidSubject a bytes.length)

def decode (bytes : List UInt8) (now : Instant) : Except FactError (Fact × List UInt8) :=
  match bytes with
  | kind :: ttl :: subjectLength :: rest@(_ :: _) =>
    match Attribute.ofByte? kind with
    | none => .error (.unknownAttribute kind)
    | some a =>
      if subjectLength = 0 then .error (.invalidSubjectLength 0)
      else
        match LengthVarint.decode rest with
        | .error (.truncatedHeader _) => .error (.truncatedHeader bytes.length)
        | .error e => .error e
        | .ok (valueLength, width) =>
          let body := rest.drop width
          let subjectLength := subjectLength.toNat
          let needed := subjectLength + valueLength
          if body.length < needed then .error (.truncatedBody needed body.length)
          else do
            let subject ← readSubject a (body.take subjectLength)
            let value ← Value.decode a ((body.drop subjectLength).take valueLength)
            .ok (⟨a, subject, value, now + ttl.toNat * Clock.second⟩, body.drop needed)
  | _ => .error (.truncatedHeader bytes.length)

end Fact

/-- The facts of a group that end to end make up the octets. There is no group within a group. -/
def SignedGroup.parseBytes (fuel : Nat) (bytes : List UInt8) (now : Instant) :
    Except FactError (List Fact) :=
  match fuel, bytes with
  | _, [] => .ok []
  | 0, _ => .ok []
  | fuel + 1, bytes => do
    let (f, rest) ← Fact.decode bytes now
    if f.kind = .signedGroup then .error .nestedSignedGroup
    else do
      let fs ← parseBytes fuel rest now
      .ok (f :: fs)

def SignedGroup.parseInner (g : SignedGroup) (now : Instant) : Except FactError (List Fact) :=
  parseBytes g.inner.length g.inner now

end MeshFacts
