import MeshFacts.Base64
import MeshFacts.Blank
import MeshFacts.Curve25519
import MeshFacts.Hex
import MeshFacts.Json

/-! # Keys
Public and private keys, their texts, and the secret that two key pairs share. A key is written in padded
base 64; the padding may be left out and blanks may stand around it when it is read. Texts made for
people and documents never show a private key. -/
namespace MeshFacts

/-- A peer's public point, which is also its name in the mesh. -/
structure PublicKey where
  octets : Octets 32
deriving DecidableEq, Repr, Inhabited

structure PrivateKey where
  octets : Octets 32
deriving DecidableEq, Inhabited

inductive KeyError where
  | length (actual : Nat)
  | base64
  | hex
deriving DecidableEq, Repr

def KeyError.message : KeyError → String
  | length n => "invalid key length: expected 32 bytes, got " ++ toString n
  | base64 => "invalid base64 encoding"
  | hex => "invalid hex encoding"

namespace KeyText

def ofBytes (bytes : List UInt8) : Except KeyError (Octets 32) :=
  match Octets.ofList? 32 bytes with
  | some o => .ok o
  | none => .error (.length bytes.length)

/-- Padded base 64, or else unpadded, between blanks. -/
def ofBase64 (text : String) : Except KeyError (Octets 32) :=
  let cs := trim text.toList
  match Base64.decode true cs <|> Base64.decode false cs with
  | some bytes => ofBytes bytes
  | none => .error .base64

def ofHex (text : String) : Except KeyError (Octets 32) :=
  match Hex.decode (trim text.toList) with
  | some bytes => ofBytes bytes
  | none => .error .hex

def base64 (o : Octets 32) : String := String.ofList (Base64.encode true o.bytes)

/-- What stands for a private key wherever it might be shown. -/
def hidden : String := "[REDACTED]"

end KeyText

namespace PublicKey

def ofBytes (bytes : List UInt8) : Except KeyError PublicKey := mk <$> KeyText.ofBytes bytes

def ofBase64 (text : String) : Except KeyError PublicKey := mk <$> KeyText.ofBase64 text

def ofHex (text : String) : Except KeyError PublicKey := mk <$> KeyText.ofHex text

def bytes (k : PublicKey) : List UInt8 := k.octets.bytes

def base64 (k : PublicKey) : String := KeyText.base64 k.octets

def hex (k : PublicKey) : String := Hex.text k.bytes

def debug (k : PublicKey) : String :=
  "WgPublicKey(" ++ Json.quote (String.ofList (k.base64.toList.take 8) ++ "...") ++ ")"

def toDocument (k : PublicKey) : Document := .str k.base64

def ofDocument? : Document → Option PublicKey
  | .str text => (ofBase64 text).toOption
  | _ => none

instance : LT PublicKey := ⟨fun a b => a.bytes < b.bytes⟩

instance (a b : PublicKey) : Decidable (a < b) := inferInstanceAs (Decidable (a.bytes < b.bytes))

theorem bytes_injective {a b : PublicKey} (h : a.bytes = b.bytes) : a = b := by
  cases a with
  | mk a => cases b with
    | mk b => cases a; cases b; simp_all [bytes]

end PublicKey

namespace PrivateKey

def ofBytes (bytes : List UInt8) : Except KeyError PrivateKey := mk <$> KeyText.ofBytes bytes

def ofBase64 (text : String) : Except KeyError PrivateKey := mk <$> KeyText.ofBase64 text

def ofHex (text : String) : Except KeyError PrivateKey := mk <$> KeyText.ofHex text

def bytes (k : PrivateKey) : List UInt8 := k.octets.bytes

def base64 (k : PrivateKey) : String := KeyText.base64 k.octets

def publicKey (k : PrivateKey) : PublicKey := ⟨Curve25519.publicPoint k.octets⟩

/-- What this key's owner and the owner of `peer` both can compute and nobody else. -/
def sharedSecret (k : PrivateKey) (peer : PublicKey) : Octets 32 :=
  Curve25519.agree k.octets peer.octets

def display (_ : PrivateKey) : String := KeyText.hidden

def debug (k : PrivateKey) : String :=
  "WgPrivateKey \x7b bytes: " ++ Json.quote k.display ++ " \x7d"

def toDocument (k : PrivateKey) : Document := .str k.display

def ofDocument? : Document → Option PrivateKey
  | .str text => (ofBase64 text).toOption
  | _ => none

end PrivateKey

/-- A private key with the public key that belongs to it. -/
structure KeyPair where
  privateKey : PrivateKey
  publicKey : PublicKey
  publicKey_eq : publicKey = privateKey.publicKey
deriving DecidableEq

namespace KeyPair

def ofPrivate (k : PrivateKey) : KeyPair := ⟨k, k.publicKey, rfl⟩

def ofBase64 (text : String) : Except KeyError KeyPair := ofPrivate <$> PrivateKey.ofBase64 text

instance : Inhabited KeyPair := ⟨ofPrivate default⟩

def debug (p : KeyPair) : String :=
  "WgKeyPair \x7b private: " ++ p.privateKey.debug ++ ", public: " ++ p.publicKey.debug ++ " \x7d"

end KeyPair

end MeshFacts
