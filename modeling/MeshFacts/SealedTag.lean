import MeshFacts.ChaCha20
import MeshFacts.Poly1305

/-! # Sealed tags
Authenticated encryption with a twenty-four-octet nonce, of an empty text with associated data: all
that is left of it is the tag. Main statement: a tag opens exactly if it is the one that sealing gives. -/
namespace MeshFacts.SealedTag

def fill (length : Nat) : List UInt8 := List.replicate ((16 - length % 16) % 16) 0

/-- The authenticator's one-time key for a nonce. -/
def oneTimeKey (key : Octets 32) (nonce : Octets 24) : List UInt8 :=
  match Octets.ofList? 32 (ChaCha20.deriveKey key (nonce.bytes.take 16)) with
  | some derived => (ChaCha20.block derived 0 ([0, 0, 0, 0] ++ nonce.bytes.drop 16)).take 32
  | none => []

def sealTag (key : Octets 32) (nonce : Octets 24) (data : List UInt8) : Octets 16 :=
  Poly1305.authenticate (oneTimeKey key nonce)
    (data ++ fill data.length ++ littleEndian 8 data.length ++ littleEndian 8 0)

/-- Whether the tag is the one for this key, nonce and data. -/
def opens (key : Octets 32) (nonce : Octets 24) (data : List UInt8) (tag : Octets 16) : Bool :=
  tag == sealTag key nonce data

theorem opens_iff {key : Octets 32} {nonce : Octets 24} {data : List UInt8} {tag : Octets 16} :
    opens key nonce data tag = true ↔ tag = sealTag key nonce data := by
  simp [opens]

end MeshFacts.SealedTag
