import MeshFacts.Fact
import MeshFacts.SealedTag
import MeshFacts.Table

/-! # Signing
Groups are authenticated between two peers under the secret that both share. A signer remembers the secrets
it has worked out; what it answers does not depend on them. -/
namespace MeshFacts

structure Signer where
  pair : KeyPair
  secrets : Table PublicKey (Octets 32)
  /-- Only secrets that are shared with their peers are remembered. -/
  secrets_eq {peer : PublicKey} {secret : Octets 32} (h : secrets.find? peer = some secret) :
    secret = pair.privateKey.sharedSecret peer

namespace Signer

def ofPair (pair : KeyPair) : Signer := ⟨pair, .empty, by simp⟩

instance : Inhabited Signer := ⟨ofPair default⟩

def publicKey (s : Signer) : PublicKey := s.pair.publicKey

def remember (s : Signer) (peer : PublicKey) (secret : Octets 32)
    (h : secret = s.pair.privateKey.sharedSecret peer) : Signer where
  pair := s.pair
  secrets := s.secrets.insert peer secret
  secrets_eq {other kept} hk := by
    rw [Table.find?_insert] at hk
    split at hk
    · rename_i he
      cases hk
      rw [h, he]
    · exact s.secrets_eq hk

/-- The secret shared with a peer, worked out once. -/
def secretFor (s : Signer) (peer : PublicKey) : Octets 32 × Signer :=
  match s.secrets.find? peer with
  | some secret => (secret, s)
  | none =>
    let secret := s.pair.privateKey.sharedSecret peer
    (secret, s.remember peer secret rfl)

@[simp] theorem secretFor_fst (s : Signer) (peer : PublicKey) :
    (s.secretFor peer).1 = s.pair.privateKey.sharedSecret peer := by
  cases h : s.secrets.find? peer with
  | none => simp [secretFor, h]
  | some secret => simp [secretFor, h, s.secrets_eq h]

@[simp] theorem pair_secretFor (s : Signer) (peer : PublicKey) : (s.secretFor peer).2.pair = s.pair := by
  cases h : s.secrets.find? peer <;> simp [secretFor, h, remember]

/-- The tag that authenticates data for a recipient under a nonce. -/
def signFor (s : Signer) (nonce : Nonce) (data : List UInt8) (recipient : PublicKey) : Tag × Signer :=
  let (secret, s) := s.secretFor recipient
  (SealedTag.sealTag secret nonce data, s)

/-- Whether data was signed by the sender for this signer. -/
def verifyFrom (s : Signer) (nonce : Nonce) (tag : Tag) (data : List UInt8) (sender : PublicKey) :
    Bool × Signer :=
  let (secret, s) := s.secretFor sender
  (SealedTag.opens secret nonce data tag, s)

@[simp] theorem signFor_fst (s : Signer) (nonce : Nonce) (data : List UInt8) (recipient : PublicKey) :
    (s.signFor nonce data recipient).1 =
      SealedTag.sealTag (s.pair.privateKey.sharedSecret recipient) nonce data := by
  simp [signFor]

@[simp] theorem pair_signFor (s : Signer) (nonce : Nonce) (data : List UInt8) (recipient : PublicKey) :
    (s.signFor nonce data recipient).2.pair = s.pair := by
  simp [signFor]

@[simp] theorem verifyFrom_fst (s : Signer) (nonce : Nonce) (tag : Tag) (data : List UInt8)
    (sender : PublicKey) :
    (s.verifyFrom nonce tag data sender).1 =
      SealedTag.opens (s.pair.privateKey.sharedSecret sender) nonce data tag := by
  simp [verifyFrom]

@[simp] theorem pair_verifyFrom (s : Signer) (nonce : Nonce) (tag : Tag) (data : List UInt8)
    (sender : PublicKey) : (s.verifyFrom nonce tag data sender).2.pair = s.pair := by
  simp [verifyFrom]

def debug (s : Signer) : String := "Signer \x7b public_key: " ++ s.publicKey.debug ++ ", .. \x7d"

end Signer

inductive SignerError where
  | verification
deriving DecidableEq, Repr

def SignerError.message : SignerError → String
  | verification => "signature verification failed"

/-- Where nonces come from: any stream of them. -/
class NonceSource where
  stream : Nat → Nonce

/-- Without another source nonces count up. -/
instance : NonceSource := ⟨.ofNatLE 24⟩

structure NonceSupply where
  [source : NonceSource]
  next : Nat

namespace NonceSupply

instance : Inhabited NonceSupply := ⟨⟨0⟩⟩

def draw (s : NonceSupply) : Nonce × NonceSupply := (s.source.stream s.next, { s with next := s.next + 1 })

end NonceSupply

end MeshFacts
