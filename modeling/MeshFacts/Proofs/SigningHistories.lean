import MeshFacts.Proofs.Reflection

/-! # Histories of signers
A signer keeps the secrets that it has worked out. After any calls it has kept just the secrets that it shares with the
peers that were named in them, so each later call is answered as a signer answers that has kept none. -/
namespace MeshFacts.Signer

inductive Call where
  | sign (nonce : Nonce) (data : List UInt8) (recipient : PublicKey)
  | verify (nonce : Nonce) (tag : Tag) (data : List UInt8) (sender : PublicKey)

def Call.peer : Call → PublicKey
  | sign _ _ recipient => recipient
  | verify _ _ _ sender => sender

inductive Answer where
  | signature (nonce : Nonce) (tag : Tag)
  | verdict (accepted : Bool)
deriving DecidableEq, Repr

def answer (s : Signer) : Call → Answer × Signer
  | .sign nonce data recipient =>
    let (tag, s) := s.signFor nonce data recipient
    (.signature nonce tag, s)
  | .verify nonce tag data sender =>
    let (accepted, s) := s.verifyFrom nonce tag data sender
    (.verdict accepted, s)

def after (s : Signer) (calls : List Call) : Signer := calls.foldl (fun s c => (s.answer c).2) s

variable {s t : Signer} {c : Call} {calls : List Call} {k : PublicKey}

lemma find?_secretFor (s : Signer) (peer k : PublicKey) :
    (s.secretFor peer).2.secrets.find? k =
      if k = peer then some (s.pair.privateKey.sharedSecret peer) else s.secrets.find? k := by
  cases h : s.secrets.find? peer with
  | none => simp only [secretFor, h, remember, Table.find?_insert]
  | some secret =>
    simp only [secretFor, h]
    split_ifs with hk
    · rw [hk, h, s.secrets_eq h]
    · rfl

lemma after_append_singleton (s : Signer) (calls : List Call) (c : Call) :
    s.after (calls ++ [c]) = ((s.after calls).secretFor c.peer).2 := by
  rw [after, List.foldl_append]
  cases c <;> rfl

lemma answer_congr (h : s.pair = t.pair) (c : Call) : (s.answer c).1 = (t.answer c).1 := by
  cases c with
  | sign nonce data recipient => simp only [answer, signFor, secretFor_fst, h]
  | verify nonce tag data sender => simp only [answer, verifyFrom, secretFor_fst, h]

@[simp] lemma pair_after (s : Signer) (calls : List Call) : (s.after calls).pair = s.pair := by
  induction calls using List.reverseRecOn with
  | nil => rfl
  | append_singleton calls c ih => rw [after_append_singleton, pair_secretFor, ih]

lemma find?_after (s : Signer) (calls : List Call) (k : PublicKey) :
    (s.after calls).secrets.find? k =
      if k ∈ calls.map Call.peer then some (s.pair.privateKey.sharedSecret k) else s.secrets.find? k := by
  induction calls using List.reverseRecOn with
  | nil => rfl
  | append_singleton calls c ih =>
    rw [after_append_singleton, find?_secretFor, ih, pair_after]
    by_cases hk : k = c.peer
    · simp [hk]
    · simp [hk]

/-- What a signer answers does not depend on what it was asked before, and what it has kept are the secrets shared
with the peers named then. -/
theorem signing_without_history (a b : KeyPair) (h : (ofPair a).Agrees (ofPair b)) (before earlier : List Call) :
    (∀ nonce data, (((ofPair b).after earlier).verifyFrom nonce
        (((ofPair a).after before).signFor nonce data b.publicKey).1 data a.publicKey).1 = true) ∧
      (∀ c, (((ofPair a).after before).answer c).1 = ((ofPair a).answer c).1) ∧
      (∀ c, (((ofPair b).after earlier).answer c).1 = ((ofPair b).answer c).1) ∧
      (∀ k, ((ofPair a).after before).secrets.find? k =
        if k ∈ before.map Call.peer then some (a.privateKey.sharedSecret k) else none) ∧
      ∀ k, ((ofPair b).after earlier).secrets.find? k =
        if k ∈ earlier.map Call.peer then some (b.privateKey.sharedSecret k) else none := by
  refine ⟨fun nonce data => ?_, fun c => answer_congr (pair_after _ _) c, fun c => answer_congr (pair_after _ _) c,
    fun k => find?_after _ before k, fun k => find?_after _ earlier k⟩
  have hsecret : a.privateKey.sharedSecret b.publicKey = b.privateKey.sharedSecret a.publicKey := h
  rw [verifyFrom_fst, signFor_fst, pair_after, pair_after, SealedTag.opens_iff]
  exact congrArg (SealedTag.sealTag · nonce data) hsecret

/-- Two signers of which one has signed for a third before and the other has refused something. -/
theorem signing_without_history_pair :
    let a := KeyPair.ofPrivate ⟨.ofNatLE 32 8⟩
    let b := KeyPair.ofPrivate ⟨.ofNatLE 32 16⟩
    let before : List Call := [.sign (.zero 24) [1, 2] ⟨.zero 32⟩, .sign (.zero 24) [3] b.publicKey]
    let earlier : List Call := [.verify (.zero 24) (.zero 16) [5] a.publicKey]
    (ofPair a).Agrees (ofPair b) ∧
      ((ofPair b).answer (.verify (.zero 24) (.zero 16) [5] a.publicKey)).1 = .verdict false ∧
      (((ofPair b).after earlier).verifyFrom (.zero 24)
        (((ofPair a).after before).signFor (.zero 24) [1, 2] b.publicKey).1 [1, 2] a.publicKey).1 = true := by
  intro a b before earlier
  have h : (ofPair a).Agrees (ofPair b) := by decide +kernel
  exact ⟨h, by decide +kernel, (signing_without_history a b h before earlier).1 (.zero 24) [1, 2]⟩

end MeshFacts.Signer
