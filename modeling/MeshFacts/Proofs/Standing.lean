import Mathlib
import MeshFacts.FactSet

/-! # Standing
The level of a sender follows from its key: its configured trust, or else what it is on the device. Facts are
judged by addresses; where no two keys share one, that comes to the same. -/
namespace MeshFacts

lemma Table.find?_eq_some_iff {κ α : Type} [DecidableEq κ] {t : Table κ α} {k : κ} {v : α} :
    t.find? k = some v ↔ (k, v) ∈ t.entries := by
  constructor
  · intro h
    obtain ⟨⟨j, w⟩, hf, rfl⟩ := Option.map_eq_some_iff.mp h
    obtain rfl : j = k := by simpa using List.find?_some hf
    exact List.mem_of_find?_eq_some hf
  · intro h
    obtain ⟨⟨j, w⟩, hf⟩ : ∃ e, t.entries.find? (fun e => e.1 = k) = some e :=
      Option.isSome_iff_exists.mp (List.find?_isSome.mpr ⟨(k, v), h, by simp⟩)
    obtain rfl : j = k := by simpa using List.find?_some hf
    have he := List.inj_on_of_nodup_map t.nodup (List.mem_of_find?_eq_some hf) h rfl
    simp only [find?, hf, Option.map_some, (Prod.mk.injEq _ _ _ _ ▸ he).2]

lemma Table.find?_filter {κ α : Type} [DecidableEq κ] (t : Table κ α) (p : κ → α → Bool) (k : κ) :
    (t.filter p).find? k = (t.find? k).filter (p k) := by
  ext v
  rw [find?_eq_some_iff, Option.filter_eq_some_iff, find?_eq_some_iff]
  exact List.mem_filter

namespace Opinion

/-- The level of a sender by what it is: configured, a router or a peer of the device. -/
def standing (t : PeerTable) (peers : List DevicePeer) (f : Fact) (sender : PublicKey) : Option TrustLevel :=
  t.trust? sender <|>
    if ∃ p ∈ peers, p.publicKey = sender ∧ p.isRouter = true then some .addPeer
    else if f.kind.isEndpoint = true ∧ ∃ p ∈ peers, p.publicKey = sender then some .endpoint
    else none

/-- No configured key and no key of the device but the sender's own has the sender's overlay address. -/
def Distinct (t : PeerTable) (peers : List DevicePeer) (sender : PublicKey) : Prop :=
  ∀ k ∈ t.keys ++ peers.map DevicePeer.publicKey, k.overlayIp = sender.overlayIp → k = sender

instance (t : PeerTable) (peers : List DevicePeer) (sender : PublicKey) : Decidable (Distinct t peers sender) :=
  inferInstanceAs (Decidable (∀ k ∈ _, _ → _))

variable {t : PeerTable} {peers : List DevicePeer} {sender : PublicKey}

lemma ofTable_level (hd : Distinct t peers sender) (f : Fact) :
    (ofTable t).level f sender.overlayIp = t.trust? sender := by
  simp only [ofTable]
  cases hf : t.entries.find? fun e => e.2.trust.isSome && e.1.overlayIp == sender.overlayIp with
  | some e =>
    obtain ⟨k, entry⟩ := e
    obtain ⟨-, haddr⟩ : entry.trust.isSome = true ∧ k.overlayIp = sender.overlayIp := by
      simpa using List.find?_some hf
    have hk := Table.find?_eq_some_iff.mpr (List.mem_of_find?_eq_some hf)
    have hkey : k ∈ t.keys := (t.mem_keys_iff k).mpr (by simp [Table.contains, hk])
    obtain rfl : k = sender := hd k (List.mem_append_left _ hkey) haddr
    simp [PeerTable.trust?, hk]
  | none =>
    cases hk : t.find? sender with
    | none => simp [PeerTable.trust?, hk]
    | some entry =>
      have hnone := List.find?_eq_none.mp hf _ (Table.find?_eq_some_iff.mp hk)
      simp only [beq_self_eq_true, Bool.and_true, Bool.not_eq_true, Option.isSome_eq_false_iff,
        Option.isNone_iff_eq_none] at hnone
      simp [PeerTable.trust?, hk, hnone]

lemma any_address_iff (hd : Distinct t peers sender) (a : DevicePeer → Bool) :
    (peers.any fun p => a p && p.publicKey.overlayIp == sender.overlayIp) = true ↔
      ∃ p ∈ peers, p.publicKey = sender ∧ a p = true := by
  simp only [List.any_eq_true, Bool.and_eq_true, beq_iff_eq]
  constructor
  · rintro ⟨p, hp, ha, haddr⟩
    have hkey : p.publicKey ∈ peers.map DevicePeer.publicKey := List.mem_map_of_mem hp
    exact ⟨p, hp, hd p.publicKey (List.mem_append_right _ hkey) haddr, ha⟩
  · rintro ⟨p, hp, rfl, ha⟩
    exact ⟨p, hp, ha, rfl⟩

lemma ofRouters_level (hd : Distinct t peers sender) (f : Fact) :
    (ofRouters peers).level f sender.overlayIp =
      if ∃ p ∈ peers, p.publicKey = sender ∧ p.isRouter = true then some .addPeer else none := by
  simp only [ofRouters, any_address_iff hd]

lemma ofAcquaintance_level (hd : Distinct t peers sender) (f : Fact) :
    (ofAcquaintance peers).level f sender.overlayIp =
      if f.kind.isEndpoint = true ∧ ∃ p ∈ peers, p.publicKey = sender then some .endpoint else none := by
  have h := any_address_iff hd fun _ => true
  simp only [Bool.true_and, and_true] at h
  simp only [ofAcquaintance, Bool.and_eq_true, h]

theorem standard_level (hd : Distinct t peers sender) (f : Fact) :
    (standard t peers).level f sender.overlayIp = standing t peers f sender := by
  simp only [standard, combine, List.filterMap_cons, List.filterMap_nil, ofTable_level hd, ofRouters_level hd,
    ofAcquaintance_level hd, standing]
  cases t.trust? sender with
  | some level => simp [Mode.choose]
  | none => split_ifs <;> simp [Mode.choose]

end Opinion

namespace Link

def Knows (l : Link) (peers : List DevicePeer) (k : PublicKey) : Prop :=
  k = l.self ∨ l.config.peers.contains k = true ∨ ∃ p ∈ peers, p.publicKey = k

instance (l : Link) (peers : List DevicePeer) (k : PublicKey) : Decidable (l.Knows peers k) :=
  inferInstanceAs (Decidable (_ ∨ _ ∨ _))

lemma knows_standard (l : Link) (peers : List DevicePeer) (k : PublicKey) :
    (k = l.self || (Opinion.standard l.config.peers peers).knows k) = decide (l.Knows peers k) := by
  rw [Bool.eq_iff_iff, decide_eq_true_iff]
  simp [Knows, Opinion.standard, Opinion.combine, Opinion.ofTable, Opinion.ofRouters, Opinion.ofAcquaintance]

/-- A fact from its sender's own address is accepted by the standing of the sender. -/
lemma accepts_iff {l : Link} {peers : List DevicePeer} {now : Instant} {r : ReceivedFact}
    (hs : r.source.ip = r.sender.overlayIp) (hd : Opinion.Distinct l.config.peers peers r.sender) :
    l.accepts (Opinion.standard l.config.peers peers) now r = true ↔
      r.fact.kind ≠ .alive ∧ now < r.fact.expires ∧
        ∃ level, Opinion.standing l.config.peers peers r.fact r.sender = some level ∧
          shouldAccept r.fact.kind (decide (l.Knows peers r.fact.subject)) level = true := by
  rw [accepts, hs, Opinion.standard_level hd, knows_standard]
  cases Opinion.standing l.config.peers peers r.fact r.sender with
  | none => simp
  | some level => simp [Fact.isExpired, and_assoc]

end Link

end MeshFacts
