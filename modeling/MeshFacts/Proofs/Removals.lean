import MeshFacts.Proofs.PassUpdates
import MeshFacts.Proofs.Standing

/-! # Removals
Which peers a pass may remove, and when it may remove any. -/
namespace MeshFacts

namespace PeerTable

lemma mem_membershipSources {t : PeerTable} {k : PublicKey} :
    k ∈ t.membershipSources ↔ ∃ level, t.trust? k = some level ∧ .addPeer ≤ level := by
  have hkeys : k ∈ t.membershipSources ↔ ∃ e, t.find? k = some e ∧ introduces e = true := by
    simp only [membershipSources, Table.keys, Table.filter, List.mem_map, List.mem_filter,
      Table.find?_eq_some_iff]
    constructor
    · rintro ⟨⟨j, e⟩, ⟨he, hi⟩, rfl⟩
      exact ⟨e, he, hi⟩
    · rintro ⟨e, he, hi⟩
      exact ⟨(k, e), ⟨he, hi⟩, rfl⟩
  rw [hkeys]
  constructor
  · rintro ⟨e, he, hi⟩
    obtain ⟨level, hl, hle⟩ := (Option.any_eq_true _ _).mp hi
    exact ⟨level, by simp [trust?, he, hl], by simpa using hle⟩
  · rintro ⟨level, hl, hle⟩
    obtain ⟨e, he, ht⟩ := Option.bind_eq_some_iff.mp hl
    exact ⟨e, he, by simp [introduces, ht, hle]⟩

/-- Somebody is configured to introduce members. -/
def Introduces (t : PeerTable) : Prop := ∃ k level, t.trust? k = some level ∧ .addPeer ≤ level

lemma hasMembershipSources_iff {t : PeerTable} : t.hasMembershipSources = true ↔ t.Introduces := by
  simp only [hasMembershipSources, Bool.not_eq_true', List.isEmpty_eq_false_iff_exists_mem,
    mem_membershipSources, Introduces]

end PeerTable

namespace Reconcile
variable {l : Link} {peers : List DevicePeer} {chunk : FactChunk} {s : LinkState} {k : PublicKey}

/-- The calls that a pass adds to those on record. -/
def callsMade (l : Link) (chunk : FactChunk) (s : LinkState) : List (List PeerUpdate) :=
  (pass l chunk s).2.device.calls.drop s.device.calls.length

def removed (l : Link) (chunk : FactChunk) (s : LinkState) : List PublicKey :=
  ((callsMade l chunk s).flatten.filter PeerUpdate.remove).map PeerUpdate.publicKey

lemma callsMade_of_made {made : List PeerUpdate}
    (h : (pass l chunk s).2.device = made.foldl MemoryDevice.make s.device) :
    callsMade l chunk s = made.map ([·]) := by
  rw [callsMade, h, MemoryDevice.calls_foldl_make, List.drop_left]

lemma mem_removed_of_made {made : List PeerUpdate}
    (h : (pass l chunk s).2.device = made.foldl MemoryDevice.make s.device) :
    k ∈ removed l chunk s ↔ ∃ u ∈ made, u.remove = true ∧ u.publicKey = k := by
  have hflat : (callsMade l chunk s).flatten = made := by
    rw [callsMade_of_made h, ← List.flatMap_def, List.flatMap_singleton']
  simp only [removed, hflat, List.mem_map, List.mem_filter, and_assoc]

/-- Why nothing is lost if a peer goes: it is on the device and nobody vouches for it. -/
structure Removable (l : Link) (peers : List DevicePeer) (facts : List Fact) (k : PublicKey) : Prop where
  present : k ∈ peers.map DevicePeer.publicKey
  unconfigured : l.config.peers.contains k = false
  ne_self : k ≠ l.self
  unintroduced : ∀ f ∈ facts, f.subject = k → f.kind ≠ .membership
  no_router : ¬ l.config.peers.Introduces → ∀ p ∈ peers, p.publicKey = k → p.isRouter = false

/-- When a node may remove peers at all. -/
structure MayRemove (l : Link) (chunk : FactChunk) : Prop where
  manages : l.config.managePeers = true
  settled : l.started + Clock.factTtl ≤ chunk.now
  no_router : chunk.router = false
  selfTrust : l.selfTrust < .allowedIps

lemma mem_routers {p : DevicePeer} (hp : p ∈ peers) (hr : p.isRouter = true) :
    p.publicKey ∈ routers peers :=
  List.mem_map_of_mem (List.mem_filter.mpr ⟨hp, hr⟩)

lemma isAutomatic_iff : isAutomatic l = true ↔ ¬ l.config.peers.Introduces := by
  rw [← PeerTable.hasMembershipSources_iff]
  simp [isAutomatic]

lemma removable_of_mem_removals {facts : List Fact} (h : k ∈ removals l peers (plan l peers facts)) :
    Removable l peers facts k := by
  obtain ⟨hremove, hk⟩ := List.mem_filter.mp h
  simp only [Bool.and_eq_true, Bool.not_eq_true', List.any_eq_true, decide_eq_true_eq] at hk
  obtain ⟨⟨⟨p, hp, rfl⟩, hconfigured⟩, hrouter⟩ := hk
  have hinvalid := not_valid_of_mem_remove hremove
  rw [mem_valid_iff, not_or, not_or] at hinvalid
  obtain ⟨hself, -, hmember⟩ := hinvalid
  refine ⟨List.mem_map_of_mem (mem_localPeers hp), hconfigured, hself, ?_, ?_⟩
  · intro f hf hs hkind
    exact hmember ⟨f, hf, hs, hkind⟩
  · intro hnone q hq hkey
    by_contra hr
    have hmem : p.publicKey ∈ routers peers := hkey ▸ mem_routers hq (by simpa using hr)
    simp [isAutomatic_iff.mpr hnone, hmem] at hrouter

lemma mayRemove_settled (h : mayRemove l peers chunk s = true) : l.started + Clock.factTtl ≤ chunk.now := by
  simp only [mayRemove, Bool.and_eq_true, decide_eq_true_eq] at h
  exact (Clock.le_since_iff (by decide)).mp h.1.1.1

lemma Asked.of_removes {u : PeerUpdate} (h : Asked l peers chunk u) (hremove : u.remove = true) :
    MayRemove l chunk ∧ Removable l peers chunk.facts u.publicKey := by
  cases h with
  | change hp hvalid hself hu => rw [hu.remove] at hremove; cases hremove
  | addition => cases hremove
  | removal hk hmanage hmay =>
    have hgates := hmay
    simp only [mayRemove, Bool.and_eq_true, Bool.not_eq_true', decide_eq_true_eq] at hgates
    obtain ⟨⟨⟨-, hrouter⟩, htrust⟩, -⟩ := hgates
    exact ⟨⟨hmanage, mayRemove_settled hmay, hrouter, htrust⟩, removable_of_mem_removals hk⟩

/-- A pass removes only peers that nobody vouches for, and no peer goes from the device but by such a removal. -/
theorem removed_unprotected (l : Link) (chunk : FactChunk) (s : LinkState) :
    (∀ k ∈ removed l chunk s, MayRemove l chunk ∧ Removable l s.device.peers chunk.facts k) ∧
      ∀ k ∈ s.device.peers.map DevicePeer.publicKey,
        k ∉ (pass l chunk s).2.device.peers.map DevicePeer.publicKey → k ∈ removed l chunk s := by
  obtain ⟨made, hdevice, hasked⟩ := updatedBy_pass l chunk s
  refine ⟨?_, ?_⟩
  · intro k hk
    obtain ⟨u, hu, hremove, rfl⟩ := (mem_removed_of_made hdevice).mp hk
    exact (hasked u hu).of_removes hremove
  · intro k hk hgone
    by_contra hkept
    refine hgone ?_
    rw [hdevice, MemoryDevice.peers_foldl_make]
    refine DevicePeer.mem_keys_of_mem_foldl_applyTo hk fun u hu hremove heq => hkept ?_
    exact (mem_removed_of_made hdevice).mpr ⟨u, hu, hremove, heq⟩

/-- A peer that nobody introduced goes once the source has been alive for long enough. -/
theorem removed_unprotected_orphan :
    let authority : PublicKey := ⟨.ofNatLE 32 1⟩
    let orphan : PublicKey := ⟨.ofNatLE 32 2⟩
    let l : Link :=
      { config := { iface := "wg0", peers := .ofList [(authority, { trust := some .addPeer })] },
        self := ⟨.ofNatLE 32 3⟩, bootId := .zero 16, started := 0, resolve := fun _ => [] }
    let seen : DevicePeer :=
      { publicKey := authority, endpoint := some (.ofIp authority.overlayIp 5), lastHandshake := some 250000000000 }
    let s : LinkState :=
      { device := { state := ⟨"wg0", default, 51820, [seen, { publicKey := orphan }]⟩ },
        knowledge := (Knowledge.empty.note (.alive authority) authority 300000000000).2,
        states := .ofList [(authority, { observed := true, aliveSince := some 0 })] }
    let chunk : FactChunk := ⟨[], 260000000000, false, false⟩
    removed l chunk s = [orphan] ∧ MayRemove l chunk ∧ Removable l s.device.peers chunk.facts orphan := by
  intro authority orphan l seen s chunk
  have hremoved : removed l chunk s = [orphan] := by decide +kernel
  obtain ⟨hwhy, -⟩ := removed_unprotected l chunk s
  exact ⟨hremoved, hwhy orphan (by simp [hremoved])⟩

end Reconcile

end MeshFacts
