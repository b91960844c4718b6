import MeshFacts.Proofs.DeviceUpdates
import MeshFacts.Reconcile

/-! # Updates of a pass
All that a pass does to the device is a row of single updates. Each of them changes a valid local peer, adds
a peer or removes one, and is made of the facts and the configuration of the peer that it is about. -/
namespace MeshFacts

namespace PeerState

lemma foldl_unusedLonger_mem (s : PeerState) (best : SocketAddr) (candidates : List SocketAddr) :
    candidates.foldl (fun best c => if s.unusedLonger c best then c else best) best ∈
      best :: candidates := by
  induction candidates generalizing best with
  | nil => simp
  | cons c cs ih =>
    rw [List.foldl_cons]
    rcases List.mem_cons.mp (ih (if s.unusedLonger c best then c else best)) with h | h
    · rw [h]
      split_ifs <;> simp
    · simp [h]

lemma mem_of_leastRecent? {s : PeerState} {candidates : List SocketAddr} {e : SocketAddr}
    (h : s.leastRecent? candidates = some e) : e ∈ candidates := by
  cases candidates with
  | nil => cases h
  | cons c cs =>
    rw [← Option.some.inj h]
    exact s.foldl_unusedLonger_mem c cs

end PeerState

namespace Reconcile
variable {l : Link} {peers : List DevicePeer} {chunk : FactChunk}

/-- A change of one peer that gives it nothing but networks it is to have and an endpoint it might be reached
at. -/
structure Configures (l : Link) (p : DevicePeer) (facts : List Fact) (u : PeerUpdate) : Prop where
  publicKey : u.publicKey = p.publicKey
  remove : u.remove = false
  updateOnly : u.updateOnly = true
  nets : ∀ net ∈ u.allowedIps, net ∈ desiredNets l p.publicKey facts
  endpoint : ∀ e, u.endpoint = some e → e ∈ endpointCandidates l p.publicKey facts

/-- The updates that a pass asks of the device. -/
inductive Asked (l : Link) (peers : List DevicePeer) (chunk : FactChunk) : PeerUpdate → Prop
  | change {p : DevicePeer} {u : PeerUpdate} (hp : p ∈ localPeers peers)
      (hvalid : p.publicKey ∈ (plan l peers chunk.facts).valid) (hself : p.publicKey ≠ l.self)
      (hu : Configures l p (factsAbout p.publicKey chunk.facts) u) : Asked l peers chunk u
  | addition {k : PublicKey} (hk : k ∈ additions l (plan l peers chunk.facts))
      (hmanage : l.config.managePeers = true) (hallow : l.allowDeconfigure chunk.router = true) :
      Asked l peers chunk (addition k)
  | removal {k : PublicKey} {s : LinkState} (hk : k ∈ removals l peers (plan l peers chunk.facts))
      (hmanage : l.config.managePeers = true) (hmay : mayRemove l peers chunk s = true) :
      Asked l peers chunk (removal k)

lemma overlayNet_mem_desiredNets (l : Link) (k : PublicKey) (facts : List Fact) :
    k.overlayNet ∈ desiredNets l k facts :=
  (SortedSet.mem_ofList _ _ _).mpr (by simp)

lemma netsUpdate_configures (l : Link) (s : LinkState) (p : DevicePeer) (facts : List Fact) (allow : Bool)
    (now : Instant) : Configures l p facts (netsUpdate l s p facts allow now) := by
  have ho := overlayNet_mem_desiredNets l p.publicKey facts
  unfold netsUpdate netsChange
  dsimp only
  split_ifs
  · exact ⟨rfl, rfl, rfl, fun net h => h, by simp⟩
  · exact ⟨rfl, rfl, rfl, fun net h => List.mem_of_mem_filter h, by simp⟩
  · exact ⟨rfl, rfl, rfl, by simp, by simp⟩
  · exact ⟨rfl, rfl, rfl, by simpa using ho, by simp⟩
  · exact ⟨rfl, rfl, rfl, by simp, by simp⟩
  · exact ⟨rfl, rfl, rfl, by simpa using ho, by simp⟩

lemma rotate_spec (l : Link) (p : DevicePeer) (facts : List Fact) (now : Instant) (s : LinkState) :
    (rotate l p facts now s).2.device = s.device ∧
      ∀ e, (rotate l p facts now s).1 = some e → e ∈ endpointCandidates l p.publicKey facts := by
  unfold rotate
  dsimp only
  split
  · split
    · exact ⟨rfl, by simp⟩
    · rename_i e states he
      refine ⟨rfl, fun e' he' => ?_⟩
      obtain rfl : e = e' := Option.some.inj he'
      unfold PeerStates.nextEndpoint PeerState.nextEndpoint at he
      dsimp only at he
      split at he
      · cases he
      · rename_i best hbest
        cases he
        exact PeerState.mem_of_leastRecent? hbest
  · exact ⟨rfl, by simp⟩

lemma updatedBy_apply {P : PeerUpdate → Prop} {u : PeerUpdate} (hu : P u) (s : LinkState) :
    s.UpdatedBy P (apply l u s) := by
  unfold apply
  split_ifs
  · exact .of_device_eq rfl
  · exact .configure l s hu

lemma updatedBy_configurePeer {P : PeerUpdate → Prop} {p : DevicePeer} {facts : List Fact}
    (hP : ∀ u, Configures l p facts u → P u) (allow : Bool) (now : Instant) (s : LinkState) :
    s.UpdatedBy P (configurePeer l p facts allow now s) := by
  obtain ⟨hd, he⟩ := rotate_spec l p facts now s
  have hn := netsUpdate_configures l s p facts allow now
  have hu := hP { netsUpdate l s p facts allow now with
    endpoint := (rotate l p facts now s).1.filter fun e => p.endpoint ≠ some e }
    ⟨hn.publicKey, hn.remove, hn.updateOnly, hn.nets, fun e h => he e (Option.eq_some_of_filter_eq_some h)⟩
  exact (LinkState.UpdatedBy.of_device_eq hd).trans (updatedBy_apply hu _)

lemma updatedBy_configurePeers (allow : Bool) (s : LinkState) :
    s.UpdatedBy (Asked l peers chunk)
      (configurePeers l (plan l peers chunk.facts) chunk.facts allow chunk.now s) := by
  refine .foldl (fun p hp s => ?_) s
  obtain ⟨hp, hv⟩ := List.mem_filter.mp hp
  simp only [Bool.and_eq_true, decide_eq_true_eq] at hv
  exact updatedBy_configurePeer (fun u hu => .change hp hv.1 (by simpa using hv.2) hu) allow chunk.now s

lemma updatedBy_addPeers (hmanage : l.config.managePeers = true)
    (hallow : l.allowDeconfigure chunk.router = true) (s : LinkState) :
    s.UpdatedBy (Asked l peers chunk) (addPeers l (plan l peers chunk.facts) s) :=
  .foldl (fun _ hk s => .configure l s (.addition hk hmanage hallow)) s

lemma device_removePeer (l : Link) (s : LinkState) (k : PublicKey) :
    (removePeer l s k).device = (l.configure s (removal k)).2.device := by
  unfold removePeer
  split <;> simp [*]

lemma updatedBy_deletePeers (hmanage : l.config.managePeers = true) (s : LinkState) :
    s.UpdatedBy (Asked l peers chunk) (deletePeers l peers (plan l peers chunk.facts) chunk s) := by
  unfold deletePeers
  split_ifs with hmay
  · refine .foldl (fun k hk t => ?_) s
    have hu : t.UpdatedBy (Asked l peers chunk) (l.configure t (removal k)).2 :=
      .configure l t (.removal hk hmanage hmay)
    exact hu.trans (.of_device_eq (device_removePeer l t k))
  · exact .of_device_eq rfl

/-- Whatever a pass makes of the device it makes by the updates that it may ask. -/
theorem updatedBy_passOn (l : Link) (peers : List DevicePeer) (chunk : FactChunk) (s : LinkState) :
    s.UpdatedBy (Asked l peers chunk) (passOn l peers chunk s) := by
  have hseen : s.UpdatedBy (Asked l peers chunk)
      (retain (plan l peers chunk.facts) (observe l peers chunk.now s)) := .of_device_eq rfl
  have hchanged := hseen.trans (updatedBy_configurePeers (l.allowDeconfigure chunk.router) _)
  unfold passOn
  dsimp only
  by_cases hmanage : l.config.managePeers = true
  · rw [if_pos hmanage]
    refine LinkState.UpdatedBy.trans ?_ (updatedBy_deletePeers hmanage _)
    split_ifs with hallow
    · simp only [Bool.and_eq_true] at hallow
      exact hchanged.trans (updatedBy_addPeers hmanage hallow.2 _)
    · exact hchanged
  · simpa [hmanage] using hchanged

theorem updatedBy_pass (l : Link) (chunk : FactChunk) (s : LinkState) :
    s.UpdatedBy (Asked l s.device.peers chunk) (pass l chunk s).2 := by
  obtain ⟨hdevice, hread⟩ := l.refresh_spec s
  unfold pass
  cases hr : l.refresh s with
  | mk result t =>
    rw [hr] at hdevice hread
    cases result with
    | error e => exact .of_device_eq hdevice
    | ok d =>
      obtain rfl := hread d rfl
      exact (LinkState.UpdatedBy.of_device_eq hdevice).trans (updatedBy_passOn l s.device.peers chunk t)

lemma mem_localPeers {p : DevicePeer} (h : p ∈ localPeers peers) : p ∈ peers := by
  obtain ⟨j, -, hj⟩ := List.mem_filterMap.mp h
  exact List.mem_reverse.mp (List.mem_of_find?_eq_some hj)

lemma mem_factsAbout {k : PublicKey} {facts : List Fact} {f : Fact} :
    f ∈ factsAbout k facts ↔ f ∈ facts ∧ f.subject = k := by
  simp [factsAbout]

lemma mem_desiredNets {k : PublicKey} {facts : List Fact} {net : Net} :
    net ∈ desiredNets l k facts ↔
      net = k.overlayNet ∨ (∃ f ∈ facts, f.allowedNet? = some net) ∨ net ∈ l.config.peers.allowedIps k := by
  simp [desiredNets, Net.set, SortedSet.mem_ofList]

lemma mem_endpointCandidates {k : PublicKey} {facts : List Fact} {e : SocketAddr} :
    e ∈ endpointCandidates l k facts ↔ (∃ f ∈ facts, f.endpointAddr? = some e) ∨
      ∃ host ∈ l.config.peers.endpoints k, e ∈ l.resolve host := by
  simp [endpointCandidates, List.mem_eraseDups]

lemma isMember_iff {k : PublicKey} {facts : List Fact} :
    isMember facts k = true ↔ ∃ f ∈ facts, f.subject = k ∧ f.kind = .membership := by
  simp [isMember, mem_factsAbout, and_assoc]

lemma mem_valid_iff {k : PublicKey} {facts : List Fact} :
    k ∈ (plan l peers facts).valid ↔ k = l.self ∨ l.config.peers.contains k = true ∨
      ∃ f ∈ facts, f.subject = k ∧ f.kind = .membership := by
  rw [← Table.mem_keys_iff, ← isMember_iff]
  simp only [plan, List.mem_append, List.mem_cons, List.mem_filter, PublicKey.set, SortedSet.mem_ofList,
    List.mem_map, Bool.and_eq_true, decide_eq_true_eq]
  constructor
  · rintro ((h | h) | ⟨-, -, h⟩)
    · exact .inl h
    · exact .inr (.inl h)
    · exact .inr (.inr h)
  · rintro (h | h | h)
    · exact .inl (.inl h)
    · exact .inl (.inr h)
    · obtain ⟨f, hf, hs, -⟩ := isMember_iff.mp h
      by_cases hfixed : k = l.self ∨ k ∈ l.config.peers.keys
      · exact .inl hfixed
      · exact .inr ⟨⟨f, hf, hs⟩, hfixed, h⟩

lemma of_mem_additions {k : PublicKey} {facts : List Fact} (h : k ∈ additions l (plan l peers facts)) :
    k ≠ l.self ∧
      (l.config.peers.contains k = true ∨ ∃ f ∈ facts, f.subject = k ∧ f.kind = .membership) := by
  obtain ⟨-, h⟩ := List.mem_filter.mp h
  simp only [Bool.and_eq_true, decide_eq_true_eq] at h
  obtain ⟨⟨⟨hself, hvalid⟩, -⟩, -⟩ := h
  exact ⟨hself, (mem_valid_iff.mp hvalid).resolve_left hself⟩

lemma not_valid_of_mem_remove {k : PublicKey} {facts : List Fact} (h : k ∈ (plan l peers facts).remove) :
    k ∉ (plan l peers facts).valid := by
  have hm := (SortedSet.mem_ofList _ _ _).mp h
  rcases List.mem_append.mp hm with hm | hm
  · obtain ⟨-, hm⟩ := List.mem_filter.mp hm
    simp only [List.mem_cons, not_or, Bool.and_eq_true, decide_eq_true_eq, Bool.not_eq_true',
      ← Bool.not_eq_true, isMember_iff, Table.mem_keys_iff] at hm
    rw [mem_valid_iff, not_or, not_or]
    exact ⟨hm.1.1, hm.1.2, hm.2⟩
  · obtain ⟨-, hm⟩ := List.mem_filter.mp hm
    simp only [Bool.and_eq_true, decide_eq_true_eq] at hm
    exact hm.1

namespace Asked
variable {u : PeerUpdate}

lemma ne_self (h : Asked l peers chunk u) : u.publicKey ≠ l.self := by
  cases h with
  | change hp hvalid hself hu => exact hu.publicKey ▸ hself
  | addition hk => exact (of_mem_additions hk).1
  | removal hk =>
    intro hself
    exact not_valid_of_mem_remove (List.mem_filter.mp hk).1 (mem_valid_iff.mpr (.inl hself))

lemma of_adds (h : Asked l peers chunk u) (hremove : u.remove = false) (honly : u.updateOnly = false) :
    l.config.peers.contains u.publicKey = true ∨
      ∃ f ∈ chunk.facts, f.subject = u.publicKey ∧ f.kind = .membership := by
  cases h with
  | change hp hvalid hself hu => simp [hu.updateOnly] at honly
  | addition hk => exact (of_mem_additions hk).2
  | removal => cases hremove

lemma net_cases (h : Asked l peers chunk u) {net : Net} (hn : net ∈ u.allowedIps) :
    net = u.publicKey.overlayNet ∨ net ∈ l.config.peers.allowedIps u.publicKey ∨
      ∃ f ∈ chunk.facts, f.subject = u.publicKey ∧ f.allowedNet? = some net := by
  cases h with
  | change hp hvalid hself hu =>
    rw [hu.publicKey]
    rcases mem_desiredNets.mp (hu.nets net hn) with h | ⟨f, hf, hnet⟩ | h
    · exact .inl h
    · obtain ⟨hf, hs⟩ := mem_factsAbout.mp hf
      exact .inr (.inr ⟨f, hf, hs, hnet⟩)
    · exact .inr (.inl h)
  | addition => exact .inl (List.mem_singleton.mp hn)
  | removal => cases hn

lemma endpoint_cases (h : Asked l peers chunk u) {e : SocketAddr} (he : u.endpoint = some e) :
    (∃ host ∈ l.config.peers.endpoints u.publicKey, e ∈ l.resolve host) ∨
      ∃ f ∈ chunk.facts, f.subject = u.publicKey ∧ f.endpointAddr? = some e := by
  cases h with
  | change hp hvalid hself hu =>
    rw [hu.publicKey]
    rcases mem_endpointCandidates.mp (hu.endpoint e he) with ⟨f, hf, haddr⟩ | h
    · obtain ⟨hf, hs⟩ := mem_factsAbout.mp hf
      exact .inr ⟨f, hf, hs, haddr⟩
    · exact .inl h
  | addition => cases he
  | removal => cases he

end Asked

end Reconcile

end MeshFacts
