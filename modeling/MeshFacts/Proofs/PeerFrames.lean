import MeshFacts.Proofs.PassUpdates
import MeshFacts.Proofs.Standing

/-! # Peers in a pass
What a pass does for one peer concerns that peer alone: of every other peer the device, the history and the
knowledge stay the same. So what becomes of a peer in a pass is what its own step makes of it. -/
namespace MeshFacts

namespace SortedSet
variable {α : Type} [DecidableEq α] {octets : α → List UInt8}

lemma pairwise_insert (hinj : Function.Injective octets) (x : α) {xs : List α}
    (h : xs.Pairwise fun a b => octets a < octets b) :
    (insert octets x xs).Pairwise fun a b => octets a < octets b := by
  induction xs with
  | nil => simp [insert]
  | cons y xs ih =>
    rw [List.pairwise_cons] at h
    simp only [insert]
    split_ifs with he hlt
    · exact List.pairwise_cons.mpr h
    · refine List.pairwise_cons.mpr ⟨?_, List.pairwise_cons.mpr h⟩
      intro z hz
      rcases List.mem_cons.mp hz with rfl | hz
      · exact hlt
      · exact List.lt_trans hlt (h.1 z hz)
    · refine List.pairwise_cons.mpr ⟨?_, ih h.2⟩
      intro z hz
      rcases (mem_insert octets x z xs).mp hz with rfl | hz
      · by_contra hgt
        exact he (hinj (List.le_antisymm (List.not_lt.mp hgt) (List.not_lt.mp hlt)))
      · exact h.1 z hz

lemma nodup_ofList (hinj : Function.Injective octets) (xs : List α) : (ofList octets xs).Nodup := by
  have hsorted : (ofList octets xs).Pairwise fun a b => octets a < octets b := by
    induction xs with
    | nil => exact List.Pairwise.nil
    | cons x xs ih => exact pairwise_insert hinj x ih
  refine hsorted.imp ?_
  rintro a b hlt rfl
  exact List.lt_irrefl _ hlt

end SortedSet

structure LinkState.Same (k : PublicKey) (s t : LinkState) : Prop where
  entry : t.device.state.peer? k = s.device.state.peer? k
  history : t.states.find? k = s.states.find? k
  knows : ∀ key, t.knowledge.until? key k = s.knowledge.until? key k
  bootId : t.knowledge.bootId? k = s.knowledge.bootId? k

namespace LinkState.Same
variable {k : PublicKey} {s t r : LinkState}

lemma refl (k : PublicKey) (s : LinkState) : Same k s s := ⟨rfl, rfl, fun _ => rfl, rfl⟩

lemma trans (h : Same k s t) (h' : Same k t r) : Same k s r :=
  ⟨h'.entry.trans h.entry, h'.history.trans h.history, fun key => (h'.knows key).trans (h.knows key),
    h'.bootId.trans h.bootId⟩

lemma foldl {α : Type} {xs : List α} {f : LinkState → α → LinkState}
    (h : ∀ x ∈ xs, ∀ s, Same k s (f s x)) (s : LinkState) : Same k s (xs.foldl f s) := by
  induction xs generalizing s with
  | nil => exact refl k s
  | cons x xs ih => exact (h x (by simp) s).trans (ih (fun y hy => h y (by simp [hy])) (f s x))

/-- Steps for different peers come, for any one of them, to the step for that peer. -/
lemma foldl_at {α : Type} {key : α → PublicKey} {f : LinkState → α → LinkState}
    (hf : ∀ x s j, key x ≠ j → Same j s (f s x)) {xs : List α} (hd : (xs.map key).Nodup) {x : α} (hx : x ∈ xs)
    (s : LinkState) :
    ∃ before after, xs = before ++ x :: after ∧ Same (key x) s (before.foldl f s) ∧
      Same (key x) (f (before.foldl f s) x) (xs.foldl f s) := by
  obtain ⟨before, after, rfl⟩ := List.append_of_mem hx
  rw [List.map_append, List.map_cons, List.nodup_middle, List.nodup_cons, List.mem_append, not_or] at hd
  obtain ⟨⟨hbefore, hafter⟩, -⟩ := hd
  refine ⟨before, after, rfl, foldl (fun y hy t => ?_) s, ?_⟩
  · exact hf y t _ fun heq => hbefore (heq ▸ List.mem_map_of_mem hy)
  · rw [List.foldl_append, List.foldl_cons]
    refine foldl (fun y hy t => ?_) _
    exact hf y t _ fun heq => hafter (heq ▸ List.mem_map_of_mem hy)

lemma configure (l : Link) (s : LinkState) {u : PeerUpdate} (h : u.publicKey ≠ k) :
    Same k s (l.configure s u).2 := by
  rw [l.configure_snd]
  refine ⟨?_, rfl, fun _ => rfl, rfl⟩
  rcases s.device.configure_one l.config.iface u with he | he
  · rw [he]
    exact DevicePeer.find?_applyTo_of_ne h
  · rw [he]

end LinkState.Same

namespace Reconcile
variable {l : Link} {peers : List DevicePeer} {chunk : FactChunk} {s t : LinkState} {p : DevicePeer}
  {k : PublicKey}

lemma same_rotate (h : p.publicKey ≠ k) (facts : List Fact) (now : Instant) (s : LinkState) :
    s.Same k (rotate l p facts now s).2 := by
  unfold rotate PeerStates.nextEndpoint
  dsimp only
  split
  · split
    · rename_i he
      obtain ⟨-, rfl⟩ := Prod.mk.inj he
      exact ⟨rfl, by rw [Table.find?_insert, if_neg h.symm], fun _ => rfl, rfl⟩
    · rename_i he
      obtain ⟨-, rfl⟩ := Prod.mk.inj he
      refine ⟨rfl, by rw [Table.find?_insert, if_neg h.symm], fun key => ?_, rfl⟩
      have hne : (key, k) ≠ (FactKey.alive l.self, p.publicKey) := by simp [h.symm]
      exact (Table.find?_erase _ _ _).trans (if_neg hne)
  · exact .refl k s

lemma same_apply {u : PeerUpdate} (h : u.publicKey ≠ k) (s : LinkState) : s.Same k (apply l u s) := by
  unfold apply
  split_ifs
  · exact .refl k s
  · exact .configure l s h

lemma same_configurePeer (h : p.publicKey ≠ k) (facts : List Fact) (allow : Bool) (now : Instant)
    (s : LinkState) : s.Same k (configurePeer l p facts allow now s) := by
  have hkey := (netsUpdate_configures l s p facts allow now).publicKey
  exact (same_rotate h facts now s).trans (same_apply (by simpa [hkey] using h) _)

lemma same_removePeer {j : PublicKey} (h : j ≠ k) (s : LinkState) : s.Same k (removePeer l s j) := by
  have hs : s.Same k (l.configure s (removal j)).2 := .configure l s h
  unfold removePeer
  split
  · rename_i t ht
    rw [ht] at hs
    refine hs.trans ⟨rfl, ?_, fun key => ?_, ?_⟩
    · exact (Table.find?_erase _ _ _).trans (if_neg h.symm)
    · change ((t.knowledge.entries.filter _).find? (key, k)) = t.knowledge.entries.find? (key, k)
      rw [Table.find?_filter]
      cases t.knowledge.entries.find? (key, k) <;> simp [Option.filter, h.symm]
    · exact (Table.find?_erase _ _ _).trans (if_neg h.symm)
  · rename_i t ht
    rwa [ht] at hs

lemma same_addition {j : PublicKey} (h : j ≠ k) (s : LinkState) : s.Same k (l.configure s (addition j)).2 :=
  .configure l s h

lemma nodup_localPeers (peers : List DevicePeer) : ((localPeers peers).map DevicePeer.publicKey).Nodup := by
  have hsub : ∀ ks : List PublicKey, ((ks.filterMap fun k => peers.reverse.find? fun p => p.publicKey = k).map
      DevicePeer.publicKey).Sublist ks := by
    intro ks
    induction ks with
    | nil => exact List.Sublist.refl _
    | cons k ks ih =>
      rw [List.filterMap_cons]
      split
      · exact ih.cons k
      · rename_i p hp
        have hk : p.publicKey = k := by simpa using List.find?_some hp
        rw [List.map_cons, hk]
        exact ih.cons_cons k
  exact (SortedSet.nodup_ofList (fun _ _ h => PublicKey.bytes_injective h) _).sublist (hsub _)

lemma mem_keys_localPeers : k ∈ (localPeers peers).map DevicePeer.publicKey ↔ k ∈ peers.map DevicePeer.publicKey := by
  constructor
  · intro h
    obtain ⟨p, hp, rfl⟩ := List.mem_map.mp h
    exact List.mem_map_of_mem (mem_localPeers hp)
  · intro h
    obtain ⟨p, hp, rfl⟩ := List.mem_map.mp h
    obtain ⟨q, hq⟩ : ∃ q, peers.reverse.find? (fun q => q.publicKey = p.publicKey) = some q :=
      Option.isSome_iff_exists.mp (List.find?_isSome.mpr ⟨p, List.mem_reverse.mpr hp, by simp⟩)
    have hkey : q.publicKey = p.publicKey := by simpa using List.find?_some hq
    refine List.mem_map.mpr ⟨q, List.mem_filterMap.mpr ⟨p.publicKey, ?_, hq⟩, hkey⟩
    exact (SortedSet.mem_ofList _ _ _).mpr (List.mem_map_of_mem hp)

lemma mem_localPeers_of_mem (hd : (peers.map DevicePeer.publicKey).Nodup) (hp : p ∈ peers) :
    p ∈ localPeers peers := by
  obtain ⟨q, hq, hkey⟩ := List.mem_map.mp (mem_keys_localPeers.mpr (List.mem_map_of_mem hp))
  exact List.inj_on_of_nodup_map hd (mem_localPeers hq) hp hkey ▸ hq

/-- What becomes of a valid peer when all are configured is what its own configuration comes to. -/
lemma configurePeers_at (hp : p ∈ localPeers peers) (hv : p.publicKey ∈ (plan l peers chunk.facts).valid)
    (hself : p.publicKey ≠ l.self) (allow : Bool) (s : LinkState) :
    ∃ t, s.Same p.publicKey t ∧ s.UpdatedBy (fun _ => True) t ∧
      (configurePeer l p (factsAbout p.publicKey chunk.facts) allow chunk.now t).Same p.publicKey
        (configurePeers l (plan l peers chunk.facts) chunk.facts allow chunk.now s) := by
  have hd : (((plan l peers chunk.facts).localPeers.filter fun p =>
      p.publicKey ∈ (plan l peers chunk.facts).valid && p.publicKey ≠ l.self).map
        DevicePeer.publicKey).Nodup :=
    (nodup_localPeers peers).sublist (List.filter_sublist.map _)
  obtain ⟨before, after, -, hbefore, hafter⟩ := LinkState.Same.foldl_at
    (f := fun s p => configurePeer l p (factsAbout p.publicKey chunk.facts) allow chunk.now s)
    (fun p s j h => same_configurePeer h _ _ _ s) hd (List.mem_filter.mpr ⟨hp, by simp [hv, hself]⟩) s
  refine ⟨_, hbefore, .foldl (fun q _ t => ?_) s, hafter⟩
  exact updatedBy_configurePeer (fun _ _ => trivial) allow chunk.now t

lemma same_addPeers {plan : Plan} (h : k ∉ additions l plan) (s : LinkState) : s.Same k (addPeers l plan s) := by
  refine .foldl (fun j hj t => same_addition ?_ t) s
  rintro rfl
  exact h hj

lemma same_deletePeers (h : k ∉ removals l peers (plan l peers chunk.facts)) (s : LinkState) :
    s.Same k (deletePeers l peers (plan l peers chunk.facts) chunk s) := by
  unfold deletePeers
  split_ifs
  · refine .foldl (fun j hj t => same_removePeer ?_ t) s
    rintro rfl
    exact h hj
  · exact .refl k s

def sightings (l : Link) (peers : List DevicePeer) (k : PublicKey) : List DevicePeer :=
  (peers.filter fun p => p.publicKey ≠ l.self).filter fun p => p.publicKey = k

lemma sightings_eq_nil_iff : sightings l peers k = [] ↔ k ∉ peers.map DevicePeer.publicKey ∨ k = l.self := by
  simp only [sightings, List.filter_eq_nil_iff, List.mem_filter, decide_eq_true_eq, List.mem_map]
  constructor
  · intro h
    by_contra hne
    obtain ⟨⟨p, hp, rfl⟩, hself⟩ := by simpa [not_or] using hne
    exact h p ⟨hp, hself⟩ rfl
  · rintro h p ⟨hp, hself⟩ rfl
    rcases h with h | h
    · exact h ⟨p, hp, rfl⟩
    · exact hself h

lemma find?_observe (l : Link) (peers : List DevicePeer) (now : Instant) (s : LinkState) (k : PublicKey) :
    (observe l peers now s).states.find? k = (sightings l peers k).foldl
      (fun st p => some ((st.getD {}).update p (s.knowledge.aliveUntil? k) (s.knowledge.bootId? k) now))
      (s.states.find? k) := by
  unfold observe sightings
  dsimp only
  generalize s.states = states
  induction peers.filter (fun p => p.publicKey ≠ l.self) generalizing states with
  | nil => rfl
  | cons p ps ih =>
    rw [List.foldl_cons, ih, PeerStates.update, Table.find?_insert, List.filter_cons]
    by_cases h : p.publicKey = k
    · subst h
      simp [PeerStates.get]
    · simp [h, Ne.symm h]

lemma find?_observe_of_mem (hd : (peers.map DevicePeer.publicKey).Nodup) (hp : p ∈ peers)
    (hself : p.publicKey ≠ l.self) (now : Instant) (s : LinkState) :
    (observe l peers now s).states.find? p.publicKey = some ((s.states.get p.publicKey).update p
      (s.knowledge.aliveUntil? p.publicKey) (s.knowledge.bootId? p.publicKey) now) := by
  have honce : sightings l peers p.publicKey = [p] := by
    obtain ⟨before, after, rfl⟩ := List.append_of_mem hp
    rw [List.map_append, List.map_cons, List.nodup_middle, List.nodup_cons, List.mem_append, not_or] at hd
    obtain ⟨⟨hbefore, hafter⟩, -⟩ := hd
    have hcons : sightings l (p :: after) p.publicKey = p :: sightings l after p.publicKey := by
      simp [sightings, hself]
    have happend : sightings l (before ++ p :: after) p.publicKey =
        sightings l before p.publicKey ++ sightings l (p :: after) p.publicKey := by
      simp only [sightings, List.filter_append]
    rw [happend, hcons, sightings_eq_nil_iff.mpr (.inl hbefore), sightings_eq_nil_iff.mpr (.inl hafter),
      List.nil_append]
  rw [find?_observe, honce]
  rfl

lemma find?_retain (plan : Plan) (s : LinkState) (k : PublicKey) :
    (retain plan s).states.find? k = (s.states.find? k).filter fun _ =>
      k ∈ plan.subjects || k ∈ plan.valid || plan.localPeers.any fun d => d.publicKey = k := by
  unfold retain PeerStates.retain
  exact Table.find?_filter _ _ _

lemma find?_retain_of_mem (hp : p ∈ peers) (facts : List Fact) (s : LinkState) :
    (retain (plan l peers facts) s).states.find? p.publicKey = s.states.find? p.publicKey := by
  obtain ⟨q, hq, hkey⟩ := List.mem_map.mp (mem_keys_localPeers.mpr (List.mem_map_of_mem hp))
  have hview : ((plan l peers facts).localPeers.any fun d => d.publicKey = p.publicKey) = true :=
    List.any_eq_true.mpr ⟨q, hq, by simpa using hkey⟩
  rw [find?_retain, hview]
  cases s.states.find? p.publicKey <;> simp

/-- A pass up to where it configures peers: what it has seen of those in view. -/
def seen (l : Link) (peers : List DevicePeer) (chunk : FactChunk) (s : LinkState) : LinkState :=
  retain (plan l peers chunk.facts) (observe l peers chunk.now s)

def beforeRemovals (l : Link) (peers : List DevicePeer) (chunk : FactChunk) (s : LinkState) : LinkState :=
  let plan := plan l peers chunk.facts
  let allow := l.allowDeconfigure chunk.router
  let s := configurePeers l plan chunk.facts allow chunk.now (seen l peers chunk s)
  if l.config.managePeers && allow then addPeers l plan s else s

lemma passOn_eq (l : Link) (peers : List DevicePeer) (chunk : FactChunk) (s : LinkState) :
    passOn l peers chunk s = if l.config.managePeers
      then deletePeers l peers (plan l peers chunk.facts) chunk (beforeRemovals l peers chunk s)
      else beforeRemovals l peers chunk s := rfl

/-- Until it comes to removals a pass removes nothing. -/
lemma updatedBy_beforeRemovals (l : Link) (peers : List DevicePeer) (chunk : FactChunk) (s : LinkState) :
    s.UpdatedBy (fun u => u.remove = false) (beforeRemovals l peers chunk s) := by
  have hconfigured : s.UpdatedBy (fun u => u.remove = false) (configurePeers l (plan l peers chunk.facts)
      chunk.facts (l.allowDeconfigure chunk.router) chunk.now (seen l peers chunk s)) :=
    (LinkState.UpdatedBy.of_device_eq rfl).trans
      (.foldl (fun p _ t => updatedBy_configurePeer (fun _ hu => hu.remove) _ _ t) _)
  unfold beforeRemovals
  dsimp only
  split_ifs
  · refine hconfigured.trans (.foldl (fun k _ t => ?_) _)
    exact .configure l t rfl
  · exact hconfigured

lemma pass_of_read (h : s.device.read l.config.iface = .ok s.device.state) : pass l chunk s =
    (.ok (), passOn l s.device.peers chunk { s with cached := some s.device.state }) := by
  unfold pass Link.refresh
  rw [h]
  rfl

lemma pass_of_unread (h : ¬ s.device.read l.config.iface = .ok s.device.state) : (pass l chunk s).2 = s := by
  unfold pass Link.refresh
  cases hr : s.device.read l.config.iface with
  | error e => rfl
  | ok d =>
    unfold MemoryDevice.read at hr h
    split_ifs at hr h
    exact absurd rfl h

/-- Once it is configured, a valid peer keeps what it has to the end of the pass. -/
lemma same_afterConfiguring (hp : p ∈ peers) (hv : p.publicKey ∈ (plan l peers chunk.facts).valid)
    (s : LinkState) :
    (configurePeers l (plan l peers chunk.facts) chunk.facts (l.allowDeconfigure chunk.router) chunk.now
      (seen l peers chunk s)).Same p.publicKey (passOn l peers chunk s) := by
  have hadd : p.publicKey ∉ additions l (plan l peers chunk.facts) := by
    intro h
    obtain ⟨q, hq, hkey⟩ := List.mem_map.mp (mem_keys_localPeers.mpr (List.mem_map_of_mem hp))
    have hnew := (List.mem_filter.mp h).2
    simp only [Bool.and_eq_true, Bool.not_eq_true', List.any_eq_false, decide_eq_true_eq] at hnew
    exact hnew.1.2 q hq hkey
  have hremove : p.publicKey ∉ removals l peers (plan l peers chunk.facts) := fun h =>
    not_valid_of_mem_remove (List.mem_filter.mp h).1 hv
  have hbefore : (configurePeers l (plan l peers chunk.facts) chunk.facts (l.allowDeconfigure chunk.router)
      chunk.now (seen l peers chunk s)).Same p.publicKey (beforeRemovals l peers chunk s) := by
    unfold beforeRemovals
    dsimp only
    split_ifs
    · exact same_addPeers hadd _
    · exact .refl _ _
  rw [passOn_eq]
  split_ifs
  · exact hbefore.trans (same_deletePeers hremove _)
  · exact hbefore

end Reconcile

end MeshFacts
