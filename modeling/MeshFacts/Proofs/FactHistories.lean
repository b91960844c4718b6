import MeshFacts.Proofs.FactForms
import MeshFacts.Proofs.FactIdentity
import MeshFacts.Proofs.FactMerging

/-! # Histories of the fact set
A node holds after a chunk what it would hold if it merged all that it ever accepted or asserted at once and then
dropped what has ended. -/
namespace MeshFacts

/-- A chunk as it comes to be processed, with what the node finds by then. -/
structure Intake where
  chunk : ReceivedChunk
  interfaces : List NetInterface := []
  now : Instant
  state : LinkState

namespace Intake
variable {l : Link} {i j : Intake} {intakes others : List Intake} {f : Fact}

def accepted (l : Link) (device : DeviceState) (i : Intake) : List Fact :=
  (i.chunk.facts.filter (l.accepts (Opinion.standard l.config.peers device.peers) i.now)).map ReceivedFact.fact

/-- The facts of the chunk that are accepted, and those that the node asserts itself. -/
def brings (l : Link) (i : Intake) : List Fact :=
  match (l.refresh i.state).1 with
  | .error _ => []
  | .ok device => i.accepted l device ++ l.localFacts device i.interfaces i.now

def held (l : Link) (current : List Fact) (i : Intake) : List Fact :=
  match (l.process i.interfaces current i.chunk i.now i.state).1 with
  | .error _ => current
  | .ok chunk => chunk.facts

def heldAfter (l : Link) (intakes : List Intake) : List Fact := intakes.foldl (held l) []

def Reads (l : Link) (i : Intake) : Prop := ∃ device, (l.refresh i.state).1 = .ok device

/-- Two chunks hold the same facts in whatever order and number. -/
structure SameFacts (i j : Intake) : Prop where
  facts : ∀ r, r ∈ i.chunk.facts ↔ r ∈ j.chunk.facts
  interfaces : i.interfaces = j.interfaces
  now : i.now = j.now
  state : i.state = j.state

lemma heldAfter_append (l : Link) (intakes : List Intake) (i : Intake) :
    heldAfter l (intakes ++ [i]) = held l (heldAfter l intakes) i := by
  rw [heldAfter, List.foldl_append]
  rfl

lemma held_of_reads (h : i.Reads l) (current : List Fact) :
    held l current i = (Fact.merge (current ++ i.brings l)).filter fun f => !f.isExpired i.now := by
  obtain ⟨device, hread⟩ := h
  cases hr : l.refresh i.state with
  | mk result s =>
    rw [hr] at hread
    obtain rfl : result = .ok device := hread
    simp only [held, brings, accepted, Link.process, hr, Link.heldFacts, List.append_assoc]

lemma held_of_not_reads (h : ¬ i.Reads l) (current : List Fact) : held l current i = current := by
  cases hr : l.refresh i.state with
  | mk result s =>
    cases result with
    | error e => simp only [held, Link.process, hr]
    | ok device => exact absurd ⟨device, by rw [hr]⟩ h

lemma brings_of_not_reads (h : ¬ i.Reads l) : i.brings l = [] := by
  unfold brings
  split
  · rfl
  · rename_i device hread
    exact absurd ⟨device, hread⟩ h

/-- What a chunk brings is something to tell of a peer or that this node itself is alive, for as long as may be. -/
structure Brought (l : Link) (now : Instant) (f : Fact) : Prop where
  not_group : f.kind ≠ .signedGroup
  not_unknown : f.kind ≠ .unknown
  own_alive : f.kind = .alive → f = .alive l.self l.bootId (now + Clock.factTtl)

lemma brought_of_tells {now : Instant}
    (h : f.kind.isEndpoint = true ∨ f.kind.isAllowedIps = true ∨ f.kind = .membership) : Brought l now f := by
  refine ⟨?_, ?_, ?_⟩ <;> intro hk <;> simp [hk, Attribute.isEndpoint, Attribute.isAllowedIps] at h

lemma brought_of_accepts {o : Opinion} {now : Instant} {r : ReceivedFact} (h : l.accepts o now r = true) :
    Brought l now r.fact := by
  have hshould : ∃ known level, shouldAccept r.fact.kind known level = true := by
    simp only [Link.accepts, Bool.and_eq_true] at h
    obtain ⟨-, h⟩ := h
    split at h
    · exact ⟨_, _, h⟩
    · cases h
  obtain ⟨known, level, hshould⟩ := hshould
  refine ⟨?_, ?_, ?_⟩ <;> intro hk <;> simp [hk, shouldAccept] at hshould

lemma brought_of_mem_localFacts {device : DeviceState} {interfaces : List NetInterface} {now : Instant}
    (h : f ∈ l.localFacts device interfaces now) : Brought l now f := by
  have hendpoint : ∀ k e t, Brought l now (.endpoint k e t) := fun k e t =>
    brought_of_tells (.inl (Fact.isEndpoint_endpoint k e t))
  have hnet : ∀ k n t, Brought l now (.allowedIps k n t) := fun k n t =>
    brought_of_tells (.inr (.inl (Fact.isAllowedIps_allowedIps k n t)))
  simp only [Link.localFacts, List.mem_append, List.mem_singleton, or_assoc] at h
  rcases h with h | h | rfl | h | h
  · obtain ⟨iface, -, hf⟩ := List.mem_flatMap.mp h
    unfold Link.interfaceFacts at hf
    split_ifs at hf
    · obtain ⟨n, -, rfl⟩ := List.mem_map.mp hf
      exact hnet ..
    · obtain ⟨n, -, rfl⟩ := List.mem_map.mp hf
      exact hendpoint ..
  · obtain ⟨n, -, rfl⟩ := List.mem_map.mp h
    exact hnet ..
  · exact ⟨by simp [Fact.alive], by simp [Fact.alive], fun _ => rfl⟩
  · obtain ⟨p, -, hf⟩ := List.mem_filterMap.mp h
    unfold Link.workingEndpoint at hf
    split_ifs at hf
    obtain ⟨e, -, rfl⟩ := Option.map_eq_some_iff.mp hf
    exact hendpoint ..
  · obtain ⟨entry, -, hf⟩ := List.mem_flatMap.mp h
    rcases List.mem_cons.mp hf with rfl | hf
    · exact brought_of_tells (.inr (.inr rfl))
    · obtain ⟨n, -, rfl⟩ := List.mem_map.mp hf
      exact hnet ..

lemma brought_of_mem_brings (h : f ∈ i.brings l) : Brought l i.now f := by
  unfold brings at h
  split at h
  · cases h
  · rcases List.mem_append.mp h with h | h
    · obtain ⟨r, hr, rfl⟩ := List.mem_map.mp h
      exact brought_of_accepts (List.mem_filter.mp hr).2
    · exact brought_of_mem_localFacts h

lemma alive_mem_brings (h : i.Reads l) : .alive l.self l.bootId (i.now + Clock.factTtl) ∈ i.brings l := by
  obtain ⟨device, hread⟩ := h
  simp [brings, hread, Link.localFacts]

/-- One chunk: what is held follows from what was ever brought, where nothing has ended later. -/
lemma held_merge {fs : List Fact} {now : Instant} (h : i.Reads l) (hnow : now ≤ i.now) :
    held l ((Fact.merge fs).filter fun f => !f.isExpired now) i =
      (Fact.merge (fs ++ i.brings l)).filter fun f => !f.isExpired i.now := by
  rw [held_of_reads h]
  refine Fact.Ordered.eq_of_mem_iff ((Fact.ordered_merge _).filter _) ((Fact.ordered_merge _).filter _) fun f => ?_
  simp only [List.mem_filter, Fact.mem_merge_iff]
  refine and_congr_left fun hlive => Fact.latest_merge_filter_append ?_
  exact hnow.trans_lt (by simpa [Fact.isExpired] using hlive)

/-- What is held is what was ever brought, merged at once, without what had ended by some time. -/
lemma heldAfter_eq (htimes : intakes.Pairwise fun i j => i.now ≤ j.now) (hnow : ∀ i ∈ intakes, i.now ≤ j.now) :
    ∃ now ≤ j.now,
      heldAfter l intakes = (Fact.merge (intakes.flatMap (brings l))).filter fun f => !f.isExpired now := by
  induction intakes using List.reverseRecOn generalizing j with
  | nil => exact ⟨j.now, le_rfl, rfl⟩
  | append_singleton intakes i ih =>
    obtain ⟨hpast, -, hlast⟩ := List.pairwise_append.mp htimes
    obtain ⟨now, hle, heq⟩ := ih hpast fun x hx => hlast x hx i (by simp)
    have hi : i.now ≤ j.now := hnow i (by simp)
    rw [heldAfter_append, heq, List.flatMap_append, List.flatMap_singleton]
    by_cases h : i.Reads l
    · exact ⟨i.now, hi, held_merge h hle⟩
    · exact ⟨now, hle.trans hi, by rw [held_of_not_reads h, brings_of_not_reads h, List.append_nil]⟩

lemma SameFacts.mem_accepted (h : i.SameFacts j) (device : DeviceState) :
    f ∈ i.accepted l device ↔ f ∈ j.accepted l device := by
  simp only [accepted, List.mem_map, List.mem_filter, h.facts, h.now]

lemma SameFacts.latest_accepted (h : i.SameFacts j) (hsuits : ∀ r ∈ i.chunk.facts, r.fact.value.Suits r.fact.kind)
    (device : DeviceState) : Fact.Latest (i.accepted l device) f ↔ Fact.Latest (j.accepted l device) f := by
  have hread : ∀ f ∈ i.accepted l device, f.kind ≠ .alive ∧ f.value.Suits f.kind := by
    intro f hf
    obtain ⟨r, hr, rfl⟩ := List.mem_map.mp hf
    obtain ⟨hr, haccepts⟩ := List.mem_filter.mp hr
    exact ⟨fun hk => by simp [Link.accepts, hk] at haccepts, hsuits r hr⟩
  have hdetermined : ∀ f ∈ i.accepted l device, ∀ g ∈ i.accepted l device,
      f.key = g.key → f.expires = g.expires → f = g := fun f hf g hg hkey hexpires =>
    Fact.eq_of_key (hread f hf).2 (hread g hg).2 hkey hexpires fun halive => absurd halive (hread f hf).1
  rw [Fact.latest_iff_of_determined hdetermined, Fact.latest_iff_of_determined]
  · simp only [h.mem_accepted]
  · simpa only [h.mem_accepted] using hdetermined

lemma SameFacts.held_eq (h : i.SameFacts j) (hsuits : ∀ r ∈ i.chunk.facts, r.fact.value.Suits r.fact.kind)
    (current : List Fact) : held l current i = held l current j := by
  by_cases hi : i.Reads l
  · have hj : j.Reads l := by rwa [Reads, ← h.state]
    obtain ⟨device, hread⟩ := hi
    have hread' : (l.refresh j.state).1 = .ok device := h.state ▸ hread
    have hmerge : Fact.merge (current ++ i.brings l) = Fact.merge (current ++ j.brings l) := by
      simp only [brings, hread, hread', h.interfaces, h.now]
      exact Fact.merge_append_congr (fun f => h.mem_accepted device) fun f => h.latest_accepted hsuits device
    rw [held_of_reads ⟨device, hread⟩, held_of_reads hj, hmerge, h.now]
  · have hj : ¬ j.Reads l := by rwa [Reads, ← h.state]
    rw [held_of_not_reads hi, held_of_not_reads hj]

lemma SameFacts.foldl_held (h : List.Forall₂ SameFacts intakes others)
    (hsuits : ∀ i ∈ intakes, ∀ r ∈ i.chunk.facts, r.fact.value.Suits r.fact.kind) (current : List Fact) :
    others.foldl (held l) current = intakes.foldl (held l) current := by
  induction h generalizing current with
  | nil => rfl
  | cons hij _ ih =>
    obtain ⟨hi, hrest⟩ := List.forall_mem_cons.mp hsuits
    rw [List.foldl_cons, List.foldl_cons, hij.held_eq hi, ih hrest]

/-- What a node holds is all that it has ever accepted or asserted, merged at once, without what has ended. Of peers
being alive it holds its own word only, and the order and number of facts in a chunk make no difference. -/
theorem heldAfter_history (l : Link) (intakes : List Intake) (i : Intake)
    (htimes : (intakes ++ [i]).Pairwise fun i j => i.now ≤ j.now) :
    (i.Reads l → heldAfter l (intakes ++ [i]) =
        (Fact.merge ((intakes ++ [i]).flatMap (brings l))).filter fun f => !f.isExpired i.now) ∧
      (¬ i.Reads l → heldAfter l (intakes ++ [i]) = heldAfter l intakes) ∧
      (heldAfter l (intakes ++ [i])).Pairwise (fun f g => f.key < g.key) ∧
      ((heldAfter l (intakes ++ [i])).map Fact.key).Nodup ∧
      (∀ f ∈ heldAfter l (intakes ++ [i]), f.kind ≠ .signedGroup ∧ f.kind ≠ .unknown ∧
        (f.kind = .alive → f.subject = l.self ∧ f.value = .uuid l.bootId)) ∧
      (i.Reads l → .alive l.self l.bootId (i.now + Clock.factTtl) ∈ heldAfter l (intakes ++ [i])) ∧
      ∀ others, List.Forall₂ SameFacts (intakes ++ [i]) others →
        (∀ j ∈ intakes ++ [i], ∀ r ∈ j.chunk.facts, ∃ bytes now rest, Fact.decode bytes now = .ok (r.fact, rest)) →
        heldAfter l others = heldAfter l (intakes ++ [i]) := by
  obtain ⟨hpast, -, hlast⟩ := List.pairwise_append.mp htimes
  have hbefore : ∀ j ∈ intakes ++ [i], j.now ≤ i.now := by
    refine List.forall_mem_append.mpr ⟨fun j hj => hlast j hj i (by simp), ?_⟩
    exact List.forall_mem_singleton.mpr le_rfl
  have hreads : i.Reads l → heldAfter l (intakes ++ [i]) =
      (Fact.merge ((intakes ++ [i]).flatMap (brings l))).filter fun f => !f.isExpired i.now := by
    intro h
    obtain ⟨now, hle, heq⟩ := heldAfter_eq (l := l) hpast fun j hj => hbefore j (by simp [hj])
    rw [heldAfter_append, heq, held_merge h hle, List.flatMap_append, List.flatMap_singleton]
  obtain ⟨now, -, heq⟩ := heldAfter_eq (l := l) htimes hbefore
  have hordered : Fact.Ordered (heldAfter l (intakes ++ [i])) := heq ▸ (Fact.ordered_merge _).filter _
  have hbrought : ∀ f ∈ (intakes ++ [i]).flatMap (brings l), ∃ j ∈ intakes ++ [i], Brought l j.now f := by
    intro f hf
    obtain ⟨j, hj, hf⟩ := List.mem_flatMap.mp hf
    exact ⟨j, hj, brought_of_mem_brings hf⟩
  refine ⟨hreads, fun h => ?_, hordered, hordered.nodup_keys, fun f hf => ?_, fun h => ?_,
    fun others hothers hread => ?_⟩
  · rw [heldAfter_append, held_of_not_reads h]
  · rw [heq] at hf
    obtain ⟨j, -, hf⟩ := hbrought f (Fact.mem_of_mem_merge (List.mem_of_mem_filter hf))
    refine ⟨hf.not_group, hf.not_unknown, fun hk => ?_⟩
    rw [hf.own_alive hk]
    exact ⟨rfl, rfl⟩
  · rw [hreads h, List.mem_filter, Fact.mem_merge_iff]
    have hmem : Fact.alive l.self l.bootId (i.now + Clock.factTtl) ∈ (intakes ++ [i]).flatMap (brings l) :=
      List.mem_flatMap.mpr ⟨i, by simp, alive_mem_brings h⟩
    have hlatest : Fact.Latest ((intakes ++ [i]).flatMap (brings l))
        (Fact.alive l.self l.bootId (i.now + Clock.factTtl)) := by
      obtain ⟨g, hg, hkey, hle⟩ := Fact.exists_latest hmem
      obtain ⟨j, hj, hown⟩ := hbrought g hg.mem
      have hgj := hown.own_alive (congrArg FactKey.kind hkey)
      have hjnow : g.expires = j.now + Clock.factTtl := congrArg Fact.expires hgj
      have hnow : j.now = i.now := le_antisymm (hbefore j hj) (by simpa [Fact.alive, hjnow] using hle)
      exact hnow ▸ hgj ▸ hg
    refine ⟨hlatest, ?_⟩
    simp [Fact.isExpired, Fact.alive, Clock.factTtl, Clock.second]
  · refine SameFacts.foldl_held hothers (fun j hj r hr => ?_) []
    obtain ⟨bytes, now, rest, hdecode⟩ := hread j hj r hr
    exact (Fact.form_of_decode hdecode).2.1

/-- A hub tells of one member in two chunks and of another only in the first, which has ended by the second. -/
theorem heldAfter_history_hub :
    let hub : PublicKey := ⟨.ofNatLE 32 1⟩
    let peers : PeerTable := .ofList [(hub, { trust := some .addPeer })]
    let l : Link :=
      { config := { iface := "wg0", peers := peers }, self := ⟨.ofNatLE 32 2⟩, bootId := .zero 16, started := 0,
        resolve := fun _ => [] }
    let s : LinkState := { device := { state := ⟨"wg0", default, 51820, [{ publicKey := hub }]⟩ } }
    let member : Fact := .membership ⟨.ofNatLE 32 3⟩ 90000000000
    let passing : Fact := .membership ⟨.ofNatLE 32 4⟩ 50000000000
    let told : Fact → ReceivedFact := fun f => ⟨f, .ofIp hub.overlayIp 51821, hub⟩
    let first : List ReceivedFact := [told passing, told (member.withExpires 70000000000), told member]
    let second : ReceivedChunk := { facts := [told (member.withExpires 80000000000)] }
    let i : Intake := { chunk := second, now := 60000000000, state := s }
    let j : Intake := { chunk := { facts := first }, now := 0, state := s }
    let shuffled : Intake := { j with chunk := { facts := first.reverse ++ first } }
    member ∈ heldAfter l [j, i] ∧ (∀ f ∈ heldAfter l [j, i], f.key ≠ passing.key) ∧
      .alive l.self l.bootId 315000000000 ∈ heldAfter l [j, i] ∧ heldAfter l [shuffled, i] = heldAfter l [j, i] := by
  intro hub peers l s member passing told first second i j shuffled
  have hreads : i.Reads l := ⟨s.device.state, by decide +kernel⟩
  have hread : ∀ k ∈ [j] ++ [i], ∀ r ∈ k.chunk.facts, ∃ bytes now rest, Fact.decode bytes now = .ok (r.fact, rest) := by
    intro k hk r hr
    refine ⟨r.fact.formAt 0, 0, [], ?_⟩
    simp only [List.cons_append, List.nil_append, List.mem_cons, List.not_mem_nil, or_false] at hk
    rcases hk with rfl | rfl
    · simp only [j, first, List.mem_cons, List.not_mem_nil, or_false] at hr
      rcases hr with rfl | rfl | rfl <;> decide +kernel
    · obtain rfl := List.mem_singleton.mp hr
      decide +kernel
  have hsame : List.Forall₂ SameFacts ([j] ++ [i]) [shuffled, i] := by
    refine .cons ⟨fun r => ?_, rfl, rfl, rfl⟩ (.cons ⟨fun r => Iff.rfl, rfl, rfl, rfl⟩ .nil)
    simp [shuffled, j]
  obtain ⟨hheld, -, -, -, -, halive, hothers⟩ := heldAfter_history l [j] i (by decide +kernel)
  refine ⟨?_, ?_, halive hreads, hothers [shuffled, i] hsame hread⟩
  · exact hheld hreads ▸ (by decide +kernel)
  · exact hheld hreads ▸ (by decide +kernel)

end Intake

end MeshFacts
