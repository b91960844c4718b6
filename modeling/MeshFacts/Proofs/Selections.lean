import MeshFacts.Proofs.Delivery
import MeshFacts.Proofs.KnowledgeHistories

/-! # Selections
What is selected for a peer depends only on what the peer is taken to know. Whatever can be packed goes out in parts,
and once it is noted that the peer was told, nothing that was due is due any more. -/
namespace MeshFacts

namespace Knowledge
variable {k k' k'' : Knowledge} {peer : PublicKey} {f : Fact}

def AgreesOn (peer : PublicKey) (k k' : Knowledge) : Prop := ∀ key, k'.until? key peer = k.until? key peer

lemma AgreesOn.trans (h : k.AgreesOn peer k') (h' : k'.AgreesOn peer k'') : k.AgreesOn peer k'' :=
  fun key => (h' key).trans (h key)

lemma peerKnows_eq_true_iff {hysteresis : Span} : k.peerKnows peer f hysteresis = true ↔
    ∃ t, k.until? f.key peer = some t ∧ f.expires - hysteresis ≤ t := by
  simp [peerKnows, Option.any_eq_true]

end Knowledge

namespace Broadcast
variable {l : Link} {k k' : Knowledge} {peer other : PublicKey} {chunk : FactChunk} {facts included : List Fact}
  {f : Fact} {key : FactKey} {t : Instant} {packing : Packing}

lemma isDue_eq_false_iff {now : Instant} : isDue k peer now f = false ↔
    ∃ t, k.until? f.key peer = some t ∧ min (now + Clock.refreshWindow) (f.expires - Clock.chunkPeriod) ≤ t := by
  unfold isDue Knowledge.peerNeeds Knowledge.peerKnows
  cases k.until? f.key peer with
  | none => simp
  | some known =>
    have hpos : (0 : ℤ) ≤ (Clock.chunkPeriod : ℤ) := Int.natCast_nonneg _
    simp only [Option.any_some, Option.some.injEq, exists_eq_left', min_le_iff, Bool.and_eq_false_iff,
      Bool.not_eq_false', decide_eq_true_eq, decide_eq_false_iff_not]
    unfold Instant at *
    omega

def due (k : Knowledge) (peer : PublicKey) (chunk : FactChunk) : List Fact :=
  chunk.facts.filter fun f => concerns peer chunk.now f && isDue k peer chunk.now f

lemma mem_due_iff : f ∈ due k peer chunk ↔
    f ∈ chunk.facts ∧ concerns peer chunk.now f = true ∧ isDue k peer chunk.now f = true := by
  simp [due, List.mem_filter]

lemma holds_of_packAll {p q : Packing} {held : List Fact} (h : p.Holds held) (hpack : packAll p facts = .ok q) :
    q.Holds (held ++ facts) ∧ q.maxLength = p.maxLength ∧ q.now = p.now := by
  induction facts generalizing p held with
  | nil =>
    cases hpack
    exact ⟨by simpa using h, rfl, rfl⟩
  | cons f facts ih =>
    obtain ⟨r, hadd, hrest⟩ := bind_eq_ok_iff.mp hpack
    obtain ⟨hheld, hm, hn⟩ := h.of_add hadd
    obtain ⟨hall, hm', hn'⟩ := ih hheld hrest
    exact ⟨by simpa using hall, hm'.trans hm, hn'.trans hn⟩

/-- A selection holds what is due and, unless the peer knows it and there is no room, that this node is alive. -/
structure Selected (l : Link) (k : Knowledge) (peer : PublicKey) (chunk : FactChunk) (packing : Packing)
    (included : List Fact) : Prop where
  holds : packing.Holds included
  maxLength : packing.maxLength = Packing.maxGroupLength
  now : packing.now = chunk.now
  due : ∀ f ∈ due k peer chunk, f ∈ included
  told : ∀ f ∈ included, f ∈ Broadcast.due k peer chunk ∨ ownAlive l.self chunk.facts = some f
  alive : ∀ f, ownAlive l.self chunk.facts = some f → f ∈ included ∨ k.peerKnows peer f Clock.alivePeriod = true

theorem selected_of_select (h : select l k peer chunk = .ok (packing, included)) :
    Selected l k peer chunk packing included := by
  obtain ⟨p, hpack, h⟩ := bind_eq_ok_iff.mp h
  obtain ⟨hholds, hmax, hnow⟩ := holds_of_packAll (Packing.holds_empty _ _) hpack
  rw [List.nil_append] at hholds
  change p.Holds (due k peer chunk) at hholds
  cases ha : ownAlive l.self chunk.facts with
  | none =>
    rw [ha] at h
    cases h
    exact ⟨hholds, hmax, hnow, fun f hf => hf, fun f hf => .inl hf, by simp [ha]⟩
  | some alive =>
    rw [ha] at h
    have hwith : ∀ q : Packing, q.Holds (due k peer chunk ++ [alive]) ∧ q.maxLength = p.maxLength ∧ q.now = p.now →
        Selected l k peer chunk q (due k peer chunk ++ [alive]) := by
      rintro q ⟨hq, hqm, hqn⟩
      refine ⟨hq, hqm.trans hmax, hqn.trans hnow, fun f hf => by simp [hf], fun f hf => ?_, fun f hf => ?_⟩
      · rcases List.mem_append.mp hf with hf | hf
        · exact .inl hf
        · exact .inr (List.mem_singleton.mp hf ▸ ha)
      · rw [ha, Option.some_inj] at hf
        exact .inl (by simp [hf])
    dsimp only at h
    split_ifs at h with hknows
    · obtain ⟨⟨room, q⟩, hroom, hresult⟩ := bind_eq_ok_iff.mp h
      cases room with
      | true =>
        cases hresult
        exact hwith _ (hholds.of_addIfRoom hroom)
      | false =>
        obtain rfl := Packing.eq_of_addIfRoom hroom
        cases hresult
        refine ⟨hholds, hmax, hnow, fun f hf => hf, fun f hf => .inl hf, fun f hf => .inr ?_⟩
        rw [ha, Option.some_inj] at hf
        exact hf ▸ hknows
    · obtain ⟨q, hadd, h⟩ := bind_eq_ok_iff.mp h
      cases h
      exact hwith _ (hholds.of_add hadd)

lemma peerKnows_congr (h : k.AgreesOn peer k') (f : Fact) (hysteresis : Span) :
    k'.peerKnows peer f hysteresis = k.peerKnows peer f hysteresis := by
  simp only [Knowledge.peerKnows, h f.key]

lemma isDue_congr (h : k.AgreesOn peer k') (now : Instant) (f : Fact) : isDue k' peer now f = isDue k peer now f := by
  simp only [isDue, Knowledge.peerNeeds, Knowledge.peerKnows, h f.key]

/-- What is selected for a peer depends only on what this peer knows. -/
lemma select_congr (h : k.AgreesOn peer k') : select l k' peer chunk = select l k peer chunk := by
  simp only [select, isDue_congr h, peerKnows_congr h]

lemma until?_noteSent_of_ne (hne : other ≠ peer) (k : Knowledge) (facts : List Fact) :
    (noteSent k other facts).until? key peer = k.until? key peer := by
  induction facts generalizing k with
  | nil => rfl
  | cons f facts ih => exact (ih _).trans (Knowledge.until?_note_of_ne (by simp [hne.symm]) _ _)

lemma agreesOn_noteSent (h : k.AgreesOn peer k') (facts : List Fact) :
    (noteSent k peer facts).AgreesOn peer (noteSent k' peer facts) := by
  induction facts generalizing k k' with
  | nil => exact h
  | cons f facts ih =>
    refine ih fun key => ?_
    by_cases hkey : key = f.key
    · simp only [Knowledge.sent, hkey, Knowledge.until?_note_self, h f.key]
    · have hother : ¬ (key = f.key ∧ peer = peer) := fun h => hkey h.1
      simp only [Knowledge.sent, Knowledge.until?_note_of_ne hother, h key]

lemma le_until?_noteSent (h : k.until? key peer = some t) (facts : List Fact) :
    ∃ u, (noteSent k peer facts).until? key peer = some u ∧ t ≤ u := by
  induction facts generalizing k t with
  | nil => exact ⟨t, h, le_rfl⟩
  | cons f facts ih =>
    by_cases hkey : key = f.key
    · have hnote : (k.sent peer f).2.until? key peer = some (max f.expires t) := by
        rw [Knowledge.sent, hkey, Knowledge.until?_note_self, ← hkey, h, Option.elim_some]
      obtain ⟨u, hu, hle⟩ := ih hnote
      exact ⟨u, hu, (le_max_right _ _).trans hle⟩
    · exact ih ((Knowledge.until?_note_of_ne (by simp [hkey]) _ _).trans h)

lemma until?_noteSent_of_mem (h : f ∈ facts) (k : Knowledge) (peer : PublicKey) :
    ∃ u, (noteSent k peer facts).until? f.key peer = some u ∧ f.expires ≤ u := by
  induction facts generalizing k with
  | nil => cases h
  | cons g facts ih =>
    rcases List.mem_cons.mp h with rfl | h
    · obtain ⟨u, hu, hle⟩ := le_until?_noteSent (Knowledge.until?_note_self k f.key peer f.expires) facts
      refine ⟨u, hu, le_trans ?_ hle⟩
      cases k.until? f.key peer with
      | none => exact le_rfl
      | some known => exact le_max_left _ _
    · exact ih h _

/-- Once it is noted that a peer was told what was selected, nothing that concerns it is due. -/
lemma isDue_noteSent (h : Selected l k peer chunk packing included) (hf : f ∈ chunk.facts)
    (hconcerns : concerns peer chunk.now f = true) : isDue (noteSent k peer included) peer chunk.now f = false := by
  cases hdue : isDue k peer chunk.now f with
  | true =>
    obtain ⟨u, hu, hle⟩ := until?_noteSent_of_mem (h.due f (mem_due_iff.mpr ⟨hf, hconcerns, hdue⟩)) k peer
    refine isDue_eq_false_iff.mpr ⟨u, hu, (min_le_right _ _).trans ?_⟩
    exact (sub_le_self _ (Int.natCast_nonneg _)).trans hle
  | false =>
    obtain ⟨t, ht, hmin⟩ := isDue_eq_false_iff.mp hdue
    obtain ⟨u, hu, hle⟩ := le_until?_noteSent ht included
    exact isDue_eq_false_iff.mpr ⟨u, hu, hmin.trans hle⟩

lemma peerKnows_noteSent (h : Selected l k peer chunk packing included) (hf : ownAlive l.self chunk.facts = some f) :
    (noteSent k peer included).peerKnows peer f Clock.alivePeriod = true := by
  rw [Knowledge.peerKnows_eq_true_iff]
  rcases h.alive f hf with hin | hknows
  · obtain ⟨u, hu, hle⟩ := until?_noteSent_of_mem hin k peer
    exact ⟨u, hu, (sub_le_self _ (Int.natCast_nonneg _)).trans hle⟩
  · obtain ⟨t, ht, hlt⟩ := Knowledge.peerKnows_eq_true_iff.mp hknows
    obtain ⟨u, hu, hle⟩ := le_until?_noteSent ht included
    exact ⟨u, hu, hlt.trans hle⟩

/-- Where nothing is due, and that this node is alive is known, nothing is selected. -/
lemma eq_of_quiet (h : select l k peer chunk = .ok (packing, included)) (hdue : due k peer chunk = [])
    (halive : ∀ f, ownAlive l.self chunk.facts = some f → k.peerKnows peer f Clock.alivePeriod = true) :
    packing = .forPackets chunk.now ∧ included = [] := by
  have hempty : packing = .forPackets chunk.now := by
    obtain ⟨p, hpack, h⟩ := bind_eq_ok_iff.mp h
    change packAll _ (due k peer chunk) = .ok p at hpack
    rw [hdue] at hpack
    cases hpack
    cases ha : ownAlive l.self chunk.facts with
    | none =>
      rw [ha] at h
      cases h
      rfl
    | some alive =>
      simp only [ha, halive alive ha, if_true] at h
      obtain ⟨⟨room, q⟩, hroom, h⟩ := bind_eq_ok_iff.mp h
      obtain ⟨bytes, -, hroom⟩ := bind_eq_ok_iff.mp hroom
      cases hroom
      cases h
      rfl
  subst hempty
  have hholds : Packing.Fills _ _ [] included := (selected_of_select h).holds
  cases hholds
  exact ⟨rfl, rfl⟩

end Broadcast

end MeshFacts
