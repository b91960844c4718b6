import Mathlib
import MeshFacts.Source

/-! # Layering
What several sources come to does not depend on how they are listed, but for the order of those of one precedence. Each field
is that of the source of the highest precedence which sets it, of several the last; of the sources that cannot be read the one
of the lowest precedence is told, of several the first. Both are read off one list, the sources in order of precedence. -/
namespace MeshFacts

namespace Layer

/-- The fields of a layer, each by how it is read. -/
inductive IsField : {α : Type} → (Layer → Option α) → Prop
  | iface : IsField Layer.iface
  | port : IsField Layer.port
  | router : IsField Layer.router
  | managePeers : IsField Layer.managePeers
  | chatty : IsField Layer.chatty
  | debug : IsField Layer.debug
  | logJson : IsField Layer.logJson
  | peers : IsField Layer.peers

variable {α : Type} {field : Layer → Option α}

lemma IsField.merge (h : IsField field) (below above : Layer) :
    field (below.merge above) = (field above).or (field below) := by
  cases h <;> exact Option.orElse_eq_or ..

lemma IsField.empty (h : IsField field) : field .empty = none := by
  cases h <;> rfl

end Layer

namespace Precedence

def rank : Precedence → ℕ
  | defaults => 10
  | file => 20
  | environment => 50
  | commandLine => 100

lemma rank_injective : Function.Injective rank := by
  intro p q h
  cases p <;> cases q <;> first | rfl | cases h

lemma pairwise_all : all.Pairwise fun p q => p.rank < q.rank := by decide

lemma mem_all (p : Precedence) : p ∈ all := by
  cases p <;> decide

end Precedence

namespace Source

def rank (s : Source) : ℕ := s.precedence.rank

def Loads (s : Source) : Prop := ∃ l, s.layer = .ok l

instance (s : Source) : Decidable s.Loads :=
  match h : s.layer with
  | .ok l => .isTrue ⟨l, h⟩
  | .error _ => .isFalse fun ⟨_, hl⟩ => by cases h.symm.trans hl

def sets {α : Type} (field : Layer → Option α) (s : Source) : Option α := s.layer.toOption.bind field

section
variable (P : Source → Prop) (sources : List Source) (s : Source)

/-- Of the listed sources with a property, this one is of the highest precedence, and the last of that. -/
def Prevails : Prop :=
  ∃ before after, sources = before ++ s :: after ∧ P s ∧ (∀ t ∈ before, P t → t.rank ≤ s.rank) ∧
    ∀ t ∈ after, P t → t.rank < s.rank

/-- Of the listed sources with a property, this one is of the lowest precedence, and the first of that. -/
def Leads : Prop :=
  ∃ before after, sources = before ++ s :: after ∧ P s ∧ (∀ t ∈ before, P t → s.rank < t.rank) ∧
    ∀ t ∈ after, P t → s.rank ≤ t.rank

end

/-- The same sources, those of one precedence in the same order. -/
def Rearranges (sources others : List Source) : Prop :=
  ∀ p, sources.filter (·.precedence = p) = others.filter (·.precedence = p)

section
variable {sources others before after : List Source} {s t : Source}

lemma inOrder_congr (h : Rearranges sources others) : inOrder sources = inOrder others := by
  simp only [inOrder]
  exact congrArg (Precedence.all.flatMap ·) (funext h)

lemma filter_inOrder (p : Precedence) (sources : List Source) :
    (inOrder sources).filter (·.precedence = p) = sources.filter (·.precedence = p) := by
  have hpart : ∀ q, (sources.filter (·.precedence = q)).filter (·.precedence = p) =
      if q = p then sources.filter (·.precedence = p) else [] := by
    intro q
    split_ifs with h
    · simp [h]
    · rw [List.filter_filter, List.filter_eq_nil_iff]
      rintro s - hs
      simp only [Bool.and_eq_true, decide_eq_true_eq] at hs
      exact h (hs.2.symm.trans hs.1)
  simp only [inOrder, Precedence.all, List.flatMap_cons, List.flatMap_nil, List.filter_append, hpart]
  cases p <;> simp

lemma mem_inOrder : s ∈ inOrder sources ↔ s ∈ sources := by
  simp [inOrder, Precedence.mem_all]

lemma pairwise_inOrder (sources : List Source) : (inOrder sources).Pairwise fun s t => s.rank ≤ t.rank := by
  refine List.pairwise_flatMap.mpr ⟨fun p _ => ?_, Precedence.pairwise_all.imp fun {p q} hlt s hs t ht => ?_⟩
  · refine List.pairwise_of_forall_mem_list fun s hs t ht => ?_
    simp only [List.mem_filter, decide_eq_true_eq] at hs ht
    exact (congrArg Precedence.rank (hs.2.trans ht.2.symm)).le
  · simp only [List.mem_filter, decide_eq_true_eq] at hs ht
    rw [rank, rank, hs.2, ht.2]
    exact hlt.le

/-- A place among the sources in order of precedence is a place among those that are listed, with the same on either
side of it but for sources of another precedence. -/
lemma exists_split (h : inOrder sources = before ++ s :: after) :
    ∃ left right, sources = left ++ s :: right ∧ (∀ t ∈ left, t ∈ before ∨ t ∈ after ∧ s.rank < t.rank) ∧
      ∀ t ∈ right, t ∈ after ∨ t ∈ before ∧ t.rank < s.rank := by
  have hsorted := pairwise_inOrder sources
  rw [h, List.pairwise_append, List.pairwise_cons] at hsorted
  obtain ⟨-, ⟨hafter, -⟩, hbefore⟩ := hsorted
  have hfilter := filter_inOrder s.precedence sources
  rw [h, List.filter_append, List.filter_cons_of_pos (by simp)] at hfilter
  obtain ⟨left, rest, rfl, hleft, hrest⟩ := List.filter_eq_append_iff.mp hfilter.symm
  obtain ⟨skipped, right, rfl, hskipped, -, hright⟩ := List.filter_eq_cons_iff.mp hrest
  have hmem : ∀ t ∈ left ++ (skipped ++ s :: right), t.precedence ≠ s.precedence →
      t ∈ before ∧ t.rank < s.rank ∨ t ∈ after ∧ s.rank < t.rank := by
    intro t ht hne
    have hrank : t.rank ≠ s.rank := fun heq => hne (Precedence.rank_injective heq)
    have hin := mem_inOrder.mpr ht
    rw [h, List.mem_append, List.mem_cons] at hin
    rcases hin with hin | rfl | hin
    · exact .inl ⟨hin, lt_of_le_of_ne (hbefore t hin s (by simp)) hrank⟩
    · exact absurd rfl hne
    · exact .inr ⟨hin, lt_of_le_of_ne (hafter t hin) hrank.symm⟩
  have hsame : ∀ {xs ys : List Source} {t : Source}, t ∈ xs → t.precedence = s.precedence →
      xs.filter (·.precedence = s.precedence) = ys.filter (·.precedence = s.precedence) → t ∈ ys := by
    intro xs ys t ht heq hxs
    have hin : t ∈ xs.filter (·.precedence = s.precedence) := List.mem_filter.mpr ⟨ht, by simpa using heq⟩
    exact List.mem_of_mem_filter (hxs ▸ hin)
  refine ⟨left ++ skipped, right, by simp, fun t ht => ?_, fun t ht => ?_⟩
  · by_cases heq : t.precedence = s.precedence
    · rcases List.mem_append.mp ht with ht | ht
      · exact .inl (hsame ht heq hleft)
      · exact absurd heq (by simpa using hskipped t ht)
    · exact (hmem t (by simp only [List.mem_append] at ht ⊢; tauto) heq).imp And.left id
  · by_cases heq : t.precedence = s.precedence
    · exact .inl (hsame ht heq hright)
    · exact (hmem t (by simp [ht]) heq).symm.imp And.left id

section
variable {P : Source → Prop}

/-- The last source in order of precedence that has a property is the one that prevails. -/
lemma prevails_of_split (h : inOrder sources = before ++ s :: after) (hs : P s) (hafter : ∀ t ∈ after, ¬ P t) :
    Prevails P sources s := by
  obtain ⟨left, right, hsources, hleft, hright⟩ := exists_split h
  have hsorted := pairwise_inOrder sources
  rw [h, List.pairwise_append] at hsorted
  refine ⟨left, right, hsources, hs, fun t ht hP => ?_, fun t ht hP => ?_⟩
  · rcases hleft t ht with hin | ⟨hin, -⟩
    · exact hsorted.2.2 t hin s (by simp)
    · exact absurd hP (hafter t hin)
  · rcases hright t ht with hin | ⟨-, hlt⟩
    · exact absurd hP (hafter t hin)
    · exact hlt

lemma leads_of_split (h : inOrder sources = before ++ s :: after) (hs : P s) (hbefore : ∀ t ∈ before, ¬ P t) :
    Leads P sources s := by
  obtain ⟨left, right, hsources, hleft, hright⟩ := exists_split h
  have hsorted := pairwise_inOrder sources
  rw [h, List.pairwise_append, List.pairwise_cons] at hsorted
  refine ⟨left, right, hsources, hs, fun t ht hP => ?_, fun t ht hP => ?_⟩
  · rcases hleft t ht with hin | ⟨-, hlt⟩
    · exact absurd hP (hbefore t hin)
    · exact hlt
  · rcases hright t ht with hin | ⟨hin, -⟩
    · exact hsorted.2.1.1 t hin
    · exact absurd hP (hbefore t hin)

lemma places {xs ys xs' ys' : List Source} (h : xs ++ s :: ys = xs' ++ t :: ys') :
    t ∈ ys ∧ s ∈ xs' ∨ s = t ∨ t ∈ xs ∧ s ∈ ys' := by
  rcases List.append_eq_append_iff.mp h with ⟨as, rfl, has⟩ | ⟨as, rfl, has⟩
  · cases as with
    | nil => exact .inr (.inl (by simpa using (List.cons.inj has).1))
    | cons a as =>
      obtain ⟨rfl, rfl⟩ := List.cons.inj has
      exact .inl ⟨by simp, by simp⟩
  · cases as with
    | nil => exact .inr (.inl (by simpa using (List.cons.inj has).1.symm))
    | cons a as =>
      obtain ⟨rfl, rfl⟩ := List.cons.inj has
      exact .inr (.inr ⟨by simp, by simp⟩)

lemma Prevails.unique (h : Prevails P sources s) (h' : Prevails P sources t) : s = t := by
  obtain ⟨before, after, rfl, hs, hbefore, hafter⟩ := h
  obtain ⟨before', after', heq, ht, hbefore', hafter'⟩ := h'
  rcases places heq with ⟨hts, hst⟩ | rfl | ⟨hts, hst⟩
  · exact absurd (hafter t hts ht) (not_lt.mpr (hbefore' s hst hs))
  · rfl
  · exact absurd (hafter' s hst hs) (not_lt.mpr (hbefore t hts ht))

lemma Leads.unique (h : Leads P sources s) (h' : Leads P sources t) : s = t := by
  obtain ⟨before, after, rfl, hs, hbefore, hafter⟩ := h
  obtain ⟨before', after', heq, ht, hbefore', hafter'⟩ := h'
  rcases places heq with ⟨hts, hst⟩ | rfl | ⟨hts, hst⟩
  · exact absurd (hbefore' s hst hs) (not_lt.mpr (hafter t hts ht))
  · rfl
  · exact absurd (hbefore t hts ht) (not_lt.mpr (hafter' s hst hs))

end

section
variable {α : Type} {field : Layer → Option α} {below : Layer}

lemma exists_mergeAll (h : ∀ s ∈ sources, s.Loads) (below : Layer) :
    ∃ merged, mergeAll below sources = .ok merged ∧ ∀ {α : Type} {field : Layer → Option α}, Layer.IsField field →
      field merged = (sources.reverse.findSome? (sets field)).or (field below) := by
  induction sources generalizing below with
  | nil => exact ⟨below, rfl, fun _ => by simp⟩
  | cons s sources ih =>
    obtain ⟨⟨above, hload⟩, hrest⟩ := List.forall_mem_cons.mp h
    obtain ⟨merged, hmerge, hfields⟩ := ih hrest (below.merge above)
    refine ⟨merged, by simpa [mergeAll, hload, bind, Except.bind] using hmerge, fun {α field} hfield => ?_⟩
    have hsets : s.sets field = field above := by simp [sets, hload, Except.toOption]
    rw [hfields hfield, hfield.merge, List.reverse_cons, List.findSome?_append, List.findSome?_singleton, hsets,
      Option.or_assoc]

lemma mergeAll_of_error {e : ConfigError} (h : ∀ t ∈ before, t.Loads) (hs : s.layer = .error e) (below : Layer) :
    mergeAll below (before ++ s :: after) = .error e := by
  induction before generalizing below with
  | nil => simp [mergeAll, hs, bind, Except.bind]
  | cons t before ih =>
    obtain ⟨⟨above, hload⟩, hrest⟩ := List.forall_mem_cons.mp h
    simpa [mergeAll, hload, bind, Except.bind] using ih hrest (below.merge above)

end

/-- The last value that a field is set to, in order of precedence, is that of the source which prevails. -/
lemma findSome?_eq_some_iff {α : Type} {field : Layer → Option α} {v : α} :
    (inOrder sources).reverse.findSome? (sets field) = some v ↔
      ∃ s, Prevails (fun t => (t.sets field).isSome) sources s ∧ s.sets field = some v := by
  have hprevails : ∀ {v}, (inOrder sources).reverse.findSome? (sets field) = some v →
      ∃ s, Prevails (fun t => (t.sets field).isSome) sources s ∧ s.sets field = some v := by
    intro v h
    obtain ⟨later, s, earlier, hsplit, hsets, hlater⟩ := List.findSome?_eq_some_iff.mp h
    have horder : inOrder sources = earlier.reverse ++ s :: later.reverse := by
      simpa using congrArg List.reverse hsplit
    exact ⟨s, prevails_of_split horder (by simp [hsets]) (by simpa using hlater), hsets⟩
  refine ⟨hprevails, fun ⟨s, hs, hsets⟩ => ?_⟩
  have hin : s ∈ (inOrder sources).reverse := by
    obtain ⟨before, after, hsources, -⟩ := hs
    simp [mem_inOrder, hsources]
  have hsome : ((inOrder sources).reverse.findSome? (sets field)).isSome :=
    List.findSome?_isSome_iff.mpr ⟨s, hin, by simp [hsets]⟩
  obtain ⟨w, hw⟩ := Option.isSome_iff_exists.mp hsome
  obtain ⟨t, ht, hwt⟩ := hprevails hw
  rw [hw, ← hwt, ht.unique hs, hsets]

lemma exists_leads (h : ∃ s ∈ sources, ¬ s.Loads) :
    ∃ s e, Leads (¬ Loads ·) sources s ∧ s.layer = .error e ∧ Config.ofSources sources = .error e := by
  obtain ⟨t, hin, ht⟩ := h
  have hsome : ((inOrder sources).find? (¬ ·.Loads)).isSome :=
    List.find?_isSome.mpr ⟨t, mem_inOrder.mpr hin, by simpa using ht⟩
  obtain ⟨s, hs⟩ := Option.isSome_iff_exists.mp hsome
  obtain ⟨hfails, before, after, horder, hbefore⟩ := List.find?_eq_some_iff_append.mp hs
  have hfails : ¬ s.Loads := by simpa using hfails
  have hbefore : ∀ t ∈ before, t.Loads := by simpa using hbefore
  cases hlayer : s.layer with
  | ok l => exact absurd ⟨l, hlayer⟩ hfails
  | error e =>
    have hmerge : mergeAll .empty (inOrder sources) = .error e := horder ▸ mergeAll_of_error hbefore hlayer .empty
    refine ⟨s, e, leads_of_split horder hfails fun t ht => not_not.mpr (hbefore t ht), hlayer, ?_⟩
    rw [Config.ofSources, hmerge]
    rfl

/-- Layers merge associatively, and each setting is that of the source which prevails among those that set it, however
sources of different precedence are listed. The first source that cannot be read, by precedence, is told. -/
theorem precedence_decides :
    (∀ a b c : Layer, (a.merge b).merge c = a.merge (b.merge c)) ∧
      (∀ l : Layer, l.merge .empty = l ∧ Layer.empty.merge l = l) ∧
      ∀ sources : List Source,
        (∀ others, Rearranges sources others → Config.ofSources others = Config.ofSources sources) ∧
        ((∀ s ∈ sources, s.Loads) → ∃ merged, Config.ofSources sources = Config.ofLayer merged ∧
          ∀ {α : Type} {field : Layer → Option α}, Layer.IsField field → ∀ v, field merged = some v ↔
            ∃ s, Prevails (fun t => (t.sets field).isSome) sources s ∧ s.sets field = some v) ∧
        ((∃ s ∈ sources, ¬ s.Loads) →
          ∃ s e, Leads (¬ Loads ·) sources s ∧ s.layer = .error e ∧ Config.ofSources sources = .error e) := by
  refine ⟨Layer.merge_assoc, fun l => ⟨l.merge_empty, l.empty_merge⟩, fun sources => ⟨?_, ?_, exists_leads⟩⟩
  · intro others h
    rw [Config.ofSources, Config.ofSources, inOrder_congr h]
  · intro h
    obtain ⟨merged, hmerge, hfields⟩ := exists_mergeAll (fun s hs => h s (mem_inOrder.mp hs)) .empty
    refine ⟨merged, ?_, fun {α field} hfield v => ?_⟩
    · rw [Config.ofSources, hmerge]
      rfl
    · rw [hfields hfield, hfield.empty, Option.or_none, findSome?_eq_some_iff]

/-- Sources listed from the highest precedence down, and before them two that cannot be read. -/
theorem precedence_decides_reversed :
    let file : Source := ⟨.file, .ok { iface := some "wg1", port := some 4000 }⟩
    let cli : Source := .commandLine { port := some 6000 }
    let sources := [cli, file, .defaults]
    let broken : Source := ⟨.file, .error (.toml "wg.toml")⟩
    Config.ofSources [.defaults, file, cli] = Config.ofSources sources ∧
      (∃ merged, Config.ofSources sources = Config.ofLayer merged ∧ merged.port = some 6000 ∧
        merged.iface = some "wg1") ∧
      Config.ofSources (⟨.environment, .error (.validation "late")⟩ :: broken :: sources) = .error (.toml "wg.toml") := by
  intro file cli sources broken
  obtain ⟨-, -, hsources⟩ := precedence_decides
  obtain ⟨hlisted, hmerged, -⟩ := hsources sources
  have hloads : ∀ s ∈ sources, s.Loads := by
    simp [sources, file, cli, Loads, commandLine, defaults]
  obtain ⟨merged, hmerge, hfields⟩ := hmerged hloads
  have hport : merged.port = some 6000 :=
    (hfields .port _).mpr ⟨cli, ⟨[], [file, .defaults], rfl, rfl, by decide, by decide⟩, rfl⟩
  have hiface : merged.iface = some "wg1" :=
    (hfields .iface _).mpr ⟨file, ⟨[cli], [.defaults], rfl, rfl, by decide, by decide⟩, rfl⟩
  refine ⟨hlisted _ fun p => by cases p <;> rfl, ⟨merged, hmerge, hport, hiface⟩, ?_⟩
  set late : Source := ⟨.environment, .error (.validation "late")⟩
  have hfails : ¬ broken.Loads := by simp [broken, Loads]
  obtain ⟨-, -, htold⟩ := hsources (late :: broken :: sources)
  obtain ⟨s, e, hs, hlayer, htold⟩ := htold ⟨broken, by simp, hfails⟩
  have hbroken : Leads (¬ Loads ·) (late :: broken :: sources) broken :=
    ⟨[late], sources, rfl, hfails, by decide, fun t ht h => absurd (hloads t ht) h⟩
  obtain rfl := hs.unique hbroken
  rw [htold, ← Except.error.inj hlayer]

end

end Source

end MeshFacts
