import MeshFacts.Proofs.HeldFacts

/-! # Merging
A merged list has one fact for each key, in the order of keys: of the facts with the key the first of those that end
last. So merging in pieces comes to the same as merging everything at once. -/
namespace MeshFacts

namespace FactKey
variable {a b c : FactKey}

lemma lt_irrefl (a : FactKey) : ¬ a < a := List.lt_irrefl a.octets

lemma lt_trans (h : a < b) (h' : b < c) : a < c := List.lt_trans h h'

lemma ne_of_lt (h : a < b) : a ≠ b := by
  rintro rfl
  exact lt_irrefl a h

lemma lt_of_not_lt (h : ¬ a < b) (hne : a ≠ b) : b < a := by
  by_contra h'
  exact hne (octets_injective (List.le_antisymm (List.not_lt.mp h') (List.not_lt.mp h)))

end FactKey

namespace Fact
variable {xs ys fs : List Fact} {f g : Fact}

def Ordered (fs : List Fact) : Prop := fs.Pairwise fun f g => f.key < g.key

/-- The fact is the first of those with its key that end last. -/
def Latest (fs : List Fact) (f : Fact) : Prop :=
  ∃ before later, fs = before ++ f :: later ∧ (∀ g ∈ before, g.key = f.key → g.expires < f.expires) ∧
    ∀ g ∈ later, g.key = f.key → g.expires ≤ f.expires

lemma Latest.mem (h : Latest fs f) : f ∈ fs := by
  obtain ⟨before, later, rfl, -⟩ := h
  simp

lemma latest_append : Latest (xs ++ ys) f ↔
    (Latest xs f ∧ ∀ g ∈ ys, g.key = f.key → g.expires ≤ f.expires) ∨
      (Latest ys f ∧ ∀ g ∈ xs, g.key = f.key → g.expires < f.expires) := by
  constructor
  · rintro ⟨before, later, heq, hbefore, hlater⟩
    rcases List.append_eq_append_iff.mp heq with ⟨middle, rfl, rfl⟩ | ⟨middle, rfl, hrest⟩
    · obtain ⟨hxs, hmiddle⟩ := List.forall_mem_append.mp hbefore
      exact .inr ⟨⟨middle, later, rfl, hmiddle, hlater⟩, hxs⟩
    · rcases List.cons_eq_append_iff.mp hrest with ⟨rfl, rfl⟩ | ⟨middle, rfl, rfl⟩
      · exact .inr ⟨⟨[], later, rfl, by simp, hlater⟩, by simpa using hbefore⟩
      · obtain ⟨hmiddle, hys⟩ := List.forall_mem_append.mp hlater
        exact .inl ⟨⟨before, middle, rfl, hbefore, hmiddle⟩, hys⟩
  · rintro (⟨⟨before, later, rfl, hbefore, hlater⟩, hys⟩ | ⟨⟨before, later, rfl, hbefore, hlater⟩, hxs⟩)
    · exact ⟨before, later ++ ys, by simp, hbefore, List.forall_mem_append.mpr ⟨hlater, hys⟩⟩
    · exact ⟨xs ++ before, later, by simp, List.forall_mem_append.mpr ⟨hxs, hbefore⟩, hlater⟩

lemma latest_singleton : Latest [g] f ↔ f = g := by
  constructor
  · intro h
    exact List.mem_singleton.mp h.mem
  · rintro rfl
    exact ⟨[], [], rfl, by simp, by simp⟩

lemma latest_append_singleton : Latest (fs ++ [g]) f ↔
    (Latest fs f ∧ (g.key = f.key → g.expires ≤ f.expires)) ∨
      (f = g ∧ ∀ m ∈ fs, m.key = g.key → m.expires < g.expires) := by
  rw [latest_append, latest_singleton, List.forall_mem_singleton]
  constructor <;> rintro (h | ⟨rfl, h⟩)
  · exact .inl h
  · exact .inr ⟨rfl, h⟩
  · exact .inl h
  · exact .inr ⟨rfl, h⟩

lemma Latest.le (h : Latest fs f) (hg : g ∈ fs) (hkey : g.key = f.key) : g.expires ≤ f.expires := by
  obtain ⟨before, later, rfl, hbefore, hlater⟩ := h
  rcases List.mem_append.mp hg with hg | hg
  · exact (hbefore g hg hkey).le
  · rcases List.mem_cons.mp hg with rfl | hg
    · exact le_rfl
    · exact hlater g hg hkey

/-- Every key of a list has a latest fact. -/
lemma exists_latest (h : g ∈ fs) : ∃ f, Latest fs f ∧ f.key = g.key ∧ g.expires ≤ f.expires := by
  induction fs using List.reverseRecOn generalizing g with
  | nil => cases h
  | append_singleton fs e ih =>
    have hearlier : ∀ m ∈ fs, ∃ f, Latest (fs ++ [e]) f ∧ f.key = m.key ∧ m.expires ≤ f.expires := by
      intro m hm
      obtain ⟨f, hf, hkey, hle⟩ := ih hm
      by_cases hlater : e.key = f.key → e.expires ≤ f.expires
      · exact ⟨f, latest_append_singleton.mpr (.inl ⟨hf, hlater⟩), hkey, hle⟩
      · rw [Classical.not_imp, not_le] at hlater
        obtain ⟨hef, hlt⟩ := hlater
        refine ⟨e, latest_append_singleton.mpr (.inr ⟨rfl, fun x hx hxe => ?_⟩), hef.trans hkey, hle.trans hlt.le⟩
        exact (hf.le hx (hxe.trans hef)).trans_lt hlt
    rcases List.mem_append.mp h with h | h
    · exact hearlier g h
    · obtain rfl := List.mem_singleton.mp h
      by_cases hfirst : ∀ m ∈ fs, m.key = g.key → m.expires < g.expires
      · exact ⟨g, latest_append_singleton.mpr (.inr ⟨rfl, hfirst⟩), rfl, le_rfl⟩
      · push Not at hfirst
        obtain ⟨m, hm, hkey, hle⟩ := hfirst
        obtain ⟨f, hf, hfm, hmf⟩ := hearlier m hm
        exact ⟨f, hf, hfm.trans hkey, hle.trans hmf⟩

/-- The facts with a key all end before some time just if the latest of them does. -/
lemma forall_latest_lt_iff {k : FactKey} {t : Instant} :
    (∀ f, Latest fs f → f.key = k → f.expires < t) ↔ ∀ g ∈ fs, g.key = k → g.expires < t := by
  constructor
  · intro h g hg hkey
    obtain ⟨f, hf, hfg, hle⟩ := exists_latest hg
    exact hle.trans_lt (h f hf (hfg.trans hkey))
  · exact fun h f hf => h f hf.mem

lemma ordered_mergeInto (h : Ordered fs) (f : Fact) : Ordered (mergeInto f fs) := by
  induction fs with
  | nil => exact List.pairwise_singleton _ _
  | cons g fs ih =>
    obtain ⟨hg, hfs⟩ := List.pairwise_cons.mp h
    simp only [mergeInto]
    split_ifs with hkey hexpires hbefore
    · exact h
    · exact List.pairwise_cons.mpr ⟨fun x hx => hkey ▸ hg x hx, hfs⟩
    · refine List.pairwise_cons.mpr ⟨fun x hx => ?_, h⟩
      rcases List.mem_cons.mp hx with rfl | hx
      · exact hbefore
      · exact FactKey.lt_trans hbefore (hg x hx)
    · refine List.pairwise_cons.mpr ⟨fun x hx => ?_, ih hfs⟩
      rcases mem_of_mem_mergeInto hx with rfl | hx
      · exact FactKey.lt_of_not_lt hbefore hkey
      · exact hg x hx

lemma ordered_merge (fs : List Fact) : Ordered (merge fs) := by
  induction fs using List.reverseRecOn with
  | nil => exact .nil
  | append_singleton fs g ih =>
    rw [merge, List.foldl_append]
    exact ordered_mergeInto ih g

lemma Ordered.nodup_keys (h : Ordered fs) : (fs.map key).Nodup :=
  List.pairwise_map.mpr (h.imp FactKey.ne_of_lt)

lemma Ordered.eq_of_key (h : Ordered fs) (hf : f ∈ fs) (hg : g ∈ fs) (hkey : f.key = g.key) : f = g :=
  List.inj_on_of_nodup_map h.nodup_keys hf hg hkey

lemma Ordered.latest_iff (h : Ordered fs) : Latest fs f ↔ f ∈ fs := by
  refine ⟨Latest.mem, fun hf => ?_⟩
  obtain ⟨g, hg, hkey, -⟩ := exists_latest hf
  exact h.eq_of_key hg.mem hf hkey ▸ hg

lemma Ordered.eq_of_mem_iff (hx : Ordered xs) (hy : Ordered ys) (h : ∀ f, f ∈ xs ↔ f ∈ ys) : xs = ys := by
  have hperm : xs.Perm ys :=
    (List.perm_ext_iff_of_nodup hx.nodup_keys.of_map hy.nodup_keys.of_map).mpr h
  refine hperm.eq_of_pairwise (fun f g _ _ hfg hgf => ?_) hx hy
  exact absurd (FactKey.lt_trans hfg hgf) (FactKey.lt_irrefl _)

lemma mem_mergeInto_iff (h : Ordered fs) : f ∈ mergeInto g fs ↔
    (f ∈ fs ∧ (g.key = f.key → g.expires ≤ f.expires)) ∨ (f = g ∧ ∀ m ∈ fs, m.key = g.key → m.expires < g.expires) := by
  induction fs with
  | nil => simp [mergeInto]
  | cons e fs ih =>
    obtain ⟨he, hfs⟩ := List.pairwise_cons.mp h
    have hrest : ∀ m ∈ fs, e.key ≠ m.key := fun m hm => FactKey.ne_of_lt (he m hm)
    simp only [mergeInto, List.mem_cons]
    split_ifs with hkey hexpires hbefore
    · have hnew : ∀ m ∈ fs, g.key ≠ m.key := hkey ▸ hrest
      grind
    · have hnew : ∀ m ∈ fs, g.key ≠ m.key := hkey ▸ hrest
      grind
    · have hnew : ∀ m ∈ fs, g.key ≠ m.key := fun m hm => FactKey.ne_of_lt (FactKey.lt_trans hbefore (he m hm))
      grind
    · rw [List.mem_cons, ih hfs]
      grind

/-- A merged list holds the latest fact of each key. -/
theorem mem_merge_iff : f ∈ merge fs ↔ Latest fs f := by
  induction fs using List.reverseRecOn generalizing f with
  | nil => exact ⟨fun h => absurd h List.not_mem_nil, fun h => absurd h.mem List.not_mem_nil⟩
  | append_singleton fs g ih =>
    have hmerge : merge (fs ++ [g]) = mergeInto g (merge fs) := by
      rw [merge, List.foldl_append]
      rfl
    have hbefore : (∀ m ∈ merge fs, m.key = g.key → m.expires < g.expires) ↔
        ∀ m ∈ fs, m.key = g.key → m.expires < g.expires := by
      simp only [ih, forall_latest_lt_iff]
    rw [hmerge, mem_mergeInto_iff (ordered_merge fs), latest_append_singleton, hbefore, ih]

lemma merge_congr (h : ∀ f, Latest xs f ↔ Latest ys f) : merge xs = merge ys :=
  (ordered_merge xs).eq_of_mem_iff (ordered_merge ys) fun f => by rw [mem_merge_iff, mem_merge_iff, h]

/-- It makes no difference to what ends later whether facts that have ended are dropped before others join. -/
lemma latest_merge_filter_append {now : Instant} (hf : now < f.expires) :
    Latest ((merge xs).filter (fun g => !g.isExpired now) ++ ys) f ↔ Latest (xs ++ ys) f := by
  have hmem : ∀ g, g ∈ (merge xs).filter (fun g => !g.isExpired now) ↔ Latest xs g ∧ now < g.expires := fun g => by
    simp [List.mem_filter, mem_merge_iff, isExpired]
  have hkept : Latest ((merge xs).filter fun g => !g.isExpired now) f ↔ Latest xs f := by
    rw [Ordered.latest_iff ((ordered_merge xs).filter _), hmem]
    exact and_iff_left hf
  have hbefore : (∀ g ∈ (merge xs).filter (fun g => !g.isExpired now), g.key = f.key → g.expires < f.expires) ↔
      ∀ g ∈ xs, g.key = f.key → g.expires < f.expires := by
    constructor
    · intro h g hg hkey
      obtain ⟨m, hm, hmg, hle⟩ := exists_latest hg
      by_cases hended : now < m.expires
      · exact hle.trans_lt (h m ((hmem m).mpr ⟨hm, hended⟩) (hmg.trans hkey))
      · exact (hle.trans (not_lt.mp hended)).trans_lt hf
    · exact fun h g hg => h g ((hmem g).mp hg).1.mem
  rw [latest_append, latest_append, hkept, hbefore]

/-- Where a key and an end leave no choice, the order of facts does not matter. -/
lemma latest_iff_of_determined (hd : ∀ f ∈ fs, ∀ g ∈ fs, f.key = g.key → f.expires = g.expires → f = g) :
    Latest fs f ↔ f ∈ fs ∧ ∀ g ∈ fs, g.key = f.key → g.expires ≤ f.expires := by
  refine ⟨fun h => ⟨h.mem, fun g hg hkey => h.le hg hkey⟩, fun ⟨hf, hle⟩ => ?_⟩
  obtain ⟨g, hg, hkey, hfg⟩ := exists_latest hf
  have heq : g.expires = f.expires := le_antisymm (hle g hg.mem hkey) hfg
  exact hd g hg.mem f hf hkey heq ▸ hg

/-- Facts among others may come in another order and number where that leaves the latest as they are. -/
lemma merge_append_congr {zs ws : List Fact} (hmem : ∀ f, f ∈ ys ↔ f ∈ zs)
    (hlatest : ∀ f, Latest ys f ↔ Latest zs f) : merge (xs ++ (ys ++ ws)) = merge (xs ++ (zs ++ ws)) :=
  merge_congr fun f => by simp only [latest_append, List.forall_mem_append, hlatest, hmem]

end Fact

/-- Whatever is there to be held is held to its end at least. -/
lemma Link.exists_mem_heldFacts {current accepted own : List Fact} {now : Instant} {f : Fact}
    (h : f ∈ current ∨ f ∈ accepted ∨ f ∈ own) (hf : now < f.expires) :
    ∃ g ∈ heldFacts current accepted own now, g.key = f.key ∧ f.expires ≤ g.expires := by
  have hall : f ∈ current ++ accepted ++ own := by simpa [or_assoc] using h
  obtain ⟨g, hg, hkey, hle⟩ := Fact.exists_latest hall
  have hlive : now < g.expires := hf.trans_le hle
  exact ⟨g, List.mem_filter.mpr ⟨Fact.mem_merge_iff.mpr hg, by simpa [Fact.isExpired] using hlive⟩, hkey, hle⟩

end MeshFacts
