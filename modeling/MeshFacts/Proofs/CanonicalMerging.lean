import MeshFacts.Proofs.FactIdentity
import MeshFacts.Proofs.FactMerging
import MeshFacts.Proofs.WireRoundTrip

/-! # The merged list
A merged list is the one form of what it was merged from: its facts stand in the order of their keys, one for each key,
and merging it again, alone or with more facts, is merging everything at once. What facts say is in their keys, but for
which start of a peer an alive fact tells of. So the order of what is merged matters only where two facts that end
together tell of two starts of one peer. -/
namespace MeshFacts.Fact
variable {xs ys : List Fact} {f g : Fact}

lemma merge_merge (xs : List Fact) : merge (merge xs) = merge xs :=
  merge_congr fun f => by rw [(ordered_merge xs).latest_iff, mem_merge_iff]

lemma merge_merge_append (xs ys : List Fact) : merge (merge xs ++ ys) = merge (xs ++ ys) :=
  merge_congr fun f => by
    simp only [latest_append, (ordered_merge xs).latest_iff, mem_merge_iff, forall_latest_lt_iff]

/-- Two facts tell of two starts of one peer and end together. -/
def Conflict (f g : Fact) : Prop :=
  f.kind = .alive ∧ g.kind = .alive ∧ f.subject = g.subject ∧ f.expires = g.expires ∧ f.bootId? ≠ g.bootId?

lemma merge_perm (hs : ∀ f ∈ xs, f.value.Suits f.kind) (hc : ¬ ∃ f ∈ xs, ∃ g ∈ xs, f.Conflict g)
    (h : xs.Perm ys) : merge xs = merge ys := by
  have hd : ∀ f ∈ xs, ∀ g ∈ xs, f.key = g.key → f.expires = g.expires → f = g := by
    intro f hf g hg hkey hexpires
    refine eq_of_key (hs f hf) (hs g hg) hkey hexpires fun halive => ?_
    obtain ⟨hkind, hsubject, -⟩ := (key_eq_key_iff (hs f hf) (hs g hg)).mp hkey
    by_contra hboot
    exact hc ⟨f, hf, g, hg, halive, hkind ▸ halive, hsubject, hexpires, hboot⟩
  have hd' : ∀ f ∈ ys, ∀ g ∈ ys, f.key = g.key → f.expires = g.expires → f = g := fun f hf g hg =>
    hd f (h.mem_iff.mpr hf) g (h.mem_iff.mpr hg)
  exact merge_congr fun f => by simp only [latest_iff_of_determined hd, latest_iff_of_determined hd', h.mem_iff]

/-- A merged list is sorted and has, of each key, the first of the facts that end last. Merging is idempotent and
incremental, and the order of what is merged matters only where two starts of a peer end together. -/
theorem merge_canonical (xs : List Fact) :
    (merge xs).Pairwise (fun f g => f.key.Precedes g.key) ∧
      (∀ g ∈ xs, ∃! f, f ∈ merge xs ∧ f.key = g.key) ∧ (∀ f, f ∈ merge xs ↔ Latest xs f) ∧
      merge (merge xs) = merge xs ∧ (∀ ys, merge (merge xs ++ ys) = merge (xs ++ ys)) ∧
      (∀ f g : Fact, f.Arises → g.Arises → (f.key = g.key ↔
        f.kind = g.kind ∧ f.subject = g.subject ∧ (f.kind ≠ .alive → f.value = g.value))) ∧
      ((∀ f ∈ xs, f.Arises) → (¬ ∃ f ∈ xs, ∃ g ∈ xs, f.Conflict g) → ∀ ys, xs.Perm ys → merge xs = merge ys) := by
  refine ⟨(ordered_merge xs).imp FactKey.lt_iff_precedes.mp, fun g hg => ?_, fun f => mem_merge_iff, merge_merge xs,
    merge_merge_append xs, fun f g hf hg => key_eq_key_iff hf.suits hg.suits, fun hs hc ys h => ?_⟩
  · obtain ⟨f, hf, hkey, -⟩ := exists_latest hg
    refine ⟨f, ⟨mem_merge_iff.mpr hf, hkey⟩, fun m hm => ?_⟩
    exact (ordered_merge xs).eq_of_key hm.1 (mem_merge_iff.mpr hf) (hm.2.trans hkey.symm)
  · exact merge_perm (fun f hf => (hs f hf).suits) hc h

/-- A membership told of twice and two starts of a peer that end apart. -/
theorem merge_canonical_any_order :
    let k : PublicKey := ⟨.zero 32⟩
    let first : Fact := .alive k (.zero 16) 10000000000
    let second : Fact := .alive k (.ofNatLE 16 1) 20000000000
    let short : Fact := .membership k 30000000000
    let long : Fact := .membership k 90000000000
    (∀ f ∈ [first, long, second, short], f.Arises) ∧
      ∀ ys, [first, long, second, short].Perm ys → merge ys = [second, long] := by
  intro k first second short long
  have harises : ∀ f ∈ [first, long, second, short], f.Arises := by
    intro f hf
    simp only [List.mem_cons, List.not_mem_nil, or_false] at hf
    rcases hf with rfl | rfl | rfl | rfl
    · exact .inl (.alive ..)
    · exact .inl (.membership ..)
    · exact .inl (.alive ..)
    · exact .inl (.membership ..)
  refine ⟨harises, fun ys h => ?_⟩
  have hmerge : merge [first, long, second, short] = [second, long] := by decide
  have hc : ¬ ∃ f ∈ [first, long, second, short], ∃ g ∈ [first, long, second, short], f.Conflict g := by
    simp only [Conflict]
    decide
  rw [← hmerge, (merge_canonical [first, long, second, short]).2.2.2.2.2.2 harises hc ys h]

end MeshFacts.Fact
