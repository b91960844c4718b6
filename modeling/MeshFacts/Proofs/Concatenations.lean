import MeshFacts.Proofs.AdmittedFacts
import MeshFacts.Proofs.GroupReading

/-! # Concatenations of facts
Groups are read by taking facts off the front of their octets. That comes to an end on any octets, and succeeds just on
those that are facts in their written form, end to end, none of them a group. Of the facts that are written so now, what
is read are those that end after whole seconds, as many as an octet holds. Since each fact tells its own length, what is
read of two groups' octets end to end is what is read of each. -/
namespace MeshFacts

namespace Fact

/-- Octets that a fact may have inside a group: it is none itself and was written at some time. -/
structure Inside (f : Fact) (part : List UInt8) : Prop where
  made : f.IsMade
  not_group : f.kind ≠ .signedGroup
  written : ∃ time, f.encode time = .ok part

/-- Octets that a fact has inside a group when it is written now with nothing of it lost: neither a scope nor a part
of a second. -/
structure InsideNow (now : Instant) (f : Fact) (part : List UInt8) : Prop where
  made : f.IsMade
  not_group : f.kind ≠ .signedGroup
  no_scope : ¬ f.value.HasScope
  whole : ∃ n : ℕ, n ≤ 255 ∧ f.expires = now + n * Clock.second
  written : f.encode now = .ok part

variable {f : Fact} {part : List UInt8} {now : Instant}

lemma Inside.isWritten (h : f.Inside part) : f.withoutScope.IsWritten part := by
  obtain ⟨time, hw⟩ := h.written
  obtain ⟨hl, rfl⟩ := encode_eq_ok_iff.mp hw
  refine ⟨h.made.suits, time, encode_eq_ok_iff.mpr ⟨?_, (formAt_withoutScope f time).symm⟩⟩
  simpa [withoutScope] using hl

lemma InsideNow.suits (h : f.InsideNow now part) : f.value.Suits f.kind :=
  Value.withoutScope_eq_self_iff.mpr h.no_scope ▸ h.made.suits

lemma InsideNow.decode (h : f.InsideNow now part) : Fact.decode part now = .ok (f, []) := by
  obtain ⟨hl, rfl⟩ := encode_eq_ok_iff.mp h.written
  obtain ⟨n, hn, he⟩ := h.whole
  have hread := decode_formAt hl h.suits now []
  rw [List.append_nil] at hread
  rw [hread, asRead, ttl_of_expires hn he, ← he]
  rfl

lemma insideNow_of_decode (h : Fact.decode part now = .ok (f, [])) (hk : f.kind ≠ .signedGroup) :
    f.InsideNow now part := by
  have harises : f.Arises := .inr ⟨part, now, [], h⟩
  obtain ⟨-, -, ttl, he, -⟩ := form_of_decode h
  obtain ⟨⟨written, hw, hpart⟩, -⟩ := decode_canonical h
  rw [List.append_nil] at hpart
  subst hpart
  refine ⟨.inl harises, hk, Value.withoutScope_eq_self_iff.mp harises.withoutScope, ⟨ttl.toNat, ?_, he⟩, hw⟩
  exact Nat.le_of_lt_succ ttl.toNat_lt

end Fact

namespace SignedGroup

/-- Octets are those of facts, one after the other. -/
inductive Concatenates (inside : Fact → List UInt8 → Prop) : List Fact → List UInt8 → Prop
  | nil : Concatenates inside [] []
  | cons {f : Fact} {facts : List Fact} {part rest : List UInt8} (hf : inside f part)
      (h : Concatenates inside facts rest) : Concatenates inside (f :: facts) (part ++ rest)

/-- How the reading of a group ends: fact after fact is taken off until none are left or what is there is no fact, or
is a group. -/
inductive Ends (now : Instant) : List Fact → List UInt8 → Except FactError (List Fact) → Prop
  | done {facts : List Fact} : Ends now facts [] (.ok facts)
  | fault {facts : List Fact} {bytes : List UInt8} {e : FactError} (hne : bytes ≠ [])
      (he : Fact.decode bytes now = .error e) : Ends now facts bytes (.error e)
  | group {facts : List Fact} {bytes rest : List UInt8} {f : Fact} (hne : bytes ≠ [])
      (hd : Fact.decode bytes now = .ok (f, rest)) (hk : f.kind = .signedGroup) :
      Ends now facts bytes (.error .nestedSignedGroup)
  | fact {facts : List Fact} {bytes rest : List UInt8} {f : Fact} {outcome : Except FactError (List Fact)}
      (hne : bytes ≠ []) (hd : Fact.decode bytes now = .ok (f, rest)) (hk : f.kind ≠ .signedGroup)
      (h : Ends now (facts ++ [f]) rest outcome) : Ends now facts bytes outcome

variable {now : Instant} {bytes others : List UInt8} {facts read : List Fact} {fuel : ℕ}
  {outcome other : Except FactError (List Fact)}

/-- The reading ends in one way only. -/
lemma Ends.unique (h : Ends now read bytes outcome) (h' : Ends now read bytes other) : outcome = other := by
  induction h with
  | done =>
    cases h' with
    | done => rfl
    | fault hne | group hne | fact hne => exact absurd rfl hne
  | fault hne he =>
    cases h' with
    | done => exact absurd rfl hne
    | fault _ he' => rw [← Except.error.inj (he.symm.trans he')]
    | group _ hd | fact _ hd => cases he.symm.trans hd
  | group hne hd hk =>
    cases h' with
    | done => exact absurd rfl hne
    | fault _ he => cases he.symm.trans hd
    | group => rfl
    | fact _ hd' hk' =>
      cases hd.symm.trans hd'
      exact absurd hk hk'
  | fact hne hd hk _ ih =>
    cases h' with
    | done => exact absurd rfl hne
    | fault _ he => cases he.symm.trans hd
    | group _ hd' hk' =>
      cases hd.symm.trans hd'
      exact absurd hk' hk
    | fact _ hd' _ h' =>
      cases hd.symm.trans hd'
      exact ih h'

/-- As many turns as there are octets are enough, since each takes some octets off. -/
lemma ends_parseBytes (read : List Fact) (hf : bytes.length ≤ fuel) :
    Ends now read bytes ((parseBytes fuel bytes now).map (read ++ ·)) := by
  have hdone : ∀ {facts : List Fact}, Ends now facts [] (.ok facts) := .done
  induction fuel generalizing read bytes with
  | zero =>
    obtain rfl := List.length_eq_zero_iff.mp (Nat.le_zero.mp hf)
    simpa [parseBytes, Except.map] using hdone
  | succ fuel ih =>
    obtain rfl | hne := eq_or_ne bytes []
    · simpa [parseBytes, Except.map] using hdone
    cases hd : Fact.decode bytes now with
    | error e =>
      rw [parseBytes_of_error hne hd]
      exact .fault hne hd
    | ok p =>
      obtain ⟨f, rest⟩ := p
      rw [parseBytes_succ hne hd]
      split_ifs with hk
      · exact .group hne hd hk
      · obtain ⟨part, hw, rfl⟩ := Fact.isWritten_of_decode hd
        obtain ⟨n, hn, hrest⟩ := length_lt_of_isWritten hw hf
        obtain rfl := Nat.succ.inj hn
        have hnext := ih (read ++ [f]) hrest
        refine .fact hne hd hk ?_
        cases hp : parseBytes fuel rest now <;> simpa [hp, Except.map] using hnext

lemma ends_iff {g : SignedGroup} : Ends now [] g.inner outcome ↔ g.parseInner now = outcome := by
  have h : Ends now [] g.inner (g.parseInner now) := by
    have hends : Ends now [] g.inner _ := ends_parseBytes [] g.inner.length.le_refl
    rw [parseInner]
    cases hp : parseBytes g.inner.length g.inner now <;> simpa [hp, Except.map] using hends
  exact ⟨fun h' => h.unique h', fun he => he ▸ h⟩

/-- What is read of a group are the facts that its octets are when they are written now. -/
lemma spells_iff_concatenates : Spells now bytes facts ↔ Concatenates (Fact.InsideNow now) facts bytes := by
  constructor
  · intro h
    induction h with
    | nil => exact .nil
    | @cons f read part rest facts hw hk hr _ ih =>
      obtain ⟨expires, hd⟩ := hw.decode_self now
      obtain ⟨rfl, -⟩ := Prod.mk.inj (Except.ok.inj (hd.symm.trans hr))
      exact .cons (Fact.insideNow_of_decode hr hk) ih
  · intro h
    induction h with
    | nil => exact .nil
    | cons hf _ ih => exact .cons ⟨hf.suits, now, hf.written⟩ hf.not_group hf.decode ih

lemma exists_spells_of_concatenates (h : Concatenates Fact.Inside facts bytes) : ∃ read, Spells now bytes read := by
  induction h with
  | nil => exact ⟨[], .nil⟩
  | cons hf _ ih =>
    obtain ⟨read, hread⟩ := ih
    obtain ⟨expires, hd⟩ := hf.isWritten.decode_self now
    exact ⟨_, .cons hf.isWritten hf.not_group hd hread⟩

lemma Concatenates.imp {p q : Fact → List UInt8 → Prop} (h : Concatenates p facts bytes)
    (hpq : ∀ f part, p f part → q f part) : Concatenates q facts bytes := by
  induction h with
  | nil => exact .nil
  | cons hf _ ih => exact .cons (hpq _ _ hf) ih

lemma Spells.append {ys : List Fact} (h : Spells now bytes facts) (h' : Spells now others ys) :
    Spells now (bytes ++ others) (facts ++ ys) := by
  induction h with
  | nil => exact h'
  | cons hw hk hr _ ih =>
    rw [List.append_assoc]
    exact .cons hw hk hr ih

lemma Spells.append_breaks {e : FactError} (h : Spells now bytes facts) (h' : Breaks now others e) :
    Breaks now (bytes ++ others) e := by
  cases h' with
  | malformed hhead hne he =>
    rw [← List.append_assoc]
    exact .malformed (h.append hhead) hne he
  | nested hhead hw hk =>
    rw [← List.append_assoc]
    exact .nested (h.append hhead) hw hk

/-- Behind octets that are facts a group goes on as what is behind them would on its own. -/
lemma Spells.parseInner_append {g : SignedGroup} (h : Spells now g.inner facts) (tail : List UInt8) :
    { g with inner := g.inner ++ tail }.parseInner now =
      ({ g with inner := tail }.parseInner now).map (facts ++ ·) := by
  obtain ⟨ys, hys⟩ | ⟨e, he⟩ := spells_or_breaks now tail
  · rw [Spells.parseInner (g := { g with inner := g.inner ++ tail }) (h.append hys),
      Spells.parseInner (g := { g with inner := tail }) hys]
    rfl
  · rw [Breaks.parseInner (g := { g with inner := g.inner ++ tail }) (h.append_breaks he),
      Breaks.parseInner (g := { g with inner := tail }) he]
    rfl

/-- A group is read just if its octets are those of facts, end to end, none a group. What is read are the only such
facts without scopes, and without the flow labels that are left out here, that end whole seconds from now, 255 at most. -/
theorem parseInner_concatenation (g : SignedGroup) (now : Instant) :
    (∀ outcome, Ends now [] g.inner outcome ↔ g.parseInner now = outcome) ∧
      ((∃ facts, g.parseInner now = .ok facts) ↔ ∃ facts, Concatenates Fact.Inside facts g.inner) ∧
      (∀ facts, g.parseInner now = .ok facts ↔ Concatenates (Fact.InsideNow now) facts g.inner ∧
        ∀ others, Concatenates (Fact.InsideNow now) others g.inner → others = facts) ∧
      (g.inner = [] → g.parseInner now = .ok []) ∧
      ∀ facts, g.parseInner now = .ok facts → ∀ tail, { g with inner := g.inner ++ tail }.parseInner now =
        ({ g with inner := tail }.parseInner now).map (facts ++ ·) := by
  have hread : ∀ facts, g.parseInner now = .ok facts ↔ Concatenates (Fact.InsideNow now) facts g.inner := fun facts =>
    parseInner_eq_ok_iff.trans spells_iff_concatenates
  refine ⟨fun outcome => ends_iff, ⟨?_, ?_⟩, fun facts => ⟨fun h => ⟨(hread facts).mp h, ?_⟩, fun h => ?_⟩, ?_, ?_⟩
  · rintro ⟨facts, h⟩
    exact ⟨facts, ((hread facts).mp h).imp fun f part hf => ⟨hf.made, hf.not_group, now, hf.written⟩⟩
  · rintro ⟨facts, h⟩
    obtain ⟨read, hs⟩ := exists_spells_of_concatenates h
    exact ⟨read, hs.parseInner⟩
  · intro others ho
    exact Except.ok.inj (((hread others).mpr ho).symm.trans h)
  · exact (hread facts).mpr h.1
  · intro he
    exact (hread []).mpr (he ▸ .nil)
  · intro facts h
    exact (parseInner_eq_ok_iff.mp h).parseInner_append

/-- A group that holds a membership goes on with what is put behind it. -/
theorem parseInner_concatenation_memberships :
    let k : PublicKey := ⟨.zero 32⟩
    let part : UInt8 → List UInt8 := fun ttl => [0x6d, ttl, 32, 0] ++ List.replicate 32 0
    let g : SignedGroup := ⟨.zero 24, .zero 16, part 30⟩
    g.parseInner 0 = .ok [.membership k 30000000000] ∧
      { g with inner := part 30 ++ part 255 }.parseInner 0 =
        .ok [.membership k 30000000000, .membership k 255000000000] ∧
      { g with inner := part 30 ++ [0x6d, 9] }.parseInner 0 = .error (.truncatedHeader 2) := by
  intro k part g
  have h : g.parseInner 0 = .ok [.membership k 30000000000] := by decide +kernel
  have happend := (parseInner_concatenation g 0).2.2.2.2 _ h
  have hnext : { g with inner := part 255 }.parseInner 0 = .ok [.membership k 255000000000] := by decide +kernel
  have hcut : { g with inner := [0x6d, 9] }.parseInner 0 = .error (.truncatedHeader 2) := by decide +kernel
  exact ⟨h, by rw [happend, hnext]; rfl, by rw [happend, hcut]; rfl⟩

/-- Endpoints that end in 256 seconds and in 255, with a scope and without, are written alike. -/
theorem parseInner_several_concatenations :
    let k : PublicKey := ⟨.zero 32⟩
    let addr : V6 := 0xfe800000000000000000000000000001
    let g : SignedGroup := ⟨.zero 24, .zero 16, [0x36, 255, 32, 18] ++ List.replicate 32 0 ++
      [0xfe, 0x80, 0, 0, 0, 0, 0, 0, 0, 0, 0, 0, 0, 0, 0, 1, 0, 5]⟩
    let f : Fact := ⟨.endpointV6, k, .ipPort (.v6 addr 5 0), 0 + (255 : ℕ) * Clock.second⟩
    let later : Fact := ⟨.endpointV6, k, .ipPort (.v6 addr 5 0), 0 + (256 : ℕ) * Clock.second⟩
    let inScope : Fact := ⟨.endpointV6, k, .ipPort (.v6 addr 5 3), 0 + (255 : ℕ) * Clock.second⟩
    g.parseInner 0 = .ok [f] ∧
      (∀ e ∈ [f, later, inScope], Fact.new e.kind e.subject e.value e.expires = .ok e ∧ e.kind ≠ .signedGroup ∧
        e.encode 0 = .ok g.inner) ∧ [later] ≠ [f] ∧ [inScope] ≠ [f] := by
  decide +kernel

end SignedGroup

end MeshFacts
