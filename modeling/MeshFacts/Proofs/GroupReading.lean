import MeshFacts.Proofs.GroupPacking
import MeshFacts.Proofs.WireRoundTrip

/-! # Reading of groups
A fact is read off the front of octets just where they begin with what is written of a fact, whenever it was written. So
the octets of a group are facts end to end, which are read in their order, or they are facts up to a place where
something else begins, and that is what is wrong with the group. -/
namespace MeshFacts

namespace Fact

/-- Octets are what is written of a fact at some time. -/
structure IsWritten (f : Fact) (bytes : List UInt8) : Prop where
  suits : f.value.Suits f.kind
  encoded : ∃ time, f.encode time = .ok bytes

variable {f : Fact} {bytes rest : List UInt8} {now : Instant}

/-- In front of anything, what is written of a fact is read as that fact. -/
lemma IsWritten.decode (h : f.IsWritten bytes) (now : Instant) :
    ∃ expires, ∀ rest, Fact.decode (bytes ++ rest) now = .ok (f.withExpires expires, rest) := by
  obtain ⟨hs, time, he⟩ := h
  obtain ⟨hl, rfl⟩ := encode_eq_ok_iff.mp he
  let read := f.withExpires (now + (UInt8.ofNat (f.ttl time)).toNat * Clock.second)
  have hl' : read.value.encodedLength ≤ LengthVarint.max := hl
  exact ⟨read.expires, fun rest => decode_form (f := read) hl' hs rfl rest⟩

lemma IsWritten.decode_self (h : f.IsWritten bytes) (now : Instant) :
    ∃ expires, Fact.decode bytes now = .ok (f.withExpires expires, []) := by
  obtain ⟨expires, hd⟩ := h.decode now
  exact ⟨expires, by rw [← hd [], List.append_nil]⟩

lemma isWritten_of_decode (h : Fact.decode bytes now = .ok (f, rest)) :
    ∃ part, f.IsWritten part ∧ bytes = part ++ rest := by
  obtain ⟨-, hs, -⟩ := form_of_decode h
  obtain ⟨⟨part, he, hp⟩, -⟩ := decode_canonical h
  exact ⟨part, ⟨hs, now, he⟩, hp.symm⟩

lemma IsWritten.ne_nil (h : f.IsWritten bytes) : bytes ≠ [] := by
  obtain ⟨-, time, he⟩ := h
  obtain ⟨-, rfl⟩ := encode_eq_ok_iff.mp he
  exact f.formAt_ne_nil time

/-- Octets that cannot be read begin with nothing that is written of a fact. -/
lemma ne_append_of_decode {e : FactError} (he : Fact.decode bytes now = .error e) (h : f.IsWritten rest)
    (others : List UInt8) : bytes ≠ rest ++ others := by
  rintro rfl
  obtain ⟨expires, hd⟩ := h.decode now
  cases he.symm.trans (hd others)

end Fact

namespace SignedGroup

/-- Octets are facts in their written form, none of them a group, and these are what is read of them now. -/
inductive Spells (now : Instant) : List UInt8 → List Fact → Prop
  | nil : Spells now [] []
  | cons {f read : Fact} {part rest : List UInt8} {facts : List Fact} (hw : f.IsWritten part)
      (hk : f.kind ≠ .signedGroup) (hr : Fact.decode part now = .ok (read, [])) (h : Spells now rest facts) :
      Spells now (part ++ rest) (read :: facts)

/-- Octets are facts up to a place where octets stand that cannot be read, or a group. -/
inductive Breaks (now : Instant) : List UInt8 → FactError → Prop
  | malformed {head rest : List UInt8} {facts : List Fact} {e : FactError} (h : Spells now head facts)
      (hne : rest ≠ []) (he : Fact.decode rest now = .error e) : Breaks now (head ++ rest) e
  | nested {head part rest : List UInt8} {facts : List Fact} {f : Fact} (h : Spells now head facts)
      (hw : f.IsWritten part) (hk : f.kind = .signedGroup) : Breaks now (head ++ (part ++ rest)) .nestedSignedGroup

variable {now : Instant} {bytes head part rest : List UInt8} {facts : List Fact} {f read : Fact} {fuel : ℕ}

lemma parseBytes_succ (hne : bytes ≠ []) (hd : Fact.decode bytes now = .ok (f, rest)) :
    parseBytes (fuel + 1) bytes now =
      if f.kind = .signedGroup then .error .nestedSignedGroup else (parseBytes fuel rest now).map (f :: ·) := by
  rw [parseBytes, hd]
  · simp only [bind, Except.bind]
    split_ifs
    · rfl
    · cases parseBytes fuel rest now <;> rfl
  · exact hne

lemma parseBytes_of_error {e : FactError} (hne : bytes ≠ []) (he : Fact.decode bytes now = .error e) :
    parseBytes (fuel + 1) bytes now = .error e := by
  rw [parseBytes, he]
  · rfl
  · exact hne

lemma length_lt_of_isWritten (hw : f.IsWritten part) (hf : (part ++ rest).length ≤ fuel) :
    ∃ n, fuel = n + 1 ∧ rest.length ≤ n := by
  have hpos := List.length_pos_iff.mpr hw.ne_nil
  rw [List.length_append] at hf
  exact ⟨fuel - 1, by omega, by omega⟩

/-- The facts in front are read one after the other, and the reading goes on behind them. -/
lemma Spells.parseBytes_append (h : Spells now head facts) (rest : List UInt8) (hf : (head ++ rest).length ≤ fuel) :
    ∃ left, rest.length ≤ left ∧
      parseBytes fuel (head ++ rest) now = (parseBytes left rest now).map (facts ++ ·) := by
  induction h generalizing fuel with
  | nil =>
    refine ⟨fuel, hf, ?_⟩
    cases hp : parseBytes fuel rest now <;> simp [Except.map, hp]
  | @cons f read part others facts hw hk hr h ih =>
    rw [List.append_assoc] at hf ⊢
    obtain ⟨n, rfl, hn⟩ := length_lt_of_isWritten hw hf
    obtain ⟨left, hleft, hrest⟩ := ih hn
    obtain ⟨expires, hd⟩ := hw.decode now
    obtain rfl : f.withExpires expires = read := by simpa [hr] using (hd []).symm
    refine ⟨left, hleft, ?_⟩
    rw [parseBytes_succ (by simp [hw.ne_nil]) (hd _), if_neg (show (f.withExpires expires).kind ≠ _ from hk), hrest]
    cases parseBytes left rest now <;> rfl

lemma Spells.parseInner {g : SignedGroup} (h : Spells now g.inner facts) : g.parseInner now = .ok facts := by
  have hlength : (g.inner ++ []).length ≤ g.inner.length := by simp
  obtain ⟨left, -, hp⟩ := h.parseBytes_append [] hlength
  rw [List.append_nil] at hp
  rw [SignedGroup.parseInner, hp]
  cases left <;> simp [parseBytes, Except.map]

lemma Breaks.parseInner {g : SignedGroup} {e : FactError} (h : Breaks now g.inner e) : g.parseInner now = .error e := by
  obtain ⟨nonce, tag, inner⟩ := g
  cases h with
  | @malformed head rest facts e h hne he =>
    obtain ⟨left, hleft, hp⟩ := h.parseBytes_append rest le_rfl
    obtain ⟨n, rfl⟩ : ∃ n, left = n + 1 := ⟨left - 1, by have := List.length_pos_iff.mpr hne; omega⟩
    rw [parseBytes_of_error hne he] at hp
    exact hp
  | @nested head part rest facts f h hw hk =>
    obtain ⟨left, hleft, hp⟩ := h.parseBytes_append (part ++ rest) le_rfl
    obtain ⟨n, rfl, -⟩ := length_lt_of_isWritten hw hleft
    obtain ⟨expires, hd⟩ := hw.decode now
    rw [parseBytes_succ (by simp [hw.ne_nil]) (hd rest), if_pos (show (f.withExpires expires).kind = _ from hk)] at hp
    exact hp

/-- Octets are facts to their end or up to a fault. -/
lemma spells_or_breaks (now : Instant) (bytes : List UInt8) :
    (∃ facts, Spells now bytes facts) ∨ ∃ e, Breaks now bytes e := by
  induction hn : bytes.length using Nat.strong_induction_on generalizing bytes with
  | _ n ih =>
    obtain rfl | hne := eq_or_ne bytes []
    · exact .inl ⟨[], .nil⟩
    cases hd : Fact.decode bytes now with
    | error e => exact .inr ⟨e, .malformed .nil hne hd⟩
    | ok p =>
      obtain ⟨f, rest⟩ := p
      obtain ⟨part, hw, rfl⟩ := Fact.isWritten_of_decode hd
      by_cases hk : f.kind = .signedGroup
      · exact .inr ⟨_, .nested .nil hw hk⟩
      obtain ⟨expires, hr⟩ := hw.decode_self now
      have hlt : rest.length < n := by
        have := List.length_pos_iff.mpr hw.ne_nil
        rw [← hn, List.length_append]
        omega
      obtain ⟨facts, h⟩ | ⟨e, h⟩ := ih _ hlt rest rfl
      · exact .inl ⟨_, .cons hw hk hr h⟩
      · have hbehind : Breaks now (part ++ rest) e := by
          cases h with
          | malformed h hne' he =>
            rw [← List.append_assoc]
            exact .malformed (.cons hw hk hr h) hne' he
          | nested h hw' hk' =>
            rw [← List.append_assoc]
            exact .nested (.cons hw hk hr h) hw' hk'
        exact .inr ⟨e, hbehind⟩

/-- A group is read as facts just when they make up its octets. -/
theorem parseInner_eq_ok_iff {g : SignedGroup} : g.parseInner now = .ok facts ↔ Spells now g.inner facts := by
  refine ⟨fun hp => ?_, Spells.parseInner⟩
  obtain ⟨others, h⟩ | ⟨e, h⟩ := spells_or_breaks now g.inner
  · cases h.parseInner.symm.trans hp
    exact h
  · cases h.parseInner.symm.trans hp

end SignedGroup

end MeshFacts
