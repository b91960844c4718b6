import MeshFacts.Broadcast
import MeshFacts.Proofs.FactForms

/-! # Packing of groups
Packing splits what it is given into consecutive parts and writes each part into a group that is not too long.
Reading a group gives its part again. -/
namespace MeshFacts

namespace Fact

/-- What can stand in a group: a fact of parts that suit each other and no group itself. -/
structure Packable (f : Fact) : Prop where
  suits : f.value.Suits f.kind
  not_group : f.kind ≠ .signedGroup

lemma Packable.encodedLength_le {f : Fact} (h : f.Packable) : f.value.encodedLength ≤ 18 := by
  obtain ⟨hs, hg⟩ := h
  generalize f.value = v at hs
  generalize f.kind = a at hs hg
  cases hs with
  | endpoint ip port => cases ip <;> simp [SocketAddr.ofIp, Value.encodedLength]
  | allowedIps net => cases net <;> simp [Value.encodedLength]
  | membership => simp [Value.encodedLength]
  | alive => simp [Value.encodedLength]
  | signedGroup => exact absurd rfl hg

lemma Packable.le_max {f : Fact} (h : f.Packable) : f.value.encodedLength ≤ LengthVarint.max :=
  h.encodedLength_le.trans (by decide)

lemma Packable.encode {f : Fact} (h : f.Packable) (now : Instant) : f.encode now = .ok (f.formAt now) :=
  encode_eq_ok_iff.mpr ⟨h.le_max, rfl⟩

lemma length_formAt (f : Fact) (now : Instant) : (f.formAt now).length = f.encodedLength := f.length_form _

lemma Packable.length_formAt_le {f : Fact} (h : f.Packable) (now : Instant) : (f.formAt now).length ≤ 54 := by
  have hl := h.encodedLength_le
  have hw : LengthVarint.width f.value.encodedLength = 1 := if_pos (by omega)
  rw [length_formAt, encodedLength, hw]
  omega

lemma formAt_ne_nil (f : Fact) (now : Instant) : f.formAt now ≠ [] := by simp [formAt, form]

end Fact

namespace SignedGroup

def written (facts : List Fact) (now : Instant) : List UInt8 := facts.flatMap (·.formAt now)

lemma length_le_written (facts : List Fact) (now : Instant) : facts.length ≤ (written facts now).length := by
  induction facts with
  | nil => simp
  | cons f facts ih =>
    have hpos := List.length_pos_iff.mpr (f.formAt_ne_nil now)
    rw [written] at ih ⊢
    simp only [List.flatMap_cons, List.length_append, List.length_cons]
    omega

lemma parseBytes_written {facts : List Fact} (hp : ∀ f ∈ facts, f.Packable) (now : Instant) {fuel : ℕ}
    (hf : facts.length ≤ fuel) :
    parseBytes fuel (written facts now) now = .ok (facts.map (·.asRead now)) := by
  induction facts generalizing fuel with
  | nil => cases fuel <;> rfl
  | cons f facts ih =>
    obtain ⟨h, hrest⟩ := List.forall_mem_cons.mp hp
    obtain ⟨fuel, rfl⟩ : ∃ n, fuel = n + 1 := ⟨fuel - 1, by simp at hf; omega⟩
    have hd := Fact.decode_formAt h.le_max h.suits now (written facts now)
    obtain ⟨b, bs, hb⟩ : ∃ b bs, f.formAt now ++ written facts now = b :: bs := ⟨_, _, rfl⟩
    have hk : (f.asRead now).kind ≠ .signedGroup := h.not_group
    have hi := ih hrest (Nat.le_of_succ_le_succ hf)
    rw [written, List.flatMap_cons, ← written, hb, parseBytes, ← hb, hd]
    · simp [bind, Except.bind, hk, hi]
    · simp

theorem parseInner_written {facts : List Fact} (hp : ∀ f ∈ facts, f.Packable) {now : Instant}
    {g : SignedGroup} (hg : g.inner = written facts now) :
    g.parseInner now = .ok (facts.map (·.asRead now)) := by
  rw [parseInner, hg]
  exact parseBytes_written hp now (length_le_written facts now)

end SignedGroup

namespace Packing
open SignedGroup (written)

lemma le_maxGroupLength : 54 ≤ maxGroupLength := by decide

/-- Groups, the newest first, that hold facts in their order. -/
inductive Fills (max : ℕ) (now : Instant) : List (List UInt8) → List Fact → Prop
  | nil : Fills max now [] []
  | cons {groups : List (List UInt8)} {facts part : List Fact} (h : Fills max now groups facts)
      (hne : part ≠ []) (hl : (written part now).length ≤ max) :
      Fills max now (written part now :: groups) (facts ++ part)

/-- What the packing has taken up. -/
def Holds (p : Packing) (facts : List Fact) : Prop := Fills p.maxLength p.now p.newestFirst facts

lemma holds_empty (max : ℕ) (now : Instant) : (empty max now).Holds [] := .nil

lemma Holds.grow {p q : Packing} {facts : List Fact} {f : Fact} (h : p.Holds facts)
    (hq : p.grown? (f.formAt p.now) = some q) :
    q.Holds (facts ++ [f]) ∧ q.maxLength = p.maxLength ∧ q.now = p.now := by
  obtain ⟨max, now, groups⟩ := p
  have h : Fills max now groups facts := h
  cases h with
  | nil => cases hq
  | @cons groups facts part hrest hne hl =>
    simp only [grown?] at hq
    split_ifs at hq with hfit
    cases hq
    have hw : written part now ++ f.formAt now = written (part ++ [f]) now := by
      simp [written]
    refine ⟨?_, rfl, rfl⟩
    rw [List.append_assoc, Holds]
    simp only [hw]
    exact .cons hrest (by simp) (by rw [← hw, List.length_append]; exact hfit)

lemma Holds.of_add {p q : Packing} {facts : List Fact} {f : Fact} (h : p.Holds facts) (hadd : p.add f = .ok q) :
    q.Holds (facts ++ [f]) ∧ q.maxLength = p.maxLength ∧ q.now = p.now := by
  obtain ⟨bytes, hencode, hadd⟩ := bind_eq_ok_iff.mp hadd
  obtain ⟨-, rfl⟩ := Fact.encode_eq_ok_iff.mp hencode
  split_ifs at hadd with hlong
  cases hg : p.grown? (f.formAt p.now) with
  | some grown =>
    rw [hg] at hadd
    cases hadd
    exact h.grow hg
  | none =>
    rw [hg] at hadd
    cases hadd
    have hw : f.formAt p.now = written [f] p.now := by simp [written]
    refine ⟨?_, rfl, rfl⟩
    simp only [Option.getD_none, Holds, hw]
    exact .cons h (by simp) (hw ▸ not_lt.mp hlong)

lemma Holds.of_addIfRoom {p q : Packing} {facts : List Fact} {f : Fact} (h : p.Holds facts)
    (hadd : p.addIfRoom f = .ok (true, q)) :
    q.Holds (facts ++ [f]) ∧ q.maxLength = p.maxLength ∧ q.now = p.now := by
  obtain ⟨bytes, hencode, hadd⟩ := bind_eq_ok_iff.mp hadd
  obtain ⟨-, rfl⟩ := Fact.encode_eq_ok_iff.mp hencode
  cases hg : p.grown? (f.formAt p.now) with
  | some grown =>
    rw [hg] at hadd
    cases hadd
    exact h.grow hg
  | none => simp [hg] at hadd

lemma eq_of_addIfRoom {p q : Packing} {f : Fact} (hadd : p.addIfRoom f = .ok (false, q)) : q = p := by
  obtain ⟨bytes, -, hadd⟩ := bind_eq_ok_iff.mp hadd
  cases hg : p.grown? bytes with
  | some grown => simp [hg] at hadd
  | none =>
    rw [hg] at hadd
    cases hadd
    rfl

/-- A fact is always taken up, at the end, where groups have room for one. -/
lemma Holds.add {p : Packing} {facts : List Fact} {f : Fact} (h : p.Holds facts) (hf : f.Packable)
    (hmax : 54 ≤ p.maxLength) :
    ∃ q, p.add f = .ok q ∧ q.Holds (facts ++ [f]) ∧ q.maxLength = p.maxLength ∧ q.now = p.now := by
  have hfit := (hf.length_formAt_le p.now).trans hmax
  obtain ⟨q, hq⟩ : ∃ q, p.add f = .ok q := by
    simp [Packing.add, hf.encode, bind, Except.bind, if_neg (not_lt.mpr hfit)]
  exact ⟨q, hq, h.of_add hq⟩

lemma Holds.addIfRoom {p : Packing} {facts : List Fact} {f : Fact} (h : p.Holds facts) (hf : f.Packable) :
    (∃ q, p.addIfRoom f = .ok (true, q) ∧ q.Holds (facts ++ [f]) ∧ q.maxLength = p.maxLength ∧
      q.now = p.now) ∨ p.addIfRoom f = .ok (false, p) := by
  simp only [Packing.addIfRoom, hf.encode, bind, Except.bind]
  cases hg : p.grown? (f.formAt p.now) with
  | some q => exact .inl ⟨q, rfl, h.grow hg⟩
  | none => exact .inr rfl

lemma Fills.parts {max : ℕ} {now : Instant} {groups : List (List UInt8)} {facts : List Fact}
    (h : Fills max now groups facts) :
    ∃ parts : List (List Fact), groups.reverse = parts.map (written · now) ∧ parts.flatten = facts ∧
      ∀ part ∈ parts, part ≠ [] ∧ (written part now).length ≤ max := by
  induction h with
  | nil => exact ⟨[], rfl, rfl, by simp⟩
  | @cons groups facts part _ hne hl ih =>
    obtain ⟨parts, hg, hf, hp⟩ := ih
    refine ⟨parts ++ [part], by simp [hg], by simp [hf], ?_⟩
    intro other ho
    rcases List.mem_append.mp ho with ho | ho
    · exact hp other ho
    · rw [List.mem_singleton.mp ho]
      exact ⟨hne, hl⟩

def filled (p : Packing) : List (List UInt8) := p.groups.filter fun g => !g.isEmpty

/-- The groups that go out, by the facts in each. -/
structure Splits (p : Packing) (now : Instant) (parts : List (List Fact)) : Prop where
  time : p.now = now
  filled : p.filled = parts.map (written · now)
  short : ∀ part ∈ parts, (written part now).length ≤ maxGroupLength

/-- What is held goes out in parts, in order. -/
lemma Holds.exists_splits {p : Packing} {facts : List Fact} (h : p.Holds facts) (hmax : p.maxLength = maxGroupLength) :
    ∃ parts, p.Splits p.now parts ∧ parts.flatten = facts := by
  obtain ⟨parts, hg, hf, hparts⟩ := Fills.parts h
  refine ⟨parts, ⟨rfl, ?_, fun part hpart => hmax ▸ (hparts part hpart).2⟩, hf⟩
  rw [Packing.filled, groups, hg, List.filter_eq_self]
  intro group hgroup
  obtain ⟨part, hpart, rfl⟩ := List.mem_map.mp hgroup
  have hlen := SignedGroup.length_le_written part p.now
  have hne := List.length_pos_iff.mpr (hparts part hpart).1
  simpa using List.ne_nil_of_length_pos (hne.trans_le hlen)

end Packing

namespace Broadcast

lemma packAll_holds {p : Packing} {held facts : List Fact} (h : p.Holds held)
    (hp : ∀ f ∈ facts, f.Packable) (hmax : 54 ≤ p.maxLength) :
    ∃ q, packAll p facts = .ok q ∧ q.Holds (held ++ facts) ∧ q.maxLength = p.maxLength ∧ q.now = p.now := by
  induction facts generalizing p held with
  | nil => exact ⟨p, rfl, by simpa using h, rfl, rfl⟩
  | cons f facts ih =>
    obtain ⟨hf, hrest⟩ := List.forall_mem_cons.mp hp
    obtain ⟨q, hq, hheld, hm, hn⟩ := h.add hf hmax
    obtain ⟨r, hr, hall, hm', hn'⟩ := ih hheld hrest (hm ▸ hmax)
    refine ⟨r, ?_, by simpa using hall, hm'.trans hm, hn'.trans hn⟩
    simp only [packAll, hq, bind, Except.bind, hr]

/-- A selection always succeeds. What is selected is of the chunk, and the packing holds just that. -/
theorem select_holds (l : Link) (k : Knowledge) (peer : PublicKey) {chunk : FactChunk}
    (hp : ∀ f ∈ chunk.facts, f.Packable) :
    ∃ packing included, select l k peer chunk = .ok (packing, included) ∧ packing.Holds included ∧
      packing.maxLength = Packing.maxGroupLength ∧ packing.now = chunk.now ∧
      ∀ f ∈ included, f.Packable := by
  set due := chunk.facts.filter fun f => concerns peer chunk.now f && isDue k peer chunk.now f with hdue
  have hpd : ∀ f ∈ due, f.Packable := fun f hf => hp f (List.mem_of_mem_filter hf)
  obtain ⟨p, hpack, hheld, hm, hn⟩ := packAll_holds (Packing.holds_empty Packing.maxGroupLength chunk.now)
    hpd Packing.le_maxGroupLength
  have hmax : p.maxLength = Packing.maxGroupLength := hm
  simp only [select, ← hdue, Packing.forPackets, hpack, bind, Except.bind]
  cases ha : ownAlive l.self chunk.facts with
  | none => exact ⟨p, due, rfl, hheld, hmax, hn, hpd⟩
  | some alive =>
    have hpa : alive.Packable := hp alive (List.mem_reverse.mp (List.mem_of_find?_eq_some ha))
    have hpall : ∀ f ∈ due ++ [alive], f.Packable := by
      intro f hf
      rcases List.mem_append.mp hf with hf | hf
      · exact hpd f hf
      · exact List.mem_singleton.mp hf ▸ hpa
    by_cases hk : k.peerKnows peer alive Clock.alivePeriod = true
    · simp only [hk, if_true]
      rcases hheld.addIfRoom hpa with ⟨q, hq, hh, hqm, hqn⟩ | hq
      · simp only [hq]
        exact ⟨q, due ++ [alive], rfl, by simpa using hh, hqm.trans hmax, hqn.trans hn, hpall⟩
      · simp only [hq]
        exact ⟨p, due, rfl, hheld, hmax, hn, hpd⟩
    · obtain ⟨q, hq, hh, hqm, hqn⟩ := hheld.add hpa (hmax ▸ Packing.le_maxGroupLength)
      simp only [hk, Bool.false_eq_true, if_false, hq]
      exact ⟨q, due ++ [alive], rfl, by simpa using hh, hqm.trans hmax, hqn.trans hn, hpall⟩

end Broadcast

end MeshFacts
