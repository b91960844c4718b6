import MeshFacts.Proofs.Delivery

/-! # Runs of a packing
Facts are given to a packing one after the other, each to be taken up in any case or only if the current group has room.
A step lemma says what one call does to the facts that are held, and from it follows what the groups are after any row of
calls: the facts that were taken up, cut between facts into groups that are not too long. -/
namespace MeshFacts.Packing
open SignedGroup (written)

section
variable {p q : Packing} {f : Fact} {e : FactError}

/-- A fact is refused only if it cannot be written, or cannot stand even in a group of its own. -/
lemma add_eq_error_iff :
    p.add f = .error e ↔ f.encode p.now = .error e ∨
      ∃ bytes, f.encode p.now = .ok bytes ∧ p.maxLength < bytes.length ∧ e = .factTooLarge bytes.length p.maxLength := by
  simp only [add]
  cases hencode : f.encode p.now with
  | error cause => simp [bind, Except.bind]
  | ok bytes =>
    by_cases hlong : p.maxLength < bytes.length
    · simp [bind, Except.bind, hlong, eq_comm]
    · simp [bind, Except.bind, hlong]

lemma length_groups_of_grown {bytes : List UInt8} (h : p.grown? bytes = some q) :
    q.groups.length = p.groups.length := by
  obtain ⟨max, now, groups⟩ := p
  cases groups with
  | nil => cases h
  | cons g groups =>
    simp only [grown?] at h
    split_ifs at h
    cases h
    simp [Packing.groups]

/-- A fact that is taken up only if there is room begins no group. -/
lemma length_groups_addIfRoom {took : Bool} (h : p.addIfRoom f = .ok (took, q)) :
    q.groups.length = p.groups.length := by
  obtain ⟨bytes, -, h⟩ := bind_eq_ok_iff.mp h
  cases hg : p.grown? bytes with
  | some grown =>
    rw [hg] at h
    cases h
    exact length_groups_of_grown hg
  | none =>
    rw [hg] at h
    cases h
    rfl

/-- What is done with the octets of a fact succeeds only if the fact can be written. -/
lemma encode_of_bind {α : Type} {now : Instant} {next : List UInt8 → Except FactError α} {a : α}
    (h : f.encode now >>= next = .ok a) : f.encode now = .ok (f.formAt now) := by
  obtain ⟨bytes, hencode, -⟩ := bind_eq_ok_iff.mp h
  rw [hencode, (Fact.encode_eq_ok_iff.mp hencode).2]

end

inductive Call where
  /-- To be taken up, in a new group if need be. -/
  | add (fact : Fact)
  /-- To be taken up if the current group has room. -/
  | addIfRoom (fact : Fact)
deriving DecidableEq, Repr

namespace Call

def fact : Call → Fact
  | add f => f
  | addIfRoom f => f

/-- Whether the fact was taken up, and the packing then. A call that fails leaves the packing as it was. -/
def make (p : Packing) : Call → Except FactError Bool × Packing
  | add f =>
    match p.add f with
    | .ok q => (.ok true, q)
    | .error e => (.error e, p)
  | addIfRoom f =>
    match p.addIfRoom f with
    | .ok (took, q) => (.ok took, q)
    | .error e => (.error e, p)

end Call

def after (p : Packing) (calls : List Call) : Packing := calls.foldl (fun q c => (c.make q).2) p

def taken : Packing → List Call → List Fact
  | _, [] => []
  | p, c :: calls =>
    match c.make p with
    | (.ok true, q) => c.fact :: taken q calls
    | (_, q) => taken q calls

/-- A call takes its fact up as the last that is held, or changes nothing. -/
inductive Makes (p : Packing) (facts : List Fact) (c : Call) : Except FactError Bool × Packing → Prop
  | takes {q : Packing} (hencode : c.fact.encode p.now = .ok (c.fact.formAt p.now))
      (hholds : q.Holds (facts ++ [c.fact])) (hmax : q.maxLength = p.maxLength) (hnow : q.now = p.now) :
      Makes p facts c (.ok true, q)
  | leaves {answer : Except FactError Bool} (hanswer : answer ≠ .ok true) : Makes p facts c (answer, p)

section
variable {p : Packing} {facts : List Fact}

lemma Holds.makes (h : p.Holds facts) (c : Call) : Makes p facts c (c.make p) := by
  cases c with
  | add f =>
    simp only [Call.make]
    cases hadd : p.add f with
    | error e => exact .leaves (by simp)
    | ok q =>
      obtain ⟨hholds, hmax, hnow⟩ := h.of_add hadd
      exact .takes (encode_of_bind hadd) hholds hmax hnow
  | addIfRoom f =>
    simp only [Call.make]
    cases hadd : p.addIfRoom f with
    | error e => exact .leaves (by simp)
    | ok r =>
      obtain ⟨took, q⟩ := r
      cases took with
      | true =>
        obtain ⟨hholds, hmax, hnow⟩ := h.of_addIfRoom hadd
        exact .takes (encode_of_bind hadd) hholds hmax hnow
      | false =>
        obtain rfl := eq_of_addIfRoom hadd
        exact .leaves (by simp)

lemma Holds.make_of_ne (h : p.Holds facts) {c : Call} (hc : (c.make p).1 ≠ .ok true) : (c.make p).2 = p := by
  obtain ⟨answer, q, hmake⟩ : ∃ answer q, c.make p = (answer, q) := ⟨_, _, rfl⟩
  have hmakes := h.makes c
  rw [hmake] at hmakes hc ⊢
  cases hmakes with
  | takes => exact absurd rfl hc
  | leaves => rfl

lemma Holds.after (h : p.Holds facts) (calls : List Call) :
    (p.after calls).Holds (facts ++ p.taken calls) ∧ (p.after calls).maxLength = p.maxLength ∧
      (p.after calls).now = p.now ∧ ∀ f ∈ p.taken calls, f.encode p.now = .ok (f.formAt p.now) := by
  induction calls generalizing p facts with
  | nil => simpa [Packing.after, taken] using h
  | cons c calls ih =>
    obtain ⟨answer, q, hmake⟩ : ∃ answer q, c.make p = (answer, q) := ⟨_, _, rfl⟩
    have hmakes := h.makes c
    rw [hmake] at hmakes
    have hafter : p.after (c :: calls) = q.after calls := by simp [Packing.after, hmake]
    rw [hafter]
    cases hmakes with
    | takes hencode hholds hmax hnow =>
      have htaken : p.taken (c :: calls) = c.fact :: q.taken calls := by simp [taken, hmake]
      obtain ⟨hheld, hm, hn, hwritten⟩ := ih hholds
      rw [htaken]
      refine ⟨by simpa using hheld, hm.trans hmax, hn.trans hnow, ?_⟩
      rw [List.forall_mem_cons]
      exact ⟨hencode, hnow ▸ hwritten⟩
    | leaves hanswer =>
      have htaken : p.taken (c :: calls) = p.taken calls := by
        rw [taken, hmake]
        split
        · rename_i heq
          exact absurd (Prod.mk.inj heq).1 hanswer
        · rename_i heq
          rw [(Prod.mk.inj heq).2]
      rw [htaken]
      exact ih h

/-- The groups are what is held, cut between facts; none of them is empty or too long. -/
lemma Holds.groups_eq (h : p.Holds facts) :
    (∃ parts : List (List Fact), parts.flatten = facts ∧ p.groups = parts.map (written · p.now)) ∧
      ∀ group ∈ p.groups, group ≠ [] ∧ group.length ≤ p.maxLength := by
  obtain ⟨parts, hgroups, hflat, hparts⟩ := Fills.parts h
  have hgroups : p.groups = parts.map (written · p.now) := hgroups
  refine ⟨⟨parts, hflat, hgroups⟩, ?_⟩
  rw [hgroups, List.forall_mem_map]
  intro part hpart
  obtain ⟨hne, hlong⟩ := hparts part hpart
  have hlength := SignedGroup.length_le_written part p.now
  exact ⟨List.ne_nil_of_length_pos ((List.length_pos_iff.mpr hne).trans_le hlength), hlong⟩

/-- Whatever is signed of a packing for packets can be written, and fits a safe payload. -/
lemma Holds.signed_fits (h : p.Holds facts) (hmax : p.maxLength = maxGroupLength) (s : Signer) (nonces : NonceSupply)
    (peer : PublicKey) :
    ∀ f ∈ (p.signedGroups s nonces peer).1,
      ∃ bytes, f.encode p.now = .ok bytes ∧ bytes.length ≤ safePayload := by
  obtain ⟨parts, -, hgroups⟩ := h.signedGroups hmax s nonces peer
  refine ((List.forall₂_and_left _ _).mp (hgroups.imp fun f part hgroup => ⟨?_, hgroup⟩)).1
  exact ⟨f.formAt p.now, Fact.encode_eq_ok_iff.mpr ⟨hgroup.le_max, rfl⟩, hgroup.length_formAt_le⟩

end

/-- Whatever calls are made to an empty packing, its groups are the facts that it took up, in order and cut between
facts, none of them empty or too long. Calls that fail change nothing. -/
theorem groups_after (max : ℕ) (now : Instant) (calls : List Call) :
    let p := (empty max now).after calls
    let facts := (empty max now).taken calls
    (∀ f ∈ facts, f.encode now = .ok (f.formAt now)) ∧
      (∃ parts : List (List Fact), parts.flatten = facts ∧
        p.groups = parts.map fun part => part.flatMap (·.formAt now)) ∧
      p.groups.flatten = facts.flatMap (·.formAt now) ∧
      (∀ group ∈ p.groups, group ≠ [] ∧ group.length ≤ max) ∧
      (∀ c : Call, (c.make p).1 ≠ .ok true → (c.make p).2.groups = p.groups) ∧
      (∀ f e, ((Call.add f).make p).1 = .error e ↔ f.encode now = .error e ∨
        ∃ bytes, f.encode now = .ok bytes ∧ max < bytes.length ∧ e = .factTooLarge bytes.length max) ∧
      (∀ f, ((Call.addIfRoom f).make p).2.groups.length = p.groups.length) ∧
      (max = maxGroupLength → ∀ (s : Signer) (nonces : NonceSupply) (peer : PublicKey),
        ∀ f ∈ (p.signedGroups s nonces peer).1,
          ∃ bytes, f.encode now = .ok bytes ∧ bytes.length ≤ safePayload) := by
  intro p facts
  obtain ⟨hholds, hmax, hnow, hwritten⟩ := (holds_empty max now).after calls
  change p.Holds facts at hholds
  change p.maxLength = max at hmax
  change p.now = now at hnow
  obtain ⟨⟨parts, hflat, hgroups⟩, hbounds⟩ := hholds.groups_eq
  rw [hnow] at hgroups
  rw [hmax] at hbounds
  refine ⟨hwritten, ⟨parts, hflat, hgroups⟩, ?flatten, hbounds, ?leaves, ?refused, ?room, ?signed⟩
  case flatten =>
    rw [hgroups, ← hflat, ← List.flatMap_def, ← List.flatMap_id, List.flatMap_assoc]
    rfl
  case leaves =>
    intro c hc
    rw [hholds.make_of_ne hc]
  case refused =>
    intro f e
    rw [← hnow, ← hmax, ← add_eq_error_iff, Call.make]
    cases p.add f <;> simp
  case room =>
    intro f
    rw [Call.make]
    cases hadd : p.addIfRoom f with
    | error e => rfl
    | ok r => exact length_groups_addIfRoom hadd
  case signed =>
    rintro rfl s nonces peer
    rw [← hnow]
    exact hholds.signed_fits hmax s nonces peer

/-- A first fact that only is to use room finds none. -/
theorem groups_after_room :
    let f : Fact := .membership ⟨.zero 32⟩ 60000000000
    let p := forPackets 0 |>.after [.addIfRoom f, .add f, .addIfRoom f]
    p.groups = [f.formAt 0 ++ f.formAt 0] ∧
      ∀ (s : Signer) (nonces : NonceSupply) (peer : PublicKey), ∀ g ∈ (p.signedGroups s nonces peer).1,
        ∃ bytes, g.encode 0 = .ok bytes ∧ bytes.length ≤ safePayload := by
  intro f p
  obtain ⟨-, -, -, -, -, -, -, hsigned⟩ := groups_after maxGroupLength 0 [.addIfRoom f, .add f, .addIfRoom f]
  exact ⟨by decide +kernel, hsigned rfl⟩

end MeshFacts.Packing
