import MeshFacts.Proofs.NormalFacts
import MeshFacts.Proofs.NumeralTexts

/-! # Addresses read back from their texts
Every address, socket address and network is read back from the text that is written for it. The readers take as much
of a text as belongs to an address and hand over the rest, so each of them is followed through the text that its writer
makes in front of a rest that cannot go on with the address. -/
namespace MeshFacts

namespace AddressText

variable {x : Bool} {n : ℕ} {c : Char} {cs rest : List Char}

/-! ## Octets -/

lemma v4?_octetsText (rule : Reading) (a : V4) (h : Ends false rest) :
    v4? rule (octetsText a ++ rest) = some (a, rest) := by
  have hoctet : ∀ {n : ℕ} {r : List Char}, n < 256 → Ends false r →
      number? false 3 255 rule.leadingZeros (numeral false n ++ r) = some (n, r) := by
    intro n r hn hr
    have hthree : n < 10 ^ 3 := by omega
    exact number?_numeral _ (length_numeral_le hthree (by omega)) (by omega) hr
  have hdot : ∀ r, Ends false ('.' :: r) := by simp [Ends, digitValue]
  have htext : octetsText a ++ rest = numeral false (a.toNat >>> 24 % 256) ++ '.' ::
      (numeral false (a.toNat >>> 16 % 256) ++ '.' :: (numeral false (a.toNat >>> 8 % 256) ++ '.' ::
        (numeral false (a.toNat >>> 0 % 256) ++ rest))) := by
    simp only [octetsText, List.append_assoc, List.cons_append, List.nil_append]
    rfl
  have hbyte : ∀ i, a.toNat >>> i % 256 < 256 := fun i => Nat.mod_lt _ (by omega)
  rw [htext, v4?]
  simp only [hoctet (hbyte _) (hdot _), hoctet (hbyte _) h, char?_cons, Option.bind_eq_bind, Option.bind_some,
    Option.some.injEq, Prod.mk.injEq, and_true]
  rw [← BitVec.toNat_inj, BitVec.toNat_ofNat]
  simp only [Nat.shiftRight_eq_div_pow]
  have := a.isLt
  omega

/-- There are no octets where the first run of digits is not followed by a dot. -/
lemma v4?_eq_none (rule : Reading) (h : ∀ c ∈ (behind false cs).head?, c ≠ '.') : v4? rule cs = none := by
  unfold v4?
  cases hnumber : number? false 3 255 rule.leadingZeros cs with
  | none => simp [hnumber]
  | some found =>
    obtain ⟨v, r⟩ := found
    have hdot : char? '.' r = none := by
      rw [← rest_number? hnumber] at h
      cases r with
      | nil => rfl
      | cons c r => exact if_neg (h c (by simp)).symm
    simp [hnumber, hdot]

/-- A text that cannot go on with a group or with octets. -/
def EndsGroup (rest : List Char) : Prop := ∀ c ∈ rest.head?, c ≠ '.' ∧ digitValue true c = none

lemma EndsGroup.ends (h : EndsGroup rest) : Ends true rest := fun c hc => (h c hc).2

lemma v4?_of_endsGroup (rule : Reading) (h : EndsGroup rest) : v4? rule rest = none := by
  refine v4?_eq_none rule ?_
  rw [behind_of_ends h.ends.decimal]
  exact fun c hc => (h c hc).1

lemma v4?_group (rule : Reading) (h : EndsGroup rest) : v4? rule (numeral true n ++ rest) = none := by
  refine v4?_eq_none rule fun c hc => ?_
  rw [behind, List.dropWhile_append] at hc
  split_ifs at hc with hall
  · exact (h c (behind_of_ends h.ends.decimal ▸ hc)).1
  · rw [List.head?_append_of_ne_nil _ (by simpa using hall)] at hc
    have hdigit := isSome_digitValue ((List.dropWhile_sublist _).subset (List.mem_of_mem_head? hc))
    rintro rfl
    exact absurd hdigit (by decide)

/-! ## Groups -/

def groupsTail (gs : List ℕ) : List Char := gs.flatMap fun g => ':' :: numeral true g

lemma joinGroups_cons (g : ℕ) (gs : List ℕ) : joinGroups (g :: gs) = numeral true g ++ groupsTail gs := by
  induction gs generalizing g with
  | nil => simp [joinGroups, groupsTail, numeral, base, Numeral.hexText]
  | cons g' gs ih =>
    have hstep : joinGroups (g :: g' :: gs) = numeral true g ++ ':' :: joinGroups (g' :: gs) := by
      simp [joinGroups, numeral, base, Numeral.hexText, List.intercalate]
    rw [hstep, ih]
    rfl

/-- No group goes on in a text, and no further one begins there. -/
structure Stops (rest : List Char) : Prop where
  ends : EndsGroup rest
  noGroup : ∀ r, rest = ':' :: r → EndsGroup r

lemma groups?_of_endsGroup (rule : Reading) (limit : ℕ) (h : EndsGroup rest) :
    groups? rule limit true rest = ([], false, rest) := by
  cases limit with
  | zero => rfl
  | succ limit => simp [groups?, v4?_of_endsGroup rule h, number?_of_ends h.ends]

lemma groups?_of_stops (rule : Reading) (limit : ℕ) (h : Stops rest) :
    groups? rule limit false rest = ([], false, rest) := by
  cases limit with
  | zero => rfl
  | succ limit =>
    cases hcolon : char? ':' rest with
    | none => simp [groups?, hcolon]
    | some r =>
      have hrest : rest = ':' :: r := by
        cases rest with
        | nil => cases hcolon
        | cons c rest =>
          simp only [char?] at hcolon
          split_ifs at hcolon with hc
          rw [← hc, Option.some.inj hcolon]
      have hends := h.noGroup r hrest
      simp [groups?, hcolon, v4?_of_endsGroup rule hends, number?_of_ends hends.ends]

lemma groups?_numeral (rule : Reading) (limit : ℕ) {first : Bool} (hg : n < 65536) (h : EndsGroup rest)
    (hcs : (if first then some cs else char? ':' cs) = some (numeral true n ++ rest)) :
    groups? rule (limit + 1) first cs =
      (n :: (groups? rule limit false rest).1, (groups? rule limit false rest).2) := by
  have hfour : n < 16 ^ 4 := by omega
  have hnumber : number? true 4 65535 true (numeral true n ++ rest) = some (n, rest) :=
    number?_numeral true (length_numeral_le hfour (by omega)) (by omega) h.ends
  rw [groups?, hcs]
  simp [v4?_group rule h, hnumber]

lemma endsGroup_colon (r : List Char) : EndsGroup (':' :: r) := by simp [EndsGroup, digitValue]

lemma endsGroup_groupsTail (gs : List ℕ) (h : EndsGroup rest) : EndsGroup (groupsTail gs ++ rest) := by
  cases gs with
  | nil => exact h
  | cons g gs => exact endsGroup_colon _

lemma groups?_groupsTail (rule : Reading) {gs : List ℕ} {limit : ℕ} (hlength : gs.length ≤ limit)
    (hgs : ∀ g ∈ gs, g < 65536) (h : Stops rest) :
    groups? rule limit false (groupsTail gs ++ rest) = (gs, false, rest) := by
  induction gs generalizing limit with
  | nil => exact groups?_of_stops rule limit h
  | cons g gs ih =>
    obtain ⟨limit, rfl⟩ : ∃ m, limit = m + 1 := ⟨limit - 1, by simp at hlength; omega⟩
    have hcolon : (if false then some (groupsTail (g :: gs) ++ rest) else char? ':' (groupsTail (g :: gs) ++ rest)) =
        some (numeral true g ++ (groupsTail gs ++ rest)) := by simp [groupsTail, char?_cons]
    rw [groups?_numeral rule limit (hgs g (by simp)) (endsGroup_groupsTail gs h.ends) hcolon,
      ih (by simpa using hlength) fun g hg => hgs g (by simp [hg])]

lemma groups?_joinGroups (rule : Reading) {gs : List ℕ} {limit : ℕ} (hlength : gs.length ≤ limit)
    (hgs : ∀ g ∈ gs, g < 65536) (h : Stops rest) :
    groups? rule limit true (joinGroups gs ++ rest) = (gs, false, rest) := by
  cases gs with
  | nil => exact groups?_of_endsGroup rule limit h.ends
  | cons g gs =>
    obtain ⟨limit, rfl⟩ : ∃ m, limit = m + 1 := ⟨limit - 1, by simp at hlength; omega⟩
    rw [joinGroups_cons, List.append_assoc,
      groups?_numeral rule limit (hgs g (by simp)) (endsGroup_groupsTail gs h.ends) (if_pos rfl),
      groups?_groupsTail rule (by simpa using hlength) (fun g hg => hgs g (by simp [hg])) h]

lemma length_groups (a : V6) : (groups a).length = 8 := by simp [groups]

lemma lt_of_mem_groups {a : V6} {g : ℕ} (h : g ∈ groups a) : g < 65536 := by
  obtain ⟨i, -, rfl⟩ := List.mem_map.mp h
  exact Nat.mod_lt _ (by omega)

lemma ofGroups_groups (a : V6) : ofGroups (groups a) = a := by
  have := a.isLt
  rw [← BitVec.toNat_inj, ofGroups, BitVec.toNat_ofNat]
  simp only [groups, List.range, List.range.loop, List.map_cons, List.map_nil, List.foldl_cons, List.foldl_nil,
    Nat.shiftRight_eq_div_pow]
  omega

lemma eq_longestRun {i s count : ℕ} {gs : List ℕ} (h : longestRun i gs = (s, count)) (hcount : 0 < count) :
    i ≤ s ∧ gs = gs.take (s - i) ++ (List.replicate count 0 ++ gs.drop (s - i + count)) := by
  induction gs generalizing i with
  | nil =>
    rw [longestRun, Prod.mk.injEq] at h
    omega
  | cons g gs ih =>
    rw [longestRun] at h
    split_ifs at h
    · obtain ⟨rfl, rfl⟩ := Prod.mk.inj h
      have hzeros : (g :: gs).takeWhile (· == 0) = List.replicate ((g :: gs).takeWhile (· == 0)).length 0 :=
        List.eq_replicate_of_mem fun b hb => by simpa using List.mem_takeWhile_imp hb
      refine ⟨le_refl i, ?_⟩
      rw [Nat.sub_self, List.take_zero, List.nil_append, Nat.zero_add, ← hzeros, drop_length_takeWhile,
        List.takeWhile_append_dropWhile]
    · obtain ⟨hle, heq⟩ := ih h
      refine ⟨by omega, ?_⟩
      rw [show s - i = s - (i + 1) + 1 by omega, List.take_succ_cons, List.cons_append,
        show s - (i + 1) + 1 + count = s - (i + 1) + count + 1 by omega, List.drop_succ_cons, ← heq]

/-! ## Addresses -/

lemma groupsText_mapped {a : V6} {b : V4} (h : V6.mapped? a = some b) :
    groupsText a = ':' :: ':' :: (numeral true 0xffff ++ ':' :: octetsText b) := by
  have hfront : "::ffff:".toList = ':' :: ':' :: (numeral true 0xffff ++ [':']) := by decide
  simp [groupsText, h, hfront]

/-- An address that is not mapped is written in groups, of which a run of zeros may be left out. -/
lemma groupsText_cases {a : V6} (h : V6.mapped? a = none) :
    groupsText a = joinGroups (groups a) ∨ ∃ (front back : List ℕ) (count : ℕ), 1 < count ∧
      groups a = front ++ (List.replicate count 0 ++ back) ∧
      groupsText a = joinGroups front ++ ':' :: ':' :: joinGroups back := by
  rcases hrun : longestRun 0 (groups a) with ⟨s, count⟩
  by_cases hcount : 1 < count
  · obtain ⟨-, heq⟩ := eq_longestRun hrun (by omega)
    refine .inr ⟨(groups a).take s, (groups a).drop (s + count), count, hcount, heq, ?_⟩
    simp [groupsText, h, hrun, hcount]
  · refine .inl ?_
    simp [groupsText, h, hrun, hcount]

lemma stops_colons (r : List Char) : Stops (':' :: ':' :: r) := by
  refine ⟨endsGroup_colon _, fun s hs => ?_⟩
  rw [← (List.cons.inj hs).2]
  exact endsGroup_colon r

/-- Two halves around a double colon are read back as the groups of an address. -/
lemma v6?_gap (rule : Reading) {front back : List ℕ} {count : ℕ} (hcount : 1 < count)
    (hlength : front.length + count + back.length = 8) (hfront : ∀ g ∈ front, g < 65536)
    (hback : ∀ g ∈ back, g < 65536) (h : Stops rest) :
    v6? rule (joinGroups front ++ ':' :: ':' :: (joinGroups back ++ rest)) =
      some (ofGroups (front ++ (List.replicate count 0 ++ back)), rest) := by
  have hroom : back.length ≤ (if rule.emptyGap then 8 - front.length else 7 - front.length) := by
    split_ifs <;> omega
  have hskipped : 8 - front.length - back.length = count := by omega
  unfold v6?
  rw [groups?_joinGroups rule (by omega) hfront (stops_colons _)]
  dsimp only
  rw [if_neg (by omega), if_neg Bool.false_ne_true]
  simp only [char?_cons, Option.bind_eq_bind, Option.bind_some, groups?_joinGroups rule hroom hback h, hskipped,
    List.append_assoc]

lemma v6?_mapped (rule : Reading) (b : V4) (h : Ends false rest) :
    v6? rule (':' :: ':' :: (numeral true 0xffff ++ ':' :: (octetsText b ++ rest))) = some (0xffff#96 ++ b, rest) := by
  obtain ⟨m, hpos, hm⟩ : ∃ m, 1 ≤ m ∧ (if rule.emptyGap then 8 else 7) = m + 1 + 1 := by
    split_ifs
    exacts [⟨6, by omega, rfl⟩, ⟨5, by omega, rfl⟩]
  have hoctets : groups? rule (m + 1) false (':' :: (octetsText b ++ rest)) =
      ([b.toNat / 65536, b.toNat % 65536], true, rest) := by
    simp [groups?, char?_cons, v4?_octetsText rule b h, hpos]
  have htail : groups? rule (m + 1 + 1) true (numeral true 0xffff ++ ':' :: (octetsText b ++ rest)) =
      ([0xffff, b.toNat / 65536, b.toNat % 65536], true, rest) := by
    rw [groups?_numeral rule (m + 1) (by omega) (endsGroup_colon _) (if_pos rfl), hoctets]
  have hvalue : ofGroups ([] ++ List.replicate 5 0 ++ [0xffff, b.toNat / 65536, b.toNat % 65536]) =
      (0xffff#96 ++ b : V6) := by
    have := b.isLt
    rw [← BitVec.toNat_inj, toNat_mapped, ofGroups, BitVec.toNat_ofNat]
    simp only [List.replicate, List.nil_append, List.cons_append, List.foldl_cons, List.foldl_nil]
    omega
  unfold v6?
  rw [groups?_of_endsGroup rule 8 (endsGroup_colon _)]
  dsimp only
  rw [if_neg (by simp), if_neg Bool.false_ne_true]
  simp only [char?_cons, Option.bind_eq_bind, Option.bind_some, List.length_nil, Nat.sub_zero, hm, htail]
  exact congrArg (fun a => some (a, rest)) hvalue

lemma v6?_groupsText (rule : Reading) (a : V6) (h : Stops rest) : v6? rule (groupsText a ++ rest) = some (a, rest) := by
  cases hmapped : V6.mapped? a with
  | some b =>
    rw [groupsText_mapped hmapped, V6.mapped?_eq_some_iff.mp hmapped]
    simpa using v6?_mapped rule b h.ends.ends.decimal
  | none =>
    rcases groupsText_cases hmapped with htext | ⟨front, back, count, hcount, hgroups, htext⟩
    · have hread := groups?_joinGroups rule (length_groups a).le (fun g => lt_of_mem_groups) h
      simp [htext, v6?, hread, length_groups, ofGroups_groups]
    · have hlt : ∀ g ∈ front ++ (List.replicate count 0 ++ back), g < 65536 := fun g hg =>
        lt_of_mem_groups (hgroups ▸ hg)
      have hlength := length_groups a
      rw [hgroups] at hlength
      have hread := v6?_gap rule hcount (by simpa [Nat.add_assoc] using hlength) (fun g hg => hlt g (by simp [hg]))
        (fun g hg => hlt g (by simp [hg])) h
      rw [htext, ← ofGroups_groups a, hgroups]
      simpa using hread

/-- The text of an address of the sixth family does not begin with octets. -/
lemma v4?_groupsText (rule : Reading) (a : V6) (rest : List Char) : v4? rule (groupsText a ++ rest) = none := by
  have hjoined : ∀ (gs : List ℕ) (r : List Char), EndsGroup (groupsTail gs.tail ++ r) →
      (gs = [] → EndsGroup r) → v4? rule (joinGroups gs ++ r) = none := by
    intro gs r htail hnil
    cases gs with
    | nil => exact v4?_of_endsGroup rule (hnil rfl)
    | cons g gs =>
      rw [joinGroups_cons, List.append_assoc]
      exact v4?_group rule htail
  cases hmapped : V6.mapped? a with
  | some b =>
    rw [groupsText_mapped hmapped]
    exact v4?_of_endsGroup rule (endsGroup_colon _)
  | none =>
    rcases groupsText_cases hmapped with htext | ⟨front, back, count, -, -, htext⟩
    · obtain ⟨g, g', gs, hgroups⟩ : ∃ g g' gs, groups a = g :: g' :: gs := ⟨_, _, _, rfl⟩
      rw [htext, hgroups]
      refine hjoined _ _ ?_ (by simp)
      exact endsGroup_colon _
    · rw [htext, List.append_assoc]
      exact hjoined _ _ (endsGroup_groupsTail _ (endsGroup_colon _)) fun _ => endsGroup_colon _

lemma stops_of_head (h : ∀ c ∈ rest.head?, c = '/' ∨ c = ']' ∨ c = '%') : Stops rest := by
  refine ⟨fun c hc => ?_, fun r hr => ?_⟩
  · rcases h c hc with rfl | rfl | rfl <;> decide
  · have := h ':' (by simp [hr])
    simp at this

lemma portAfter?_text (p : UInt16) : portAfter? (':' :: Numeral.text p.toNat) = some (p, []) := by
  have hport : number? false (':' :: numeral false p.toNat).length 65535 true (numeral false p.toNat ++ []) =
      some (p.toNat, []) :=
    number?_numeral true (Nat.le_succ _) (Nat.le_of_lt_succ p.toNat_lt) (by simp [Ends])
  rw [List.append_nil] at hport
  rw [text_eq, portAfter?]
  simp only [char?_cons, Option.bind_eq_bind, Option.bind_some, hport, UInt16.ofNat_toNat]

lemma scope_text (s : UInt32) (h : Ends false rest) :
    scope ('%' :: (Numeral.text s.toNat ++ rest)) = (s.toNat, rest) := by
  have hread : number? false (numeral false s.toNat ++ rest).length 0xffffffff true (numeral false s.toNat ++ rest) =
      some (s.toNat, rest) :=
    number?_numeral true (by simp) (Nat.le_of_lt_succ s.toNat_lt) h
  rw [text_eq, scope, hread, Option.getD_some]

/-! ## Characters -/

def IsAddressChar (c : Char) : Prop := (digitValue true c).isSome = true ∨ c ∈ ['.', ':', '/', '[', ']', '%']

lemma IsAddressChar.ne_comma (h : IsAddressChar c) : c ≠ ',' := by
  rintro rfl
  exact absurd h (by unfold IsAddressChar; decide)

lemma IsAddressChar.not_blank (h : IsAddressChar c) : isBlank c = false := by
  rcases h with hdigit | hother
  · by_contra hblank
    have hnone : digitValue true c = none := by
      simp only [Bool.not_eq_false, isBlank, Bool.or_eq_true, Bool.and_eq_true, decide_eq_true_eq, beq_iff_eq] at hblank
      unfold digitValue
      simp only [Bool.true_and, decide_eq_true_eq]
      split_ifs <;> first | omega | rfl
    rw [hnone] at hdigit
    cases hdigit
  · simp only [List.mem_cons, List.not_mem_nil, or_false] at hother
    rcases hother with rfl | rfl | rfl | rfl | rfl | rfl <;> rfl

lemma IsAddressChar.ne_paren (h : IsAddressChar c) : c ≠ '(' := by
  rintro rfl
  exact absurd h (by unfold IsAddressChar; decide)

lemma IsAddressChar.ne_nul (h : IsAddressChar c) : c ≠ '\x00' := by
  rintro rfl
  exact absurd h (by unfold IsAddressChar; decide)

lemma isAddressChar_numeral (h : c ∈ numeral x n) : IsAddressChar c := by
  have hdigit := isSome_digitValue h
  refine .inl ?_
  cases x with
  | true => exact hdigit
  | false =>
    by_contra hnone
    rw [digitValue_false_of_true (by simpa using hnone)] at hdigit
    cases hdigit

lemma isAddressChar_octetsText {a : V4} (h : c ∈ octetsText a) : IsAddressChar c := by
  simp only [octetsText, text_eq, List.mem_append, List.mem_singleton] at h
  rcases h with (((((h | rfl) | h) | rfl) | h) | rfl) | h
  all_goals first | exact isAddressChar_numeral h | exact .inr (by simp)

lemma isAddressChar_joinGroups {gs : List ℕ} (h : c ∈ joinGroups gs) : IsAddressChar c := by
  cases gs with
  | nil => cases h
  | cons g gs =>
    simp only [joinGroups_cons, groupsTail, List.mem_append, List.mem_flatMap, List.mem_cons] at h
    rcases h with h | ⟨g', -, rfl | h⟩
    · exact isAddressChar_numeral h
    · exact .inr (by simp)
    · exact isAddressChar_numeral h

lemma isAddressChar_groupsText {a : V6} (h : c ∈ groupsText a) : IsAddressChar c := by
  cases hmapped : V6.mapped? a with
  | some b =>
    simp only [groupsText_mapped hmapped, List.mem_cons, List.mem_append] at h
    rcases h with rfl | rfl | h | rfl | h
    · exact .inr (by simp)
    · exact .inr (by simp)
    · exact isAddressChar_numeral h
    · exact .inr (by simp)
    · exact isAddressChar_octetsText h
  | none =>
    rcases groupsText_cases hmapped with htext | ⟨front, back, -, -, -, htext⟩
    · exact isAddressChar_joinGroups (htext ▸ h)
    · simp only [htext, List.mem_append, List.mem_cons] at h
      rcases h with h | rfl | rfl | h
      · exact isAddressChar_joinGroups h
      · exact .inr (by simp)
      · exact .inr (by simp)
      · exact isAddressChar_joinGroups h

end AddressText

open AddressText

namespace SocketAddr

lemma ofText?_text (a : SocketAddr) : ofText? a.text = some a := by
  cases a with
  | v4 a p =>
    have hoctets : v4? plain (octetsText a ++ ':' :: Numeral.text p.toNat) = some (a, ':' :: Numeral.text p.toNat) :=
      v4?_octetsText plain a (by simp [Ends, digitValue])
    simp [ofText?, text, socket?, hoctets, portAfter?_text, whole]
  | v6 a p s =>
    have hscope : ∃ written, text (.v6 a p s) = String.ofList ('[' :: (groupsText a ++ (written ++ ']' :: ':' ::
        Numeral.text p.toNat))) ∧ Stops (written ++ ']' :: ':' :: Numeral.text p.toNat) ∧
        scope (written ++ ']' :: ':' :: Numeral.text p.toNat) = (s.toNat, ']' :: ':' :: Numeral.text p.toNat) := by
      by_cases hs : s = 0
      · exact ⟨[], by simp [text, hs], stops_of_head (by simp), by simp [scope, hs]⟩
      · refine ⟨'%' :: Numeral.text s.toNat, by simp [text, hs], stops_of_head (by simp), ?_⟩
        exact scope_text s (by simp [Ends, digitValue])
    obtain ⟨written, htext, hstops, hscope⟩ := hscope
    have hnone : ∀ r, v4? plain ('[' :: r) = none := fun r =>
      v4?_of_endsGroup plain (by simp [EndsGroup, digitValue])
    simp [ofText?, htext, socket?, hnone, char?_cons, v6?_groupsText plain a hstops, hscope, portAfter?_text, whole]

lemma isAddressChar_text {a : SocketAddr} {c : Char} (h : c ∈ a.text.toList) : IsAddressChar c := by
  cases a with
  | v4 a p =>
    simp only [text, String.toList_ofList, List.mem_append, List.mem_singleton, text_eq] at h
    rcases h with (h | rfl) | h
    · exact isAddressChar_octetsText h
    · exact .inr (by simp)
    · exact isAddressChar_numeral h
  | v6 a p s =>
    have hscope : c ∈ (if s = 0 then [] else '%' :: numeral false s.toNat) → IsAddressChar c := by
      intro hc
      split_ifs at hc
      · cases hc
      · rcases List.mem_cons.mp hc with rfl | hc
        · exact .inr (by simp)
        · exact isAddressChar_numeral hc
    have hbracket : "]:".toList = [']', ':'] := by decide
    simp only [text, text_eq, hbracket, String.toList_ofList, List.mem_append, List.mem_cons, List.not_mem_nil,
      or_false] at h
    rcases h with (((rfl | h) | h) | (rfl | rfl)) | h
    · exact .inr (by simp)
    · exact isAddressChar_groupsText h
    · exact hscope h
    · exact .inr (by simp)
    · exact .inr (by simp)
    · exact isAddressChar_numeral h

end SocketAddr

namespace Net

lemma toList_text (net : Net) : net.text.toList = (match net.addr with
    | .v4 a => octetsText a
    | .v6 a => groupsText a) ++ '/' :: numeral false net.length := by
  cases net <;> simp [text, IpAddr.text, addr, text_eq]

lemma ofText?_text (net : Net) : ofText? net.text = some net := by
  have hlength : ∀ {digits max : ℕ}, net.length < 10 ^ digits → 0 < digits → net.length ≤ max →
      number? false digits max true (numeral false net.length) = some (net.length, []) := by
    intro digits max hlt hpos hle
    have hread : number? false digits max true (numeral false net.length ++ []) = some (net.length, []) :=
      number?_numeral true (length_numeral_le hlt hpos) hle (by simp [Ends])
    rwa [List.append_nil] at hread
  rw [ofText?, toList_text]
  cases net with
  | v4 a n =>
    have hoctets : v4? beforeLength (octetsText a ++ '/' :: numeral false n) = some (a, '/' :: numeral false n) :=
      v4?_octetsText beforeLength a (by simp [Ends, digitValue])
    have hread : number? false 2 32 true (numeral false n) = some (n.val, []) :=
      hlength (by simp only [length]; omega) (by omega) (by simp only [length]; omega)
    simp [addr, length, net?, hoctets, char?_cons, hread, ofLength?, whole]
  | v6 a n =>
    have hgroups : v6? beforeLength (groupsText a ++ '/' :: numeral false n) = some (a, '/' :: numeral false n) :=
      v6?_groupsText beforeLength a (stops_of_head (by simp))
    have hnone := v4?_groupsText beforeLength a ('/' :: numeral false n)
    have hread : number? false 3 128 true (numeral false n) = some (n.val, []) :=
      hlength (by simp only [length]; omega) (by omega) (by simp only [length]; omega)
    simp [addr, length, net?, hnone, hgroups, char?_cons, hread, ofLength?, whole]

lemma isAddressChar_text {net : Net} {c : Char} (h : c ∈ net.text.toList) : IsAddressChar c := by
  rw [toList_text, List.mem_append, List.mem_cons] at h
  rcases h with h | rfl | h
  · split at h
    · exact isAddressChar_octetsText h
    · exact isAddressChar_groupsText h
  · exact .inr (by simp)
  · exact isAddressChar_numeral h

lemma isAddressChar_texts {nets : List Net} {c : Char} (h : c ∈ (",".intercalate (nets.map text)).toList) :
    IsAddressChar c ∨ c = ',' := by
  induction nets with
  | nil => cases h
  | cons n nets ih =>
    cases nets with
    | nil =>
      have hsingle : c ∈ n.text.toList := by simpa using h
      exact .inl (isAddressChar_text hsingle)
    | cons m nets =>
      rw [List.map_cons, String.intercalate_cons_of_ne_nil (by simp), String.toList_append, String.toList_append,
        List.mem_append, List.mem_append] at h
      rcases h with (h | h) | h
      · exact .inl (isAddressChar_text h)
      · exact .inr (by simpa using h)
      · exact ih h

/-- Networks that are written between commas are cut apart again. Nothing is written for no network. -/
lemma pieces_text (nets : List Net) : (((",".intercalate (nets.map text)).toList.splitOn ',').filter fun l => !l.isEmpty) =
    nets.map fun n => n.text.toList := by
  have hfilled : ((nets.map fun n => n.text.toList).filter fun l => !l.isEmpty) = nets.map fun n => n.text.toList := by
    refine List.filter_eq_self.mpr fun l hl => ?_
    obtain ⟨n, -, rfl⟩ := List.mem_map.mp hl
    simp [toList_text]
  cases nets with
  | nil => rfl
  | cons n nets =>
    have hcomma : ∀ l ∈ (n :: nets).map fun n => n.text.toList, ',' ∉ l := by
      intro l hl hcomma
      obtain ⟨n, -, rfl⟩ := List.mem_map.mp hl
      exact (isAddressChar_text hcomma).ne_comma rfl
    have hsplit : (",".intercalate ((n :: nets).map text)).toList.splitOn ',' = (n :: nets).map fun n => n.text.toList := by
      rw [String.toList_intercalate, List.map_map]
      exact List.splitOn_intercalate ',' hcomma (by simp)
    rw [hsplit, hfilled]

/-! ## Reading into normal form -/

section
variable {s : String} {net : Net} {e : AddressError}

/-- What a text stands for between blanks, host bits and all: an address with a length, or else an address alone. -/
def written? (s : String) : Option Net := (ofText? (trimText s)).or ((IpAddr.ofText? (trimText s)).map host)

lemma parse_eq (s : String) : parse s = match written? s with
    | some net => .ok net.normalize
    | none => .error (.network (trimText s)) := by
  unfold parse written?
  dsimp only
  cases ofText? (trimText s) with
  | some net => rfl
  | none => cases IpAddr.ofText? (trimText s) <;> rfl

lemma parse_eq_ok_iff : parse s = .ok net ↔ ∃ raw, written? s = some raw ∧ raw.normalize = net := by
  rw [parse_eq]
  cases written? s <;> simp

lemma parse_eq_error_iff : parse s = .error e ↔ written? s = none ∧ e = .network (trimText s) := by
  rw [parse_eq]
  cases written? s <;> simp [eq_comm]

end

end Net

end MeshFacts
