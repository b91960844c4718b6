/-! # Blank characters
The characters with the Unicode property White_Space, and cutting them off both ends of a text.
Main statement: what is left neither starts nor ends with a blank, and what is cut off is blank. -/
namespace MeshFacts

/-- The twenty-five code points with the property White_Space. -/
def isBlank (c : Char) : Bool :=
  let n := c.toNat
  (0x09 ≤ n && n ≤ 0x0D) || n == 0x20 || n == 0x85 || n == 0xA0 || n == 0x1680
    || (0x2000 ≤ n && n ≤ 0x200A) || n == 0x2028 || n == 0x2029 || n == 0x202F || n == 0x205F
    || n == 0x3000

def trimStart (cs : List Char) : List Char := cs.dropWhile isBlank

def trimEnd (cs : List Char) : List Char := (trimStart cs.reverse).reverse

def trim (cs : List Char) : List Char := trimEnd (trimStart cs)

def isBlankText (cs : List Char) : Bool := cs.all isBlank

def trimText (s : String) : String := String.ofList (trim s.toList)

/-- What is left of a text without the blanks around it. -/
structure TrimsTo (cs core : List Char) : Prop where
  blanks : ∃ before behind, cs = before ++ core ++ behind ∧ (∀ c ∈ before, isBlank c = true) ∧
    ∀ c ∈ behind, isBlank c = true
  head : ∀ c ∈ core.head?, isBlank c = false
  last : ∀ c ∈ core.getLast?, isBlank c = false

theorem isBlank_head_trimStart {cs : List Char} {c : Char} (h : (trimStart cs).head? = some c) :
    isBlank c = false := by
  have := List.head?_dropWhile_not isBlank cs
  simp only [trimStart] at h
  rw [h] at this
  simpa using this

theorem exists_append_trimStart (cs : List Char) :
    ∃ before, cs = before ++ trimStart cs ∧ ∀ c ∈ before, isBlank c = true :=
  ⟨cs.takeWhile isBlank, List.takeWhile_append_dropWhile.symm,
    fun _ hc => List.all_eq_true.mp List.all_takeWhile _ hc⟩

theorem trimStart_append {before core : List Char} (hb : ∀ c ∈ before, isBlank c = true)
    (hc : ∀ c ∈ core.head?, isBlank c = false) : trimStart (before ++ core) = core := by
  rw [trimStart, List.dropWhile_append_of_pos hb]
  cases core with
  | nil => rfl
  | cons c core => rw [List.dropWhile_cons, hc c rfl]; rfl

theorem trimsTo_trim (cs : List Char) : TrimsTo cs (trim cs) := by
  obtain ⟨before, hbefore, hblank⟩ := exists_append_trimStart cs
  obtain ⟨behind, hbehind, hblank'⟩ := exists_append_trimStart (trimStart cs).reverse
  have hcore : trimStart cs = trim cs ++ behind.reverse := by
    have hreverse := congrArg List.reverse hbehind
    rwa [List.reverse_reverse, List.reverse_append] at hreverse
  refine ⟨⟨before, behind.reverse, ?_, hblank, fun c hc => hblank' c (List.mem_reverse.mp hc)⟩, fun c hc => ?_,
    fun c hc => ?_⟩
  · rw [List.append_assoc, ← hcore]
    exact hbefore
  · have hfirst : (trimStart cs).head? = some c := by
      rw [Option.mem_def] at hc
      rw [hcore]
      cases htrim : trim cs with
      | nil => simp [htrim] at hc
      | cons d ds => rwa [htrim] at hc
    exact isBlank_head_trimStart hfirst
  · have hlast : (trimStart (trimStart cs).reverse).head? = some c := by
      rwa [Option.mem_def, trim, trimEnd, List.getLast?_reverse] at hc
    exact isBlank_head_trimStart hlast

/-- Cutting the blanks off leaves the only text that they may stand around. -/
theorem trim_eq_iff {cs core : List Char} : trim cs = core ↔ TrimsTo cs core := by
  refine ⟨fun h => h ▸ trimsTo_trim cs, fun ⟨⟨before, behind, hcs, hb, ha⟩, hhead, hlast⟩ => ?_⟩
  subst hcs
  have hrest : ∀ c ∈ behind.reverse, isBlank c = true := fun c hc => ha c (List.mem_reverse.mp hc)
  cases core with
  | nil =>
    have hall : ∀ c ∈ before ++ behind, isBlank c = true := fun c hc => (List.mem_append.mp hc).elim (hb c) (ha c)
    have hnone : trimStart (before ++ [] ++ behind) = [] := by
      have hstart : trimStart (before ++ behind ++ []) = [] := trimStart_append hall (by simp)
      simpa using hstart
    rw [trim, hnone]
    rfl
  | cons d ds =>
    have hstart : trimStart (before ++ (d :: ds) ++ behind) = (d :: ds) ++ behind := by
      rw [List.append_assoc]
      exact trimStart_append hb hhead
    have hend : trimStart (behind.reverse ++ (d :: ds).reverse) = (d :: ds).reverse :=
      trimStart_append hrest (by simpa only [List.head?_reverse] using hlast)
    rw [trim, hstart, trimEnd, List.reverse_append, hend, List.reverse_reverse]

theorem exists_trimsTo_iff {cs : List Char} {P : List Char → Prop} : (∃ core, TrimsTo cs core ∧ P core) ↔ P (trim cs) :=
  ⟨fun ⟨_, hcore, h⟩ => trim_eq_iff.mpr hcore ▸ h, fun h => ⟨trim cs, trimsTo_trim cs, h⟩⟩

end MeshFacts
