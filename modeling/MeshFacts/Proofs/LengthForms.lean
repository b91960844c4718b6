import Mathlib
import MeshFacts.LengthVarint

/-! # Forms of lengths
Every number that is not too large has one form. Writing puts that form behind the buffer, and a number is
read exactly from what begins with its form, so that no other octets stand for it. So writing and reading are
inverse to each other, whatever follows the form. -/
namespace MeshFacts.LengthVarint

def continuations : ℕ → ℕ → List UInt8
  | 0, _ => []
  | n + 1, v => continuation (v / 64 ^ n) :: continuations n v

def mark : ℕ → ℕ
  | 2 => 0xC0
  | 3 => 0xE0
  | 4 => 0xF0
  | _ => 0

def form (v : ℕ) : List UInt8 :=
  UInt8.ofNat (mark (width v) + v / 64 ^ (width v - 1)) :: continuations (width v - 1) v

lemma toNat_continuation (v : ℕ) : (continuation v).toNat = 0x80 + v % 64 := by
  simp only [continuation, UInt8.toNat_ofNat']
  omega

@[simp] lemma length_continuations (n v : ℕ) : (continuations n v).length = n := by
  induction n with
  | zero => rfl
  | succ n ih => simp [continuations, ih]

lemma width_pos (v : ℕ) : 0 < width v := by
  unfold width
  split_ifs <;> omega

@[simp] lemma length_form (v : ℕ) : (form v).length = width v := by
  have := width_pos v
  simp only [form, List.length_cons, length_continuations]
  omega

/-- Continuations are read exactly from those that are written, whatever bits come before them. -/
lemma continue?_eq_some_iff {v u : ℕ} {bs : List UInt8} :
    continue? v bs = some u ↔ u / 64 ^ bs.length = v ∧ bs = continuations bs.length u := by
  induction bs generalizing v with
  | nil => simp [continue?, continuations, eq_comm]
  | cons b r ih =>
    have hs : u / 64 ^ (r.length + 1) = u / 64 ^ r.length / 64 := by
      rw [pow_succ, Nat.div_div_eq_div_mul]
    simp only [continue?, List.length_cons, continuations, List.cons.injEq, hs]
    split_ifs with hb
    · rw [ih]
      constructor
      · rintro ⟨hu, hr⟩
        refine ⟨by omega, ?_, hr⟩
        rw [← UInt8.toNat_inj, toNat_continuation]
        omega
      · rintro ⟨hu, hc, hr⟩
        rw [← UInt8.toNat_inj, toNat_continuation] at hc
        exact ⟨by omega, hr⟩
    · simp only [false_iff, not_and]
      intro _ hc
      rw [← UInt8.toNat_inj, toNat_continuation] at hc
      omega

lemma lead?_eq_some_iff {b : UInt8} {n u : ℕ} :
    lead? b = some (n, u) ↔
      b.toNat = mark n + u ∧
        (n = 1 ∧ u < 0x80 ∨ n = 2 ∧ u < 0x20 ∨ n = 3 ∧ u < 0x10 ∨ n = 4 ∧ u < 8) := by
  simp only [lead?]
  constructor
  · intro h
    split_ifs at h <;> simp only [Option.some.injEq, Prod.mk.injEq] at h <;> obtain ⟨rfl, rfl⟩ := h
    all_goals
      norm_num [mark]
      omega
  · rintro ⟨hb, ⟨rfl, hu⟩ | ⟨rfl, hu⟩ | ⟨rfl, hu⟩ | ⟨rfl, hu⟩⟩ <;> simp only [mark] at hb <;>
      split_ifs <;> first | omega | (simp; omega)

lemma lead?_form {v : ℕ} (hv : v ≤ max) :
    lead? (UInt8.ofNat (mark (width v) + v / 64 ^ (width v - 1))) =
      some (width v, v / 64 ^ (width v - 1)) := by
  rw [lead?_eq_some_iff, UInt8.toNat_ofNat']
  simp only [max] at hv
  unfold width
  split_ifs <;> simp [mark] <;> omega

lemma write_of_le {v : ℕ} (hv : v ≤ max) (buffer : List UInt8) :
    write v buffer = (.ok (), buffer ++ form v) := by
  unfold write form width
  rw [if_neg (by omega)]
  split_ifs <;> simp [mark, continuations]

lemma write_of_lt {v : ℕ} (hv : max < v) (buffer : List UInt8) :
    write v buffer = (.error (.valueTooLong v), buffer) := by
  simp [write, hv]

lemma encode_eq_ok_iff {v : ℕ} {bytes : List UInt8} :
    encode v = .ok bytes ↔ v ≤ max ∧ bytes = form v := by
  by_cases hv : v ≤ max
  · simp [encode, Writer.bytes_of_ok (write_of_le hv []), hv, eq_comm]
  · simp [encode, Writer.bytes_of_error (write_of_lt (not_le.mp hv) []), hv]

lemma le_max_of_lead {v u n : ℕ} (hn : width v = n) (hu : v / 64 ^ (n - 1) = u)
    (h : n = 1 ∧ u < 0x80 ∨ n = 2 ∧ u < 0x20 ∨ n = 3 ∧ u < 0x10 ∨ n = 4 ∧ u < 8) : v ≤ max := by
  subst hu
  simp only [max]
  rcases h with ⟨rfl, hu⟩ | ⟨rfl, hu⟩ | ⟨rfl, hu⟩ | ⟨rfl, hu⟩ <;> norm_num at hu <;> omega

theorem decode_of_form {v : ℕ} (hv : v ≤ max) (tail : List UInt8) :
    decode (form v ++ tail) = .ok (v, width v) := by
  have hl := length_form v
  have hc : continue? (v / 64 ^ (width v - 1)) (continuations (width v - 1) v) = some v :=
    continue?_eq_some_iff.mpr (by simp)
  have ht : (continuations (width v - 1) v ++ tail).take (width v - 1) =
      continuations (width v - 1) v := by
    rw [List.take_append_of_le_length (by simp), List.take_of_length_le (by simp)]
  simp only [form, List.cons_append, List.length_cons, decode, lead?_form hv, ht, hc] at hl ⊢
  rw [if_neg (by simp; omega)]
  simp

/-- A form that stops short is known as one, since its first octet tells how long it should be. -/
theorem decode_take_form {v k : ℕ} (hv : v ≤ max) (hk : k < width v) :
    decode ((form v).take k) = .error (.truncatedHeader k) := by
  cases k with
  | zero => rfl
  | succ k =>
    obtain ⟨r, hr, hlength⟩ : ∃ r, (form v).take (k + 1) =
        UInt8.ofNat (mark (width v) + v / 64 ^ (width v - 1)) :: r ∧ r.length = k :=
      ⟨_, List.take_succ_cons, by simp; omega⟩
    simp only [hr, decode, lead?_form hv, List.length_cons, hlength, hk, if_true]

theorem form_of_decode {bytes : List UInt8} {v n : ℕ} (h : decode bytes = .ok (v, n)) :
    v ≤ max ∧ n = width v ∧ bytes = form v ++ bytes.drop n := by
  cases bytes with
  | nil => simp [decode] at h
  | cons b r =>
    simp only [decode] at h
    cases hl : lead? b with
    | none => simp [hl] at h
    | some p =>
      obtain ⟨m, u⟩ := p
      simp only [hl] at h
      split_ifs at h with hlen
      cases hc : continue? u (r.take (m - 1)) with
      | none => simp [hc] at h
      | some w =>
        simp only [hc] at h
        split_ifs at h with hw
        simp only [Except.ok.injEq, Prod.mk.injEq] at h
        obtain ⟨rfl, rfl⟩ := h
        obtain ⟨hb, hm⟩ := lead?_eq_some_iff.mp hl
        obtain ⟨hu, ht⟩ := continue?_eq_some_iff.mp hc
        have hr : (r.take (m - 1)).length = m - 1 := by
          simp only [List.length_cons, not_lt, List.length_take] at hlen ⊢
          omega
        rw [hr] at hu ht
        have hb' : b = UInt8.ofNat (mark m + u) := by
          rw [← UInt8.toNat_inj, UInt8.toNat_ofNat', hb]
          have := b.toNat_lt
          omega
        refine ⟨le_max_of_lead hw hu hm, hw.symm, ?_⟩
        have hd : (b :: r).drop m = r.drop (m - 1) := by
          obtain ⟨k, rfl⟩ : ∃ k, m = k + 1 := ⟨m - 1, by omega⟩
          simp
        rw [hd, form, hw, hu, ← hb', ← ht, List.cons_append, List.take_append_drop]

/-- A number is read exactly from what begins with its encoding. -/
lemma decode_eq_ok_iff {bytes : List UInt8} {v n : ℕ} :
    decode bytes = .ok (v, n) ↔ n ≤ bytes.length ∧ encode v = .ok (bytes.take n) := by
  rw [encode_eq_ok_iff]
  constructor
  · intro h
    obtain ⟨hv, rfl, hbytes⟩ := form_of_decode h
    have htake : bytes.take (width v) = form v := by
      rw [hbytes, ← length_form v, List.take_left]
    refine ⟨?_, hv, htake⟩
    rw [hbytes, List.length_append, length_form]
    exact Nat.le_add_right _ _
  · rintro ⟨hn, hv, htake⟩
    have hwidth : n = width v := by
      rw [← length_form v, ← htake, List.length_take_of_le hn]
    rw [← List.take_append_drop n bytes, htake, decode_of_form hv, hwidth]

lemma decode_length_eq_ok_iff {bytes : List UInt8} {v : ℕ} :
    decode bytes = .ok (v, bytes.length) ↔ encode v = .ok bytes := by
  rw [decode_eq_ok_iff, List.take_length, and_iff_right le_rfl]

/-- What begins an encoding and is not all of it stops short. -/
lemma decode_of_isPrefix {v : ℕ} {bytes written : List UInt8} (hw : encode v = .ok written) (hp : bytes <+: written)
    (hne : bytes ≠ written) : decode bytes = .error (.truncatedHeader bytes.length) := by
  obtain ⟨hv, rfl⟩ := encode_eq_ok_iff.mp hw
  have hlt : bytes.length < width v := by
    refine lt_of_le_of_ne (length_form v ▸ hp.length_le) fun hlength => hne (hp.eq_of_length ?_)
    rw [hlength, length_form]
  rw [List.prefix_iff_eq_take.mp hp]
  rw [decode_take_form hv hlt, List.length_take, length_form, min_eq_left hlt.le]

/-- Numbers that are not too large correspond one to one to the octet strings that are read as a whole. -/
lemma bijOn_encode : Set.BijOn encode (Set.Iic max) (Except.ok '' {bytes | ∃ v, decode bytes = .ok (v, bytes.length)}) := by
  refine ⟨fun v hv => ?_, fun v hv u hu h => ?_, ?_⟩
  · have hform := encode_eq_ok_iff.mpr ⟨hv, rfl⟩
    exact ⟨form v, ⟨v, decode_length_eq_ok_iff.mpr hform⟩, hform.symm⟩
  · have hform : encode v = .ok (form v) := encode_eq_ok_iff.mpr ⟨hv, rfl⟩
    have hread := (decode_length_eq_ok_iff.mpr hform).symm.trans (decode_length_eq_ok_iff.mpr (h ▸ hform))
    exact congrArg Prod.fst (Except.ok.inj hread)
  · rintro _ ⟨bytes, ⟨v, hread⟩, rfl⟩
    have hwritten := decode_length_eq_ok_iff.mp hread
    exact ⟨v, (encode_eq_ok_iff.mp hwritten).1, hwritten⟩

/-- Writing fails just if the number is too large, and then leaves the buffer as it is. Reading is its inverse on
exactly the octets that begin with an encoding, whose first octets tell how many there are. -/
theorem write_bijective :
    (∀ v buffer, ((∃ e, (write v buffer).1 = .error e) ↔ 0x1FFFFF < v) ∧
      (0x1FFFFF < v → write v buffer = (.error (.valueTooLong v), buffer)) ∧
      (v ≤ 0x1FFFFF → ∃ bytes, encode v = .ok bytes ∧ bytes.length = width v ∧
        write v buffer = (.ok (), buffer ++ bytes))) ∧
      Set.BijOn encode (Set.Iic 0x1FFFFF) (Except.ok '' {bytes | ∃ v, decode bytes = .ok (v, bytes.length)}) ∧
      (∀ bytes v n, decode bytes = .ok (v, n) ↔ n ≤ bytes.length ∧ encode v = .ok (bytes.take n)) ∧
      ∀ v bytes written, encode v = .ok written → bytes <+: written → bytes ≠ written →
        decode bytes = .error (.truncatedHeader bytes.length) := by
  refine ⟨fun v buffer => ?_, bijOn_encode, fun _ _ _ => decode_eq_ok_iff, fun _ _ _ => decode_of_isPrefix⟩
  rcases le_or_gt v 0x1FFFFF with hv | hv
  · have hwrite := write_of_le hv buffer
    exact ⟨by simp [hwrite, not_lt.mpr hv], fun hlt => absurd hv (not_le.mpr hlt),
      fun _ => ⟨form v, encode_eq_ok_iff.mpr ⟨hv, rfl⟩, length_form v, hwrite⟩⟩
  · have hwrite := write_of_lt hv buffer
    exact ⟨by simp [hwrite, hv], fun _ => hwrite, fun hle => absurd hv (not_lt.mpr hle)⟩

/-- The smallest number of three octets, the first two of these, and the smallest number that is too large. -/
theorem write_bijective_three :
    (∃ bytes, encode 0x800 = .ok bytes ∧ bytes.length = 3 ∧ write 0x800 [7] = (.ok (), 7 :: bytes)) ∧
      decode [0xE0, 0xA0] = .error (.truncatedHeader 2) ∧
      write 0x200000 [7] = (.error (.valueTooLong 0x200000), [7]) := by
  obtain ⟨hwrite, -, -, hprefix⟩ := write_bijective
  exact ⟨(hwrite 0x800 [7]).2.2 (by decide), hprefix 0x800 _ [0xE0, 0xA0, 0x80] (by decide) (by decide) (by decide),
    (hwrite 0x200000 [7]).2.1 (by decide)⟩

end MeshFacts.LengthVarint
