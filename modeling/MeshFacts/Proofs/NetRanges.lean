import MeshFacts.Proofs.NormalFacts

/-! # Ranges of addresses
Which addresses a network contains, and which ranges are not routed. Clearing host bits can take an address into such a range,
or out of one, only if the range lies strictly inside the network; so a network without such a range inside is of the same class
at its own address and at its base. -/
namespace MeshFacts

section
variable {w : ℕ} {a b r : BitVec w} {m n : ℕ}

lemma getLsbD_clearHost (a : BitVec w) (n i : ℕ) :
    (clearHost a n).getLsbD i = (decide (w - n ≤ i) && a.getLsbD i) := by
  rw [clearHost, BitVec.getLsbD_shiftLeft, BitVec.getLsbD_ushiftRight]
  by_cases hhost : i < w - n
  · simp [hhost, show ¬ w - n ≤ i by omega, -Nat.sub_le_iff_le_add]
  · rw [show w - n + (i - (w - n)) = i by omega]
    by_cases hi : i < w
    · simp [hi, hhost, not_lt.mp hhost]
    · simp [hi, BitVec.getLsbD_of_ge _ _ (not_lt.mp hi)]

lemma sameNetwork_iff : sameNetwork n a b = true ↔ ∀ i, w - n ≤ i → a.getLsbD i = b.getLsbD i := by
  rw [sameNetwork, beq_iff_eq]
  constructor
  · intro h i hi
    have hbit := congrArg (BitVec.getLsbD · (i - (w - n))) h
    simp only [BitVec.getLsbD_ushiftRight] at hbit
    rwa [show w - n + (i - (w - n)) = i by omega] at hbit
  · intro h
    refine BitVec.eq_of_getLsbD_eq fun i _ => ?_
    rw [BitVec.getLsbD_ushiftRight, BitVec.getLsbD_ushiftRight, h _ (by omega)]

lemma sameNetwork_comm : sameNetwork n a b = sameNetwork n b a := Bool.beq_comm

lemma sameNetwork_trans {c : BitVec w} (h : sameNetwork n a b = true) (h' : sameNetwork n b c = true) :
    sameNetwork n a c = true := by
  rw [sameNetwork, beq_iff_eq] at *
  exact h.trans h'

lemma sameNetwork_width : sameNetwork w a b = (a == b) := by simp [sameNetwork]

lemma sameNetwork_of_le (h : n ≤ m) (hs : sameNetwork m a b = true) : sameNetwork n a b = true :=
  sameNetwork_iff.mpr fun i hi => sameNetwork_iff.mp hs i (by omega)

/-- The bits that name a network of a longer prefix are not host bits. -/
lemma sameNetwork_clearHost_of_le (h : m ≤ n) : sameNetwork m (clearHost a n) r = sameNetwork m a r := by
  rw [Bool.eq_iff_iff, sameNetwork_iff, sameNetwork_iff]
  refine forall₂_congr fun i hi => ?_
  rw [getLsbD_clearHost, decide_eq_true (by omega : w - n ≤ i), Bool.true_and]

lemma sameNetwork_clearHost_right : sameNetwork n r (clearHost a n) = sameNetwork n r a := by
  rw [sameNetwork_comm, sameNetwork_clearHost_of_le le_rfl, sameNetwork_comm]

/-- Clearing host bits takes an address neither into a range nor out of it, unless the range is inside the network. -/
lemma sameNetwork_clearHost (h : n < m → sameNetwork n a r = false) :
    sameNetwork m (clearHost a n) r = sameNetwork m a r := by
  by_cases hmn : m ≤ n
  · exact sameNetwork_clearHost_of_le hmn
  · have hout := h (not_le.mp hmn)
    have hle := (not_le.mp hmn).le
    have hcleared : sameNetwork m (clearHost a n) r = false := by
      refine Bool.eq_false_iff.mpr fun hs => ?_
      have hin := sameNetwork_of_le hle hs
      rw [sameNetwork_clearHost_of_le le_rfl, hout] at hin
      cases hin
    have hkept : sameNetwork m a r = false := by
      refine Bool.eq_false_iff.mpr fun hs => ?_
      have hin := sameNetwork_of_le hle hs
      rw [hout] at hin
      cases hin
    rw [hcleared, hkept]

end

lemma V6.isSome_mapped? (a : V6) : (V6.mapped? a).isSome = sameNetwork 96 a 0xffff00000000#128 := by
  have hbase : 0xffff00000000#128 >>> 32 = 0xffff#128 := by decide
  by_cases h : a >>> 32 = 0xffff#128 <;> simp [mapped?, sameNetwork, h, hbase]

lemma clearHost_mapped (b : V4) {n : ℕ} (h : 96 ≤ n) :
    clearHost (0xffff#96 ++ b : V6) n = 0xffff#96 ++ clearHost b (n - 96) := by
  refine BitVec.eq_of_getLsbD_eq fun i hi => ?_
  simp only [getLsbD_clearHost, BitVec.getLsbD_append]
  split_ifs with hlow
  · rw [show 96 + 32 - n = 32 - (n - 96) by omega]
  · rw [decide_eq_true (by omega), Bool.true_and]

namespace Net

def contains : Net → IpAddr → Bool
  | v4 a n, .v4 b => sameNetwork n b a
  | v6 a n, .v6 b => sameNetwork n b a
  | v4 _ _, .v6 _ => false
  | v6 _ _, .v4 _ => false

/-- A range lies inside the network and is not all of it. -/
def Encloses (net range : Net) : Prop := net.length < range.length ∧ net.contains range.addr = true

instance (net range : Net) : Decidable (net.Encloses range) := inferInstanceAs (Decidable (_ ∧ _))

/-- The ranges that are not routed, and at the end the one that stands for the addresses of the fourth family. -/
def reserved : List Net :=
  [(IpAddr.v4 0, 32), (.v4 0x7f000000, 8), (.v4 0xa9fe0000, 16), (.v4 0xe0000000, 4), (.v4 0xffffffff, 32),
    (.v6 0, 128), (.v6 1, 128), (.v6 0xff000000000000000000000000000000, 8),
    (.v6 0xfe800000000000000000000000000000, 10), (.v6 0xffff00000000, 96)].filterMap fun (a, n) => ofLength? a n

/-- Addresses are routed that are in none of these ranges, in normal form. -/
lemma isGlobalUnicast_iff (ip : IpAddr) :
    ip.isGlobalUnicast = true ↔ ∀ range ∈ reserved, range.contains ip.normalize = false := by
  have hnormal := ip.normalize_normalize
  simp only [IpAddr.isGlobalUnicast]
  cases h : ip.normalize with
  | v4 b => simp [reserved, ofLength?, contains, IpAddr.isLinkLocal, IpAddr.normalize, sameNetwork_width, and_assoc]
  | v6 b =>
    rw [h] at hnormal
    have hmapped : sameNetwork 96 b 0xffff00000000#128 = false := by
      rw [← V6.isSome_mapped?, Option.isSome_eq_false_iff]
      cases hb : V6.mapped? b with
      | none => rfl
      | some c => simp [IpAddr.normalize, hb] at hnormal
    simp [reserved, ofLength?, contains, IpAddr.isLinkLocal, hnormal, sameNetwork_width, hmapped, and_assoc]

@[simp] lemma length_truncate (net : Net) : net.truncate.length = net.length := by cases net <;> rfl

@[simp] lemma width_truncate (net : Net) : net.truncate.width = net.width := by cases net <;> rfl

variable {net range : Net}

lemma contains_truncate (h : ¬ net.Encloses range) :
    range.contains net.truncate.addr = range.contains net.addr := by
  cases net with
  | v4 a n =>
    cases range with
    | v4 r m =>
      refine sameNetwork_clearHost fun hlt => ?_
      rw [sameNetwork_comm]
      exact Bool.eq_false_iff.mpr fun hs => h ⟨hlt, hs⟩
    | v6 r m => rfl
  | v6 a n =>
    cases range with
    | v4 r m => rfl
    | v6 r m =>
      refine sameNetwork_clearHost fun hlt => ?_
      rw [sameNetwork_comm]
      exact Bool.eq_false_iff.mpr fun hs => h ⟨hlt, hs⟩

lemma truncate_contains (net : Net) (ip : IpAddr) : net.truncate.contains ip = net.contains ip := by
  cases net <;> cases ip <;> first | exact sameNetwork_clearHost_right | rfl

lemma encloses_truncate_iff : net.truncate.Encloses range ↔ net.Encloses range := by
  rw [Encloses, Encloses, truncate_contains, length_truncate]

/-- The addresses in normal form are those outside of the last of the reserved ranges. -/
lemma normalize_addr_eq_self_iff {ip : IpAddr} :
    ip.normalize = ip ↔ (v6 0xffff00000000 96).contains ip = false := by
  cases ip with
  | v4 b => simp [IpAddr.normalize, contains]
  | v6 b =>
    change _ ↔ sameNetwork 96 b 0xffff00000000#128 = false
    rw [← V6.isSome_mapped?, IpAddr.normalize]
    cases V6.mapped? b <;> simp

lemma isMapped_iff {ip : IpAddr} : ip.IsMapped ↔ (v6 0xffff00000000 96).contains ip = true := by
  rw [← not_iff_not, ← IpAddr.normalize_eq_self_iff, normalize_addr_eq_self_iff, Bool.not_eq_true]

/-- A network at a mapped address that is not mapped itself is too short for the bits that mapped addresses share. -/
lemma length_lt_of_isMapped_addr (haddr : net.addr.IsMapped) (hnet : ¬ net.IsMapped) : net.length < 96 :=
  not_le.mp fun hlong => hnet ⟨haddr, hlong⟩

/-- A network without a reserved range inside is of one class at its own address and at its base. -/
lemma isGlobalUnicast_truncate (h : ∀ range ∈ reserved, ¬ net.Encloses range) (hn : net.addr.normalize = net.addr) :
    net.truncate.addr.isGlobalUnicast = net.addr.isGlobalUnicast := by
  have hcontains : ∀ range ∈ reserved, range.contains net.truncate.addr = range.contains net.addr :=
    fun range hrange => contains_truncate (h range hrange)
  have htruncate : net.truncate.addr.normalize = net.truncate.addr := by
    rw [normalize_addr_eq_self_iff] at hn ⊢
    rw [hcontains _ (by simp [reserved, ofLength?]), hn]
  rw [Bool.eq_iff_iff, isGlobalUnicast_iff, isGlobalUnicast_iff, hn, htruncate]
  exact forall₂_congr fun range hrange => by rw [hcontains range hrange]

/-- The normal form is the network at its base, except for the mapped networks. -/
lemma normalize_cases (net : Net) :
    net.normalize = net.truncate ∧ ¬ net.IsMapped ∨
      ∃ b n, ∃ h : 96 ≤ n.val, net = v6 (0xffff#96 ++ b) n ∧ net.normalize = (v4 b ⟨n.val - 96, by omega⟩).truncate := by
  cases net with
  | v4 a n => exact .inl ⟨rfl, by simp [IsMapped, IpAddr.IsMapped, addr]⟩
  | v6 a n =>
    simp only [normalize, IsMapped, IpAddr.IsMapped, addr, length, IpAddr.v6.injEq, ← V6.mapped?_eq_some_iff]
    cases hm : V6.mapped? a with
    | none => exact .inl ⟨rfl, by simp⟩
    | some b =>
      by_cases hn : 96 ≤ n.val
      · exact .inr ⟨b, n, hn, by rw [V6.mapped?_eq_some_iff.mp hm], by simp [hn, ofLength?_sub]⟩
      · exact .inl ⟨by simp [hn], by simp [hn]⟩

lemma isRouter_mapped (b : V4) {n : Fin 129} (h : 96 ≤ n.val) :
    (v6 (0xffff#96 ++ b) n).isRouter = (v4 b ⟨n.val - 96, by omega⟩).isRouter := by
  have hmapped : V6.mapped? (0xffff#96 ++ b) = some b := V6.mapped?_eq_some_iff.mpr rfl
  have haddr : (IpAddr.v6 (0xffff#96 ++ b)).isGlobalUnicast = (IpAddr.v4 b).isGlobalUnicast := by
    simp [IpAddr.isGlobalUnicast, IpAddr.normalize, hmapped]
  have hwide : decide (n.val < 128) = decide (n.val - 96 < 32) := decide_eq_decide.mpr (by omega)
  exact congrArg₂ and hwide haddr

/-- A network is classed by its base, whatever family the normal form is of. -/
lemma isRouter_normalize (net : Net) : net.normalize.isRouter = net.truncate.isRouter := by
  rcases net.normalize_cases with ⟨hnormal, -⟩ | ⟨b, n, hn, rfl, hnormal⟩
  · rw [hnormal]
  · rw [hnormal, truncate, truncate, clearHost_mapped b hn, isRouter_mapped _ hn]

/-- A network is classed by its base if its normal form has no reserved range inside. -/
lemma isRouter_truncate (h : ∀ range ∈ reserved, ¬ net.normalize.Encloses range) :
    net.truncate.isRouter = net.isRouter := by
  have hbase : ∀ {net : Net}, (∀ range ∈ reserved, ¬ net.Encloses range) → net.addr.normalize = net.addr →
      net.truncate.isRouter = net.isRouter := by
    intro net hnet haddr
    rw [isRouter, isRouter, isGlobalUnicast_truncate hnet haddr, length_truncate, width_truncate]
  rcases net.normalize_cases with ⟨hnormal, hmapped⟩ | ⟨b, n, hn, rfl, hnormal⟩
  · simp only [hnormal, encloses_truncate_iff] at h
    refine hbase h (IpAddr.normalize_eq_self_iff.mpr fun haddr => ?_)
    have hlt := length_lt_of_isMapped_addr haddr hmapped
    rw [isMapped_iff] at haddr
    cases net with
    | v4 a n => cases haddr
    | v6 a n =>
      have hin : sameNetwork n.val 0xffff00000000#128 a = true := by
        rw [sameNetwork_comm]
        exact sameNetwork_of_le hlt.le haddr
      exact h (v6 0xffff00000000 96) (by simp [reserved, ofLength?]) ⟨hlt, hin⟩
  · simp only [hnormal, encloses_truncate_iff] at h
    rw [← isRouter_normalize, hnormal, hbase h rfl, isRouter_mapped b hn]

end Net

end MeshFacts
