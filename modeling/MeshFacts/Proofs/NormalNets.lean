import MeshFacts.Proofs.NetRanges

/-! # Normal forms of networks
Bringing a network into normal form changes how it is written and not which addresses it has. Host bits do not count for
that, and the mapped networks, which alone change the family, come to have the addresses that theirs stand for. Clearing host
bits makes no network a mapped one: of the bits that all mapped addresses share, the last is a host bit of every shorter
network, and none is one of a network that is as long. -/
namespace MeshFacts

lemma sameNetwork_mapped (b c : V4) {n : ℕ} (h : n ≤ 32) :
    sameNetwork (96 + n) (0xffff#96 ++ c : V6) (0xffff#96 ++ b) = sameNetwork n c b := by
  rw [Bool.eq_iff_iff, sameNetwork_iff, sameNetwork_iff]
  simp only [BitVec.getLsbD_append]
  constructor
  · intro hbits i hi
    by_cases hlow : i < 32
    · simpa [hlow] using hbits i (by omega)
    · rw [BitVec.getLsbD_of_ge _ _ (not_lt.mp hlow), BitVec.getLsbD_of_ge _ _ (not_lt.mp hlow)]
  · intro hbits i hi
    split_ifs with hlow
    · exact hbits i (by omega)
    · rfl

inductive Family where
  | four
  | six
deriving DecidableEq, Repr

namespace IpAddr

def family : IpAddr → Family
  | v4 _ => .four
  | v6 _ => .six

lemma isMapped_of_sameNetwork {a b : V6} (h : sameNetwork 96 a b = true) (hb : (v6 b).IsMapped) : (v6 a).IsMapped := by
  rw [Net.isMapped_iff] at hb ⊢
  exact sameNetwork_trans h hb

end IpAddr

namespace Net
variable {net : Net}

def family (net : Net) : Family := net.addr.family

@[simp] lemma family_truncate (net : Net) : net.truncate.family = net.family := by cases net <;> rfl

lemma not_hasHostBits_truncate (net : Net) : ¬ net.truncate.HasHostBits := by
  have hcleared : ∀ {w : ℕ} (a : BitVec w) (n : ℕ), ¬ ∃ i < w - n, (clearHost a n).getLsbD i = true := by
    rintro w a n ⟨i, hi, hbit⟩
    rw [getLsbD_clearHost, decide_eq_false (not_le.mpr hi)] at hbit
    cases hbit
  cases net <;> exact hcleared _ _

/-- The bits that all mapped addresses share are no host bits of a network that is as long. -/
lemma isMapped_truncate_iff : net.truncate.IsMapped ↔ net.IsMapped := by
  rw [IsMapped, IsMapped, length_truncate]
  refine and_congr_left fun hlength => ?_
  rw [isMapped_iff, isMapped_iff, contains_truncate]
  exact fun henclosed => absurd henclosed.1 (not_lt.mpr hlength)

/-- What is too short for the bits that mapped addresses share has the last of them as a host bit. -/
lemma hasHostBits_of_isMapped_addr (haddr : net.addr.IsMapped) (hnet : ¬ net.IsMapped) : net.HasHostBits := by
  have hlt := length_lt_of_isMapped_addr haddr hnet
  obtain ⟨b, hb⟩ := haddr
  cases net with
  | v4 a n => cases hb
  | v6 a n =>
    obtain rfl := IpAddr.v6.inj hb
    have hhost : 32 < 128 - n.val := Nat.lt_sub_of_add_lt (Nat.add_lt_add_left hlt 32)
    exact ⟨32, hhost, by rw [BitVec.getLsbD_append]; rfl⟩

lemma normalize_addr_eq_self (h : net.normalize = net) : net.addr.normalize = net.addr := by
  obtain ⟨hhost, hmapped⟩ := normalize_eq_self_iff.mp h
  exact IpAddr.normalize_eq_self_iff.mpr fun haddr => hhost (hasHostBits_of_isMapped_addr haddr hmapped)

lemma normalize_normalize (net : Net) : net.normalize.normalize = net.normalize := by
  rw [normalize_eq_self_iff]
  rcases net.normalize_cases with ⟨hnormal, hmapped⟩ | ⟨b, n, hn, rfl, hnormal⟩
  all_goals rw [hnormal, isMapped_truncate_iff]
  · exact ⟨not_hasHostBits_truncate _, hmapped⟩
  · exact ⟨not_hasHostBits_truncate _, fun ⟨⟨_, haddr⟩, _⟩ => by cases haddr⟩

/-- The addresses of a mapped network are the mapped ones of the network that it stands for. -/
lemma contains_mapped_iff (b : V4) {n : Fin 129} {m : Fin 33} (h : n.val = 96 + m.val) (ip : IpAddr) :
    (v6 (0xffff#96 ++ b) n).contains ip = true ↔
      ∃ c, ip = .v6 (0xffff#96 ++ c) ∧ (v4 b m).contains (.v4 c) = true := by
  have hmapped : ∀ c : V4, (v6 (0xffff#96 ++ b) n).contains (.v6 (0xffff#96 ++ c)) = (v4 b m).contains (.v4 c) := by
    intro c
    rw [contains, contains, h, sameNetwork_mapped b c (by omega)]
  constructor
  · intro hin
    obtain ⟨c, rfl⟩ : ip.IsMapped := by
      cases ip with
      | v4 c => cases hin
      | v6 a => exact IpAddr.isMapped_of_sameNetwork (sameNetwork_of_le (by omega) hin) ⟨b, rfl⟩
    exact ⟨c, rfl, hmapped c ▸ hin⟩
  · rintro ⟨c, rfl, hin⟩
    exact (hmapped c).trans hin

/-- The normal form of a network has no host bits and is its own normal form. It has the addresses of the network or,
where it is of the other family, those that they are the mapped ones of. -/
theorem normalize_same_addresses (net : Net) :
    ¬ net.normalize.HasHostBits ∧
      net.normalize.addr.normalize = net.normalize.addr ∧
      net.normalize.normalize = net.normalize ∧
      (net.normalize.family = net.family → ∀ ip, net.contains ip = true ↔ net.normalize.contains ip = true) ∧
      (net.normalize.family ≠ net.family → net.family = .six ∧ net.normalize.family = .four ∧
        ∀ ip, net.contains ip = true ↔
          ∃ c : V4, ip = .v6 (0xffff#96 ++ c) ∧ net.normalize.contains (.v4 c) = true) ∧
      ∀ a n b, net = v6 a n → V6.mapped? a = some b → 96 ≤ n.val →
        ∃ rest, ofLength? (.v4 b) (n.val - 96) = some rest ∧ net.normalize = rest.truncate := by
  refine ⟨(normalize_eq_self_iff.mp net.normalize_normalize).1, normalize_addr_eq_self net.normalize_normalize,
    net.normalize_normalize, fun hfamily ip => ?_, fun hfamily => ?_, ?_⟩
  · rcases net.normalize_cases with ⟨hnormal, -⟩ | ⟨b, n, hn, rfl, hnormal⟩
    · rw [hnormal, truncate_contains]
    · rw [hnormal] at hfamily
      cases hfamily
  · rcases net.normalize_cases with ⟨hnormal, -⟩ | ⟨b, n, hn, rfl, hnormal⟩
    · exact absurd (by rw [hnormal, family_truncate]) hfamily
    · rw [hnormal]
      refine ⟨rfl, rfl, fun ip => ?_⟩
      simp only [truncate_contains]
      exact contains_mapped_iff b (Nat.add_sub_of_le hn).symm ip
  · rintro a n b rfl hmapped hn
    exact ⟨_, ofLength?_sub b n, by simp [normalize, hmapped, hn, ofLength?_sub]⟩

/-- Of two networks at one mapped address the longer is brought into the fourth family, while the shorter stays in the
sixth. -/
theorem normalize_same_addresses_mapped :
    let long := v6 0xffff0a010203 104
    let short := v6 0xffff0a010203 95
    long.normalize = v4 0x0a000000 8 ∧
      (∀ ip, long.contains ip = true ↔
        ∃ c : V4, ip = .v6 (0xffff#96 ++ c) ∧ (v4 0x0a000000 8).contains (.v4 c) = true) ∧
      (∃ rest, ofLength? (.v4 0x0a010203) 8 = some rest ∧ long.normalize = rest.truncate) ∧
      short.normalize = v6 0xfffe00000000 95 ∧
      ∀ ip, short.contains ip = true ↔ (v6 0xfffe00000000 95).contains ip = true := by
  intro long short
  obtain ⟨-, -, -, -, hchanged, hroom⟩ := normalize_same_addresses long
  obtain ⟨-, -, -, hkept, -, -⟩ := normalize_same_addresses short
  exact ⟨by decide, (hchanged (by decide)).2.2, hroom _ _ _ rfl (by decide) (by decide), by decide, hkept (by decide)⟩

end Net

end MeshFacts
