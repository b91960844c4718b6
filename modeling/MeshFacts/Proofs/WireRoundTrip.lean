import MeshFacts.Proofs.FactForms

/-! # Round trips of facts
Reading and writing undo each other. What is read is written again as the very octets it was read from, and
what the constructors build is read back from what is written of it, its end moved by half a second at most. -/
namespace MeshFacts.Fact

lemma ttl_of_expires {f : Fact} {now : Instant} {n : ℕ} (hn : n ≤ 255)
    (he : f.expires = now + n * Clock.second) : f.ttl now = n := by
  have hs : Clock.since f.expires now = n * 1000000000 := by
    rw [Clock.since, he, add_sub_cancel_left]
    exact Int.toNat_natCast (n * Clock.second)
  simp only [ttl, hs, Clock.millisecond]
  omega

lemma ttl_of_le {f : Fact} {now : Instant} (h : now + Clock.factTtl ≤ f.expires) : f.ttl now = 255 := by
  have hlong : (255000000000 : ℕ) ≤ Clock.since f.expires now := (Clock.le_since_iff (by decide)).mpr h
  simp only [ttl, Clock.millisecond]
  omega

lemma lt_expires_asRead {f : Fact} {now : Instant} (h : now + Clock.factTtl ≤ f.expires) :
    now < (f.asRead now).expires := by
  rw [asRead, ttl_of_le h, withExpires]
  exact lt_add_of_pos_right now (by decide)

lemma abs_ttl_sub_le (f : Fact) (now : Instant) :
    |now + f.ttl now * Clock.second - max now (min f.expires (now + 255 * Clock.second))| ≤
      500 * Clock.millisecond := by
  have hs : (Clock.second : ℤ) = 1000000000 := rfl
  have hm : (Clock.millisecond : ℤ) = 1000000 := rfl
  rw [abs_le, hs, hm]
  unfold ttl Clock.since Clock.millisecond Instant at *
  constructor <;> omega

/-- Octets that are read are the written form of the fact that comes of them, and no others give that fact, time to
live and rest. -/
theorem decode_canonical {f : Fact} {bytes rest : List UInt8} {now : Instant}
    (h : decode bytes now = .ok (f, rest)) :
    (∃ written, f.encode now = .ok written ∧ written ++ rest = bytes) ∧
      ∀ (g : Fact) (others : List UInt8) (later : Instant), decode others later = .ok (g, rest) →
        g.kind = f.kind → g.subject = f.subject → g.value = f.value → g.ttl later = f.ttl now →
        others = bytes := by
  obtain ⟨hl, -, ttl, he, rfl⟩ := form_of_decode h
  have ht : f.ttl now = ttl.toNat := ttl_of_expires (by have := ttl.toNat_lt; omega) he
  refine ⟨⟨f.form ttl, encode_eq_ok_iff.mpr ⟨hl, by rw [formAt, ht, UInt8.ofNat_toNat]⟩, rfl⟩, ?_⟩
  intro g others later hg hkind hsubject hvalue httl
  obtain ⟨-, -, ttl', he', rfl⟩ := form_of_decode hg
  have ht' : g.ttl later = ttl'.toNat := ttl_of_expires (by have := ttl'.toNat_lt; omega) he'
  have hsame : ttl' = ttl := UInt8.toNat_inj.mp (by omega)
  simp only [form, hkind, hsubject, hvalue, hsame]

/-- A network inside the sixth family that stands for one of the fourth keeps its form. -/
theorem decode_canonical_mapped :
    let bytes := [0x41, 200, 32, 17] ++ List.replicate 32 7 ++
      [0, 0, 0, 0, 0, 0, 0, 0, 0, 0, 255, 255, 10, 1, 2, 3, 104]
    let f : Fact := ⟨.allowedIpsV6, ⟨⟨List.replicate 32 7, rfl⟩⟩, .ipNet (.v6 0xffff0a010203 104), 205000000000⟩
    decode (bytes ++ [1, 2]) 5000000000 = .ok (f, [1, 2]) ∧
      (∃ written, f.encode 5000000000 = .ok written ∧ written ++ [1, 2] = bytes ++ [1, 2]) ∧
        ∀ (g : Fact) (others : List UInt8) (later : Instant), decode others later = .ok (g, [1, 2]) →
          g.kind = f.kind → g.subject = f.subject → g.value = f.value →
          g.ttl later = f.ttl 5000000000 → others = bytes ++ [1, 2] := by
  intro bytes f
  have h : decode (bytes ++ [1, 2]) 5000000000 = .ok (f, [1, 2]) := by rfl
  exact ⟨h, decode_canonical h⟩

inductive Built : Fact → Prop
  | endpoint (peer : PublicKey) (addr : SocketAddr) (expires : Instant) :
      Built (.endpoint peer addr expires)
  | allowedIps (peer : PublicKey) (net : Net) (expires : Instant) : Built (.allowedIps peer net expires)
  | membership (peer : PublicKey) (expires : Instant) : Built (.membership peer expires)
  | alive (peer : PublicKey) (bootId : Uuid) (expires : Instant) : Built (.alive peer bootId expires)
  | signedGroup (sender : PublicKey) (group : SignedGroup) (expires : Instant) :
      Built (.signedGroup sender group expires)

lemma Built.suits {f : Fact} (h : Built f) : f.value.Suits f.kind := by
  cases h with
  | endpoint peer addr expires => exact .endpoint addr.ip.normalize addr.port
  | allowedIps peer net expires => exact .allowedIps net.normalize
  | membership => exact .membership
  | alive peer bootId => exact .alive bootId
  | signedGroup sender group => exact .signedGroup group

def Arises (f : Fact) : Prop := f.Built ∨ ∃ bytes now rest, decode bytes now = .ok (f, rest)

lemma Arises.suits {f : Fact} (h : f.Arises) : f.value.Suits f.kind := by
  obtain hb | ⟨bytes, now, rest, hd⟩ := h
  · exact hb.suits
  · exact (form_of_decode hd).2.1

/-- Writing what a constructor builds fails only if the value is too long. What is written is read as the same fact,
with an end that is off by half a second at most. -/
theorem write_round_trip {f : Fact} (hf : Built f) (now : Instant) (buffer tail : List UInt8) :
    ((f.write now buffer).1 = .ok () ↔ f.value.encodedLength ≤ 0x1FFFFF) ∧
      ((f.write now buffer).1 ≠ .ok () → (f.write now buffer).2 = buffer) ∧
      ((f.write now buffer).1 = .ok () →
        ∃ written, (f.write now buffer).2 = buffer ++ written ∧ written.length = f.encodedLength ∧
          ∃ g, decode (written ++ tail) now = .ok (g, tail) ∧ g.kind = f.kind ∧ g.subject = f.subject ∧
            g.value = f.value ∧
            |g.expires - max now (min f.expires (now + 255 * Clock.second))| ≤ 500 * Clock.millisecond) := by
  by_cases hl : f.value.encodedLength ≤ LengthVarint.max
  · have hw := write_of_le hl now buffer
    refine ⟨by simpa [hw, LengthVarint.max] using hl, by simp [hw], fun _ => ?_⟩
    refine ⟨f.formAt now, by rw [hw], f.length_form _, ?_⟩
    exact ⟨f.asRead now, decode_formAt hl hf.suits now tail, rfl, rfl, rfl, f.abs_ttl_sub_le now⟩
  · have hw := write_of_lt (not_le.mp hl) now buffer
    refine ⟨by simpa [hw, LengthVarint.max] using hl, by simp [hw], by simp [hw]⟩

/-- An endpoint inside the sixth family, with a scope, that stands for one of the fourth. -/
theorem write_round_trip_mapped :
    let f := endpoint ⟨.zero 32⟩ (.v6 0xffff0a010203 51820 3) 7400000000
    Built f ∧ ∃ written, (f.write 0 [8]).2 = [8] ++ written ∧ written.length = f.encodedLength ∧
      ∃ g, decode (written ++ [9]) 0 = .ok (g, [9]) ∧ g.kind = f.kind ∧ g.subject = f.subject ∧
        g.value = f.value ∧
        |g.expires - max 0 (min f.expires (0 + 255 * Clock.second))| ≤ 500 * Clock.millisecond := by
  intro f
  have hf : Built f := .endpoint _ _ _
  have hw : (f.write 0 [8]).1 = .ok () := by rfl
  exact ⟨hf, (write_round_trip hf 0 [8] [9]).2.2 hw⟩

end MeshFacts.Fact
