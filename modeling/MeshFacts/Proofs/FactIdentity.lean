import MeshFacts.FactKey
import MeshFacts.Proofs.ValueForms

/-! # What keys tell
Keys are ordered by attribute, subject and value, one after the other. Since an attribute has each of its values in one
form, the key of a fact tells all that the fact says, but for the start that an alive fact tells of. -/
namespace MeshFacts

/-- Octets of one length in front of others decide on the order, unless they are the same. -/
lemma append_lt_append_iff {s t v w : List UInt8} (h : s.length = t.length) :
    s ++ v < t ++ w ↔ s < t ∨ s = t ∧ v < w := by
  induction s generalizing t with
  | nil =>
    obtain rfl := List.length_eq_zero_iff.mp h.symm
    simp
  | cons a s ih =>
    cases t with
    | nil => cases h
    | cons b t =>
      rw [List.cons_append, List.cons_append, List.cons_lt_cons_iff, List.cons_lt_cons_iff, List.cons.injEq,
        ih (Nat.succ.inj h)]
      tauto

namespace FactKey

/-- Keys come by their attributes, in the order of the octets of these, then by their subjects, then by their values. -/
def Precedes (a b : FactKey) : Prop :=
  a.kind.byte < b.kind.byte ∨ a.kind = b.kind ∧ (a.subject < b.subject ∨ a.subject = b.subject ∧ a.value < b.value)

lemma lt_iff_precedes {a b : FactKey} : a < b ↔ a.Precedes b := by
  have hlength : a.subject.bytes.length = b.subject.bytes.length := by simp [PublicKey.bytes, Octets.length_bytes]
  have hkind : a.kind.byte = b.kind.byte ↔ a.kind = b.kind := ⟨Attribute.byte_injective, congrArg Attribute.byte⟩
  have hsubject : a.subject.bytes = b.subject.bytes ↔ a.subject = b.subject :=
    ⟨PublicKey.bytes_injective, congrArg PublicKey.bytes⟩
  have hoctets : a < b ↔ a.octets < b.octets := Iff.rfl
  rw [hoctets, octets, octets, List.cons_lt_cons_iff, append_lt_append_iff hlength, hkind, hsubject]
  exact Iff.rfl

end FactKey

namespace Fact
variable {f g : Fact}

lemma key_eq_iff (hf : f.value.Suits f.kind) (hg : g.value.Suits g.kind) (halive : f.kind ≠ .alive)
    (hsubject : f.subject = g.subject) : f.key = g.key ↔ f.value = g.value := by
  constructor
  · intro hkey
    have hkind : f.kind = g.kind := congrArg FactKey.kind hkey
    have hvalue := congrArg FactKey.value hkey
    simp only [key, halive, ← hkind, if_false] at hvalue
    exact hf.eq_of_encode (hkind ▸ hg) hvalue
  · intro hvalue
    have hkind : f.kind = g.kind := by rw [← hf.kind_eq, hvalue, hg.kind_eq]
    simp only [key, hkind, hsubject, hvalue]

/-- Facts have one key that agree in attribute, subject and, unless they say that a peer is alive, value. -/
lemma key_eq_key_iff (hf : f.value.Suits f.kind) (hg : g.value.Suits g.kind) :
    f.key = g.key ↔ f.kind = g.kind ∧ f.subject = g.subject ∧ (f.kind ≠ .alive → f.value = g.value) := by
  constructor
  · intro h
    have hsubject : f.subject = g.subject := congrArg FactKey.subject h
    exact ⟨congrArg FactKey.kind h, hsubject, fun halive => (key_eq_iff hf hg halive hsubject).mp h⟩
  · rintro ⟨hkind, hsubject, hvalue⟩
    by_cases halive : f.kind = .alive
    · simp [key, halive, ← hkind, hsubject]
    · exact (key_eq_iff hf hg halive hsubject).mpr (hvalue halive)

lemma exists_bootId? (hs : f.value.Suits f.kind) (halive : f.kind = .alive) :
    ∃ id, f.value = .uuid id ∧ f.bootId? = some id := by
  obtain ⟨kind, subject, value, expires⟩ := f
  cases hs with
  | endpoint ip => cases ip <;> cases halive
  | allowedIps net => cases net <;> cases halive
  | membership | signedGroup => cases halive
  | alive id => exact ⟨id, rfl, rfl⟩

/-- Facts are the same that have one key, end together and, if they say that a peer is alive, tell of one start. -/
lemma eq_of_key (hf : f.value.Suits f.kind) (hg : g.value.Suits g.kind) (hkey : f.key = g.key)
    (hexpires : f.expires = g.expires) (hboot : f.kind = .alive → f.bootId? = g.bootId?) : f = g := by
  obtain ⟨hkind, hsubject, hvalue⟩ := (key_eq_key_iff hf hg).mp hkey
  refine Fact.mk.injEq .. ▸ ⟨hkind, hsubject, ?_, hexpires⟩
  by_cases halive : f.kind = .alive
  · obtain ⟨id, hv, hid⟩ := exists_bootId? hf halive
    obtain ⟨id', hv', hid'⟩ := exists_bootId? hg (hkind ▸ halive)
    rw [hv, hv', Option.some.inj ((hid.symm.trans (hboot halive)).trans hid')]
  · exact hvalue halive

end Fact

end MeshFacts
