import MeshFacts.Proofs.NormalFacts
import MeshFacts.Proofs.WireRoundTrip

/-! # Facts of any parts
`new` admits the parts that suit each other, and looks at no more of a socket address than its family and whether it
stands for another. The scope of an address has no room on the wire. So what is admitted is read back as it was
except for a scope, and an address with a scope is admitted all the same. -/
namespace MeshFacts

namespace Value
variable {v : Value} {a : Attribute}

def withoutScope : Value → Value
  | ipPort s => ipPort (.ofIp s.ip s.port)
  | v => v

def HasScope (v : Value) : Prop := ∃ addr port scope, v = ipPort (.v6 addr port scope) ∧ scope ≠ 0

/-- An address, or a network at an address, that stands for one of the fourth family. -/
def AtMapped : Value → Prop
  | ipPort s => s.ip.IsMapped
  | ipNet n => n.addr.IsMapped
  | _ => False

lemma withoutScope_eq_self_iff : v.withoutScope = v ↔ ¬ v.HasScope := by
  cases v with
  | ipPort s =>
    cases s with
    | v4 addr port => simp [withoutScope, HasScope, SocketAddr.ofIp, SocketAddr.ip, SocketAddr.port]
    | v6 addr port scope =>
      simp [withoutScope, HasScope, SocketAddr.ofIp, SocketAddr.ip, SocketAddr.port, eq_comm]
  | ipNet | empty | uuid | signedGroup => simp [withoutScope, HasScope]

@[simp] lemma encode_withoutScope (v : Value) : v.withoutScope.encode = v.encode := by
  cases v <;> simp [withoutScope, encode, SocketAddr.ip_ofIp, SocketAddr.port_ofIp]

@[simp] lemma encodedLength_withoutScope (v : Value) : v.withoutScope.encodedLength = v.encodedLength := by
  rw [← length_encode, encode_withoutScope, length_encode]

@[simp] lemma atMapped_withoutScope (v : Value) : v.withoutScope.AtMapped ↔ v.AtMapped := by
  cases v <;> simp [withoutScope, AtMapped, SocketAddr.ip_ofIp]

lemma suits_ipPort_iff {s : SocketAddr} : Suits a (ipPort s).withoutScope ↔ endpointAttribute s.ip = a := by
  constructor
  · intro h
    rw [← h.kind_eq, withoutScope, kind, SocketAddr.ip_ofIp]
  · rintro rfl
    exact .endpoint s.ip s.port

lemma suits_ipNet_iff {n : Net} : Suits a (ipNet n).withoutScope ↔ allowedIpsAttribute n.addr = a := by
  constructor
  · intro h
    exact h.kind_eq
  · rintro rfl
    exact .allowedIps n

/-- A value passes for an attribute just if, without its scope, it suits the attribute and is at no mapped address. -/
theorem check_eq_ok_iff : v.check a = .ok () ↔ Suits a v.withoutScope ∧ ¬ v.AtMapped := by
  cases v with
  | ipPort s =>
    rw [suits_ipPort_iff, AtMapped, ← IpAddr.normalize_eq_self_iff]
    cases a <;> cases hs : s.ip <;> simp [check, endpointAttribute, hs, ite_eq_iff]
  | ipNet n =>
    rw [suits_ipNet_iff, AtMapped, ← IpAddr.normalize_eq_self_iff]
    cases a <;> cases hn : n.addr <;> simp [check, allowedIpsAttribute, hn, ite_eq_iff]
  | empty =>
    constructor
    · intro h
      cases a <;> cases h
      exact ⟨.membership, not_false⟩
    · rintro ⟨h, -⟩
      cases h
      rfl
  | uuid id =>
    constructor
    · intro h
      cases a <;> cases h
      exact ⟨.alive id, not_false⟩
    · rintro ⟨h, -⟩
      cases h
      rfl
  | signedGroup group =>
    constructor
    · intro h
      cases a <;> cases h
      exact ⟨.signedGroup group, not_false⟩
    · rintro ⟨h, -⟩
      cases h
      rfl

end Value

namespace Fact
variable {f : Fact} {kind : Attribute} {subject : PublicKey} {value : Value} {expires now : Instant}

lemma new_eq_ok_iff : new kind subject value expires = .ok f ↔
    f = ⟨kind, subject, value, expires⟩ ∧ Value.Suits kind value.withoutScope ∧ ¬ value.AtMapped := by
  rw [← Value.check_eq_ok_iff, new]
  cases value.check kind with
  | ok => simp [eq_comm]
  | error e => simp

/-- The fact as the wire has room for it. -/
def withoutScope (f : Fact) : Fact := { f with value := f.value.withoutScope }

lemma formAt_withoutScope (f : Fact) (now : Instant) : f.withoutScope.formAt now = f.formAt now := by
  simp [formAt, form, withoutScope, ttl]

/-- What the constructors build, what is read and what is admitted of parts. -/
def IsMade (f : Fact) : Prop :=
  f.Arises ∨ ∃ kind subject value expires, new kind subject value expires = .ok f

lemma Arises.withoutScope (h : f.Arises) : f.value.withoutScope = f.value := by
  obtain ⟨kind, subject, value, expires⟩ := f
  cases h.suits with
  | endpoint ip port => simp [Value.withoutScope, SocketAddr.ip_ofIp, SocketAddr.port_ofIp]
  | allowedIps | membership | alive | signedGroup => rfl

lemma IsMade.suits (h : f.IsMade) : Value.Suits f.kind f.value.withoutScope := by
  obtain h | ⟨kind, subject, value, expires, h⟩ := h
  · rw [h.withoutScope]
    exact h.suits
  · obtain ⟨rfl, hs, -⟩ := new_eq_ok_iff.mp h
    exact hs

/-- What is admitted and can be written is read back, the scope of an address apart. A flow label would be lost as well;
addresses have none here. -/
theorem decode_of_new (h : new kind subject value expires = .ok f) {written : List UInt8}
    (hw : f.encode now = .ok written) (rest : List UInt8) :
    (∃ g, decode (written ++ rest) now = .ok (g, rest) ∧ g.kind = kind ∧ g.subject = subject ∧
      g.value = value.withoutScope ∧ (g.value = value ↔ ¬ value.HasScope)) ∧
    ∀ other : Value, other.withoutScope = value.withoutScope →
      ∃ g, new kind subject other expires = .ok g ∧ g.encode now = .ok written := by
  obtain ⟨rfl, hs, hmapped⟩ := new_eq_ok_iff.mp h
  obtain ⟨hl, rfl⟩ := encode_eq_ok_iff.mp hw
  refine ⟨?_, fun other hother => ?_⟩
  · set f : Fact := ⟨kind, subject, value, expires⟩
    have hread : decode (f.withoutScope.formAt now ++ rest) now = .ok (f.withoutScope.asRead now, rest) :=
      decode_formAt (by simpa [withoutScope] using hl) hs now rest
    rw [formAt_withoutScope] at hread
    exact ⟨_, hread, rfl, rfl, rfl, Value.withoutScope_eq_self_iff⟩
  · have hmapped' : ¬ other.AtMapped := by rwa [← Value.atMapped_withoutScope, hother, Value.atMapped_withoutScope]
    have hl' : other.encodedLength ≤ LengthVarint.max := by
      rwa [← Value.encodedLength_withoutScope, hother, Value.encodedLength_withoutScope]
    have hsame : withoutScope ⟨kind, subject, other, expires⟩ = withoutScope ⟨kind, subject, value, expires⟩ := by
      simp only [withoutScope, hother]
    refine ⟨⟨kind, subject, other, expires⟩, new_eq_ok_iff.mpr ⟨rfl, hother ▸ hs, hmapped'⟩, ?_⟩
    exact encode_eq_ok_iff.mpr ⟨hl', by rw [← formAt_withoutScope, ← hsame, formAt_withoutScope]⟩

theorem decode_of_new_net :
    let subject : PublicKey := ⟨.zero 32⟩
    let value : Value := .ipNet (.v4 0x0a010203 8)
    let f : Fact := ⟨.allowedIpsV4, subject, value, 30000000000⟩
    new .allowedIpsV4 subject value 30000000000 = .ok f ∧ ∃ written, f.encode 0 = .ok written ∧
      ∃ g, decode (written ++ [9]) 0 = .ok (g, [9]) ∧ g.kind = .allowedIpsV4 ∧ g.subject = subject ∧
        g.value = value := by
  intro subject value f
  have h : new .allowedIpsV4 subject value 30000000000 = .ok f := by rfl
  have hw : f.encode 0 = .ok (f.formAt 0) := encode_eq_ok_iff.mpr ⟨by decide, rfl⟩
  obtain ⟨⟨g, hread, hkind, hsubject, -, hvalue⟩, -⟩ := decode_of_new h hw [9]
  have hscope : ¬ value.HasScope := Value.withoutScope_eq_self_iff.mp rfl
  exact ⟨h, _, hw, g, hread, hkind, hsubject, hvalue.mpr hscope⟩

/-- The endpoint [fe80::1%3]:5 is admitted and comes back as [fe80::1]:5. -/
theorem scope_lost :
    let subject : PublicKey := ⟨.zero 32⟩
    let addr : V6 := 0xfe800000000000000000000000000001
    let value : Value := .ipPort (.v6 addr 5 3)
    let f : Fact := ⟨.endpointV6, subject, value, 30000000000⟩
    new .endpointV6 subject value 30000000000 = .ok f ∧ ∃ written g, f.encode 0 = .ok written ∧
      decode written 0 = .ok (g, []) ∧ g.value = .ipPort (.v6 addr 5 0) ∧ g.value ≠ value := by
  intro subject addr value f
  refine ⟨by decide, f.formAt 0, f.withoutScope.asRead 0, ?_, by decide +kernel, rfl, by decide⟩
  exact encode_eq_ok_iff.mpr ⟨by decide, rfl⟩

end Fact

end MeshFacts
