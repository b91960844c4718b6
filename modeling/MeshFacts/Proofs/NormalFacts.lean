import MeshFacts.Proofs.FactIdentity
import MeshFacts.Proofs.GroupPacking

/-! # Normal forms of facts that are read
The constructors bring addresses and networks into normal form. Reading takes them as they are written: an address of
the sixth family that stands for one of the fourth stays what it is, and so do the host bits of a network. So what is
read is what the constructors build of it only if it is written in normal form, and facts that say the same merge only
if they are written alike. -/
namespace MeshFacts

variable {w : ℕ}

lemma clearHost_eq_self_iff {a : BitVec w} {n : ℕ} : clearHost a n = a ↔ ∀ i < w - n, a.getLsbD i = false := by
  constructor
  · intro h i hi
    rw [← h, clearHost, BitVec.getLsbD_shiftLeft]
    simp [hi]
  · intro h
    refine BitVec.eq_of_getLsbD_eq fun i hi => ?_
    rw [clearHost, BitVec.getLsbD_shiftLeft, BitVec.getLsbD_ushiftRight]
    by_cases hhost : i < w - n
    · simp [hhost, h i hhost]
    · rw [show w - n + (i - (w - n)) = i by omega]
      simp [hi, hhost]

lemma toNat_mapped (b : V4) : (0xffff#96 ++ b : V6).toNat = 0xffff * 2 ^ 32 + b.toNat := by
  rw [BitVec.toNat_append, ← Nat.shiftLeft_add_eq_or_of_lt b.isLt, Nat.shiftLeft_eq]
  rfl

lemma V6.mapped?_eq_some_iff {a : V6} {b : V4} : V6.mapped? a = some b ↔ a = 0xffff#96 ++ b := by
  have hb := b.isLt
  rw [← BitVec.toNat_inj, toNat_mapped]
  simp only [mapped?, ← BitVec.toNat_inj, BitVec.toNat_ushiftRight, Nat.shiftRight_eq_div_pow]
  constructor
  · intro h
    split_ifs at h with hhigh
    rw [Option.some.injEq, ← BitVec.toNat_inj, BitVec.toNat_setWidth] at h
    have := Nat.div_add_mod a.toNat (2 ^ 32)
    simp only [BitVec.toNat_ofNat] at hhigh
    omega
  · intro h
    rw [if_pos (by simp only [BitVec.toNat_ofNat]; omega), Option.some.injEq, ← BitVec.toNat_inj,
      BitVec.toNat_setWidth]
    omega

lemma SocketAddr.ofIp_inj {a b : IpAddr} {p q : UInt16} : ofIp a p = ofIp b q ↔ a = b ∧ p = q := by
  constructor
  · intro h
    exact ⟨by rw [← ip_ofIp a p, h, ip_ofIp], by rw [← port_ofIp a p, h, port_ofIp]⟩
  · rintro ⟨rfl, rfl⟩
    rfl

namespace IpAddr

def IsMapped (ip : IpAddr) : Prop := ∃ b : V4, ip = .v6 (0xffff#96 ++ b)

lemma normalize_eq_self_iff {ip : IpAddr} : ip.normalize = ip ↔ ¬ ip.IsMapped := by
  cases ip with
  | v4 a => simp [normalize, IsMapped]
  | v6 a =>
    simp only [normalize, IsMapped, v6.injEq, ← V6.mapped?_eq_some_iff]
    cases V6.mapped? a <;> simp

end IpAddr

namespace Net

def HasHostBits : Net → Prop
  | v4 a n => ∃ i < 32 - n.val, a.getLsbD i = true
  | v6 a n => ∃ i < 128 - n.val, a.getLsbD i = true

instance (net : Net) : Decidable net.HasHostBits := by
  cases net <;> exact inferInstanceAs (Decidable (∃ i < _, _))

/-- All addresses of the network stand for ones of the fourth family. -/
def IsMapped (net : Net) : Prop := net.addr.IsMapped ∧ 96 ≤ net.length

lemma truncate_eq_self_iff {net : Net} : net.truncate = net ↔ ¬ net.HasHostBits := by
  cases net <;> simp [truncate, HasHostBits, clearHost_eq_self_iff]

lemma normalize_eq_self_iff {net : Net} : net.normalize = net ↔ ¬ net.HasHostBits ∧ ¬ net.IsMapped := by
  rw [← truncate_eq_self_iff]
  cases net with
  | v4 a n => simp [normalize, IsMapped, IpAddr.IsMapped, addr]
  | v6 a n =>
    simp only [normalize, IsMapped, IpAddr.IsMapped, addr, length, IpAddr.v6.injEq, ← V6.mapped?_eq_some_iff]
    cases V6.mapped? a with
    | none => simp
    | some b => by_cases hn : 96 ≤ n.val <;> simp [hn, ofLength?_sub, truncate]

end Net

namespace Fact
variable {f g : Fact} {bytes rest : List UInt8} {now : Instant}

def endpointAsIs (peer : PublicKey) (ip : IpAddr) (port : UInt16) (expires : Instant) : Fact :=
  ⟨Value.endpointAttribute ip, peer, .ipPort (.ofIp ip port), expires⟩

def allowedIpsAsIs (peer : PublicKey) (net : Net) (expires : Instant) : Fact :=
  ⟨Value.allowedIpsAttribute net.addr, peer, .ipNet net, expires⟩

lemma endpoint_eq_asIs (peer : PublicKey) (ip : IpAddr) (port : UInt16) (expires : Instant) :
    endpoint peer (.ofIp ip port) expires = endpointAsIs peer ip.normalize port expires := by
  simp [endpoint, endpointAsIs, SocketAddr.ip_ofIp, SocketAddr.port_ofIp]

lemma allowedIps_eq_asIs (peer : PublicKey) (net : Net) (expires : Instant) :
    allowedIps peer net expires = allowedIpsAsIs peer net.normalize expires := rfl

lemma suits_endpointAsIs (k : PublicKey) (ip : IpAddr) (port : UInt16) (t : Instant) :
    (endpointAsIs k ip port t).value.Suits (endpointAsIs k ip port t).kind := .endpoint ip port

lemma suits_allowedIpsAsIs (k : PublicKey) (n : Net) (t : Instant) :
    (allowedIpsAsIs k n t).value.Suits (allowedIpsAsIs k n t).kind := .allowedIps n

lemma exists_endpointAsIs (hs : f.value.Suits f.kind) (hk : f.kind.isEndpoint = true) :
    ∃ ip port, f = endpointAsIs f.subject ip port f.expires := by
  obtain ⟨kind, subject, value, expires⟩ := f
  cases hs with
  | endpoint ip port => exact ⟨ip, port, rfl⟩
  | allowedIps net => cases net <;> cases hk
  | membership | alive | signedGroup => cases hk

lemma exists_allowedIpsAsIs (hs : f.value.Suits f.kind) (hk : f.kind.isAllowedIps = true) :
    ∃ net, f = allowedIpsAsIs f.subject net f.expires := by
  obtain ⟨kind, subject, value, expires⟩ := f
  cases hs with
  | allowedIps net => exact ⟨net, rfl⟩
  | endpoint ip port => cases ip <;> cases hk
  | membership | alive | signedGroup => cases hk

lemma endpointAddr?_eq_some_iff {a : SocketAddr} (hs : f.value.Suits f.kind) :
    f.endpointAddr? = some a ↔ ∃ ip port, a = .ofIp ip port ∧ f = endpointAsIs f.subject ip port f.expires := by
  obtain ⟨kind, subject, value, expires⟩ := f
  constructor
  · intro h
    cases hs with
    | endpoint ip port =>
      refine ⟨ip, port, ?_, rfl⟩
      cases ip <;> exact (Option.some.inj h).symm
    | allowedIps | membership | alive | signedGroup => cases h
  · rintro ⟨ip, port, rfl, hf⟩
    rw [hf]
    cases ip <;> rfl

lemma allowedNet?_eq_some_iff {n : Net} (hs : f.value.Suits f.kind) :
    f.allowedNet? = some n ↔ f = allowedIpsAsIs f.subject n f.expires := by
  obtain ⟨kind, subject, value, expires⟩ := f
  constructor
  · intro h
    cases hs with
    | allowedIps net =>
      obtain rfl : net = n := by cases net <;> exact Option.some.inj h
      rfl
    | endpoint | membership | alive | signedGroup => cases h
  · intro hf
    rw [hf]
    cases n <;> rfl

lemma key_endpointAsIs_iff {k : PublicKey} {a b : IpAddr} {p q : UInt16} {s t : Instant} :
    (endpointAsIs k a p s).key = (endpointAsIs k b q t).key ↔ SocketAddr.ofIp a p = .ofIp b q := by
  have halive : (endpointAsIs k a p s).kind ≠ .alive := by cases a <;> simp [endpointAsIs, Value.endpointAttribute]
  rw [key_eq_iff (suits_endpointAsIs k a p s) (suits_endpointAsIs k b q t) halive rfl]
  simp [endpointAsIs]

lemma key_allowedIpsAsIs_iff {k : PublicKey} {n m : Net} {s t : Instant} :
    (allowedIpsAsIs k n s).key = (allowedIpsAsIs k m t).key ↔ n = m := by
  have halive : (allowedIpsAsIs k n s).kind ≠ .alive := by
    cases n <;> simp [allowedIpsAsIs, Value.allowedIpsAttribute, Net.addr]
  rw [key_eq_iff (suits_allowedIpsAsIs k n s) (suits_allowedIpsAsIs k m t) halive rfl]
  simp [allowedIpsAsIs]

lemma exists_decode_endpointAsIs (k : PublicKey) (ip : IpAddr) (port : UInt16) {t : Instant} {ttl : UInt8}
    (ht : t = now + ttl.toNat * Clock.second) (rest : List UInt8) :
    ∃ bytes, decode bytes now = .ok (endpointAsIs k ip port t, rest) := by
  have hp : (endpointAsIs k ip port t).Packable :=
    ⟨suits_endpointAsIs k ip port t, by cases ip <;> simp [endpointAsIs, Value.endpointAttribute]⟩
  exact ⟨_, decode_form hp.le_max hp.suits ht rest⟩

lemma exists_decode_allowedIpsAsIs (k : PublicKey) (n : Net) {t : Instant} {ttl : UInt8}
    (ht : t = now + ttl.toNat * Clock.second) (rest : List UInt8) :
    ∃ bytes, decode bytes now = .ok (allowedIpsAsIs k n t, rest) := by
  have hp : (allowedIpsAsIs k n t).Packable :=
    ⟨suits_allowedIpsAsIs k n t, by cases n <;> simp [allowedIpsAsIs, Value.allowedIpsAttribute, Net.addr]⟩
  exact ⟨_, decode_form hp.le_max hp.suits ht rest⟩

/-- An endpoint that is read is the one built of it just if its address is not mapped. -/
lemma endpoint_normal_iff (k : PublicKey) (ip : IpAddr) (port : UInt16) (t : Instant) :
    (endpointAsIs k ip port t = endpoint k (.ofIp ip port) t ↔ ¬ ip.IsMapped) ∧
      ((endpointAsIs k ip port t).key = (endpoint k (.ofIp ip port) t).key ↔ ¬ ip.IsMapped) := by
  have haddr : SocketAddr.ofIp ip port = .ofIp ip.normalize port ↔ ¬ ip.IsMapped := by
    rw [SocketAddr.ofIp_inj, and_iff_left rfl, eq_comm, IpAddr.normalize_eq_self_iff]
  rw [endpoint_eq_asIs, key_endpointAsIs_iff, haddr]
  refine ⟨⟨fun h => ?_, fun h => ?_⟩, Iff.rfl⟩
  · exact haddr.mp (Value.ipPort.inj (congrArg value h))
  · rw [IpAddr.normalize_eq_self_iff.mpr h]

/-- A network that is read is the one built of it just if it has no host bits and is not mapped. -/
lemma allowedIps_normal_iff (k : PublicKey) (n : Net) (t : Instant) :
    (allowedIpsAsIs k n t = allowedIps k n t ↔ ¬ n.HasHostBits ∧ ¬ n.IsMapped) ∧
      ((allowedIpsAsIs k n t).key = (allowedIps k n t).key ↔ ¬ n.HasHostBits ∧ ¬ n.IsMapped) := by
  rw [allowedIps_eq_asIs, key_allowedIpsAsIs_iff, ← Net.normalize_eq_self_iff, eq_comm (a := n)]
  refine ⟨⟨fun h => ?_, fun h => by rw [h]⟩, Iff.rfl⟩
  exact (Value.ipNet.inj (congrArg value h)).symm

/-- What is read is what the constructors build of it just if its address is not mapped, or its network has no host
bits and is not mapped; every other address and network is read as well. -/
theorem decode_normal_iff (h : decode bytes now = .ok (f, rest)) :
    (f.kind.isEndpoint = true → ∃ a, f.endpointAddr? = some a ∧
      (f = endpoint f.subject a f.expires ↔ ¬ a.ip.IsMapped) ∧
      (f.key = (endpoint f.subject a f.expires).key ↔ ¬ a.ip.IsMapped)) ∧
    (f.kind.isAllowedIps = true → ∃ n, f.allowedNet? = some n ∧
      (f = allowedIps f.subject n f.expires ↔ ¬ n.HasHostBits ∧ ¬ n.IsMapped) ∧
      (f.key = (allowedIps f.subject n f.expires).key ↔ ¬ n.HasHostBits ∧ ¬ n.IsMapped)) ∧
    (∀ ip port, ∃ others, decode others now = .ok (endpointAsIs f.subject ip port f.expires, rest)) ∧
    (∀ net, ∃ others, decode others now = .ok (allowedIpsAsIs f.subject net f.expires, rest)) ∧
    ∀ others later rest' g, decode others later = .ok (g, rest') →
      (∀ a b, f.endpointAddr? = some a → g.endpointAddr? = some b →
        endpoint f.subject a now = endpoint g.subject b now → (f.key = g.key ↔ a = b)) ∧
      ∀ n m, f.allowedNet? = some n → g.allowedNet? = some m →
        allowedIps f.subject n now = allowedIps g.subject m now → (f.key = g.key ↔ n = m) := by
  obtain ⟨-, hs, ttl, he, -⟩ := form_of_decode h
  refine ⟨fun hk => ?_, fun hk => ?_, fun ip port => ?_, fun net => ?_, fun others later rest' g hg => ?_⟩
  · obtain ⟨ip, port, hf⟩ := exists_endpointAsIs hs hk
    refine ⟨.ofIp ip port, (endpointAddr?_eq_some_iff hs).mpr ⟨ip, port, rfl, hf⟩, ?_⟩
    rw [SocketAddr.ip_ofIp]
    have hnormal := endpoint_normal_iff f.subject ip port f.expires
    rwa [← hf] at hnormal
  · obtain ⟨n, hf⟩ := exists_allowedIpsAsIs hs hk
    refine ⟨n, (allowedNet?_eq_some_iff hs).mpr hf, ?_⟩
    have hnormal := allowedIps_normal_iff f.subject n f.expires
    rwa [← hf] at hnormal
  · exact exists_decode_endpointAsIs f.subject ip port he rest
  · exact exists_decode_allowedIpsAsIs f.subject net he rest
  · obtain ⟨-, hgs, -⟩ := form_of_decode hg
    refine ⟨fun a b ha hb hsame => ?_, fun n m hn hm hsame => ?_⟩
    · obtain ⟨ip, port, rfl, hf⟩ := (endpointAddr?_eq_some_iff hs).mp ha
      obtain ⟨ip', port', rfl, hg⟩ := (endpointAddr?_eq_some_iff hgs).mp hb
      have hsubject : f.subject = g.subject := (Fact.mk.inj hsame).2.1
      rw [hf, hg, hsubject]
      exact key_endpointAsIs_iff
    · have hf := (allowedNet?_eq_some_iff hs).mp hn
      have hg := (allowedNet?_eq_some_iff hgs).mp hm
      have hsubject : f.subject = g.subject := (Fact.mk.inj hsame).2.1
      rw [hf, hg, hsubject]
      exact key_allowedIpsAsIs_iff

/-- A network without host bits is read as the fact that is built of it. -/
theorem decode_normal_iff_net :
    let bytes := [0x61, 30, 32, 5] ++ List.replicate 32 7 ++ [10, 0, 0, 0, 8]
    let f : Fact := ⟨.allowedIpsV4, ⟨⟨List.replicate 32 7, rfl⟩⟩, .ipNet (.v4 0x0a000000 8), 35000000000⟩
    decode (bytes ++ [1]) 5000000000 = .ok (f, [1]) ∧ f = allowedIps f.subject (.v4 0x0a000000 8) f.expires ∧
      ∃ others, decode others 5000000000 = .ok (allowedIpsAsIs f.subject (.v4 0x0a010203 8) f.expires, [1]) := by
  intro bytes f
  have h : decode (bytes ++ [1]) 5000000000 = .ok (f, [1]) := by rfl
  obtain ⟨-, hnet, -, hothers, -⟩ := decode_normal_iff h
  obtain ⟨n, hn, hnormal, -⟩ := hnet rfl
  obtain rfl : Net.v4 0x0a000000 8 = n := Option.some.inj hn
  have hmapped : ¬ (Net.v4 0x0a000000 8).IsMapped := by
    rintro ⟨⟨b, hb⟩, -⟩
    cases hb
  exact ⟨h, hnormal.mpr ⟨by decide, hmapped⟩, hothers (.v4 0x0a010203 8)⟩

/-- Neither the endpoint [::ffff:192.0.2.9]:7 nor the network 10.1.2.3/8 is read as what the constructors build of
it. -/
theorem decode_not_normal :
    let k : PublicKey := ⟨⟨List.replicate 32 7, rfl⟩⟩
    let net := [0x61, 30, 32, 5] ++ List.replicate 32 7 ++ [10, 1, 2, 3, 8]
    let both := [0x36, 30, 32, 18] ++ List.replicate 32 7 ++
      [0, 0, 0, 0, 0, 0, 0, 0, 0, 0, 255, 255, 192, 0, 2, 9, 0, 7] ++ net
    let a : SocketAddr := .v6 0xffffc0000209 7 0
    let n : Net := .v4 0x0a010203 8
    let f : Fact := ⟨.endpointV6, k, .ipPort a, 30000000000⟩
    let g : Fact := ⟨.allowedIpsV4, k, .ipNet n, 30000000000⟩
    decode both 0 = .ok (f, net) ∧ decode net 0 = .ok (g, []) ∧
      ¬ (f = endpoint k a f.expires) ∧ ¬ (f.key = (endpoint k a f.expires).key) ∧
      ¬ (g = allowedIps k n g.expires) ∧ ¬ (g.key = (allowedIps k n g.expires).key) := by
  decide

end Fact

end MeshFacts
