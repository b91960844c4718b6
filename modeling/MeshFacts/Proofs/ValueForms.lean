import MeshFacts.FactWire
import MeshFacts.Proofs.Outcomes

/-! # Forms of values
A value has one form in octets. Which values an attribute has is told by `Value.Suits`, and reading under an
attribute accepts exactly the forms of the values that suit it. -/
namespace MeshFacts

lemma Octets.count_four : Octets.count 4 = 2 ^ 32 := by norm_num [Octets.count]

lemma Octets.count_sixteen : Octets.count 16 = 2 ^ 128 := by norm_num [Octets.count]

namespace IpAddr

def isWide : IpAddr → Bool
  | v4 _ => false
  | v6 _ => true

lemma length_bytes (ip : IpAddr) : ip.bytes.length = if ip.isWide then 16 else 4 := by
  cases ip <;> simp [bytes, isWide, length_bigEndian]

end IpAddr

namespace Net

lemma length_lt (net : Net) : net.length < 256 := by
  cases net with
  | v4 a n => exact n.isLt.trans (by norm_num)
  | v6 a n => exact n.isLt.trans (by norm_num)

lemma ofLength?_eq_some_iff {ip : IpAddr} {n : ℕ} {net : Net} :
    ofLength? ip n = some net ↔ net.addr = ip ∧ net.length = n := by
  constructor
  · intro h
    cases ip <;> simp only [ofLength?] at h <;> split_ifs at h <;> cases h <;> exact ⟨rfl, rfl⟩
  · rintro ⟨rfl, rfl⟩
    cases net <;> simp [ofLength?, addr, length]

end Net

namespace Value

lemma readIp_bytes (ip : IpAddr) : readIp ip.isWide ip.bytes = ip := by
  cases ip with
  | v4 a =>
    rw [IpAddr.isWide, IpAddr.bytes, readIp, if_neg (by simp), ofBigEndian_bigEndian,
      Octets.count_four, Nat.mod_eq_of_lt a.isLt, BitVec.ofNat_toNat, BitVec.setWidth_eq]
  | v6 a =>
    rw [IpAddr.isWide, IpAddr.bytes, readIp, if_pos rfl, ofBigEndian_bigEndian,
      Octets.count_sixteen, Nat.mod_eq_of_lt a.isLt, BitVec.ofNat_toNat, BitVec.setWidth_eq]

@[simp] lemma isWide_readIp (wide : Bool) (bs : List UInt8) : (readIp wide bs).isWide = wide := by
  cases wide <;> rfl

lemma bytes_readIp {wide : Bool} {bs : List UInt8} (h : bs.length = if wide then 16 else 4) :
    (readIp wide bs).bytes = bs := by
  have hlt := ofBigEndian_lt bs
  have hbs := bigEndian_ofBigEndian bs
  cases wide with
  | false =>
    simp only [Bool.false_eq_true, if_false] at h
    rw [h] at hlt hbs
    rw [Octets.count_four] at hlt
    rw [readIp, if_neg (by simp), IpAddr.bytes, BitVec.toNat_ofNat, Nat.mod_eq_of_lt hlt, hbs]
  | true =>
    simp only [if_true] at h
    rw [h] at hlt hbs
    rw [Octets.count_sixteen] at hlt
    rw [readIp, if_pos rfl, IpAddr.bytes, BitVec.toNat_ofNat, Nat.mod_eq_of_lt hlt, hbs]

inductive Suits : Attribute → Value → Prop
  | endpoint (ip : IpAddr) (port : UInt16) : Suits (endpointAttribute ip) (.ipPort (.ofIp ip port))
  | allowedIps (net : Net) : Suits (allowedIpsAttribute net.addr) (.ipNet net)
  | membership : Suits .membership .empty
  | alive (id : Uuid) : Suits .alive (.uuid id)
  | signedGroup (group : SignedGroup) : Suits .signedGroup (.signedGroup group)

def kind : Value → Attribute
  | ipPort a => endpointAttribute a.ip
  | ipNet n => allowedIpsAttribute n.addr
  | empty => .membership
  | uuid _ => .alive
  | signedGroup _ => .signedGroup

lemma Suits.kind_eq {a : Attribute} {v : Value} (h : Suits a v) : v.kind = a := by
  cases h <;> simp [kind, SocketAddr.ip_ofIp]

lemma Suits.eq_signedGroup_iff {a : Attribute} {v : Value} (h : Suits a v) :
    a = .signedGroup ↔ ∃ g, v = .signedGroup g := by
  cases h with
  | endpoint ip => cases ip <;> simp [endpointAttribute]
  | allowedIps net => cases net <;> simp [allowedIpsAttribute, Net.addr]
  | membership | alive | signedGroup => simp

@[simp] lemma length_encode (v : Value) : v.encode.length = v.encodedLength := by
  cases v with
  | ipPort s => cases s <;> simp [encode, encodedLength, SocketAddr.ip, IpAddr.bytes, length_bigEndian]
  | ipNet n => cases n <;> simp [encode, encodedLength, Net.addr, IpAddr.bytes, length_bigEndian]
  | empty => rfl
  | uuid id => simp [encode, encodedLength, id.length_bytes]
  | signedGroup g =>
    simp [encode, encodedLength, g.nonce.length_bytes, g.tag.length_bytes]
    omega

lemma port_of_octets {bs : List UInt8} (h : bs.length = 2) :
    bigEndian 2 (UInt16.ofNat (ofBigEndian bs)).toNat = bs := by
  have hlt := ofBigEndian_lt bs
  rw [h] at hlt
  have hc : Octets.count 2 = 65536 := rfl
  rw [UInt16.toNat_ofNat', Nat.mod_eq_of_lt (by omega), ← h, bigEndian_ofBigEndian]

lemma ofBigEndian_port (port : UInt16) : UInt16.ofNat (ofBigEndian (bigEndian 2 port.toNat)) = port := by
  have hc : Octets.count 2 = 65536 := rfl
  have := port.toNat_lt
  rw [ofBigEndian_bigEndian, hc, Nat.mod_eq_of_lt (by omega), UInt16.ofNat_toNat]

lemma readIpPort_eq_ok_iff {wide : Bool} {bs : List UInt8} {v : Value} :
    readIpPort wide bs = .ok v ↔
      ∃ ip port, ip.isWide = wide ∧ v = .ipPort (.ofIp ip port) ∧ bs = v.encode := by
  constructor
  · intro h
    simp only [readIpPort] at h
    split_ifs at h with hw hl hl <;> simp only [Except.ok.injEq] at h <;> subst h
    all_goals
      refine ⟨_, _, isWide_readIp _ _, rfl, ?_⟩
      simp only [ne_eq, not_not] at hl
      rw [encode, SocketAddr.ip_ofIp, SocketAddr.port_ofIp, bytes_readIp (by simp [hw, hl]),
        port_of_octets (by simp [hl]), List.take_append_drop]
  · rintro ⟨ip, port, rfl, rfl, rfl⟩
    have hl := ip.length_bytes
    have ht : ∀ t, (ip.bytes ++ t).take (if ip.isWide then 16 else 4) = ip.bytes := by
      intro t
      rw [← hl, List.take_left]
    have hd : ∀ t, (ip.bytes ++ t).drop (if ip.isWide then 16 else 4) = t := by
      intro t
      rw [← hl, List.drop_left]
    rw [readIpPort, if_neg]
    · simp only [encode, SocketAddr.ip_ofIp, SocketAddr.port_ofIp, ht, hd, readIp_bytes,
        ofBigEndian_port]
    · simp [encode, hl, length_bigEndian, SocketAddr.ip_ofIp]

lemma octet_of_length {bs : List UInt8} (h : bs.length = 1) : [UInt8.ofNat (ofBigEndian bs)] = bs := by
  obtain ⟨b, rfl⟩ := List.length_eq_one_iff.mp h
  simp [ofBigEndian]

lemma ofBigEndian_octet {n : ℕ} (h : n < 256) : ofBigEndian [UInt8.ofNat n] = n := by
  simp [ofBigEndian, Nat.mod_eq_of_lt h]

lemma readIpNet_eq_ok_iff {wide : Bool} {bs : List UInt8} {v : Value} :
    readIpNet wide bs = .ok v ↔ ∃ net : Net, net.addr.isWide = wide ∧ v = .ipNet net ∧ bs = v.encode := by
  constructor
  · intro h
    have hl : bs.length = (if wide then 16 else 4) + 1 := by
      by_contra hne
      rw [readIpNet, if_pos hne] at h
      cases h
    rw [readIpNet, if_neg (not_not.mpr hl)] at h
    cases hn : Net.ofLength? (readIp wide (bs.take (if wide then 16 else 4)))
        (ofBigEndian (bs.drop (if wide then 16 else 4))) with
    | none => simp [hn] at h
    | some net =>
      simp only [hn, Except.ok.injEq] at h
      subst h
      obtain ⟨ha, hlen⟩ := Net.ofLength?_eq_some_iff.mp hn
      refine ⟨net, by rw [ha, isWide_readIp], rfl, ?_⟩
      rw [encode, ha, hlen, bytes_readIp (by simp [hl]), octet_of_length (by simp [hl]),
        List.take_append_drop]
  · rintro ⟨net, rfl, rfl, rfl⟩
    have hl := net.addr.length_bytes
    have hn := net.length_lt
    rw [readIpNet, if_neg (by simp [encode, hl])]
    simp only [encode, ← hl, List.take_left, List.drop_left, readIp_bytes, ofBigEndian_octet hn]
    rw [Net.ofLength?_eq_some_iff.mpr ⟨rfl, rfl⟩]

lemma readGroup_eq_ok_iff {bs : List UInt8} {v : Value} :
    readGroup bs = .ok v ↔ ∃ group, v = .signedGroup group ∧ bs = v.encode := by
  constructor
  · intro h
    simp only [readGroup] at h
    split at h
    · rename_i nonce tag hn ht
      simp only [Except.ok.injEq] at h
      subst h
      rw [Octets.ofList?_eq_some_iff] at hn ht
      refine ⟨_, rfl, ?_⟩
      rw [encode, ← hn, ← ht, ← List.append_assoc, ← List.take_add, List.take_append_drop]
    · cases h
  · rintro ⟨⟨nonce, tag, inner⟩, rfl, rfl⟩
    have hn := nonce.length_bytes
    have ht := tag.length_bytes
    have h40 : (nonce.bytes ++ (tag.bytes ++ inner)).drop 40 = inner := by
      rw [← List.append_assoc, List.drop_left' (by simp [hn, ht])]
    simp only [readGroup, encode, List.take_left' hn, List.drop_left' hn, List.take_left' ht,
      Octets.ofList?_bytes, h40]

/-- An attribute has just the values that suit it, each from its own octets. -/
theorem decode_eq_ok_iff {a : Attribute} {bs : List UInt8} {v : Value} :
    decode a bs = .ok v ↔ Suits a v ∧ bs = v.encode := by
  constructor
  · intro h
    cases a with
    | unknown => cases h
    | endpointV4 =>
      obtain ⟨ip, port, hw, rfl, hb⟩ := readIpPort_eq_ok_iff.mp (mapError_eq_ok_iff.mp h)
      cases ip with
      | v4 a => exact ⟨.endpoint (.v4 a) port, hb⟩
      | v6 a => cases hw
    | endpointV6 =>
      obtain ⟨ip, port, hw, rfl, hb⟩ := readIpPort_eq_ok_iff.mp (mapError_eq_ok_iff.mp h)
      cases ip with
      | v4 a => cases hw
      | v6 a => exact ⟨.endpoint (.v6 a) port, hb⟩
    | allowedIpsV4 =>
      obtain ⟨net, hw, rfl, hb⟩ := readIpNet_eq_ok_iff.mp (mapError_eq_ok_iff.mp h)
      cases net with
      | v4 a n => exact ⟨.allowedIps (.v4 a n), hb⟩
      | v6 a n => cases hw
    | allowedIpsV6 =>
      obtain ⟨net, hw, rfl, hb⟩ := readIpNet_eq_ok_iff.mp (mapError_eq_ok_iff.mp h)
      cases net with
      | v4 a n => cases hw
      | v6 a n => exact ⟨.allowedIps (.v6 a n), hb⟩
    | membership =>
      simp only [decode, List.isEmpty_iff] at h
      split_ifs at h with hb
      cases h
      exact ⟨.membership, hb⟩
    | alive =>
      simp only [decode] at h
      split at h
      · rename_i id hid
        cases h
        exact ⟨.alive id, Octets.ofList?_eq_some_iff.mp hid⟩
      · cases h
    | signedGroup =>
      obtain ⟨group, rfl, hb⟩ := readGroup_eq_ok_iff.mp (mapError_eq_ok_iff.mp h)
      exact ⟨.signedGroup group, hb⟩
  · rintro ⟨hs, rfl⟩
    cases hs with
    | endpoint ip port =>
      have h := readIpPort_eq_ok_iff.mpr ⟨ip, port, rfl, rfl, rfl⟩
      cases ip <;> simpa only [decode, endpointAttribute, IpAddr.isWide, mapError_eq_ok_iff] using h
    | allowedIps net =>
      have h := readIpNet_eq_ok_iff.mpr ⟨net, rfl, rfl, rfl⟩
      cases net <;>
        simpa only [decode, allowedIpsAttribute, Net.addr, IpAddr.isWide, mapError_eq_ok_iff] using h
    | membership => rfl
    | alive id => simp [decode, encode, Octets.ofList?_bytes]
    | signedGroup group => exact mapError_eq_ok_iff.mpr (readGroup_eq_ok_iff.mpr ⟨group, rfl, rfl⟩)

lemma Suits.eq_of_encode {a : Attribute} {v w : Value} (hv : Suits a v) (hw : Suits a w) (h : v.encode = w.encode) :
    v = w :=
  Except.ok.inj ((decode_eq_ok_iff.mpr ⟨hv, rfl⟩).symm.trans (decode_eq_ok_iff.mpr ⟨hw, h⟩))

end Value

end MeshFacts
