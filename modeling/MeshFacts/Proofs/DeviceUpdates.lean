import Mathlib
import MeshFacts.Link

/-! # Updates of the device
A device in memory under a row of single updates: what is recorded of them, which keys they bring in, what they
make of the peer of a key, and how updates by several steps come together. -/
namespace MeshFacts

namespace MemoryDevice

def make (d : MemoryDevice) (u : PeerUpdate) : MemoryDevice :=
  { d.setPeers (DevicePeer.applyTo d.peers u) with calls := d.calls ++ [[u]] }

lemma peers_foldl_make (d : MemoryDevice) (us : List PeerUpdate) :
    (us.foldl make d).peers = us.foldl DevicePeer.applyTo d.peers := by
  induction us generalizing d with
  | nil => rfl
  | cons u us ih => exact ih (d.make u)

lemma calls_foldl_make (d : MemoryDevice) (us : List PeerUpdate) :
    (us.foldl make d).calls = d.calls ++ us.map ([·]) := by
  induction us generalizing d with
  | nil => simp
  | cons u us ih =>
    rw [List.foldl_cons, ih, make, List.map_cons, List.append_assoc, List.singleton_append]

lemma configure_one (d : MemoryDevice) (name : String) (u : PeerUpdate) :
    (d.configure name [u]).2 = d.make u ∨ (d.configure name [u]).2 = d := by
  unfold configure
  split
  · exact .inr rfl
  · split
    · exact .inr rfl
    · exact .inl rfl

end MemoryDevice

namespace DevicePeer

lemma map_publicKey_change {k : PublicKey} {f : DevicePeer → DevicePeer}
    (hf : ∀ p, (f p).publicKey = p.publicKey) (peers : List DevicePeer) :
    (change k f peers).map publicKey = peers.map publicKey := by
  induction peers with
  | nil => rfl
  | cons p peers ih =>
    simp only [change]
    split_ifs
    · simp [hf]
    · simp [ih]

/-- An update brings in no key but its own, and that only if it may add a peer. -/
lemma mem_keys_applyTo {peers : List DevicePeer} {u : PeerUpdate} {k : PublicKey}
    (h : k ∈ (applyTo peers u).map publicKey) :
    k ∈ peers.map publicKey ∨ k = u.publicKey ∧ u.remove = false ∧ u.updateOnly = false := by
  unfold applyTo at h
  split_ifs at h with hr ha ho
  · exact .inl ((List.eraseP_sublist.map publicKey).subset h)
  · rw [map_publicKey_change (f := (·.apply u)) fun p => rfl] at h
    exact .inl h
  · exact .inl h
  · rw [List.map_append, List.mem_append] at h
    rcases h with h | h
    · exact .inl h
    · exact .inr ⟨by simpa [apply] using h, by simpa using hr, by simpa using ho⟩

lemma mem_keys_foldl_applyTo {peers : List DevicePeer} {us : List PeerUpdate} {k : PublicKey}
    (h : k ∈ (us.foldl applyTo peers).map publicKey) :
    k ∈ peers.map publicKey ∨ ∃ u ∈ us, k = u.publicKey ∧ u.remove = false ∧ u.updateOnly = false := by
  induction us generalizing peers with
  | nil => exact .inl h
  | cons u us ih =>
    rcases ih h with h | ⟨v, hv, hk⟩
    · rcases mem_keys_applyTo h with h | hk
      · exact .inl h
      · exact .inr ⟨u, by simp, hk⟩
    · exact .inr ⟨v, by simp [hv], hk⟩

lemma mem_keys_of_mem_applyTo {peers : List DevicePeer} {u : PeerUpdate} {k : PublicKey}
    (h : k ∈ peers.map publicKey) (hu : u.remove = true → u.publicKey ≠ k) :
    k ∈ (applyTo peers u).map publicKey := by
  unfold applyTo
  split_ifs with hr ha ho
  · obtain ⟨p, hp, rfl⟩ := List.mem_map.mp h
    refine List.mem_map_of_mem ((List.mem_eraseP_of_neg ?_).mpr hp)
    simpa using fun heq => hu hr heq.symm
  · rwa [map_publicKey_change (f := (·.apply u)) fun _ => rfl]
  · exact h
  · exact List.mem_map.mpr (by
      obtain ⟨p, hp, rfl⟩ := List.mem_map.mp h
      exact ⟨p, List.mem_append_left _ hp, rfl⟩)

lemma mem_keys_of_mem_foldl_applyTo {peers : List DevicePeer} {us : List PeerUpdate} {k : PublicKey}
    (h : k ∈ peers.map publicKey) (hus : ∀ u ∈ us, u.remove = true → u.publicKey ≠ k) :
    k ∈ (us.foldl applyTo peers).map publicKey := by
  induction us generalizing peers with
  | nil => exact h
  | cons u us ih =>
    have hk := mem_keys_of_mem_applyTo h (hus u (by simp))
    exact ih hk fun v hv => hus v (by simp [hv])

section
variable {peers : List DevicePeer} {us : List PeerUpdate} {u : PeerUpdate} {q : DevicePeer} {k : PublicKey}

lemma find?_change_self {k : PublicKey} {f : DevicePeer → DevicePeer} (hf : ∀ p, (f p).publicKey = p.publicKey)
    (peers : List DevicePeer) :
    (change k f peers).find? (fun p => p.publicKey = k) = (peers.find? fun p => p.publicKey = k).map f := by
  induction peers with
  | nil => rfl
  | cons p peers ih =>
    by_cases h : p.publicKey = k
    · simp [change, h, hf]
    · simp [change, h, ih]

lemma find?_change_of_ne {j k : PublicKey} {f : DevicePeer → DevicePeer}
    (hf : ∀ p, (f p).publicKey = p.publicKey) (hne : j ≠ k) (peers : List DevicePeer) :
    (change j f peers).find? (fun p => p.publicKey = k) = peers.find? fun p => p.publicKey = k := by
  induction peers with
  | nil => rfl
  | cons p peers ih =>
    by_cases h : p.publicKey = j
    · have hk : p.publicKey ≠ k := h ▸ hne
      simp [change, h, hf, hne]
    · simp only [change, if_neg h, List.find?_cons, ih]

lemma find?_eraseP_of_ne {j k : PublicKey} (hne : j ≠ k) (peers : List DevicePeer) :
    (peers.eraseP fun p => p.publicKey = j).find? (fun p => p.publicKey = k) =
      peers.find? fun p => p.publicKey = k := by
  induction peers with
  | nil => rfl
  | cons p peers ih =>
    by_cases h : p.publicKey = j
    · have hk : p.publicKey ≠ k := h ▸ hne
      simp [h, hne]
    · rw [List.eraseP_cons_of_neg (by simpa using h), List.find?_cons, List.find?_cons, ih]

lemma find?_eq_some_iff {p : DevicePeer} (hd : (peers.map publicKey).Nodup) :
    peers.find? (fun q => q.publicKey = k) = some p ↔ p ∈ peers ∧ p.publicKey = k := by
  constructor
  · intro h
    exact ⟨List.mem_of_find?_eq_some h, by simpa using List.find?_some h⟩
  · rintro ⟨hp, rfl⟩
    obtain ⟨q, hq⟩ : ∃ q, peers.find? (fun q => q.publicKey = p.publicKey) = some q :=
      Option.isSome_iff_exists.mp (List.find?_isSome.mpr ⟨p, hp, by simp⟩)
    have hkey : q.publicKey = p.publicKey := by simpa using List.find?_some hq
    rw [hq, List.inj_on_of_nodup_map hd (List.mem_of_find?_eq_some hq) hp hkey]

lemma find?_applyTo_of_ne (h : u.publicKey ≠ k) :
    (applyTo peers u).find? (fun p => p.publicKey = k) = peers.find? fun p => p.publicKey = k := by
  unfold applyTo
  split_ifs
  · exact find?_eraseP_of_ne h peers
  · exact find?_change_of_ne (f := (·.apply u)) (fun _ => rfl) h peers
  · rfl
  · simp [List.find?_append, apply, h]

lemma find?_applyTo_change {p : DevicePeer} (hr : u.remove = false)
    (hp : peers.find? (fun p => p.publicKey = u.publicKey) = some p) :
    (applyTo peers u).find? (fun p => p.publicKey = u.publicKey) = some (p.apply u) := by
  have hany : (peers.any fun p => p.publicKey = u.publicKey) = true :=
    List.any_eq_true.mpr ⟨p, List.mem_of_find?_eq_some hp, by simpa using List.find?_some hp⟩
  rw [applyTo, if_neg (by simp [hr]), if_pos hany,
    find?_change_self (f := (·.apply u)) fun _ => rfl, hp, Option.map_some]

lemma find?_applyTo_add (hr : u.remove = false) (ho : u.updateOnly = false)
    (hnone : peers.find? (fun p => p.publicKey = u.publicKey) = none) :
    (applyTo peers u).find? (fun p => p.publicKey = u.publicKey) =
      some (apply { publicKey := u.publicKey } u) := by
  have hany : ¬ (peers.any fun p => p.publicKey = u.publicKey) = true := by
    simpa [List.find?_eq_none] using hnone
  rw [applyTo, if_neg (by simp [hr]), if_neg hany, if_neg (by simp [ho]), List.find?_append, hnone,
    Option.none_or]
  simp [apply]

lemma nodup_applyTo (h : (peers.map publicKey).Nodup) : ((applyTo peers u).map publicKey).Nodup := by
  unfold applyTo
  split_ifs with hr ha ho
  · exact h.sublist ((List.eraseP_sublist).map _)
  · rwa [map_publicKey_change (f := (·.apply u)) fun _ => rfl]
  · exact h
  · rw [List.map_append]
    refine List.Nodup.append h (List.nodup_singleton _) ?_
    rw [List.map_singleton, List.disjoint_singleton]
    simpa [apply] using ha

lemma mem_change {f : DevicePeer → DevicePeer} (h : q ∈ change k f peers) :
    q ∈ peers ∨ ∃ p ∈ peers, p.publicKey = k ∧ q = f p := by
  induction peers with
  | nil => exact .inl h
  | cons p peers ih =>
    simp only [change] at h
    split_ifs at h with hkey
    · rcases List.mem_cons.mp h with rfl | h
      · exact .inr ⟨p, by simp, hkey, rfl⟩
      · exact .inl (by simp [h])
    · rcases List.mem_cons.mp h with rfl | h
      · exact .inl (by simp)
      · rcases ih h with h | ⟨r, hr, hrk, rfl⟩
        · exact .inl (by simp [h])
        · exact .inr ⟨r, by simp [hr], hrk, rfl⟩

lemma mem_applyTo (h : q ∈ applyTo peers u) :
    q ∈ peers ∨ (∃ p ∈ peers, p.publicKey = u.publicKey ∧ q = p.apply u) ∨ q = apply { publicKey := u.publicKey } u := by
  unfold applyTo at h
  split_ifs at h
  · exact .inl (List.mem_of_mem_eraseP h)
  · rcases mem_change h with h | h
    · exact .inl h
    · exact .inr (.inl h)
  · exact .inl h
  · rcases List.mem_append.mp h with h | h
    · exact .inl h
    · exact .inr (.inr (List.mem_singleton.mp h))

lemma mem_keys_applyTo_self (hremove : u.remove = false) (honly : u.updateOnly = false) :
    u.publicKey ∈ (applyTo peers u).map publicKey := by
  by_cases hin : u.publicKey ∈ peers.map publicKey
  · exact mem_keys_of_mem_applyTo hin (by simp [hremove])
  · have hany : ¬ (peers.any fun p => p.publicKey = u.publicKey) = true := by simpa using hin
    rw [applyTo, if_neg (by simp [hremove]), if_neg hany, if_neg (by simp [honly])]
    simp [apply]

lemma mem_keys_foldl_applyTo_of_mem (hu : u ∈ us) (hremove : u.remove = false) (honly : u.updateOnly = false)
    (hus : ∀ v ∈ us, v.remove = true → v.publicKey ≠ u.publicKey) :
    u.publicKey ∈ (us.foldl applyTo peers).map publicKey := by
  obtain ⟨before, after, rfl⟩ := List.append_of_mem hu
  rw [List.foldl_append, List.foldl_cons]
  exact mem_keys_of_mem_foldl_applyTo (mem_keys_applyTo_self hremove honly) fun v hv => hus v (by simp [hv])

lemma mem_joinNets {n : Net} {nets others : List Net} : n ∈ joinNets nets others ↔ n ∈ nets ∨ n ∈ others := by
  induction others generalizing nets with
  | nil => simp [joinNets]
  | cons m others ih =>
    rw [joinNets, ih, List.mem_cons]
    split_ifs with hm
    · constructor
      · rintro (h | h) <;> simp [h]
      · rintro (h | rfl | h) <;> simp [*]
    · rw [List.mem_append, List.mem_singleton, or_assoc]

lemma apply_of_isNoop {p : DevicePeer} (h : u.isNoop = true) : p.apply u = p := by
  simp only [PeerUpdate.isNoop, Bool.and_eq_true, Bool.not_eq_true', Option.isNone_iff_eq_none,
    List.isEmpty_iff] at h
  obtain ⟨⟨⟨-, he⟩, hr⟩, hn⟩ := h
  simp [apply, he, hr, hn, joinNets]

end

end DevicePeer

namespace MemoryDevice
variable {d : MemoryDevice} {us : List PeerUpdate} {k : PublicKey}

lemma peer?_make_of_ne {u : PeerUpdate} (h : u.publicKey ≠ k) : (d.make u).state.peer? k = d.state.peer? k :=
  DevicePeer.find?_applyTo_of_ne h

lemma peer?_foldl_make_of_ne (h : ∀ u ∈ us, u.publicKey ≠ k) :
    (us.foldl make d).state.peer? k = d.state.peer? k := by
  induction us generalizing d with
  | nil => rfl
  | cons u us ih =>
    rw [List.foldl_cons, ih fun v hv => h v (by simp [hv]), peer?_make_of_ne (h u (by simp))]

end MemoryDevice

lemma Link.configure_snd (l : Link) (s : LinkState) (u : PeerUpdate) :
    (l.configure s u).2 =
      { s with device := (s.device.configure l.config.iface [u]).2, calls := s.calls ++ [[u]] } := by
  unfold configure
  dsimp only
  split <;> simp [*]

def LinkState.Takes (l : Link) (s : LinkState) (k : PublicKey) : Prop :=
  s.device.state.name = l.config.iface ∧ k ∉ s.device.failing

namespace Link
variable {l : Link} {s : LinkState} {u : PeerUpdate}

lemma configure_of_takes (h : s.Takes l u.publicKey) :
    l.configure s u = (true, { s with device := s.device.make u, calls := s.calls ++ [[u]] }) := by
  obtain ⟨hname, hin⟩ := h
  have hnone : ([u].find? fun v => v.publicKey ∈ s.device.failing) = none := by simpa using hin
  have hdevice : s.device.configure l.config.iface [u] = (.ok (), s.device.make u) := by
    unfold MemoryDevice.configure
    rw [hnone]
    simp [hname, MemoryDevice.make]
  unfold configure
  dsimp only
  rw [hdevice]

lemma configure_of_refuses (h : ¬ s.Takes l u.publicKey) :
    l.configure s u = (false, { s with calls := s.calls ++ [[u]] }) := by
  have hdevice : ∃ e, s.device.configure l.config.iface [u] = (.error e, s.device) := by
    unfold MemoryDevice.configure
    split_ifs with hname
    · exact ⟨_, rfl⟩
    · have hin : u.publicKey ∈ s.device.failing := by
        by_contra hout
        exact h ⟨by simpa using hname, hout⟩
      have hsome : ([u].find? fun v => v.publicKey ∈ s.device.failing) = some u := by simpa using hin
      rw [hsome]
      exact ⟨_, rfl⟩
  obtain ⟨e, he⟩ := hdevice
  unfold configure
  dsimp only
  rw [he]

end Link

/-- The second state comes of the first by updates of the device that all have a property, whatever else of
the state changes. -/
def LinkState.UpdatedBy (P : PeerUpdate → Prop) (s t : LinkState) : Prop :=
  ∃ us : List PeerUpdate, t.device = us.foldl MemoryDevice.make s.device ∧ ∀ u ∈ us, P u

namespace LinkState.UpdatedBy
variable {P : PeerUpdate → Prop} {s t r : LinkState}

lemma of_device_eq (h : t.device = s.device) : UpdatedBy P s t := ⟨[], h, by simp⟩

lemma trans (h : UpdatedBy P s t) (h' : UpdatedBy P t r) : UpdatedBy P s r := by
  obtain ⟨us, hd, hp⟩ := h
  obtain ⟨vs, hd', hp'⟩ := h'
  refine ⟨us ++ vs, by rw [hd', hd, List.foldl_append], ?_⟩
  intro u hu
  rcases List.mem_append.mp hu with hu | hu
  · exact hp u hu
  · exact hp' u hu

lemma foldl {α : Type} {xs : List α} {f : LinkState → α → LinkState}
    (h : ∀ x ∈ xs, ∀ s, UpdatedBy P s (f s x)) (s : LinkState) : UpdatedBy P s (xs.foldl f s) := by
  induction xs generalizing s with
  | nil => exact of_device_eq rfl
  | cons x xs ih => exact (h x (by simp) s).trans (ih (fun y hy => h y (by simp [hy])) (f s x))

lemma configure (l : Link) (s : LinkState) {u : PeerUpdate} (hu : P u) :
    UpdatedBy P s (l.configure s u).2 := by
  rw [l.configure_snd]
  rcases s.device.configure_one l.config.iface u with h | h
  · exact ⟨[u], h, by simpa using hu⟩
  · exact of_device_eq h

lemma takes_iff (h : UpdatedBy P s t) {l : Link} {k : PublicKey} : t.Takes l k ↔ s.Takes l k := by
  obtain ⟨us, hdevice, -⟩ := h
  unfold Takes
  rw [hdevice]
  clear hdevice
  generalize s.device = d
  induction us generalizing d with
  | nil => rfl
  | cons u us ih => exact ih (d.make u)

lemma nodup (h : UpdatedBy P s t) (hd : (s.device.peers.map DevicePeer.publicKey).Nodup) :
    (t.device.peers.map DevicePeer.publicKey).Nodup := by
  obtain ⟨us, hdevice, -⟩ := h
  rw [hdevice]
  clear hdevice
  revert hd
  generalize s.device = d
  intro hd
  induction us generalizing d with
  | nil => exact hd
  | cons u us ih => exact ih (d.make u) (DevicePeer.nodup_applyTo hd)

end LinkState.UpdatedBy

lemma Link.refresh_spec (l : Link) (s : LinkState) :
    (l.refresh s).2.device = s.device ∧ ∀ d, (l.refresh s).1 = .ok d → d = s.device.state := by
  unfold refresh MemoryDevice.read
  split_ifs
  · exact ⟨rfl, by simp⟩
  · exact ⟨rfl, by simp⟩

end MeshFacts
