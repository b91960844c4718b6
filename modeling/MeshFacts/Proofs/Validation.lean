import MeshFacts.Config
import MeshFacts.Proofs.AddressTexts
import MeshFacts.Proofs.Outcomes

/-! # Validation of a configuration
What a layer must say to stand for settings, what settings it then stands for, and what is told of a layer that does not:
the first thing that is wrong, of the interface and the port before that of the peers, and of each peer before that of the
peers after it. -/
namespace MeshFacts

/-! ## What single texts must be -/

namespace TrustLevel
variable {s : String} {l : TrustLevel} {e : Unknown}

/-- The names of levels, and two older ones. -/
inductive IsName : String → TrustLevel → Prop
  | text (l : TrustLevel) : IsName l.text l
  | membership : IsName "membership" addPeer
  | delegate : IsName "delegate" setTrust

/-- A name without blanks around it, in small letters and with hyphens for underscores. -/
def plain (s : String) : String :=
  String.ofList ((trim s.toList).map fun c => if c.toLower = '_' then '-' else c.toLower)

lemma ofName?_eq_some_iff : ofName? s = some l ↔ IsName s l := by
  constructor
  · intro h
    unfold ofName? at h
    split_ifs at h with hmembership hdelegate
    · rw [hmembership, ← Option.some.inj h]
      exact .membership
    · rw [hdelegate, ← Option.some.inj h]
      exact .delegate
    · have htext := List.find?_some h
      rw [← of_decide_eq_true htext]
      exact .text l
  · rintro (l | _ | _)
    · exact ofName?_text l
    · decide
    · decide

lemma parse_eq (s : String) : parse s = match ofName? (plain s) with
    | some l => .ok l
    | none => .error ⟨s⟩ := by
  unfold parse plain
  rfl

lemma parse_eq_ok_iff : parse s = .ok l ↔ IsName (plain s) l := by
  rw [parse_eq, ← ofName?_eq_some_iff]
  cases ofName? (plain s) <;> simp

lemma parse_eq_error_iff : parse s = .error e ↔ (∀ l, ¬ IsName (plain s) l) ∧ e = ⟨s⟩ := by
  simp only [parse_eq, ← ofName?_eq_some_iff]
  cases ofName? (plain s) <;> simp [eq_comm]

end TrustLevel

namespace Config

/-- Something, a colon and a port, where the port may have a plus sign and zeros in front. -/
def IsHostPort (text : List Char) : Prop :=
  ∃ host port, text = host ++ ':' :: port ∧ host ≠ [] ∧ ':' ∉ port ∧ (Numeral.unsigned? 65535 port).isSome

lemma isEndpoint_iff {text : String} : isEndpoint text = true ↔ IsHostPort text.toList := by
  constructor
  · intro h
    unfold isEndpoint at h
    dsimp only at h
    split at h
    · rename_i host hrest
      rw [Bool.and_eq_true] at h
      have hsplit := (List.takeWhile_append_dropWhile (p := (· ≠ ':')) (l := text.toList.reverse)).symm
      rw [hrest] at hsplit
      refine ⟨host.reverse, (text.toList.reverse.takeWhile (· ≠ ':')).reverse, ?_, by simpa using h.1, ?_, h.2⟩
      · simpa using congrArg List.reverse hsplit
      · intro hmem
        simpa using List.mem_takeWhile_imp (List.mem_reverse.mp hmem)
    · cases h
  · rintro ⟨host, port, htext, hhost, hcolon, hport⟩
    have hpass : ∀ c ∈ port.reverse, (c ≠ ':' : Bool) = true := fun c hc =>
      decide_eq_true fun h => hcolon (h ▸ List.mem_reverse.mp hc)
    have hrev : text.toList.reverse = port.reverse ++ ':' :: host.reverse := by simp [htext]
    unfold isEndpoint
    dsimp only
    rw [hrev, List.takeWhile_append_of_pos hpass, List.dropWhile_append_of_pos hpass]
    simp [hhost, hport]

variable {field text text' : String} {e : ConfigError}

lemma checkEndpoint_eq_ok_iff : checkEndpoint field text = .ok text' ↔ IsHostPort text.toList ∧ text' = text := by
  unfold checkEndpoint
  split_ifs with h
  · simp [isEndpoint_iff.mp h, eq_comm]
  · simp [isEndpoint_iff.not.mp h]

lemma checkEndpoint_eq_error_iff : checkEndpoint field text = .error e ↔
    ¬ IsHostPort text.toList ∧ e = .invalidValue field ("'" ++ text ++ "' is not host:port") := by
  unfold checkEndpoint
  split_ifs with h
  · simp [isEndpoint_iff.mp h]
  · simp [isEndpoint_iff.not.mp h, eq_comm]

end Config

/-! ## A peer -/

namespace PeerText
variable {p : PeerText} {k : PublicKey} {entry : PeerEntry} {e : ConfigError} {index : ℕ}

def HasKey (p : PeerText) : Prop := ∃ k, PublicKey.ofBase64 p.publicKey = .ok k

def HasTrust (p : PeerText) : Prop := ∀ t ∈ p.trust, ∃ l, TrustLevel.IsName (TrustLevel.plain t) l

def HasNets (p : PeerText) : Prop := ∀ t ∈ p.allowedIps, (Net.written? t).isSome

def HasEndpoints (p : PeerText) : Prop := ∀ t ∈ p.endpoints, Config.IsHostPort t.toList

structure WellFormed (p : PeerText) : Prop where
  key : p.HasKey
  trust : p.HasTrust
  nets : p.HasNets
  endpoints : p.HasEndpoints

/-- What the texts of a peer say. -/
structure Says (p : PeerText) (k : PublicKey) (entry : PeerEntry) : Prop where
  key : PublicKey.ofBase64 p.publicKey = .ok k
  name : entry.name = p.name
  trust : Option.Rel (fun t l => TrustLevel.IsName (TrustLevel.plain t) l) p.trust entry.trust
  allowedIps : List.Forall₂ (fun t net => ∃ raw, Net.written? t = some raw ∧ raw.normalize = net) p.allowedIps
    entry.allowedIps
  hasEndpoints : p.HasEndpoints
  endpoints : entry.endpoints = p.endpoints
  factExchanger : entry.factExchanger = p.factExchanger.getD true
  basic : entry.basic = p.basic.getD false

def path (index : ℕ) (name : String) : String := "peers[" ++ toString index ++ "]." ++ name

/-- What is told of a peer is the first of its texts that cannot be read. -/
inductive Fault (index : ℕ) (p : PeerText) : ConfigError → Prop
  | key {e : KeyError} (h : PublicKey.ofBase64 p.publicKey = .error e) :
      Fault index p (.invalidValue (path index "public_key") e.message)
  | trust {t : String} (hkey : p.HasKey) (htrust : p.trust = some t)
      (h : ∀ l, ¬ TrustLevel.IsName (TrustLevel.plain t) l) :
      Fault index p (.invalidValue (path index "trust") ("unknown trust level: " ++ t))
  | allowedIps {before after : List String} {t : String} (hkey : p.HasKey) (htrust : p.HasTrust)
      (hsplit : p.allowedIps = before ++ t :: after) (hbefore : ∀ u ∈ before, (Net.written? u).isSome)
      (h : Net.written? t = none) :
      Fault index p (.invalidValue (path index "allowed_ips") ("invalid network: " ++ trimText t))
  | endpoints {before after : List String} {t : String} (hkey : p.HasKey) (htrust : p.HasTrust) (hnets : p.HasNets)
      (hsplit : p.endpoints = before ++ t :: after) (hbefore : ∀ u ∈ before, Config.IsHostPort u.toList)
      (h : ¬ Config.IsHostPort t.toList) :
      Fault index p (.invalidValue (path index "endpoints") ("'" ++ t ++ "' is not host:port"))

def readTrust (index : ℕ) : Option String → Except ConfigError (Option TrustLevel)
  | none => .ok none
  | some t => (some <$> TrustLevel.parse t).mapError fun e => .invalidValue (path index "trust") e.message

lemma readTrust_eq_ok_iff {t : Option String} {l : Option TrustLevel} : readTrust index t = .ok l ↔
    Option.Rel (fun t l => TrustLevel.IsName (TrustLevel.plain t) l) t l := by
  cases t with
  | none =>
    constructor
    · intro h
      rw [← Except.ok.inj h]
      exact .none
    · rintro ⟨⟩
      rfl
  | some t =>
    simp only [readTrust, mapError_eq_ok_iff, map_eq_ok_iff, TrustLevel.parse_eq_ok_iff]
    constructor
    · rintro ⟨l, h, rfl⟩
      exact .some h
    · rintro ⟨h⟩
      exact ⟨_, h, rfl⟩

lemma readTrust_eq_error_iff {t : Option String} : readTrust index t = .error e ↔ ∃ s, t = some s ∧
    (∀ l, ¬ TrustLevel.IsName (TrustLevel.plain s) l) ∧
      e = .invalidValue (path index "trust") ("unknown trust level: " ++ s) := by
  cases t with
  | none => simp [readTrust]
  | some t =>
    simp only [readTrust, mapError_eq_error_iff, map_eq_error_iff, TrustLevel.parse_eq_error_iff, Option.some.injEq]
    constructor
    · rintro ⟨_, ⟨h, rfl⟩, rfl⟩
      exact ⟨t, rfl, h, rfl⟩
    · rintro ⟨_, rfl, h, rfl⟩
      exact ⟨_, ⟨h, rfl⟩, rfl⟩

lemma exists_readTrust_iff (index : ℕ) : (∃ l, readTrust index p.trust = .ok l) ↔ p.HasTrust := by
  simp only [readTrust_eq_ok_iff, HasTrust]
  cases p.trust with
  | none => exact ⟨fun _ => by simp, fun _ => ⟨none, .none⟩⟩
  | some t =>
    constructor
    · rintro ⟨_, ⟨h⟩⟩
      simpa using ⟨_, h⟩
    · intro h
      obtain ⟨l, hl⟩ := h t rfl
      exact ⟨some l, .some hl⟩

def readNets (index : ℕ) (texts : List String) : Except ConfigError (List Net) :=
  texts.mapM fun n => (Net.parse n).mapError fun e => .invalidValue (path index "allowed_ips") e.message

lemma readNets_eq_ok_iff {texts : List String} {nets : List Net} : readNets index texts = .ok nets ↔
    List.Forall₂ (fun t net => ∃ raw, Net.written? t = some raw ∧ raw.normalize = net) texts nets := by
  simp only [readNets, mapM_eq_ok_iff, mapError_eq_ok_iff, Net.parse_eq_ok_iff]

lemma exists_readNets_iff (index : ℕ) : (∃ nets, readNets index p.allowedIps = .ok nets) ↔ p.HasNets := by
  simp [readNets, exists_mapM_eq_ok_iff, mapError_eq_ok_iff, Net.parse_eq_ok_iff, HasNets, Option.isSome_iff_exists]

lemma readNets_eq_error_iff {texts : List String} : readNets index texts = .error e ↔
    ∃ before t after, texts = before ++ t :: after ∧ (∀ u ∈ before, (Net.written? u).isSome) ∧ Net.written? t = none ∧
      e = .invalidValue (path index "allowed_ips") ("invalid network: " ++ trimText t) := by
  have hbad : ∀ t, (Net.parse t).mapError (fun e => .invalidValue (path index "allowed_ips") e.message) = .error e ↔
      Net.written? t = none ∧ e = .invalidValue (path index "allowed_ips") ("invalid network: " ++ trimText t) := by
    intro t
    rw [mapError_eq_error_iff]
    constructor
    · rintro ⟨_, h, rfl⟩
      obtain ⟨hnone, rfl⟩ := Net.parse_eq_error_iff.mp h
      exact ⟨hnone, rfl⟩
    · rintro ⟨hnone, rfl⟩
      exact ⟨_, Net.parse_eq_error_iff.mpr ⟨hnone, rfl⟩, rfl⟩
  simp only [readNets, mapM_eq_error_iff, mapError_eq_ok_iff, hbad, Net.parse_eq_ok_iff]
  simp [Option.isSome_iff_exists]

def readEndpoints (index : ℕ) (texts : List String) : Except ConfigError (List String) :=
  texts.mapM (Config.checkEndpoint (path index "endpoints"))

lemma readEndpoints_eq_ok_iff {texts endpoints : List String} : readEndpoints index texts = .ok endpoints ↔
    (∀ t ∈ texts, Config.IsHostPort t.toList) ∧ endpoints = texts := by
  simp only [readEndpoints, mapM_eq_ok_iff, Config.checkEndpoint_eq_ok_iff]
  induction texts generalizing endpoints with
  | nil => simp
  | cons t texts ih =>
    simp only [List.forall₂_cons_left_iff, ih, List.forall_mem_cons]
    constructor
    · rintro ⟨_, _, ⟨ht, rfl⟩, ⟨htexts, rfl⟩, rfl⟩
      exact ⟨⟨ht, htexts⟩, rfl⟩
    · rintro ⟨⟨ht, htexts⟩, rfl⟩
      exact ⟨t, texts, ⟨ht, rfl⟩, ⟨htexts, rfl⟩, rfl⟩

lemma readEndpoints_eq_error_iff {texts : List String} : readEndpoints index texts = .error e ↔
    ∃ before t after, texts = before ++ t :: after ∧ (∀ u ∈ before, Config.IsHostPort u.toList) ∧
      ¬ Config.IsHostPort t.toList ∧ e = .invalidValue (path index "endpoints") ("'" ++ t ++ "' is not host:port") := by
  simp [readEndpoints, mapM_eq_error_iff, Config.checkEndpoint_eq_ok_iff, Config.checkEndpoint_eq_error_iff]

lemma peer_eq (index : ℕ) (p : PeerText) : Config.peer index p = (do
    let key ← (PublicKey.ofBase64 p.publicKey).mapError fun e => .invalidValue (path index "public_key") e.message
    let trust ← readTrust index p.trust
    let allowedIps ← readNets index p.allowedIps
    let endpoints ← readEndpoints index p.endpoints
    .ok (key, {
      name := p.name
      trust := trust
      allowedIps := allowedIps
      endpoints := endpoints
      factExchanger := p.factExchanger.getD true
      basic := p.basic.getD false })) := by
  unfold Config.peer
  cases p.trust <;> rfl

lemma peer_eq_ok_iff : Config.peer index p = .ok (k, entry) ↔ p.Says k entry := by
  simp only [peer_eq, bind_eq_ok_iff, mapError_eq_ok_iff, readTrust_eq_ok_iff, readNets_eq_ok_iff,
    readEndpoints_eq_ok_iff, Except.ok.injEq, Prod.mk.injEq]
  constructor
  · rintro ⟨_, hkey, l, htrust, nets, hnets, _, ⟨hendpoints, rfl⟩, rfl, rfl⟩
    exact ⟨hkey, rfl, htrust, hnets, hendpoints, rfl, rfl, rfl⟩
  · intro h
    refine ⟨k, h.key, entry.trust, h.trust, entry.allowedIps, h.allowedIps, p.endpoints, ⟨h.hasEndpoints, rfl⟩, rfl, ?_⟩
    rw [← h.name, ← h.endpoints, ← h.factExchanger, ← h.basic]

lemma exists_says_iff : (∃ k entry, p.Says k entry) ↔ p.WellFormed := by
  constructor
  · rintro ⟨k, entry, h⟩
    exact ⟨⟨k, h.key⟩, (exists_readTrust_iff 0).mp ⟨_, readTrust_eq_ok_iff.mpr h.trust⟩,
      (exists_readNets_iff 0).mp ⟨_, readNets_eq_ok_iff.mpr h.allowedIps⟩, h.hasEndpoints⟩
  · rintro ⟨⟨k, hkey⟩, htrust, hnets, hendpoints⟩
    obtain ⟨l, hl⟩ := (exists_readTrust_iff 0).mpr htrust
    obtain ⟨nets, hn⟩ := (exists_readNets_iff 0).mpr hnets
    exact ⟨k, ⟨p.name, l, nets, p.endpoints, p.factExchanger.getD true, p.basic.getD false⟩, hkey, rfl,
      readTrust_eq_ok_iff.mp hl, readNets_eq_ok_iff.mp hn, hendpoints, rfl, rfl, rfl⟩

lemma peer_eq_error_iff : Config.peer index p = .error e ↔ p.Fault index e := by
  simp only [peer_eq, bind_eq_error_iff, mapError_eq_ok_iff, mapError_eq_error_iff]
  constructor
  · rintro (⟨e, h, rfl⟩ | ⟨k, hkey, hread | ⟨l, htrust, hread | ⟨nets, hnets, hread | ⟨_, _, hread⟩⟩⟩⟩)
    · exact .key h
    · obtain ⟨t, ht, h, rfl⟩ := readTrust_eq_error_iff.mp hread
      exact .trust ⟨k, hkey⟩ ht h
    · obtain ⟨before, t, after, hsplit, hbefore, h, rfl⟩ := readNets_eq_error_iff.mp hread
      exact .allowedIps ⟨k, hkey⟩ ((exists_readTrust_iff _).mp ⟨l, htrust⟩) hsplit hbefore h
    · obtain ⟨before, t, after, hsplit, hbefore, h, rfl⟩ := readEndpoints_eq_error_iff.mp hread
      exact .endpoints ⟨k, hkey⟩ ((exists_readTrust_iff _).mp ⟨l, htrust⟩) ((exists_readNets_iff _).mp ⟨nets, hnets⟩) hsplit
        hbefore h
    · cases hread
  · rintro (h | ⟨⟨k, hkey⟩, ht, h⟩ | ⟨⟨k, hkey⟩, htrust, hsplit, hbefore, h⟩ |
      ⟨⟨k, hkey⟩, htrust, hnets, hsplit, hbefore, h⟩)
    · exact .inl ⟨_, h, rfl⟩
    · exact .inr ⟨k, hkey, .inl (readTrust_eq_error_iff.mpr ⟨_, ht, h, rfl⟩)⟩
    · obtain ⟨l, hl⟩ := (exists_readTrust_iff _).mpr htrust
      exact .inr ⟨k, hkey, .inr ⟨l, hl, .inl (readNets_eq_error_iff.mpr ⟨_, _, _, hsplit, hbefore, h, rfl⟩)⟩⟩
    · obtain ⟨l, hl⟩ := (exists_readTrust_iff _).mpr htrust
      obtain ⟨nets, hn⟩ := (exists_readNets_iff _).mpr hnets
      exact .inr ⟨k, hkey, .inr ⟨l, hl, .inr ⟨nets, hn,
        .inl (readEndpoints_eq_error_iff.mpr ⟨_, _, _, hsplit, hbefore, h, rfl⟩)⟩⟩⟩

/-! ## All peers -/

def Apart (p q : PeerText) : Prop :=
  ∀ k, PublicKey.ofBase64 p.publicKey = .ok k → PublicKey.ofBase64 q.publicKey ≠ .ok k

/-- All peers can be read, each of them once. -/
structure Sound (ps : List PeerText) : Prop where
  wellFormed : ∀ p ∈ ps, p.WellFormed
  apart : ps.Pairwise Apart

/-- The first thing that is wrong: with a peer itself, or that a peer before it has its key. -/
inductive FirstFault (ps : List PeerText) : ConfigError → Prop
  | own {before after : List PeerText} {p : PeerText} {e : ConfigError} (hsplit : ps = before ++ p :: after)
      (hbefore : Sound before) (h : p.Fault before.length e) : FirstFault ps e
  | again {before after : List PeerText} {p q : PeerText} {k : PublicKey} (hsplit : ps = before ++ p :: after)
      (hbefore : Sound before) (hp : p.WellFormed) (hkey : PublicKey.ofBase64 p.publicKey = .ok k) (hq : q ∈ before)
      (h : PublicKey.ofBase64 q.publicKey = .ok k) : FirstFault ps (.validation ("duplicate peer " ++ k.base64))

abbrev SayAll (ps : List PeerText) (rows : List (PublicKey × PeerEntry)) : Prop :=
  List.Forall₂ (fun p row => p.Says row.1 row.2) ps rows

variable {ps : List PeerText} {rows : List (PublicKey × PeerEntry)}

lemma SayAll.mem_keys_iff (h : SayAll ps rows) :
    k ∈ rows.map Prod.fst ↔ ∃ p ∈ ps, PublicKey.ofBase64 p.publicKey = .ok k := by
  induction h with
  | nil => simp
  | cons hrow _ ih => simp [ih, hrow.key, eq_comm]

lemma Sound.exists_rows (h : Sound ps) : ∃ rows, SayAll ps rows ∧ (rows.map Prod.fst).Nodup := by
  induction ps with
  | nil => exact ⟨[], .nil, List.nodup_nil⟩
  | cons p ps ih =>
    obtain ⟨hp, hps⟩ := List.forall_mem_cons.mp h.wellFormed
    obtain ⟨hapart, hrest⟩ := List.pairwise_cons.mp h.apart
    obtain ⟨k, entry, hsaid⟩ := exists_says_iff.mpr hp
    obtain ⟨rows, hrows, hnodup⟩ := ih ⟨hps, hrest⟩
    refine ⟨(k, entry) :: rows, .cons hsaid hrows, List.nodup_cons.mpr ⟨fun hmem => ?_, hnodup⟩⟩
    obtain ⟨q, hq, hqk⟩ := hrows.mem_keys_iff.mp hmem
    exact hapart q hq k hsaid.key hqk

/-- A list of peers is sound or something is told of it. -/
lemma sound_or_firstFault (ps : List PeerText) : Sound ps ∨ ∃ e, FirstFault ps e := by
  induction ps using List.reverseRecOn with
  | nil => exact .inl ⟨by simp, .nil⟩
  | append_singleton ps p ih =>
    rcases ih with hsound | ⟨e, h⟩
    · cases hread : Config.peer ps.length p with
      | error e => exact .inr ⟨e, .own rfl hsound (peer_eq_error_iff.mp hread)⟩
      | ok row =>
        have hsaid : p.Says row.1 row.2 := peer_eq_ok_iff.mp hread
        have hp : p.WellFormed := exists_says_iff.mp ⟨_, _, hsaid⟩
        by_cases hdup : ∃ q ∈ ps, PublicKey.ofBase64 q.publicKey = .ok row.1
        · obtain ⟨q, hq, hqk⟩ := hdup
          exact .inr ⟨_, .again rfl hsound hp hsaid.key hq hqk⟩
        · refine .inl ⟨?_, List.pairwise_append.mpr ⟨hsound.apart, List.pairwise_singleton .., ?_⟩⟩
          · exact List.forall_mem_append.mpr ⟨hsound.wellFormed, List.forall_mem_singleton.mpr hp⟩
          · intro q hq p' hp' k hk hk'
            rw [List.mem_singleton.mp hp', hsaid.key] at hk'
            exact hdup ⟨q, hq, Except.ok.inj hk' ▸ hk⟩
    · refine .inr ⟨e, ?_⟩
      cases h with
      | own hsplit hbefore h => exact .own (by rw [hsplit, List.append_assoc, List.cons_append]) hbefore h
      | again hsplit hbefore hp hkey hq h =>
        exact .again (by rw [hsplit, List.append_assoc, List.cons_append]) hbefore hp hkey hq h

end PeerText

lemma Table.entries_insert_of_new {κ α : Type} [DecidableEq κ] {t : Table κ α} {k : κ} (h : t.contains k = false)
    (v : α) : (t.insert k v).entries = (k, v) :: t.entries := by
  have hkept : (t.erase k).entries = t.entries := by
    refine List.filter_eq_self.mpr fun row hrow => decide_eq_true fun hk => ?_
    have hmem := (t.mem_keys_iff k).mp (List.mem_map.mpr ⟨row, hrow, hk⟩)
    rw [h] at hmem
    cases hmem
  exact congrArg ((k, v) :: ·) hkept

namespace Config
open PeerText
variable {before rest ps : List PeerText} {rows : List (PublicKey × PeerEntry)} {e : ConfigError}

lemma addPeers_append (h : SayAll before rows) (hnodup : (rows.map Prod.fst).Nodup) (index : ℕ) (t : PeerTable)
    (hnew : ∀ k ∈ rows.map Prod.fst, t.contains k = false) : ∃ t' : PeerTable, t'.entries = rows.reverse ++ t.entries ∧
      ∀ rest, addPeers index t (before ++ rest) = addPeers (index + before.length) t' rest := by
  induction h generalizing index t with
  | nil => exact ⟨t, rfl, fun rest => rfl⟩
  | @cons p row before rows hrow _ ih =>
    obtain ⟨hfresh, hnodup⟩ := List.nodup_cons.mp hnodup
    obtain ⟨hk, hks⟩ := List.forall_mem_cons.mp hnew
    obtain ⟨t', hentries, hadd⟩ := ih hnodup (index + 1) (t.insert row.1 row.2) fun k hmem => by
      have hne : k ≠ row.1 := fun h => hfresh (h ▸ hmem)
      simpa [Table.contains, Table.find?_insert, hne] using hks k hmem
    refine ⟨t', by rw [hentries, Table.entries_insert_of_new hk]; simp, fun rest => ?_⟩
    have hread : peer index p = .ok (row.1, row.2) := peer_eq_ok_iff.mpr hrow
    rw [List.length_cons, Nat.add_comm before.length, ← Nat.add_assoc, ← hadd rest, List.cons_append, addPeers, hread]
    simp only [bind, Except.bind, hk]
    rfl

lemma addPeers_of_sound (h : Sound ps) : ∃ rows t, SayAll ps rows ∧ t.entries = rows.reverse ∧
    addPeers 0 .empty ps = .ok t := by
  obtain ⟨rows, hrows, hnodup⟩ := h.exists_rows
  obtain ⟨t, hentries, hadd⟩ := addPeers_append hrows hnodup 0 .empty fun _ _ => rfl
  exact ⟨rows, t, hrows, by simpa [Table.empty] using hentries, by simpa [addPeers] using hadd []⟩

lemma addPeers_of_firstFault (h : FirstFault ps e) : addPeers 0 .empty ps = .error e := by
  cases h with
  | @own before after p _ hsplit hbefore h =>
    obtain ⟨rows, hrows, hnodup⟩ := hbefore.exists_rows
    obtain ⟨t, -, hadd⟩ := addPeers_append hrows hnodup 0 .empty fun _ _ => rfl
    rw [hsplit, hadd, Nat.zero_add, addPeers, peer_eq_error_iff.mpr h]
    rfl
  | @again before after p q k hsplit hbefore hp hkey hq h =>
    obtain ⟨rows, hrows, hnodup⟩ := hbefore.exists_rows
    obtain ⟨t, hentries, hadd⟩ := addPeers_append hrows hnodup 0 .empty fun _ _ => rfl
    obtain ⟨k', entry, hsaid⟩ := exists_says_iff.mpr hp
    obtain rfl : k' = k := Except.ok.inj (hsaid.key.symm.trans hkey)
    have hthere : t.contains k' = true := by
      rw [← Table.mem_keys_iff, Table.keys, hentries]
      simpa [Table.empty] using hrows.mem_keys_iff.mpr ⟨q, hq, h⟩
    have hread : peer (0 + before.length) p = .ok (k', entry) := peer_eq_ok_iff.mpr hsaid
    rw [hsplit, hadd, addPeers, hread]
    simp only [bind, Except.bind, hthere]
    rfl

end Config

/-! ## All of a layer -/

namespace Layer

def HasIface (l : Layer) : Prop := ∃ c ∈ (l.iface.getD "").toList, isBlank c = false

/-- The interface has a name, the port is one, and every peer can be read, each once. -/
structure WellFormed (l : Layer) : Prop where
  iface : l.HasIface
  port : l.port ≠ some 0
  peers : PeerText.Sound (l.peers.getD [])

/-- What is told of a layer is the first thing that is wrong: the interface, the port, or something with the peers. -/
inductive FirstFault (l : Layer) : ConfigError → Prop
  | iface (h : ¬ l.HasIface) : FirstFault l (.validation "interface name must not be empty")
  | port (hiface : l.HasIface) (h : l.port = some 0) : FirstFault l (.invalidValue "port" "must not be 0")
  | peers {e : ConfigError} (hiface : l.HasIface) (hport : l.port ≠ some 0)
      (h : PeerText.FirstFault (l.peers.getD []) e) : FirstFault l e

lemma wellFormed_or_firstFault (l : Layer) : l.WellFormed ∨ ∃ e, l.FirstFault e := by
  by_cases hiface : l.HasIface
  · by_cases hport : l.port = some 0
    · exact .inr ⟨_, .port hiface hport⟩
    · rcases PeerText.sound_or_firstFault (l.peers.getD []) with hpeers | ⟨e, h⟩
      · exact .inl ⟨hiface, hport, hpeers⟩
      · exact .inr ⟨e, .peers hiface hport h⟩
  · exact .inr ⟨_, .iface hiface⟩

lemma isBlankText_iface {l : Layer} : isBlankText (l.iface.getD "").toList = true ↔ ¬ l.HasIface := by
  simp [isBlankText, HasIface]

end Layer

namespace Config
variable {c : Config} {l : Layer} {e : ConfigError}

/-- The settings that a layer says, with the built-in ones for what it leaves open. -/
structure Follows (c : Config) (l : Layer) : Prop where
  iface : c.iface = l.iface.getD ""
  port : c.port = l.port
  router : c.router = l.router
  managePeers : c.managePeers = l.managePeers.getD true
  chatty : c.chatty = l.chatty.getD false
  debug : c.debug = l.debug.getD false
  logJson : c.logJson = l.logJson.getD false
  peers : ∃ rows, PeerText.SayAll (l.peers.getD []) rows ∧ c.peers.entries.Perm rows

lemma ofLayer_of_wellFormed (h : l.WellFormed) : ∃ c : Config, ofLayer l = .ok c ∧ c.Follows l := by
  obtain ⟨rows, t, hrows, hentries, hadd⟩ := addPeers_of_sound h.peers
  have hiface : ¬ isBlankText (l.iface.getD "").toList = true := Layer.isBlankText_iface.not.mpr (not_not.mpr h.iface)
  simp only [ofLayer, hiface, h.port, hadd]
  exact ⟨_, rfl, rfl, rfl, rfl, rfl, rfl, rfl, rfl, rows, hrows, hentries ▸ rows.reverse_perm⟩

lemma ofLayer_of_firstFault (h : l.FirstFault e) : ofLayer l = .error e := by
  cases h with
  | iface h => exact if_pos (Layer.isBlankText_iface.mpr h)
  | port hiface h =>
    have hname : ¬ isBlankText (l.iface.getD "").toList = true := Layer.isBlankText_iface.not.mpr (not_not.mpr hiface)
    exact (if_neg hname).trans (if_pos h)
  | peers hiface hport h =>
    have hname : ¬ isBlankText (l.iface.getD "").toList = true := Layer.isBlankText_iface.not.mpr (not_not.mpr hiface)
    simp only [ofLayer, hname, hport, addPeers_of_firstFault h]
    rfl

lemma exists_ofLayer_iff : (∃ c, ofLayer l = .ok c) ↔ l.WellFormed := by
  constructor
  · rintro ⟨c, hc⟩
    rcases l.wellFormed_or_firstFault with h | ⟨e, h⟩
    · exact h
    · cases hc.symm.trans (ofLayer_of_firstFault h)
  · intro h
    obtain ⟨c, hc, -⟩ := ofLayer_of_wellFormed h
    exact ⟨c, hc⟩

lemma follows_of_ofLayer (hc : ofLayer l = .ok c) : c.Follows l := by
  obtain ⟨c', hc', hfollows⟩ := ofLayer_of_wellFormed (exists_ofLayer_iff.mp ⟨c, hc⟩)
  exact Except.ok.inj (hc'.symm.trans hc) ▸ hfollows

lemma ofLayer_eq_error_iff : ofLayer l = .error e ↔ l.FirstFault e := by
  refine ⟨fun he => ?_, ofLayer_of_firstFault⟩
  rcases l.wellFormed_or_firstFault with h | ⟨e', h⟩
  · obtain ⟨c, hc⟩ := exists_ofLayer_iff.mpr h
    cases hc.symm.trans he
  · exact Except.error.inj ((ofLayer_of_firstFault h).symm.trans he) ▸ h

/-- A layer is accepted just if it makes sense throughout, and the settings then have one entry for each peer.
Otherwise the first thing that is wrong is told. -/
theorem ofLayer_validates (l : Layer) :
    ((∃ c, ofLayer l = .ok c) ↔ l.WellFormed) ∧ (∀ c, ofLayer l = .ok c → c.Follows l) ∧
      ∀ e, ofLayer l = .error e ↔ l.FirstFault e :=
  ⟨exists_ofLayer_iff, fun _ => follows_of_ofLayer, fun _ => ofLayer_eq_error_iff⟩

/-- Two peers, the second with its key between blanks, host bits and an endpoint. A third with the key of the first is
a duplicate. -/
theorem ofLayer_validates_spellings :
    let hub : PeerText := { publicKey := "YMVZD3Lu8pL5VFr8KL9jypHSAWoKKI+Q+aMvidP//K8=", trust := some "Add_Peer" }
    let leaf : PeerText :=
      { publicKey := " BwcHBwcHBwcHBwcHBwcHBwcHBwcHBwcHBwcHBwcHBwc\t", allowedIps := ["10.1.2.3/8"],
        endpoints := ["leaf.example:51820"] }
    let again : PeerText := { publicKey := " YMVZD3Lu8pL5VFr8KL9jypHSAWoKKI+Q+aMvidP//K8" }
    let layer (peers : List PeerText) : Layer := { iface := some "wg0", peers := some peers }
    (∃ c, ofLayer (layer [hub, leaf]) = .ok c ∧ c.Follows (layer [hub, leaf]) ∧ c.peers.size = 2 ∧
      ∃ entry, (⟨⟨List.replicate 32 7, rfl⟩⟩, entry) ∈ c.peers.entries ∧ entry.allowedIps = [.v4 0x0a000000 8] ∧
        entry.endpoints = ["leaf.example:51820"]) ∧
      (layer [hub, leaf, again]).FirstFault
        (.validation "duplicate peer YMVZD3Lu8pL5VFr8KL9jypHSAWoKKI+Q+aMvidP//K8=") := by
  intro hub leaf again layer
  obtain ⟨c, hc⟩ : ∃ c, ofLayer (layer [hub, leaf]) = .ok c := exists_of_isOk (by decide +kernel)
  have hfollows := (ofLayer_validates (layer [hub, leaf])).2.1 c hc
  obtain ⟨rows, hrows, hperm⟩ := hfollows.peers
  obtain ⟨⟨k, entry⟩, hrow, hsaid⟩ : ∃ row ∈ rows, leaf.Says row.1 row.2 := by
    obtain ⟨_, _, -, hrest, rfl⟩ := List.forall₂_cons_left_iff.mp hrows
    obtain ⟨row, _, hsaid, -, rfl⟩ := List.forall₂_cons_left_iff.mp hrest
    exact ⟨row, by simp, hsaid⟩
  have hkey : PublicKey.ofBase64 leaf.publicKey = .ok ⟨⟨List.replicate 32 7, rfl⟩⟩ := by decide +kernel
  obtain rfl : k = _ := Except.ok.inj (hsaid.key.symm.trans hkey)
  have hnets : entry.allowedIps = [.v4 0x0a000000 8] := by
    obtain ⟨net, nets, ⟨raw, hraw, hnet⟩, hrest, hentry⟩ := List.forall₂_cons_left_iff.mp hsaid.allowedIps
    have hwritten : Net.written? "10.1.2.3/8" = some (.v4 0x0a010203 8) := by decide +kernel
    rw [hentry, ← hnet, ← Option.some.inj (hwritten.symm.trans hraw), List.forall₂_nil_left_iff.mp hrest]
    decide +kernel
  refine ⟨⟨c, hc, hfollows, hperm.length_eq.trans hrows.length_eq.symm, entry,
    hperm.mem_iff.mpr hrow, hnets, hsaid.endpoints⟩, ?_⟩
  refine ((ofLayer_validates _).2.2 _).mp (failure?_eq_some_iff.mp ?_)
  decide +kernel

end Config

end MeshFacts
