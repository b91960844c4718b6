import MeshFacts.Proofs.AddressTexts
import MeshFacts.Proofs.HandshakeTimes
import MeshFacts.Proofs.KeySpellings

/-! # Dumps read back
The lines in which a device is shown, field by field, and what is read of them: the device that is shown, with its networks
in normal form and its handshakes on the monotonic clock. Blank lines and further fields change nothing, and a peer's line
that cannot be read spoils the whole dump. -/
namespace MeshFacts

/-! ## Lines -/

def dropReturn (l : List Char) : List Char := if l.getLast? = some '\r' then l.dropLast else l

def joinLines (ls : List (List Char)) : String := String.ofList (['\n'].intercalate ls)

lemma textLines_joinLines {ls : List (List Char)} {last : List Char} (h : ∀ l ∈ ls ++ [last], '\n' ∉ l) :
    textLines (joinLines (ls ++ [last])).toList = ls.map dropReturn ++ if last = [] then [] else [last] := by
  have hsplit : (joinLines (ls ++ [last])).toList.splitOn '\n' = ls ++ [last] := by
    rw [joinLines, String.toList_ofList, List.splitOn_intercalate '\n' h (by simp)]
  simp only [textLines, hsplit, List.dropLast_concat, List.getLast?_concat]
  cases last with
  | nil => exact (List.append_nil _).symm
  | cons c l => rfl

lemma dropReturn_append {a b : List Char} (h : b ≠ []) : dropReturn (a ++ b) = a ++ dropReturn b := by
  unfold dropReturn
  rw [List.getLast?_append_of_ne_nil a h, List.dropLast_append_of_ne_nil h]
  split_ifs <;> rfl

lemma dropReturn_tab (l : List Char) : dropReturn ('\t' :: l) = '\t' :: dropReturn l := by
  cases l with
  | nil => rfl
  | cons c l => exact dropReturn_append (a := ['\t']) (by simp)

lemma mem_of_mem_dropReturn {l : List Char} {c : Char} (h : c ∈ dropReturn l) : c ∈ l := by
  unfold dropReturn at h
  split_ifs at h
  · exact List.mem_of_mem_dropLast h
  · exact h

lemma dropReturn_of_not_mem {l : List Char} (h : '\r' ∉ l) : dropReturn l = l :=
  if_neg fun hlast => h (List.mem_of_getLast? hlast)

lemma isBlankText_dropReturn (l : List Char) : isBlankText (dropReturn l) = isBlankText l := by
  unfold dropReturn
  split_ifs with hlast
  · have hreturn : isBlank '\r' = true := by decide
    rw [← List.dropLast_append_getLast? '\r' hlast]
    simp [isBlankText, hreturn]
  · rfl

/-- What a line can be read as: the last line keeps its carriage return. -/
def ReadAs (l l' : List Char) : Prop := l' = l ∨ l' = dropReturn l

/-- The lines of a text that are not blank are those of the lines joined in it. -/
lemma forall₂_readAs {ls : List (List Char)} (h : ∀ l ∈ ls, '\n' ∉ l) :
    List.Forall₂ ReadAs (ls.filter fun l => !isBlankText l)
      ((textLines (joinLines ls).toList).filter fun l => !isBlankText l) := by
  rcases List.eq_nil_or_concat ls with rfl | ⟨init, last, rfl⟩
  · exact .nil
  rw [List.concat_eq_append] at h ⊢
  have hlast : (if last = [] then [] else [last]).filter (fun l => !isBlankText l) =
      [last].filter fun l => !isBlankText l := by
    split_ifs with hempty
    · rw [hempty]
      rfl
    · rfl
  have hsame : ((fun l => !isBlankText l) ∘ dropReturn) = fun l => !isBlankText l :=
    funext fun l => congrArg not (isBlankText_dropReturn l)
  rw [textLines_joinLines h, List.filter_append, List.filter_append, hlast, List.filter_map, hsame]
  refine List.rel_append ?_ (List.forall₂_same.mpr fun l _ => .inl rfl)
  rw [List.forall₂_map_right_iff, List.forall₂_same]
  exact fun l _ => .inr rfl

namespace DeviceDump

/-! ## Fields -/

@[ext] structure Field where
  text : List Char
  noTab : '\t' ∉ text
  noFeed : '\n' ∉ text

namespace Field

def ofUnbroken (text : List Char) (h : ∀ c ∈ text, isBlank c = false) : Field where
  text := text
  noTab hc := absurd (h _ hc) (by decide)
  noFeed hc := absurd (h _ hc) (by decide)

def dropReturn (f : Field) : Field where
  text := MeshFacts.dropReturn f.text
  noTab hc := f.noTab (mem_of_mem_dropReturn hc)
  noFeed hc := f.noFeed (mem_of_mem_dropReturn hc)

end Field

def lineOf (fs : List Field) : List Char := ['\t'].intercalate (fs.map Field.text)

variable {f : Field} {fs gs : List Field}

lemma fieldTexts_lineOf (h : fs ≠ []) : fieldTexts (lineOf fs) = fs.map fun f => String.ofList f.text := by
  have hsplit : (lineOf fs).splitOn '\t' = fs.map Field.text := by
    refine List.splitOn_intercalate '\t' (fun l hl => ?_) (by simpa using h)
    obtain ⟨f, -, rfl⟩ := List.mem_map.mp hl
    exact f.noTab
  rw [fieldTexts, hsplit, List.map_map]
  rfl

lemma lineOf_cons (h : fs ≠ []) : lineOf (f :: fs) = f.text ++ '\t' :: lineOf fs := by
  rw [lineOf, List.map_cons, List.intercalate_cons_of_ne_nil (by simpa using h), List.append_assoc, List.singleton_append]
  rfl

lemma feed_not_mem_lineOf (fs : List Field) : '\n' ∉ lineOf fs := by
  induction fs with
  | nil => simp [lineOf]
  | cons f fs ih =>
    cases fs with
    | nil => simpa [lineOf] using f.noFeed
    | cons g gs =>
      rw [lineOf_cons (by simp), List.mem_append, List.mem_cons, not_or, not_or]
      exact ⟨f.noFeed, by decide, ih⟩

lemma dropReturn_lineOf (fs : List Field) (f : Field) : dropReturn (lineOf (fs ++ [f])) = lineOf (fs ++ [f.dropReturn]) := by
  induction fs with
  | nil => simp [lineOf, Field.dropReturn]
  | cons g fs ih =>
    rw [List.cons_append, List.cons_append, lineOf_cons (by simp), lineOf_cons (by simp), dropReturn_append (by simp),
      dropReturn_tab, ih]

/-- However a line ends, its fields are read up to one that has no carriage return. -/
lemma exists_lineOf_of_readAs {l : List Char} (hf : '\r' ∉ f.text) (h : ReadAs (lineOf (fs ++ f :: gs)) l) :
    ∃ gs', l = lineOf (fs ++ f :: gs') := by
  rcases h with rfl | rfl
  · exact ⟨gs, rfl⟩
  rcases List.eq_nil_or_concat gs with rfl | ⟨init, last, rfl⟩
  · have hsame : f.dropReturn = f := Field.ext (dropReturn_of_not_mem hf)
    exact ⟨[], by rw [dropReturn_lineOf, hsame]⟩
  · have hassoc : fs ++ f :: init.concat last = fs ++ f :: init ++ [last] := by simp
    exact ⟨init ++ [last.dropReturn], by rw [hassoc, dropReturn_lineOf]; simp⟩

/-! ## Texts of single fields -/

def endpointText : Option SocketAddr → String
  | none => absent
  | some a => a.text

def netsText (nets : List Net) : String := if nets = [] then absent else ",".intercalate (nets.map Net.text)

def keepaliveText : Option UInt64 → List Char
  | none => "off".toList
  | some n => Numeral.text n.toNat

lemma unbroken_of_all {cs : List Char} (h : (cs.all fun c => !isBlank c) = true) : ∀ c ∈ cs, isBlank c = false := by
  simpa using h

lemma absent_unbroken : ∀ c ∈ absent.toList, isBlank c = false := unbroken_of_all (by decide)

lemma number_unbroken (n : ℕ) : ∀ c ∈ Numeral.text n, isBlank c = false := fun _ hc =>
  (AddressText.isAddressChar_numeral (x := false) hc).not_blank

lemma endpointText_unbroken (e : Option SocketAddr) : ∀ c ∈ (endpointText e).toList, isBlank c = false := by
  cases e with
  | none => exact absent_unbroken
  | some a => exact fun c hc => (SocketAddr.isAddressChar_text hc).not_blank

lemma netsText_unbroken (nets : List Net) : ∀ c ∈ (netsText nets).toList, isBlank c = false := by
  unfold netsText
  split_ifs
  · exact absent_unbroken
  · intro c hc
    rcases Net.isAddressChar_texts hc with h | rfl
    · exact h.not_blank
    · rfl

lemma keepaliveText_unbroken (k : Option UInt64) : ∀ c ∈ keepaliveText k, isBlank c = false := by
  cases k with
  | none => exact unbroken_of_all (by decide)
  | some n => exact number_unbroken n.toNat

lemma readEndpoint_endpointText (e : Option SocketAddr) : readEndpoint (endpointText e) = .ok e := by
  cases e with
  | none => rfl
  | some a =>
    have hpresent : a.text ≠ absent := fun h =>
      (SocketAddr.isAddressChar_text (a := a) (c := '(') (by rw [h]; decide)).ne_paren rfl
    simp [readEndpoint, endpointText, hpresent, SocketAddr.ofText?_text]

lemma parse_netText (net : Net) : Net.parse net.text = .ok net.normalize := by
  have htrim : trimText net.text = net.text := by
    rw [trimText, trim_of_not_blank fun c hc => (Net.isAddressChar_text hc).not_blank, String.ofList_toList]
  exact Net.parse_eq_ok_iff.mpr ⟨net, by rw [Net.written?, htrim, Net.ofText?_text, Option.some_or], rfl⟩

lemma readNets_netsText (nets : List Net) : readNets (netsText nets) = .ok (nets.map Net.normalize) := by
  unfold netsText
  split_ifs with hnone
  · rw [hnone]
    rfl
  · have hpresent : ",".intercalate (nets.map Net.text) ≠ absent := by
      intro h
      have hmem : '(' ∈ (",".intercalate (nets.map Net.text)).toList := by
        rw [h]
        decide
      rcases Net.isAddressChar_texts hmem with hparen | hparen
      · exact hparen.ne_paren rfl
      · cases hparen
    rw [readNets, if_neg hpresent, Net.pieces_text, mapM_eq_ok_iff, List.forall₂_map_left_iff, List.forall₂_map_right_iff,
      List.forall₂_same]
    intro net _
    rw [String.ofList_toList, parse_netText]
    rfl

lemma word?_keepaliveText (k : Option UInt64) :
    Numeral.word? 64 (String.ofList (keepaliveText k)) = k.map UInt64.toNat := by
  cases k with
  | none => decide
  | some n => exact Numeral.word?_text n.toNat_lt

/-! ## The lines of a device -/

structure ShownPeer where
  publicKey : PublicKey
  presharedKey : Field
  endpoint : Option SocketAddr
  allowedIps : List Net
  /-- In seconds after the epoch, zero where there was none. -/
  handshake : UInt64
  received : Field
  sent : Field
  /-- In seconds. -/
  keepalive : Option UInt64
  /-- What a later version of the tool may show besides. -/
  surplus : List Field

structure ShownDevice where
  privateKey : PrivateKey
  publicKey : Field
  listenPort : UInt16
  mark : Field
  surplus : List Field
  peers : List ShownPeer

def keyField (o : Octets 32) : Field := .ofUnbroken (KeyText.base64 o).toList fun c hc =>
  Base64.isBlank_of_mem_encode c (by rwa [KeyText.base64, String.toList_ofList] at hc)

def numberField (n : ℕ) : Field := .ofUnbroken (Numeral.text n) (number_unbroken n)

namespace ShownPeer

def firstFields (p : ShownPeer) : List Field :=
  [keyField p.publicKey.octets, p.presharedKey, .ofUnbroken _ (endpointText_unbroken p.endpoint),
    .ofUnbroken _ (netsText_unbroken p.allowedIps), numberField p.handshake.toNat, p.received, p.sent]

def line (p : ShownPeer) : List Char :=
  lineOf (p.firstFields ++ .ofUnbroken _ (keepaliveText_unbroken p.keepalive) :: p.surplus)

/-- The instant of the last handshake. One in the future counts as just now, and one that is too far back to tell as none. -/
def lastHandshake (p : ShownPeer) (now : Instant) (wall : ℤ) : Option Instant :=
  let t : ℤ := now - max 0 (wall / Clock.second - p.handshake.toNat) * Clock.second
  if p.handshake = 0 ∨ t < earliest then none else some t

def peer (p : ShownPeer) (now : Instant) (wall : ℤ) : DevicePeer where
  publicKey := p.publicKey
  endpoint := p.endpoint
  allowedIps := p.allowedIps.map Net.normalize
  lastHandshake := p.lastHandshake now wall
  keepalive := p.keepalive.map UInt64.toNat

end ShownPeer

namespace ShownDevice

def line (d : ShownDevice) : List Char :=
  lineOf ([keyField d.privateKey.octets, d.publicKey] ++ numberField d.listenPort.toNat :: d.mark :: d.surplus)

def lines (d : ShownDevice) : List (List Char) := d.line :: d.peers.map ShownPeer.line

/-- The device itself, as it is when both clocks show this. -/
def state (d : ShownDevice) (name : String) (now : Instant) (wall : ℤ) : DeviceState where
  name := name
  pair := .ofPrivate d.privateKey
  listenPort := d.listenPort
  peers := d.peers.map fun p => p.peer now wall

end ShownDevice

/-- Lines with any number of blank ones before, between and after them. -/
inductive Spread : List (List Char) → List (List Char) → Prop
  | nil : Spread [] []
  | line {ls spread : List (List Char)} (l : List Char) (h : Spread ls spread) : Spread (l :: ls) (l :: spread)
  | blank {ls spread : List (List Char)} (l : List Char) (hblank : isBlankText l) (hfeed : '\n' ∉ l)
      (h : Spread ls spread) : Spread ls (l :: spread)

/-! ## Reading a device -/

lemma return_not_mem {cs : List Char} (h : ∀ c ∈ cs, isBlank c = false) : '\r' ∉ cs := fun hc =>
  absurd (h _ hc) (by decide)

lemma lastHandshake_eq (p : ShownPeer) (now : Instant) (wall : ℤ) : p.lastHandshake now wall =
    if p.handshake.toNat = 0 then none else handshakeAt now (seconds wall) p.handshake.toNat := by
  have hzero : p.handshake = 0 ↔ p.handshake.toNat = 0 := by
    rw [← UInt64.toNat_inj]
    rfl
  have hsince : ((seconds wall - p.handshake.toNat : ℕ) : ℤ) = max 0 (wall / Clock.second - p.handshake.toNat) := by
    unfold seconds
    omega
  simp only [ShownPeer.lastHandshake, handshakeAt, hzero, Nat.cast_mul, hsince, ← not_lt, ite_not, ite_or]

lemma readPeer_line (p : ShownPeer) (now : Instant) (wall : ℤ) {l : List Char} (h : ReadAs p.line l) :
    readPeer now (seconds wall) l = .ok (p.peer now wall) := by
  obtain ⟨gs, rfl⟩ := exists_lineOf_of_readAs (return_not_mem (keepaliveText_unbroken p.keepalive)) h
  have hkey : readKey (KeyText.base64 p.publicKey.octets) = .ok p.publicKey :=
    mapError_eq_ok_iff.mpr (PublicKey.ofBase64_base64 p.publicKey)
  have hhandshake : Numeral.word? 64 (String.ofList (Numeral.text p.handshake.toNat)) = some p.handshake.toNat :=
    Numeral.word?_text p.handshake.toNat_lt
  rw [readPeer, fieldTexts_lineOf (by simp)]
  simp only [ShownPeer.firstFields, List.cons_append, List.nil_append, List.map_cons, keyField, numberField, Field.ofUnbroken,
    String.ofList_toList, hkey, readEndpoint_endpointText, readNets_netsText, hhandshake, word?_keepaliveText,
    ← lastHandshake_eq]
  rfl

lemma readInterface_line (d : ShownDevice) {l : List Char} (h : ReadAs d.line l) :
    readInterface l = .ok (.ofPrivate d.privateKey, d.listenPort) := by
  obtain ⟨gs, rfl⟩ := exists_lineOf_of_readAs (return_not_mem (number_unbroken d.listenPort.toNat)) h
  have hkey : KeyPair.ofBase64 (KeyText.base64 d.privateKey.octets) = .ok (.ofPrivate d.privateKey) := by
    simp [KeyPair.ofBase64, PrivateKey.ofBase64, KeyText.ofBase64_base64]
  have hport : Numeral.word? 16 (String.ofList (Numeral.text d.listenPort.toNat)) = some d.listenPort.toNat :=
    Numeral.word?_text d.listenPort.toNat_lt
  rw [readInterface, fieldTexts_lineOf (by simp)]
  simp only [List.cons_append, List.nil_append, List.map_cons, keyField, numberField, Field.ofUnbroken, String.ofList_toList,
    mapError_eq_ok_iff.mpr hkey, hport, UInt16.ofNat_toNat]
  rfl

lemma isBlankText_keyField (o : Octets 32) (h : fs ≠ []) : isBlankText (lineOf (keyField o :: fs)) = false := by
  rw [isBlankText, ← Bool.not_eq_true, List.all_eq_true]
  intro hblank
  have hmem : '=' ∈ lineOf (keyField o :: fs) := by
    rw [lineOf_cons h, List.mem_append]
    exact .inl (by simp [keyField, Field.ofUnbroken, KeyText.toList_base64])
  exact absurd (hblank _ hmem) (by decide)

lemma Spread.filter {ls spread : List (List Char)} (h : Spread ls spread) (hne : ∀ l ∈ ls, isBlankText l = false) :
    spread.filter (fun l => !isBlankText l) = ls := by
  induction h with
  | nil => rfl
  | line l _ ih =>
    obtain ⟨hl, hls⟩ := List.forall_mem_cons.mp hne
    simp [hl, ih hls]
  | blank l hblank _ _ ih => simp [hblank, ih hne]

lemma Spread.feed_not_mem {ls spread : List (List Char)} (h : Spread ls spread) (hls : ∀ l ∈ ls, '\n' ∉ l) :
    ∀ l ∈ spread, '\n' ∉ l := by
  induction h with
  | nil => exact hls
  | line l _ ih =>
    obtain ⟨hl, hls⟩ := List.forall_mem_cons.mp hls
    exact List.forall_mem_cons.mpr ⟨hl, ih hls⟩
  | blank l _ hfeed _ ih => exact List.forall_mem_cons.mpr ⟨hfeed, ih hls⟩

lemma parse_joinLines (d : ShownDevice) {spread : List (List Char)} (h : Spread d.lines spread) (name : String) (now : Instant)
    (wall : ℤ) : parse name (joinLines spread) now wall = .ok (d.state name now wall) := by
  have hnotBlank : ∀ l ∈ d.lines, isBlankText l = false := by
    refine List.forall_mem_cons.mpr ⟨isBlankText_keyField _ (by simp), List.forall_mem_map.mpr fun p _ => ?_⟩
    exact isBlankText_keyField _ (by simp)
  have hfeed : ∀ l ∈ d.lines, '\n' ∉ l := by
    refine List.forall_mem_cons.mpr ⟨feed_not_mem_lineOf _, List.forall_mem_map.mpr fun p _ => ?_⟩
    exact feed_not_mem_lineOf _
  have hread := forall₂_readAs (h.feed_not_mem hfeed)
  rw [h.filter hnotBlank] at hread
  obtain ⟨first, rest, hfirst, hrest, hlines⟩ := List.forall₂_cons_left_iff.mp hread
  have hpeers : rest.mapM (readPeer now (seconds wall)) = .ok (d.peers.map fun p => p.peer now wall) := by
    rw [mapM_eq_ok_iff, List.forall₂_map_right_iff]
    exact (List.forall₂_map_left_iff.mp hrest).flip.imp fun _ _ => readPeer_line _ now wall
  rw [parse, hlines]
  exact bind_eq_ok_iff.mpr ⟨_, readInterface_line d hfirst, bind_eq_ok_iff.mpr ⟨_, hpeers, rfl⟩⟩

/-! ## Lines that cannot be read -/

def fieldAt (line : List Char) (n : ℕ) : String := (fieldTexts line).getD n ""

/-- A line with fields enough for a peer, in which the four that must be there can be read. -/
structure Legible (line : List Char) : Prop where
  enough : 8 ≤ (fieldTexts line).length
  key : ∃ o, KeyText.Spells (fieldAt line 0) o
  endpoint : fieldAt line 2 = absent ∨ ∃ a, SocketAddr.ofText? (fieldAt line 2) = some a
  nets : fieldAt line 3 = absent ∨
    ∀ piece ∈ (fieldAt line 3).toList.splitOn ',', piece ≠ [] → ∃ net, Net.written? (String.ofList piece) = some net
  handshake : ∃ t, Numeral.word? 64 (fieldAt line 4) = some t

lemma exists_readKey_iff {s : String} : (∃ k, readKey s = .ok k) ↔ ∃ o, KeyText.Spells s o := by
  simp only [readKey, mapError_eq_ok_iff, PublicKey.ofBase64_eq_ok_iff]
  exact ⟨fun ⟨k, h⟩ => ⟨k.octets, h⟩, fun ⟨o, h⟩ => ⟨⟨o⟩, h⟩⟩

lemma exists_readEndpoint_iff {s : String} : (∃ e, readEndpoint s = .ok e) ↔
    s = absent ∨ ∃ a, SocketAddr.ofText? s = some a := by
  unfold readEndpoint
  split_ifs with habsent
  · simp [habsent]
  · cases ha : SocketAddr.ofText? s <;> simp [habsent, malformed]

lemma exists_readNets_iff {s : String} : (∃ nets, readNets s = .ok nets) ↔
    s = absent ∨ ∀ piece ∈ s.toList.splitOn ',', piece ≠ [] → ∃ net, Net.written? (String.ofList piece) = some net := by
  unfold readNets
  split_ifs with habsent
  · simp [habsent]
  · simp [exists_mapM_eq_ok_iff, mapError_eq_ok_iff, Net.parse_eq_ok_iff, habsent]

lemma exists_readPeer_iff {now : Instant} {w : ℕ} {line : List Char} :
    (∃ p, readPeer now w line = .ok p) ↔ Legible line := by
  constructor
  · rintro ⟨p, h⟩
    unfold readPeer at h
    split at h
    · rename_i hfields
      obtain ⟨k, hk, h⟩ := bind_eq_ok_iff.mp h
      obtain ⟨e, he, h⟩ := bind_eq_ok_iff.mp h
      obtain ⟨ns, hns, h⟩ := bind_eq_ok_iff.mp h
      split at h
      · cases h
      · rename_i t ht
        refine ⟨by simp [hfields], ?_, ?_, ?_, t, by simpa [fieldAt, hfields] using ht⟩
        · simpa [fieldAt, hfields] using exists_readKey_iff.mp ⟨k, hk⟩
        · simpa [fieldAt, hfields] using exists_readEndpoint_iff.mp ⟨e, he⟩
        · simpa [fieldAt, hfields] using exists_readNets_iff.mp ⟨ns, hns⟩
    · cases h
  · intro h
    obtain ⟨k, hk⟩ := exists_readKey_iff.mpr h.key
    obtain ⟨e, he⟩ := exists_readEndpoint_iff.mpr h.endpoint
    obtain ⟨ns, hns⟩ := exists_readNets_iff.mpr h.nets
    obtain ⟨t, ht⟩ := h.handshake
    obtain ⟨key, _, endpoint, nets, handshake, _, _, keepalive, _, hfields⟩ :
        ∃ a b c d e f g h rest, fieldTexts line = a :: b :: c :: d :: e :: f :: g :: h :: rest := by
      match fieldTexts line, h.enough with
      | a :: b :: c :: d :: e :: f :: g :: h :: rest, _ => exact ⟨a, b, c, d, e, f, g, h, rest, rfl⟩
    simp only [fieldAt, hfields, List.getD_cons_zero, List.getD_cons_succ] at hk he hns ht
    refine ⟨⟨k, e, ns, if t = 0 then none else handshakeAt now w t, Numeral.word? 64 keepalive⟩, ?_⟩
    simp [readPeer, hfields, hk, he, hns, ht, bind, Except.bind]

lemma error_of_not_legible {name dump : String} {now : Instant} {wall : ℤ} (h : ∃ line ∈ peerLines dump, ¬ Legible line) :
    ∃ e, parse name dump now wall = .error e := by
  obtain ⟨line, hline, hbad⟩ := h
  cases hparse : parse name dump now wall with
  | error e => exact ⟨e, rfl⟩
  | ok st =>
    obtain ⟨p, hp⟩ := exists_mapM_eq_ok_iff.mp ⟨st.peers, mapM_peerLines_of_parse hparse⟩ line hline
    exact absurd (exists_readPeer_iff.mp ⟨p, hp⟩) hbad

/-! ## What is read of a dump -/

/-- A dump in which a device is shown is read as that device, whatever blank lines and further fields it has, and a
dump with an illegible line is not read. -/
theorem parse_shown :
    (∀ (d : ShownDevice) (spread : List (List Char)) (name : String) (now : Instant) (wall : ℤ), Spread d.lines spread →
      parse name (joinLines spread) now wall = .ok (d.state name now wall)) ∧
    ∀ (name dump : String) (now : Instant) (wall : ℤ), (∃ line ∈ peerLines dump, ¬ Legible line) →
      ∃ e, parse name dump now wall = .error e :=
  ⟨fun d _ name now wall h => parse_joinLines d h name now wall, fun _ _ _ _ h => error_of_not_legible h⟩

/-- Two peers between blank lines, the first with a ninth field; and the same with a number in place of a network. -/
theorem parse_shown_two_peers :
    let unset : Field := ⟨absent.toList, by decide, by decide⟩
    let number (n : ℕ) : Field := numberField n
    let p : ShownPeer := {
      publicKey := ⟨.zero 32⟩, presharedKey := unset, endpoint := some (.v4 0xcb007105#32 51820),
      allowedIps := [.v4 0x0a000007#32 24, .v6 0xfe800000000000000000000000000001#128 128], handshake := 1700000000,
      received := number 100, sent := number 200, keepalive := some 25, surplus := [number 9] }
    let q : ShownPeer := {
      publicKey := ⟨.zero 32⟩, presharedKey := unset, endpoint := none, allowedIps := [], handshake := 0,
      received := number 0, sent := number 0, keepalive := none, surplus := [] }
    let d : ShownDevice := {
      privateKey := ⟨.zero 32⟩, publicKey := unset, listenPort := 51820, mark := ⟨"off".toList, by decide, by decide⟩,
      surplus := [], peers := [p, q] }
    let key := "AAAAAAAAAAAAAAAAAAAAAAAAAAAAAAAAAAAAAAAAAAA="
    let dump (nets : String) := "\n" ++ key ++ "\t(none)\t51820\toff\n \r\n" ++ key ++ "\t(none)\t203.0.113.5:51820\t" ++ nets ++
      "\t1700000000\t100\t200\t25\t9\n" ++ key ++ "\t(none)\t(none)\t(none)\t0\t0\t0\toff\n"
    let wall := 1700000030 * Clock.second
    parse "wg0" (dump "10.0.0.7/24,fe80::1/128") 0 wall = .ok (d.state "wg0" 0 wall) ∧
      (p.peer 0 wall).allowedIps = [.v4 0x0a000000#32 24, .v6 0xfe800000000000000000000000000001#128 128] ∧
      (p.peer 0 wall).lastHandshake = some (-30 * (Clock.second : ℤ)) ∧
      (q.peer 0 wall).lastHandshake = none ∧
      ∃ e, parse "wg0" (dump "10.0.0.7/24,7") 0 wall = .error e := by
  intro unset octets p q d key dump wall
  have hspread : Spread d.lines [[], d.line, " \r".toList, p.line, q.line, []] :=
    .blank _ rfl (by decide) (.line _ (.blank _ (by decide) (by decide) (.line _ (.line _ (.blank _ rfl (by decide) .nil)))))
  have htext : joinLines [[], d.line, " \r".toList, p.line, q.line, []] = dump "10.0.0.7/24,fe80::1/128" := by
    rw [← String.toList_inj]
    simp only [dump, key, joinLines, String.toList_append, String.toList_ofList]
    decide +kernel
  have hbad : ∃ line ∈ peerLines (dump "10.0.0.7/24,7"), ¬ Legible line := by
    refine ⟨(key ++ "\t(none)\t203.0.113.5:51820\t10.0.0.7/24,7\t1700000000\t100\t200\t25\t9").toList, ?_, fun hlegible => ?_⟩
    · simp only [peerLines, dump, key, String.toList_append]
      decide +kernel
    have hrefused : Net.written? (String.ofList ['7']) = none := by decide +kernel
    obtain ⟨net, hnet⟩ := hlegible.nets.resolve_left (by decide +kernel) ['7'] (by decide +kernel) (by decide)
    cases hrefused.symm.trans hnet
  refine ⟨htext ▸ parse_shown.1 d _ "wg0" 0 wall hspread, by decide, by decide, by decide, parse_shown.2 "wg0" _ 0 wall hbad⟩

end DeviceDump

end MeshFacts
