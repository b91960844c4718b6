import MeshFacts.Proofs.Selections

/-! # Peers told in turns
A broadcast tells its peers all at once: while the packets of one are on their way, others take their turns. How far a
peer has come follows from the losses of its own packets, whatever turns others take, and telling peers one after the
other is one order of turns. -/
namespace MeshFacts

namespace Outlet
variable {o s t : Outlet} {peer : PublicKey}

def packetsTo (o : Outlet) (peer : PublicKey) : List (List UInt8) :=
  (o.sent.filter fun p => p.recipient = peer).map Outgoing.packet

lemma sentTo_sent (o : Outlet) (peer : PublicKey) : Broadcast.sentTo peer o.sent = (o.packetsTo peer).length := by
  simp [Broadcast.sentTo, packetsTo]

/-- Who sends stays, and nothing changes for one peer. -/
structure SameFor (peer : PublicKey) (o t : Outlet) : Prop where
  sender : t.signer.pair = o.signer.pair
  entries : o.state.knowledge.AgreesOn peer t.state.knowledge
  packets : t.packetsTo peer = o.packetsTo peer

lemma SameFor.refl (peer : PublicKey) (o : Outlet) : o.SameFor peer o := ⟨rfl, fun _ => rfl, rfl⟩

lemma SameFor.trans (h : o.SameFor peer s) (h' : s.SameFor peer t) : o.SameFor peer t :=
  ⟨h'.sender.trans h.sender, h.entries.trans h'.entries, h'.packets.trans h.packets⟩

end Outlet

namespace Packing

lemma pair_sealAll (peer : PublicKey) (now : Instant) (s : Signer) (nonces : NonceSupply)
    (groups : List (List UInt8)) : (sealAll peer now s nonces groups).2.1.pair = s.pair := by
  induction groups generalizing s nonces with
  | nil => rfl
  | cons inner groups ih => exact (ih _ _).trans (s.pair_signFor nonces.draw.1 inner peer)

end Packing

def Signer.Carries (s : Signer) (peer : PublicKey) (now : Instant) (packet : List UInt8) (part : List Fact) : Prop :=
  ∃ f, s.Groups peer now f part ∧ packet = f.formAt now

namespace Broadcast
variable {l : Link} {lost : Failures} {peer other : PublicKey} {chunk : FactChunk} {o t u : Outlet}

inductive Progress
  | begun
  /-- Some groups are still to go out, out of so many in which the facts are told. -/
  | sending (left : List Fact) (included : List Fact) (count : ℕ)
  | done (result : Except EngineError ℕ)
deriving DecidableEq

namespace Progress

def counted : Progress → ℕ
  | done (.ok n) => n
  | _ => 0

/-- One step of telling a peer. Between steps others may make theirs. -/
def step (l : Link) (lost : Failures) (peer : PublicKey) (chunk : FactChunk) : Progress × Outlet → Progress × Outlet
  | (begun, o) =>
    match select l o.state.knowledge peer chunk with
    | .error e => (done (.error (.fact e)), o)
    | .ok (packing, included) =>
      let (packets, signer, nonces) := packing.signedGroups o.signer o.nonces peer
      (sending packets included packets.length, { o with signer := signer, nonces := nonces })
  | (sending [] included count, o) =>
    (done (.ok count), { o with
      state := { o.state with knowledge := noteSent o.state.knowledge peer included } })
  | (sending (f :: left) included count, o) =>
    match f.encode chunk.now with
    | .error e => (done (.error (.fact e)), o)
    | .ok packet =>
      if lost peer (sentTo peer o.sent) then (done (.error .io), o)
      else (sending left included count, { o with sent := o.sent ++ [⟨peer, packet⟩] })
  | (done result, o) => (done result, o)

/-- What a step of telling a peer may do: it signs, or sends the peer a packet, or notes that the peer was told. -/
inductive Makes (peer : PublicKey) (o : Outlet) : Outlet → Prop
  | signed (signer : Signer) (nonces : NonceSupply) (h : signer.pair = o.signer.pair) :
      Makes peer o { o with signer := signer, nonces := nonces }
  | sent (packet : List UInt8) : Makes peer o { o with sent := o.sent ++ [⟨peer, packet⟩] }
  | noted (facts : List Fact) :
      Makes peer o { o with state := { o.state with knowledge := noteSent o.state.knowledge peer facts } }

lemma makes_step (l : Link) (lost : Failures) (peer : PublicKey) (chunk : FactChunk) (g : Progress) (o : Outlet) :
    Makes peer o (step l lost peer chunk (g, o)).2 := by
  have hnothing : Makes peer o o := .signed o.signer o.nonces rfl
  cases g with
  | begun =>
    simp only [step]
    split
    · exact hnothing
    · exact .signed _ _ (Packing.pair_sealAll ..)
  | sending left included count =>
    cases left with
    | nil => exact .noted included
    | cons f left =>
      simp only [step]
      split
      · exact hnothing
      · split_ifs
        · exact hnothing
        · exact .sent _
  | done result => exact hnothing

lemma Makes.sameFor (h : Makes other o t) (hne : other ≠ peer) : o.SameFor peer t := by
  cases h with
  | signed signer nonces h => exact ⟨h, fun _ => rfl, rfl⟩
  | sent packet => exact ⟨rfl, fun _ => rfl, by simp [Outlet.packetsTo, hne]⟩
  | noted facts => exact ⟨rfl, fun _ => until?_noteSent_of_ne hne _ _, rfl⟩

lemma Makes.pair (h : Makes peer o t) : t.signer.pair = o.signer.pair := by
  cases h with
  | signed signer nonces h => exact h
  | sent | noted => rfl

lemma Makes.cached (h : Makes peer o t) : t.state.cached = o.state.cached := by
  cases h <;> rfl

lemma Makes.sent_eq (h : Makes peer o t) : ∃ new, t.sent = o.sent ++ new := by
  cases h with
  | signed | noted => exact ⟨[], by simp⟩
  | sent packet => exact ⟨_, rfl⟩

/-- The packets that are left go out one by one until one gets lost. -/
lemma exists_iterate_sending (l : Link) (lost : Failures) (peer : PublicKey) (chunk : FactChunk)
    (left included : List Fact) (count : ℕ) (o : Outlet) :
    ∃ n, (step l lost peer chunk)^[n] (sending left included count, o) =
      match deliver lost peer chunk.now left o.sent with
      | (.error e, sent) => (done (.error e), { o with sent := sent })
      | (.ok (), sent) => (done (.ok count), { o with
          state := { o.state with knowledge := noteSent o.state.knowledge peer included }, sent := sent }) := by
  induction left generalizing o with
  | nil => exact ⟨1, rfl⟩
  | cons f left ih =>
    cases he : f.encode chunk.now with
    | error e => exact ⟨1, by simp [step, deliver, he]⟩
    | ok packet =>
      by_cases hlost : lost peer (sentTo peer o.sent) = true
      · exact ⟨1, by simp [step, deliver, he, hlost]⟩
      · obtain ⟨n, hn⟩ := ih { o with sent := o.sent ++ [⟨peer, packet⟩] }
        refine ⟨n + 1, ?_⟩
        simpa [Function.iterate_succ_apply, step, deliver, he, hlost] using hn

lemma exists_iterate_step (l : Link) (lost : Failures) (peer : PublicKey) (chunk : FactChunk) (o : Outlet) :
    ∃ n, (step l lost peer chunk)^[n] (begun, o) =
      (done (sendFacts l lost peer chunk o).1, (sendFacts l lost peer chunk o).2) := by
  cases hs : select l o.state.knowledge peer chunk with
  | error e => exact ⟨1, by simp [step, sendFacts, hs]⟩
  | ok selection =>
    obtain ⟨packing, included⟩ := selection
    obtain ⟨packets, signer, nonces, hsigned⟩ :
      ∃ packets signer nonces, packing.signedGroups o.signer o.nonces peer = (packets, signer, nonces) := ⟨_, _, _, rfl⟩
    obtain ⟨n, hn⟩ := exists_iterate_sending l lost peer chunk packets included packets.length
      { o with signer := signer, nonces := nonces }
    obtain ⟨result, sent, hd⟩ :
      ∃ result sent, deliver lost peer chunk.now packets o.sent = (result, sent) := ⟨_, _, rfl⟩
    refine ⟨n + 1, ?_⟩
    simp only [Function.iterate_succ_apply, step, hs, hsigned, hn, sendFacts, hd]
    cases result <;> rfl

end Progress

/-- Whatever is selected for a peer goes out in these parts. -/
def Plans (l : Link) (k : Knowledge) (peer : PublicKey) (chunk : FactChunk) (parts : List (List Fact)) : Prop :=
  ∀ packing included, select l k peer chunk = .ok (packing, included) →
    included = parts.flatten ∧ packing.Splits chunk.now parts

lemma exists_plans (l : Link) (k : Knowledge) (peer : PublicKey) (chunk : FactChunk) :
    ∃ parts, Plans l k peer chunk parts := by
  cases hs : select l k peer chunk with
  | error e => exact ⟨[], by simp [Plans, hs]⟩
  | ok selection =>
    obtain ⟨packing, included⟩ := selection
    have hselected := selected_of_select hs
    obtain ⟨parts, hsplits, rfl⟩ := hselected.holds.exists_splits hselected.maxLength
    refine ⟨parts, fun p held h => ?_⟩
    rw [hs, Except.ok.injEq, Prod.mk.injEq] at h
    obtain ⟨rfl, rfl⟩ := h
    exact ⟨rfl, hselected.now ▸ hsplits⟩

/-- So many packets of a plan have gone to a peer, none of which got lost. -/
structure Gone (lost : Failures) (peer : PublicKey) (chunk : FactChunk) (o : Outlet) (parts : List (List Fact)) (n : ℕ)
    (t : Outlet) : Prop where
  sender : t.signer.pair = o.signer.pair
  le : n ≤ parts.length
  packets : ∃ new, t.packetsTo peer = o.packetsTo peer ++ new ∧
    List.Forall₂ (o.signer.Carries peer chunk.now) new (parts.take n)
  kept : ∀ m < n, lost peer (sentTo peer o.sent + m) = false

/-- How far a peer may have been told, and what then stands for it. -/
inductive Stage (l : Link) (lost : Failures) (peer : PublicKey) (chunk : FactChunk) (o : Outlet)
    (parts : List (List Fact)) : Progress → Outlet → Prop
  | begun {t : Outlet} (h : o.SameFor peer t) : Stage l lost peer chunk o parts .begun t
  | refused {e : FactError} {t : Outlet} (hs : select l o.state.knowledge peer chunk = .error e)
      (h : o.SameFor peer t) : Stage l lost peer chunk o parts (.done (.error (.fact e))) t
  | sending {n : ℕ} {packing : Packing} {left : List Fact} {t : Outlet}
      (hs : select l o.state.knowledge peer chunk = .ok (packing, parts.flatten)) (h : Gone lost peer chunk o parts n t)
      (hleft : List.Forall₂ (o.signer.Groups peer chunk.now) left (parts.drop n))
      (hentries : o.state.knowledge.AgreesOn peer t.state.knowledge) :
      Stage l lost peer chunk o parts (.sending left parts.flatten parts.length) t
  | failed {n : ℕ} {packing : Packing} {t : Outlet}
      (hs : select l o.state.knowledge peer chunk = .ok (packing, parts.flatten)) (h : Gone lost peer chunk o parts n t)
      (hlt : n < parts.length) (hlost : lost peer (sentTo peer o.sent + n) = true)
      (hentries : o.state.knowledge.AgreesOn peer t.state.knowledge) :
      Stage l lost peer chunk o parts (.done (.error .io)) t
  | told {packing : Packing} {t : Outlet}
      (hs : select l o.state.knowledge peer chunk = .ok (packing, parts.flatten))
      (h : Gone lost peer chunk o parts parts.length t)
      (hentries : (noteSent o.state.knowledge peer parts.flatten).AgreesOn peer t.state.knowledge) :
      Stage l lost peer chunk o parts (.done (.ok parts.length)) t

section Stage
variable {parts : List (List Fact)} {n : ℕ} {g : Progress}

lemma Gone.of_sameFor (h : Gone lost peer chunk o parts n t) (hsame : t.SameFor peer u) :
    Gone lost peer chunk o parts n u := by
  obtain ⟨new, hnew, hcarry⟩ := h.packets
  exact ⟨hsame.sender.trans h.sender, h.le, ⟨new, hsame.packets.trans hnew, hcarry⟩, h.kept⟩

lemma Gone.sentTo_eq (h : Gone lost peer chunk o parts n t) : sentTo peer t.sent = sentTo peer o.sent + n := by
  obtain ⟨new, hnew, hcarry⟩ := h.packets
  rw [Outlet.sentTo_sent, Outlet.sentTo_sent, hnew, List.length_append, hcarry.length_eq, List.length_take,
    min_eq_left h.le]

lemma Gone.zero (h : o.SameFor peer t) (signer : Signer) (nonces : NonceSupply) (hpair : signer.pair = t.signer.pair) :
    Gone lost peer chunk o parts 0 { t with signer := signer, nonces := nonces } := by
  refine ⟨hpair.trans h.sender, Nat.zero_le _, ⟨[], ?_, .nil⟩, by simp⟩
  rw [List.append_nil]
  exact h.packets

lemma Gone.succ {f : Fact} (h : Gone lost peer chunk o parts n t) (hlt : n < parts.length)
    (hgroup : o.signer.Groups peer chunk.now f parts[n]) (hkept : lost peer (sentTo peer o.sent + n) = false) :
    Gone lost peer chunk o parts (n + 1) { t with sent := t.sent ++ [⟨peer, f.formAt chunk.now⟩] } := by
  obtain ⟨new, hnew, hcarry⟩ := h.packets
  refine ⟨h.sender, hlt, ⟨new ++ [f.formAt chunk.now], ?_, ?_⟩, fun m hm => ?_⟩
  · simp only [Outlet.packetsTo] at hnew ⊢
    simp [hnew]
  · rw [List.take_succ_eq_append_getElem hlt]
    exact List.rel_append hcarry (.cons ⟨f, hgroup, rfl⟩ .nil)
  · rcases Nat.lt_succ_iff_lt_or_eq.mp hm with hm | rfl
    · exact h.kept m hm
    · exact hkept

lemma Stage.of_sameFor (h : Stage l lost peer chunk o parts g t) (hsame : t.SameFor peer u) :
    Stage l lost peer chunk o parts g u := by
  cases h with
  | begun h => exact .begun (h.trans hsame)
  | refused hs h => exact .refused hs (h.trans hsame)
  | sending hs h hleft hentries =>
    exact .sending hs (h.of_sameFor hsame) hleft (hentries.trans hsame.entries)
  | failed hs h hlt hlost hentries => exact .failed hs (h.of_sameFor hsame) hlt hlost (hentries.trans hsame.entries)
  | told hs h hentries => exact .told hs (h.of_sameFor hsame) (hentries.trans hsame.entries)

/-- A step of its own takes a peer from stage to stage. -/
theorem Stage.step (hplan : Plans l o.state.knowledge peer chunk parts)
    (h : Stage l lost peer chunk o parts g t) :
    Stage l lost peer chunk o parts (Progress.step l lost peer chunk (g, t)).1
      (Progress.step l lost peer chunk (g, t)).2 := by
  cases h with
  | begun h =>
    have hselect : select l t.state.knowledge peer chunk = select l o.state.knowledge peer chunk :=
      select_congr h.entries
    cases hs : select l o.state.knowledge peer chunk with
    | error e =>
      simp only [Progress.step, hselect, hs]
      exact .refused hs h
    | ok selection =>
      obtain ⟨packing, included⟩ := selection
      obtain ⟨rfl, hsplits⟩ := hplan packing included hs
      have hgroups := hsplits.signedGroups t.signer t.nonces peer
      have hleft : List.Forall₂ (o.signer.Groups peer chunk.now) (packing.signedGroups t.signer t.nonces peer).1
          (parts.drop 0) := hgroups.imp fun f part => .congr h.sender
      simp only [Progress.step, hselect, hs, hgroups.length_eq]
      exact .sending hs (.zero h _ _ (Packing.pair_sealAll ..)) hleft h.entries
  | refused hs h => exact .refused hs h
  | @sending n packing left t hs h hleft hentries =>
    cases left with
    | nil =>
      have hn : n = parts.length := le_antisymm h.le (List.drop_eq_nil_iff.mp (List.forall₂_nil_left_iff.mp hleft))
      exact .told hs (hn ▸ ⟨h.sender, h.le, h.packets, h.kept⟩) (agreesOn_noteSent hentries parts.flatten)
    | cons f left =>
      have hlt : n < parts.length := by
        have hlength := hleft.length_eq
        rw [List.length_cons, List.length_drop] at hlength
        omega
      rw [List.drop_eq_getElem_cons hlt] at hleft
      obtain ⟨hgroup, hleft⟩ := List.forall₂_cons.mp hleft
      have hencode : f.encode chunk.now = .ok (f.formAt chunk.now) := Fact.encode_eq_ok_iff.mpr ⟨hgroup.le_max, rfl⟩
      simp only [Progress.step, hencode, h.sentTo_eq]
      by_cases hlost : lost peer (sentTo peer o.sent + n) = true
      · rw [if_pos hlost]
        exact .failed hs h hlt hlost hentries
      · rw [if_neg hlost]
        exact .sending hs (h.succ hlt hgroup (by simpa using hlost)) hleft hentries
  | failed hs h hlt hlost hentries => exact .failed hs h hlt hlost hentries
  | told hs h hentries => exact .told hs h hentries

/-- A peer was told the parts of what was selected, and it was noted that it was. -/
structure Told (l : Link) (peer : PublicKey) (chunk : FactChunk) (o : Outlet) (parts : List (List Fact)) (t : Outlet) :
    Prop where
  selected : ∃ packing, select l o.state.knowledge peer chunk = .ok (packing, parts.flatten)
  packets : ∃ new, t.packetsTo peer = o.packetsTo peer ++ new ∧
    List.Forall₂ (o.signer.Carries peer chunk.now) new parts
  entries : (noteSent o.state.knowledge peer parts.flatten).AgreesOn peer t.state.knowledge

lemma Stage.told_of_ok (h : Stage l lost peer chunk o parts (.done (.ok n)) t) :
    n = parts.length ∧ Told l peer chunk o parts t := by
  cases h with
  | told hs h hentries =>
    obtain ⟨new, hnew, hcarry⟩ := h.packets
    rw [List.take_length] at hcarry
    exact ⟨rfl, ⟨_, hs⟩, ⟨new, hnew, hcarry⟩, hentries⟩

lemma Stage.agreesOn_of_error {e : EngineError}
    (h : Stage l lost peer chunk o parts (.done (.error e)) t) :
    o.state.knowledge.AgreesOn peer t.state.knowledge := by
  cases h with
  | refused hs h => exact h.entries
  | failed hs h hlt hlost hentries => exact hentries

/-- What it comes to for a peer follows from which of its packets get lost. -/
lemma Stage.result_eq {result : Except EngineError ℕ} {packing : Packing} {included : List Fact}
    (hplan : Plans l o.state.knowledge peer chunk parts)
    (h : Stage l lost peer chunk o parts (.done result) t)
    (hselect : select l o.state.knowledge peer chunk = .ok (packing, included)) :
    result = if (List.range packing.filled.length).any fun n => lost peer (sentTo peer o.sent + n) then .error .io
      else .ok packing.filled.length := by
  obtain ⟨-, hsplits⟩ := hplan packing included hselect
  rw [hsplits.filled, List.length_map]
  cases h with
  | refused hs h =>
    rw [hselect] at hs
    cases hs
  | @failed n _ _ hs h hlt hlost hentries =>
    rw [if_pos]
    exact List.any_eq_true.mpr ⟨n, List.mem_range.mpr hlt, hlost⟩
  | told hs h hentries =>
    rw [if_neg]
    simpa using h.kept

end Stage

/-- A broadcast under way: what it changes, and how far each of its peers has been told. -/
structure Telling where
  outlet : Outlet
  parties : List (PublicKey × Progress)

namespace Telling
variable {b : Telling} {parts : List (List Fact)}

def start (l : Link) (o : Outlet) : Telling := ⟨o, (recipients l o.state).map (·, .begun)⟩

def turn (l : Link) (lost : Failures) (chunk : FactChunk) (b : Telling) (i : ℕ) : Telling :=
  match b.parties[i]? with
  | none => b
  | some (peer, g) =>
    let next := Progress.step l lost peer chunk (g, b.outlet)
    ⟨next.2, b.parties.set i (peer, next.1)⟩

def run (l : Link) (lost : Failures) (chunk : FactChunk) (turns : List ℕ) (o : Outlet) : Telling :=
  turns.foldl (turn l lost chunk) (start l o)

def IsOver (b : Telling) : Prop := ∀ p ∈ b.parties, ∃ result, p.2 = .done result

/-- The broadcast is over, after turns in some order. -/
def Ends (l : Link) (lost : Failures) (chunk : FactChunk) (o : Outlet) (b : Telling) : Prop :=
  b.IsOver ∧ ∃ turns, run l lost chunk turns o = b

def count (b : Telling) : ℕ := (b.parties.map fun p => p.2.counted).sum

def keys (b : Telling) : List PublicKey := b.parties.map Prod.fst

lemma run_append (turns : List ℕ) (i : ℕ) (o : Outlet) :
    run l lost chunk (turns ++ [i]) o = turn l lost chunk (run l lost chunk turns o) i := List.foldl_concat ..

lemma keys_turn (b : Telling) (i : ℕ) : (turn l lost chunk b i).keys = b.keys := by
  unfold turn
  split
  · rfl
  · rename_i peer g hget
    have hkey : b.keys[i]? = some peer := by rw [keys, List.getElem?_map, hget, Option.map_some]
    obtain ⟨hi, rfl⟩ := List.getElem?_eq_some_iff.mp hkey
    rw [keys, List.map_set]
    exact List.set_getElem_self hi

lemma keys_run (l : Link) (lost : Failures) (chunk : FactChunk) (turns : List ℕ) (o : Outlet) :
    (run l lost chunk turns o).keys = recipients l o.state := by
  induction turns using List.reverseRecOn with
  | nil => simp [run, start, keys, Function.comp_def]
  | append_singleton turns i ih => rw [run_append, keys_turn, ih]

lemma cached_run (turns : List ℕ) (o : Outlet) : (run l lost chunk turns o).outlet.state.cached = o.state.cached := by
  induction turns using List.reverseRecOn with
  | nil => rfl
  | append_singleton turns i ih =>
    rw [run_append, ← ih, turn]
    split
    · rfl
    · exact (Progress.makes_step ..).cached

lemma sent_run (l : Link) (lost : Failures) (chunk : FactChunk) (turns : List ℕ) (o : Outlet) :
    ∃ new, (run l lost chunk turns o).outlet.sent = o.sent ++ new := by
  induction turns using List.reverseRecOn with
  | nil => exact ⟨[], by simp [run, start]⟩
  | append_singleton turns i ih =>
    obtain ⟨new, hsent⟩ := ih
    rw [run_append, turn]
    split
    · exact ⟨new, hsent⟩
    · rename_i peer g hget
      obtain ⟨more, hmore⟩ := (Progress.makes_step l lost peer chunk g (run l lost chunk turns o).outlet).sent_eq
      exact ⟨new ++ more, by rw [hmore, hsent, List.append_assoc]⟩

lemma eq_of_mem_of_count {g g' : Progress} (hone : b.keys.count peer = 1) (h : (peer, g) ∈ b.parties)
    (h' : (peer, g') ∈ b.parties) : g = g' := by
  obtain ⟨before, later, hsplit⟩ := List.append_of_mem h
  rw [hsplit] at h'
  simp only [keys, hsplit, List.map_append, List.map_cons, List.count_append, List.count_cons_self] at hone
  have hbefore : (before.map Prod.fst).count peer = 0 := by omega
  have hlater : (later.map Prod.fst).count peer = 0 := by omega
  rw [List.count_eq_zero] at hbefore hlater
  rcases List.mem_append.mp h' with h' | h'
  · exact absurd (List.mem_map_of_mem h') hbefore
  · rcases List.mem_cons.mp h' with h' | h'
    · exact (congrArg Prod.snd h').symm
    · exact absurd (List.mem_map_of_mem h') hlater

/-- A turn keeps a peer that is there once at a stage, whosever turn it is. -/
lemma stage_turn (hone : b.keys.count peer = 1) (hplan : Plans l o.state.knowledge peer chunk parts)
    (h : ∀ g, (peer, g) ∈ b.parties → Stage l lost peer chunk o parts g b.outlet) (i : ℕ) :
    ∀ g, (peer, g) ∈ (turn l lost chunk b i).parties →
      Stage l lost peer chunk o parts g (turn l lost chunk b i).outlet := by
  intro g hg
  have hone' : (turn l lost chunk b i).keys.count peer = 1 := keys_turn (l := l) b i ▸ hone
  unfold turn at hg hone' ⊢
  split at hg
  · exact h g hg
  · rename_i other g' hget
    simp only [hget] at hone' ⊢
    by_cases hother : other = peer
    · subst hother
      have hown := (h g' (List.mem_of_getElem? hget)).step hplan
      obtain ⟨hi, -⟩ := List.getElem?_eq_some_iff.mp hget
      rwa [eq_of_mem_of_count hone' hg (List.mem_set hi _)]
    · rcases List.mem_or_eq_of_mem_set hg with hg | hg
      · exact (h g hg).of_sameFor ((Progress.makes_step ..).sameFor hother)
      · exact absurd (congrArg Prod.fst hg).symm hother

/-- Whatever turns are made, a peer that is there once has come to a stage. -/
theorem stage_run (hone : (recipients l o.state).count peer = 1)
    (hplan : Plans l o.state.knowledge peer chunk parts) (turns : List ℕ) :
    ∀ g, (peer, g) ∈ (run l lost chunk turns o).parties →
      Stage l lost peer chunk o parts g (run l lost chunk turns o).outlet := by
  induction turns using List.reverseRecOn with
  | nil =>
    intro g hg
    obtain ⟨k, -, hk⟩ := List.mem_map.mp hg
    obtain ⟨rfl, rfl⟩ := Prod.mk.inj hk
    exact .begun (.refl _ _)
  | append_singleton turns i ih =>
    rw [run_append]
    exact stage_turn (by rwa [keys_run]) hplan ih i

lemma turn_at (pre post : List (PublicKey × Progress)) (g : Progress) (o : Outlet) :
    turn l lost chunk ⟨o, pre ++ (peer, g) :: post⟩ pre.length =
      ⟨(Progress.step l lost peer chunk (g, o)).2,
        pre ++ (peer, (Progress.step l lost peer chunk (g, o)).1) :: post⟩ := by
  simp [turn]

lemma foldl_replicate_turn (pre post : List (PublicKey × Progress)) (n : ℕ) (c : Progress × Outlet) :
    (List.replicate n pre.length).foldl (turn l lost chunk) ⟨c.2, pre ++ (peer, c.1) :: post⟩ =
      ⟨((Progress.step l lost peer chunk)^[n] c).2,
        pre ++ (peer, ((Progress.step l lost peer chunk)^[n] c).1) :: post⟩ := by
  induction n generalizing c with
  | zero => rfl
  | succ n ih => rw [List.replicate_succ, List.foldl_cons, turn_at, ih, Function.iterate_succ_apply]

/-- To tell peers one after the other is to let each have all its turns before the next. -/
lemma exists_turns_sendAll (l : Link) (lost : Failures) (chunk : FactChunk) (pre : List (PublicKey × Progress))
    (peers : List PublicKey) (o : Outlet) :
    ∃ (turns : List ℕ) (post : List (PublicKey × Progress)),
      turns.foldl (turn l lost chunk) ⟨o, pre ++ peers.map (·, .begun)⟩ =
        ⟨(sendAll l lost chunk peers o).2, pre ++ post⟩ ∧ (∀ p ∈ post, ∃ result, p.2 = .done result) ∧
      (post.map fun p => p.2.counted).sum = (sendAll l lost chunk peers o).1 := by
  induction peers generalizing pre o with
  | nil => exact ⟨[], [], by simp [sendAll]⟩
  | cons peer peers ih =>
    obtain ⟨result, s, hsend⟩ : ∃ result s, sendFacts l lost peer chunk o = (result, s) := ⟨_, _, rfl⟩
    obtain ⟨n, hn⟩ := Progress.exists_iterate_step l lost peer chunk o
    obtain ⟨turns, post, hturns, hdone, hcount⟩ := ih (pre ++ [(peer, .done result)]) s
    refine ⟨List.replicate n pre.length ++ turns, (peer, .done result) :: post, ?_, ?_, ?_⟩
    · rw [List.foldl_append, List.map_cons, foldl_replicate_turn pre _ n (.begun, o), hn, hsend]
      simpa [sendAll, hsend] using hturns
    · exact List.forall_mem_cons.mpr ⟨⟨result, rfl⟩, hdone⟩
    · rw [List.map_cons, List.sum_cons, hcount]
      simp only [sendAll, hsend]
      cases result <;> rfl

/-- A broadcast to one peer after the other ends as one in turns. -/
theorem exists_ends (l : Link) (lost : Failures) (chunk : FactChunk) (o : Outlet) :
    ∃ b : Telling, b.Ends l lost chunk o ∧ Broadcast.run l lost chunk o = (b.count, b.outlet) := by
  obtain ⟨turns, post, hturns, hdone, hcount⟩ := exists_turns_sendAll l lost chunk [] (recipients l o.state) o
  exact ⟨⟨(Broadcast.run l lost chunk o).2, post⟩, ⟨hdone, turns, hturns⟩, by rw [count, hcount]; rfl⟩

end Telling

end Broadcast

end MeshFacts
