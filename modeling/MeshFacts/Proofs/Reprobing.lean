import MeshFacts.Proofs.BroadcastTurns
import MeshFacts.Proofs.RefusedMoves

/-! # Telling a peer while it is moved
A peer that is moved to another endpoint is to be told once more that this node is alive. Moving and telling go on at
once and meet in what the peer is known to know: what one of them erases there the other may record again, whether
what went out was sent to the new endpoint or to the old one. -/
namespace MeshFacts

namespace Broadcast
open Reconcile (configuration rotate configurePeer)

inductive Act
  /-- It is forgotten that the peer knows this node to be alive. -/
  | ping
  /-- The device is asked to move the peer. -/
  | move
  /-- What the peer is to be told is selected and packed. -/
  | pack
  /-- The packets go out. -/
  | send
  /-- It is noted that the peer was told. -/
  | note
deriving DecidableEq, Repr

namespace Act

def moving : List Act := [ping, move]

def telling : List Act := [pack, send, note]

/-- Moving and telling, in one of the orders in which each may make its way. -/
def Interleaving (acts : List Act) : Prop :=
  acts.Perm (moving ++ telling) ∧ moving.Sublist acts ∧ telling.Sublist acts

instance (acts : List Act) : Decidable (Interleaving acts) := inferInstanceAs (Decidable (_ ∧ _))

variable {acts before after : List Act} {a b : Act}

lemma Interleaving.nodup (h : Interleaving acts) : acts.Nodup := h.1.nodup_iff.mpr (by decide)

lemma Interleaving.mem (h : Interleaving acts) (a : Act) : a ∈ acts := by
  refine h.1.mem_iff.mpr ?_
  cases a <;> decide

lemma Interleaving.exists_split (h : Interleaving acts) (a : Act) :
    ∃ before after, acts = before ++ a :: after ∧ a ∉ before ∧ a ∉ after := by
  obtain ⟨before, after, rfl⟩ := List.append_of_mem (h.mem a)
  have hd := h.nodup
  rw [List.nodup_middle, List.nodup_cons, List.mem_append, not_or] at hd
  exact ⟨before, after, rfl, hd.1⟩

lemma Interleaving.not_mem_of_mem_after (h : Interleaving (before ++ a :: after)) (hb : b ∈ after) :
    b ∉ before ++ [a] := by
  have hd := h.nodup
  rw [List.append_cons] at hd
  exact fun hin => List.disjoint_of_nodup_append hd hin hb

lemma pair_sublist_iff (h : a ∉ before) : [a, b].Sublist (before ++ a :: after) ↔ b ∈ after := by
  induction before with
  | nil => simp [List.cons_sublist_cons]
  | cons c before ih =>
    rw [List.mem_cons, not_or] at h
    rw [List.cons_append, List.sublist_cons_iff, ← ih h.2]
    simp [h.1]

end Act

inductive Phase
  | begun
  | packed (packets included : List Fact)
  | gone (included : List Fact) (count : ℕ)
  | told (included : List Fact) (count : ℕ)
  | failed (e : EngineError)

def Phase.included : Phase → List Fact
  | packed _ included | gone included _ | told included _ => included
  | begun | failed _ => []

/-- The state that moving and telling share, and how far telling has come. -/
structure Race where
  outlet : Outlet
  phase : Phase := .begun

namespace Race

def knowledge (r : Race) : Knowledge := r.outlet.state.knowledge

def Tells (r : Race) (f : Fact) : Prop := ∃ included count, r.phase = .told included count ∧ f ∈ included

section
variable (l : Link) (lost : Failures) (u : PeerUpdate) (chunk : FactChunk)

def step (r : Race) : Act → Race
  | .ping => { r with outlet.state.knowledge := (r.knowledge.forcePing l.self u.publicKey).2 }
  | .move => { r with outlet.state := (l.configure r.outlet.state u).2 }
  | .pack =>
    match r.phase with
    | .begun =>
      match select l r.knowledge u.publicKey chunk with
      | .error e => { r with phase := .failed (.fact e) }
      | .ok (packing, included) =>
        let (packets, signer, nonces) := packing.signedGroups r.outlet.signer r.outlet.nonces u.publicKey
        ⟨{ r.outlet with signer := signer, nonces := nonces }, .packed packets included⟩
    | _ => r
  | .send =>
    match r.phase with
    | .packed packets included =>
      match deliver lost u.publicKey chunk.now packets r.outlet.sent with
      | (.error e, sent) => ⟨{ r.outlet with sent := sent }, .failed e⟩
      | (.ok (), sent) => ⟨{ r.outlet with sent := sent }, .gone included packets.length⟩
    | _ => r
  | .note =>
    match r.phase with
    | .gone included count =>
      let knowledge := noteSent r.knowledge u.publicKey included
      ⟨{ r.outlet with state := { r.outlet.state with knowledge := knowledge } }, .told included count⟩
    | _ => r

def run (r : Race) (acts : List Act) : Race := acts.foldl (step l lost u chunk) r

end

section
variable {l : Link} {lost : Failures} {u : PeerUpdate} {chunk : FactChunk} {r t : Race} {a : Act} {acts : List Act}
  {f : Fact}

/-- What an act does, by how far telling has come. An act out of turn does nothing. -/
inductive Makes (l : Link) (lost : Failures) (u : PeerUpdate) (chunk : FactChunk) (r : Race) : Act → Race → Prop
  | pinged : Makes l lost u chunk r .ping
      { r with outlet.state.knowledge := (r.knowledge.forcePing l.self u.publicKey).2 }
  | moved : Makes l lost u chunk r .move { r with outlet.state := (l.configure r.outlet.state u).2 }
  | refused {e : EngineError} (hphase : r.phase = .begun) : Makes l lost u chunk r .pack { r with phase := .failed e }
  | packed {packing : Packing} {included packets : List Fact} {signer : Signer} {nonces : NonceSupply}
      (hphase : r.phase = .begun) (hs : select l r.knowledge u.publicKey chunk = .ok (packing, included))
      (hsigned : packing.signedGroups r.outlet.signer r.outlet.nonces u.publicKey = (packets, signer, nonces)) :
      Makes l lost u chunk r .pack
        ⟨{ r.outlet with signer := signer, nonces := nonces }, .packed packets included⟩
  | lost {packets included : List Fact} {e : EngineError} {sent : List Outgoing}
      (hphase : r.phase = .packed packets included)
      (hd : deliver lost u.publicKey chunk.now packets r.outlet.sent = (.error e, sent)) :
      Makes l lost u chunk r .send ⟨{ r.outlet with sent := sent }, .failed e⟩
  | gone {packets included : List Fact} {sent : List Outgoing} (hphase : r.phase = .packed packets included)
      (hd : deliver lost u.publicKey chunk.now packets r.outlet.sent = (.ok (), sent)) :
      Makes l lost u chunk r .send ⟨{ r.outlet with sent := sent }, .gone included packets.length⟩
  | noted {included : List Fact} {count : ℕ} (hphase : r.phase = .gone included count) :
      Makes l lost u chunk r .note
        ⟨{ r.outlet with state := { r.outlet.state with knowledge := noteSent r.knowledge u.publicKey included } },
          .told included count⟩
  | idle {a : Act} (hping : a ≠ .ping) : Makes l lost u chunk r a r

lemma makes_step (l : Link) (lost : Failures) (u : PeerUpdate) (chunk : FactChunk) (r : Race) (a : Act) :
    Makes l lost u chunk r a (step l lost u chunk r a) := by
  cases a with
  | ping => exact .pinged
  | move => exact .moved
  | pack =>
    simp only [step]
    split
    · rename_i hphase
      split
      · exact .refused hphase
      · rename_i hs
        exact .packed hphase hs rfl
    · exact .idle (by decide)
  | send =>
    simp only [step]
    split
    · rename_i hphase
      split
      · rename_i hd
        exact .lost hphase hd
      · rename_i hd
        exact .gone hphase hd
    · exact .idle (by decide)
  | note =>
    simp only [step]
    split
    · rename_i hphase
      exact .noted hphase
    · exact .idle (by decide)

lemma run_concat (r : Race) (acts : List Act) (a : Act) :
    run l lost u chunk r (acts ++ [a]) = step l lost u chunk (run l lost u chunk r acts) a := List.foldl_concat ..

lemma run_append (r : Race) (before after : List Act) :
    run l lost u chunk r (before ++ after) = run l lost u chunk (run l lost u chunk r before) after :=
  List.foldl_append ..

lemma Makes.knowledge_eq (h : Makes l lost u chunk r a t) (hping : a ≠ .ping) (hnote : a ≠ .note) :
    t.knowledge = r.knowledge := by
  cases h with
  | pinged => exact absurd rfl hping
  | noted => exact absurd rfl hnote
  | moved => rw [knowledge, l.configure_snd]; rfl
  | refused | packed | lost | gone | idle => rfl

lemma Makes.sent_eq (h : Makes l lost u chunk r a t) (hsend : a ≠ .send) : t.outlet.sent = r.outlet.sent := by
  cases h with
  | lost | gone => exact absurd rfl hsend
  | pinged | moved | refused | packed | noted | idle => rfl

/-- Facts come to be told only by noting them, and that is not undone. -/
lemma Makes.tells_iff (h : Makes l lost u chunk r a t) (hnote : a ≠ .note) : t.Tells f ↔ r.Tells f := by
  cases h with
  | noted => exact absurd rfl hnote
  | refused hphase | packed hphase | lost hphase | gone hphase => simp [Tells, hphase]
  | pinged | moved | idle => exact Iff.rfl

lemma knowledge_run (hping : .ping ∉ acts) (hnote : .note ∉ acts) (r : Race) :
    (run l lost u chunk r acts).knowledge = r.knowledge := by
  induction acts using List.reverseRecOn with
  | nil => rfl
  | append_singleton acts a ih =>
    simp only [List.mem_append, List.mem_singleton, not_or] at hping hnote
    rw [run_concat, (makes_step ..).knowledge_eq (Ne.symm hping.2) (Ne.symm hnote.2), ih hping.1 hnote.1]

lemma sent_run (hsend : .send ∉ acts) (r : Race) : (run l lost u chunk r acts).outlet.sent = r.outlet.sent := by
  induction acts using List.reverseRecOn with
  | nil => rfl
  | append_singleton acts a ih =>
    simp only [List.mem_append, List.mem_singleton, not_or] at hsend
    rw [run_concat, (makes_step ..).sent_eq (Ne.symm hsend.2), ih hsend.1]

lemma tells_run (hnote : .note ∉ acts) (r : Race) : (run l lost u chunk r acts).Tells f ↔ r.Tells f := by
  induction acts using List.reverseRecOn with
  | nil => exact Iff.rfl
  | append_singleton acts a ih =>
    simp only [List.mem_append, List.mem_singleton, not_or] at hnote
    rw [run_concat, (makes_step ..).tells_iff (Ne.symm hnote.2), ih hnote.1]

lemma key_of_ownAlive (h : ownAlive l.self chunk.facts = some f) : f.key = .alive l.self := by
  have hf := List.find?_some h
  simp only [Bool.and_eq_true, decide_eq_true_eq] at hf
  rw [Fact.key, hf.1, hf.2]
  rfl

lemma eq_of_selected {k : Knowledge} {peer : PublicKey} {packing : Packing} {included : List Fact} {g : Fact}
    (hs : select l k peer chunk = .ok (packing, included)) (ha : ownAlive l.self chunk.facts = some f)
    (hg : g ∈ included) (hkey : g.key = .alive l.self) : g = f := by
  rcases (selected_of_select hs).told g hg with hdue | hown
  · have hkind : g.kind = .alive := congrArg FactKey.kind hkey
    have hconcerns := (mem_due_iff.mp hdue).2.1
    simp [concerns, hkind] at hconcerns
  · exact Option.some.inj (hown.symm.trans ha)

lemma until?_noteSent_of_not_mem {k : Knowledge} {peer : PublicKey} {facts : List Fact} {key : FactKey}
    (h : ∀ g ∈ facts, g.key ≠ key) : (noteSent k peer facts).until? key peer = k.until? key peer := by
  induction facts generalizing k with
  | nil => rfl
  | cons g facts ih =>
    rw [List.forall_mem_cons] at h
    exact (ih h.2).trans (Knowledge.until?_note_of_ne (fun heq => h.1 heq.1.symm) _ _)

/-- What the peer is to be told says that this node is alive by one fact only. -/
def Sound (l : Link) (f : Fact) (r : Race) : Prop := ∀ g ∈ r.phase.included, g.key = .alive l.self → g = f

lemma Sound.of_makes (h : r.Sound l f) (ha : ownAlive l.self chunk.facts = some f)
    (hmakes : Makes l lost u chunk r a t) : t.Sound l f := by
  cases hmakes with
  | refused | lost => simp [Sound, Phase.included]
  | packed hphase hs => exact fun g hg hkey => eq_of_selected hs ha hg hkey
  | gone hphase | noted hphase =>
    rw [Sound, hphase] at h
    exact h
  | pinged | moved | idle => exact h

lemma sound_run (ha : ownAlive l.self chunk.facts = some f) (lost : Failures) (u : PeerUpdate) (o : Outlet)
    (acts : List Act) : (run l lost u chunk { outlet := o } acts).Sound l f := by
  induction acts using List.reverseRecOn with
  | nil => simp [run, Sound, Phase.included]
  | append_singleton acts a ih =>
    rw [run_concat]
    exact ih.of_makes ha (makes_step ..)

/-- The peer passes for one that knows this node to be alive just if it was noted since it was last to be told. -/
structure Honest (l : Link) (peer : PublicKey) (f : Fact) (r : Race) : Prop where
  sound : r.Sound l f
  heard : r.Tells f → ∃ t, r.knowledge.until? f.key peer = some t ∧ f.expires ≤ t
  silent : ¬ r.Tells f → r.knowledge.until? f.key peer = none

lemma Honest.knows_iff {peer : PublicKey} (h : r.Honest l peer f) (hysteresis : Span) :
    r.knowledge.peerKnows peer f hysteresis = true ↔ r.Tells f := by
  rw [Knowledge.peerKnows_eq_true_iff]
  constructor
  · rintro ⟨t, ht, -⟩
    by_contra htells
    rw [h.silent htells] at ht
    cases ht
  · intro htells
    obtain ⟨t, ht, hle⟩ := h.heard htells
    exact ⟨t, ht, (sub_le_self _ (Int.natCast_nonneg _)).trans hle⟩

lemma Honest.of_makes (h : r.Honest l u.publicKey f) (ha : ownAlive l.self chunk.facts = some f) (hping : a ≠ .ping)
    (hmakes : Makes l lost u chunk r a t) : t.Honest l u.publicKey f := by
  have hsound := h.sound.of_makes ha hmakes
  by_cases hnote : a = .note
  · subst hnote
    cases hmakes with
    | idle => exact h
    | @noted included count hphase =>
      have htells : Tells ⟨{ r.outlet with state := { r.outlet.state with
          knowledge := noteSent r.knowledge u.publicKey included } }, .told included count⟩ f ↔ f ∈ included := by
        simp [Tells]
      refine ⟨hsound, fun hf => until?_noteSent_of_mem (htells.mp hf) _ _, fun hf => ?_⟩
      have hquiet : ¬ r.Tells f := by simp [Tells, hphase]
      have hother : ∀ g ∈ included, g.key ≠ f.key := by
        intro g hg hkey
        have hgf := hsound g hg (hkey.trans (key_of_ownAlive ha))
        exact hf (htells.mpr (hgf ▸ hg))
      exact (until?_noteSent_of_not_mem hother).trans (h.silent hquiet)
  · have hknowledge := hmakes.knowledge_eq hping hnote
    have htells := hmakes.tells_iff (f := f) hnote
    refine ⟨hsound, fun hf => ?_, fun hf => ?_⟩
    · rw [hknowledge]
      exact h.heard (htells.mp hf)
    · rw [hknowledge]
      exact h.silent fun hr => hf (htells.mpr hr)

lemma honest_run (h : r.Honest l u.publicKey f) (ha : ownAlive l.self chunk.facts = some f) (hping : .ping ∉ acts) :
    (run l lost u chunk r acts).Honest l u.publicKey f := by
  induction acts using List.reverseRecOn with
  | nil => exact h
  | append_singleton acts a ih =>
    simp only [List.mem_append, List.mem_singleton, not_or] at hping
    rw [run_concat]
    exact (ih hping.1).of_makes ha (Ne.symm hping.2) (makes_step ..)

/-- However moving and telling meet, the peer then passes for one that knows this node alive just if that was noted
after it was forgotten. -/
lemma knows_run_iff (ha : ownAlive l.self chunk.facts = some f) (hi : Act.Interleaving acts) (o : Outlet)
    (hysteresis : Span) :
    (run l lost u chunk { outlet := o } acts).knowledge.peerKnows u.publicKey f hysteresis = true ↔
      (run l lost u chunk { outlet := o } acts).Tells f ∧ [.ping, .note].Sublist acts := by
  obtain ⟨before, after, rfl, hbefore, hafter⟩ := hi.exists_split .ping
  obtain ⟨r, hr⟩ : ∃ r, r = run l lost u chunk { outlet := o } (before ++ [.ping]) := ⟨_, rfl⟩
  have hrun : run l lost u chunk { outlet := o } (before ++ .ping :: after) = run l lost u chunk r after := by
    rw [hr, ← run_append, List.append_assoc, List.singleton_append]
  have hsilent : r.knowledge.until? f.key u.publicKey = none := by
    rw [hr, run_concat, key_of_ownAlive ha]
    exact (Table.find?_erase _ _ _).trans (if_pos rfl)
  rw [hrun, Act.pair_sublist_iff hbefore]
  by_cases hnote : .note ∈ after
  · have hearlier := hi.not_mem_of_mem_after hnote
    have hquiet : ¬ r.Tells f := by
      rw [hr, tells_run hearlier]
      simp [Tells]
    have hhonest : r.Honest l u.publicKey f :=
      ⟨hr ▸ sound_run ha lost u o _, fun htells => absurd htells hquiet, fun _ => hsilent⟩
    rw [(honest_run hhonest ha hafter).knows_iff]
    exact (and_iff_left hnote).symm
  · have hkept : (run l lost u chunk r after).knowledge = r.knowledge := knowledge_run hafter hnote r
    have hnever : (run l lost u chunk r after).knowledge.peerKnows u.publicKey f hysteresis = false := by
      rw [hkept, Knowledge.peerKnows, hsilent, Option.any_none]
    exact iff_of_false (by simp [hnever]) fun h => hnote h.2

/-- Of what has gone out to the peer each packet carries a part of what it is told. -/
structure Sends (peer : PublicKey) (now : Instant) (o : Outlet) (r : Race) : Prop where
  sender : r.outlet.signer.pair = o.signer.pair
  begun : r.phase = .begun → r.outlet.sent = o.sent
  packed : ∀ packets included, r.phase = .packed packets included →
    r.outlet.sent = o.sent ∧ ∃ parts, parts.flatten = included ∧ List.Forall₂ (o.signer.Groups peer now) packets parts
  out : ∀ included count, r.phase = .gone included count ∨ r.phase = .told included count →
    ∃ packets parts, parts.flatten = included ∧ r.outlet.sent = o.sent ++ packets.map (⟨peer, ·⟩) ∧
      List.Forall₂ (o.signer.Carries peer now) packets parts

lemma Sends.congr {peer : PublicKey} {now : Instant} {o : Outlet} (h : r.Sends peer now o)
    (hsigner : t.outlet.signer = r.outlet.signer) (hsent : t.outlet.sent = r.outlet.sent) (hphase : t.phase = r.phase) :
    t.Sends peer now o := by
  refine ⟨hsigner ▸ h.sender, ?_, ?_, ?_⟩
  · rw [hphase, hsent]
    exact h.begun
  · rw [hphase, hsent]
    exact h.packed
  · rw [hphase, hsent]
    exact h.out

lemma packets_of_deliver {peer : PublicKey} {now : Instant} {s : Signer} {groups : List Fact}
    {parts : List (List Fact)} {sent sent' : List Outgoing} (hg : List.Forall₂ (s.Groups peer now) groups parts)
    (hd : deliver lost peer now groups sent = (.ok (), sent')) :
    sent' = sent ++ (groups.map (·.formAt now)).map (⟨peer, ·⟩) ∧
      List.Forall₂ (s.Carries peer now) (groups.map (·.formAt now)) parts := by
  constructor
  · rw [sent_of_deliver (Signer.Groups.forall_le_max hg) hd, List.map_map]
    rfl
  · rw [List.forall₂_map_left_iff]
    exact hg.imp fun f part h => ⟨f, h, rfl⟩

lemma Sends.of_makes {o : Outlet} (h : r.Sends u.publicKey chunk.now o) (hmakes : Makes l lost u chunk r a t) :
    t.Sends u.publicKey chunk.now o := by
  cases hmakes with
  | pinged | idle => exact h.congr rfl rfl rfl
  | moved => exact h.congr rfl rfl rfl
  | refused hphase => exact ⟨h.sender, by simp, by simp, by simp⟩
  | lost hphase hd => exact ⟨h.sender, by simp, by simp, by simp⟩
  | @packed packing included packets signer nonces hphase hs hsigned =>
    obtain ⟨parts, hplan⟩ := exists_plans l r.knowledge u.publicKey chunk
    obtain ⟨hflat, hsplits⟩ := hplan packing included hs
    have hgroups := hsplits.signedGroups r.outlet.signer r.outlet.nonces u.publicKey
    have hpair : signer.pair = r.outlet.signer.pair := by
      have hsealed := Packing.pair_sealAll u.publicKey packing.now r.outlet.signer r.outlet.nonces packing.filled
      exact (congrArg (fun x => x.2.1.pair) hsigned).symm.trans hsealed
    rw [hsigned] at hgroups
    refine ⟨hpair.trans h.sender, by simp, ?_, by simp⟩
    rintro _ _ heq
    obtain ⟨rfl, rfl⟩ := Phase.packed.inj heq
    exact ⟨h.begun hphase, parts, hflat.symm, hgroups.imp fun f part => .congr h.sender⟩
  | @gone packets included sent hphase hd =>
    obtain ⟨hsent, parts, hflat, hgroups⟩ := h.packed packets included hphase
    obtain ⟨hout, hcarries⟩ := packets_of_deliver hgroups hd
    refine ⟨h.sender, by simp, by simp, ?_⟩
    rintro _ _ (heq | heq)
    · obtain ⟨rfl, rfl⟩ := Phase.gone.inj heq
      exact ⟨_, parts, hflat, by rw [hout, hsent], hcarries⟩
    · cases heq
  | @noted included count hphase =>
    refine ⟨h.sender, by simp, by simp, ?_⟩
    rintro _ _ (heq | heq)
    · cases heq
    · obtain ⟨rfl, rfl⟩ := Phase.told.inj heq
      exact h.out included count (.inl hphase)

lemma sends_run (l : Link) (lost : Failures) (u : PeerUpdate) (chunk : FactChunk) (o : Outlet) (acts : List Act) :
    (run l lost u chunk { outlet := o } acts).Sends u.publicKey chunk.now o := by
  induction acts using List.reverseRecOn with
  | nil => exact ⟨rfl, fun _ => rfl, by simp [run], by simp [run]⟩
  | append_singleton acts a ih =>
    rw [run_concat]
    exact ih.of_makes (makes_step ..)

end

section
variable (l : Link) (lost : Failures) (u : PeerUpdate) (chunk : FactChunk)

def sentAfter (r : Race) (acts : List Act) (a : Act) : List Outgoing :=
  (run l lost u chunk r acts).outlet.sent.drop
    (run l lost u chunk r (acts.take (acts.idxOf a + 1))).outlet.sent.length

/-- After it was moved, the peer is sent a packet that carries a fact. -/
def Reprobes (r : Race) (acts : List Act) (f : Fact) : Prop :=
  ∃ packet, ⟨u.publicKey, packet⟩ ∈ sentAfter l lost u chunk r acts .move ∧
    ∃ part, f ∈ part ∧ r.outlet.signer.Carries u.publicKey chunk.now packet part

end

section
variable {l : Link} {lost : Failures} {u : PeerUpdate} {chunk : FactChunk} {acts : List Act} {f : Fact}

/-- Where the peer was told, it was told after the move just if the packets went out after it. -/
lemma reprobes_iff (hi : Act.Interleaving acts) (o : Outlet)
    (htells : (run l lost u chunk { outlet := o } acts).Tells f) :
    Reprobes l lost u chunk { outlet := o } acts f ↔ [.move, .send].Sublist acts := by
  obtain ⟨before, after, rfl, hbefore, hafter⟩ := hi.exists_split .move
  have htake : (before ++ Act.move :: after).take ((before ++ Act.move :: after).idxOf .move + 1) = before ++ [.move] := by
    rw [List.idxOf_append_of_notMem hbefore, List.idxOf_cons_self, Nat.add_zero, List.take_length_add_append]
    rfl
  obtain ⟨r, hr⟩ : ∃ r, r = run l lost u chunk { outlet := o } (before ++ [.move]) := ⟨_, rfl⟩
  have hrun : run l lost u chunk { outlet := o } (before ++ .move :: after) = run l lost u chunk r after := by
    rw [hr, ← run_append, List.append_assoc, List.singleton_append]
  rw [Act.pair_sublist_iff hbefore, Reprobes, sentAfter, htake, ← hr]
  by_cases hsend : .send ∈ after
  · have hearlier : r.outlet.sent = o.sent := by rw [hr, sent_run (hi.not_mem_of_mem_after hsend)]
    obtain ⟨included, count, hphase, hf⟩ := htells
    obtain ⟨packets, parts, rfl, hsent, hcarries⟩ := (sends_run l lost u chunk o _).out included count (.inr hphase)
    refine iff_of_true ?_ hsend
    obtain ⟨part, hpart, hin⟩ := List.mem_flatten.mp hf
    obtain ⟨i, hi, rfl⟩ := List.getElem_of_mem hpart
    have hlt : i < packets.length := hcarries.length_eq ▸ hi
    refine ⟨packets[i], ?_, _, hin, hcarries.get hlt hi⟩
    rw [hsent, hearlier, List.drop_left]
    exact List.mem_map_of_mem (List.getElem_mem hlt)
  · have hnone : (run l lost u chunk r after).outlet.sent.drop r.outlet.sent.length = [] := by
      rw [sent_run hsend, List.drop_length]
    refine iff_of_false ?_ hsend
    rintro ⟨packet, hin, -⟩
    rw [hrun, hnone] at hin
    cases hin

lemma run_telling (l : Link) (lost : Failures) (u : PeerUpdate) (chunk : FactChunk) (o : Outlet) :
    (run l lost u chunk { outlet := o } Act.telling).outlet = (sendFacts l lost u.publicKey chunk o).2 ∧
      ∀ n, (sendFacts l lost u.publicKey chunk o).1 = .ok n ↔
        ∃ included, (run l lost u chunk { outlet := o } Act.telling).phase = .told included n := by
  cases hs : select l o.state.knowledge u.publicKey chunk with
  | error e => simp [run, Act.telling, step, sendFacts, knowledge, hs]
  | ok selection =>
    obtain ⟨packing, included⟩ := selection
    obtain ⟨packets, signer, nonces, hsigned⟩ : ∃ packets signer nonces,
      packing.signedGroups o.signer o.nonces u.publicKey = (packets, signer, nonces) := ⟨_, _, _, rfl⟩
    obtain ⟨result, sent, hd⟩ : ∃ result sent,
      deliver lost u.publicKey chunk.now packets o.sent = (result, sent) := ⟨_, _, rfl⟩
    cases result <;> simp [run, Act.telling, step, sendFacts, knowledge, hs, hsigned, hd]

lemma run_moving {p : DevicePeer} {facts : List Fact} {allow : Bool} {now : Instant} {o : Outlet} {e : SocketAddr}
    (he : (configuration l p facts allow now o.state).endpoint = some e) (lost : Failures)
    (chunk : FactChunk) :
    (run l lost (configuration l p facts allow now o.state) chunk
      { outlet := { o with state := { o.state with
          states := (rotate l p facts now o.state).2.states } } } Act.moving).outlet =
      { o with state := configurePeer l p facts allow now o.state } := by
  have hkey := (Reconcile.configuration_configures l p facts allow now o.state).publicKey
  have hasked : (configuration l p facts allow now o.state).isNoop = false := by
    simp [PeerUpdate.isNoop, he]
  obtain ⟨st, hmoves⟩ := Reconcile.moves_of_rotate (Option.eq_some_of_filter_eq_some he)
  rw [Reconcile.configurePeer_eq, Reconcile.apply, hasked, hmoves.recorded, ← hkey]
  rfl

end

end Race

/-- Whatever the order in which a peer is moved and told, it is told at its new endpoint just if the packets went out
after the move, and passes for one that knows just if that was noted after it was forgotten. -/
theorem reprobed_iff {l : Link} (lost : Failures) {p : DevicePeer} {facts : List Fact} {allow : Bool}
    {chunk : FactChunk} {o : Outlet} {e : SocketAddr} {f : Fact} {acts : List Act}
    (he : (configuration l p facts allow chunk.now o.state).endpoint = some e)
    (ha : ownAlive l.self chunk.facts = some f) (hi : Act.Interleaving acts) :
    let k := p.publicKey
    let u := configuration l p facts allow chunk.now o.state
    let rotated : Outlet := { o with state := { o.state with states := (rotate l p facts chunk.now o.state).2.states } }
    let start : Race := { outlet := rotated }
    let after := start.run l lost u chunk acts
    (start.run l lost u chunk Act.moving).outlet.state = configurePeer l p facts allow chunk.now o.state ∧
      (start.run l lost u chunk Act.telling).outlet = (sendFacts l lost k chunk rotated).2 ∧
      (after.knowledge.peerKnows k f Clock.alivePeriod = true ↔ after.Tells f ∧ [.ping, .note].Sublist acts) ∧
      (after.Tells f → (start.Reprobes l lost u chunk acts f ↔ [.move, .send].Sublist acts)) := by
  intro k u rotated start after
  have hkey : u.publicKey = k := (Reconcile.configuration_configures l p facts allow chunk.now o.state).publicKey
  refine ⟨by rw [Race.run_moving he], hkey ▸ (Race.run_telling l lost u chunk rotated).1, ?_, ?_⟩
  · rw [← hkey]
    exact Race.knows_run_iff ha hi rotated Clock.alivePeriod
  · exact Race.reprobes_iff hi rotated

/-- Moved first, the peer is told at its new endpoint. Told before it is moved, it is told at the old one only. -/
theorem reprobed_in_two_orders :
    let k : PublicKey := ⟨.ofNatLE 32 1⟩
    let first : SocketAddr := .v4 0xc0000201 51820
    let second : SocketAddr := .v4 0xc0000202 51820
    let signer : Signer := .ofPair (.ofPrivate ⟨.ofNatLE 32 8⟩)
    let l : Link :=
      { config := { iface := "wg0", peers := .ofList [(k, { endpoints := ["peer"] })] }, self := signer.publicKey,
        bootId := .zero 16, started := 0, resolve := fun _ => [first, second] }
    let p : DevicePeer := { publicKey := k, endpoint := some first }
    let own : Fact := .alive l.self l.bootId 255000000000
    let chunk : FactChunk := ⟨[own], 0, false, false⟩
    let lost : Failures := fun _ _ => false
    let o : Outlet :=
      { state :=
          { device := { state := ⟨"wg0", default, 51820, [p]⟩ }, states := PeerStates.update .empty p none none 0 }
        signer := signer
        nonces := default }
    let u := configuration l p [] true chunk.now o.state
    let rotated : Outlet := { o with state := { o.state with states := (rotate l p [] chunk.now o.state).2.states } }
    let start : Race := { outlet := rotated }
    let apart : List Act := [.ping, .move, .pack, .send, .note]
    let meanwhile : List Act := [.ping, .pack, .send, .note, .move]
    u.endpoint = some second ∧
      (start.run l lost u chunk apart).knowledge.peerKnows k own Clock.alivePeriod = true ∧
      start.Reprobes l lost u chunk apart own ∧
      (start.run l lost u chunk meanwhile).knowledge.peerKnows k own Clock.alivePeriod = true ∧
      ¬ start.Reprobes l lost u chunk meanwhile own := by
  intro k first second signer l p own chunk lost o u rotated start apart meanwhile
  have hmove : u.endpoint = some second := by decide +kernel
  have hown : ownAlive l.self chunk.facts = some own := by decide +kernel
  obtain ⟨-, -, hknows, hreprobes⟩ :=
    reprobed_iff lost hmove hown (by decide : Act.Interleaving apart)
  obtain ⟨-, -, hknows', hreprobes'⟩ :=
    reprobed_iff lost hmove hown (by decide : Act.Interleaving meanwhile)
  have happart : (start.run l lost u chunk apart).knowledge.peerKnows k own Clock.alivePeriod = true := by
    decide +kernel
  have hmeanwhile : (start.run l lost u chunk meanwhile).knowledge.peerKnows k own Clock.alivePeriod = true := by
    decide +kernel
  refine ⟨hmove, happart, ?_, hmeanwhile, ?_⟩
  · exact (hreprobes (hknows.mp happart).1).mpr (by decide)
  · exact fun h => absurd ((hreprobes' (hknows'.mp hmeanwhile).1).mp h) (by decide)

/-- A moved peer may pass for one that knows this node alive without being told at its new endpoint. -/
theorem knows_without_reprobe :
    ¬ ∀ (l : Link) (lost : Failures) (p : DevicePeer) (facts : List Fact) (allow : Bool) (chunk : FactChunk)
      (o : Outlet) (e : SocketAddr) (f : Fact) (acts : List Act),
      (configuration l p facts allow chunk.now o.state).endpoint = some e →
      ownAlive l.self chunk.facts = some f → Act.Interleaving acts →
      let k := p.publicKey
      let u := configuration l p facts allow chunk.now o.state
      let rotated : Outlet := { o with state := { o.state with states := (rotate l p facts chunk.now o.state).2.states } }
      let start : Race := { outlet := rotated }
      (start.run l lost u chunk acts).knowledge.peerKnows k f Clock.alivePeriod = true →
        start.Reprobes l lost u chunk acts f := by
  intro hall
  let k : PublicKey := ⟨.ofNatLE 32 1⟩
  let first : SocketAddr := .v4 0xc0000201 51820
  let second : SocketAddr := .v4 0xc0000202 51820
  let l : Link :=
    { config := { iface := "wg0", peers := .ofList [(k, { endpoints := ["peer"] })] }, self := ⟨.ofNatLE 32 2⟩,
      bootId := .zero 16, started := 0, resolve := fun _ => [first, second] }
  let p : DevicePeer := { publicKey := k, endpoint := some first }
  let own : Fact := .alive l.self l.bootId 255000000000
  let chunk : FactChunk := ⟨[own], 0, false, false⟩
  let lost : Failures := fun _ _ => false
  let s : LinkState :=
    { device := { state := ⟨"wg0", default, 51820, [p]⟩ }, states := PeerStates.update .empty p none none 0 }
  let o : Outlet := { (default : Outlet) with state := s }
  let meanwhile : List Act := [.ping, .pack, .send, .note, .move]
  obtain ⟨packet, hin, -⟩ := hall l lost p [] true chunk o second own meanwhile (by decide +kernel) (by decide +kernel)
    (by decide) (by decide +kernel)
  have hnone : Race.sentAfter l lost (configuration l p [] true chunk.now o.state) chunk
      { outlet := { o with state := { s with states := (rotate l p [] chunk.now s).2.states } } } meanwhile .move = [] :=
    List.drop_length
  rw [hnone] at hin
  cases hin

end Broadcast

end MeshFacts
