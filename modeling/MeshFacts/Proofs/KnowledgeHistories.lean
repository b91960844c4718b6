import MeshFacts.Proofs.Standing

/-! # Histories of knowledge
Until when a peer knows a fact follows from the history alone: it is the latest end that was recorded for the two
since whatever happened last that erased the entry. -/
namespace MeshFacts.Knowledge

inductive Event where
  | received (f : Fact) (source : PublicKey)
  | sent (peer : PublicKey) (f : Fact)
  | expire (now : Instant)
  | forcePing (self peer : PublicKey)
  | forget (peer : PublicKey)
deriving DecidableEq

namespace Event

def apply (k : Knowledge) : Event → Knowledge
  | received f source => (k.received f source).2
  | sent peer f => (k.sent peer f).2
  | expire now => (k.expire now).2
  | forcePing self peer => (k.forcePing self peer).2
  | forget peer => k.forget peer

def peer? : Event → Option PublicKey
  | received _ source => some source
  | sent peer _ => some peer
  | expire _ => none
  | forcePing _ peer => some peer
  | forget peer => some peer

/-- The event tells that a peer knows the fact of a key until some instant. -/
inductive Records : Event → FactKey → PublicKey → Instant → Prop
  | received (f : Fact) (source : PublicKey) : Records (.received f source) f.key source f.expires
  | sent (peer : PublicKey) (f : Fact) : Records (.sent peer f) f.key peer f.expires

def announces? (peer : PublicKey) : Event → Option Uuid
  | received f source => if source = peer ∧ f.subject = peer then f.bootId? else none
  | _ => none

end Event

def after (h : List Event) : Knowledge := h.foldl Event.apply empty

/-- The start that a peer last told of itself since it was last forgotten. -/
def announced? (h : List Event) (peer : PublicKey) : Option Uuid :=
  (h.reverse.takeWhile fun e => e ≠ .forget peer).findSome? (Event.announces? peer)

/-- What erases, after a history, what is known of a fact and a peer. -/
inductive Event.Erases (h : List Event) (key : FactKey) (peer : PublicKey) : Event → Prop
  | forgotten : Erases h key peer (.forget peer)
  | pinged {self : PublicKey} (hk : key = .alive self) : Erases h key peer (.forcePing self peer)
  | ended {now t : Instant} (ht : (after h).until? key peer = some t) (hn : t ≤ now) : Erases h key peer (.expire now)
  | restarted {e : Event} {previous id : Uuid} (hp : announced? h peer = some previous)
      (he : e.announces? peer = some id) (hne : id ≠ previous) : Erases h key peer e

/-- The history records the end, and nothing erases it later. -/
def Stands (h : List Event) (key : FactKey) (peer : PublicKey) (t : Instant) : Prop :=
  ∃ before e later, h = before ++ e :: later ∧ e.Records key peer t ∧
    ∀ between x rest, later = between ++ x :: rest → ¬ x.Erases (before ++ e :: between) key peer

variable {h : List Event} {e : Event} {k : Knowledge} {key key' : FactKey} {peer other : PublicKey} {t : Instant}

lemma after_append (h : List Event) (e : Event) : after (h ++ [e]) = e.apply (after h) := by
  rw [after, List.foldl_append]
  rfl

/-- What stands after one more event is what the event records, and what stood before unless it is erased. -/
lemma stands_append : Stands (h ++ [e]) key peer t ↔
    e.Records key peer t ∨ ¬ e.Erases h key peer ∧ Stands h key peer t := by
  constructor
  · rintro ⟨before, x, later, heq, hx, hlater⟩
    rcases List.eq_nil_or_concat later with rfl | ⟨later, y, rfl⟩
    · obtain ⟨-, hxe⟩ := List.append_inj' heq rfl
      obtain rfl := (List.cons.inj hxe).1
      exact .inl hx
    · rw [List.concat_eq_append, ← List.cons_append, ← List.append_assoc] at heq
      obtain ⟨rfl, hye⟩ := List.append_inj' heq rfl
      obtain rfl := (List.cons.inj hye).1
      refine .inr ⟨hlater later e [] (by simp), before, x, later, rfl, hx, fun between y rest hy => ?_⟩
      exact hlater between y (rest ++ [e]) (by simp [hy])
  · rintro (he | ⟨hkeep, before, x, later, rfl, hx, hlater⟩)
    · exact ⟨h, e, [], rfl, he, by simp⟩
    · refine ⟨before, x, later ++ [e], by simp, hx, fun between y rest hy => ?_⟩
      rcases List.eq_nil_or_concat rest with rfl | ⟨rest, z, rfl⟩
      · obtain ⟨rfl, hye⟩ := List.append_inj' hy rfl
        obtain rfl := (List.cons.inj hye).1
        exact hkeep
      · rw [List.concat_eq_append, ← List.cons_append, ← List.append_assoc] at hy
        exact hlater between y rest (List.append_inj' hy rfl).1

/-! ## One event -/

lemma until?_note_self (k : Knowledge) (key : FactKey) (peer : PublicKey) (t : Instant) :
    (k.note key peer t).2.until? key peer = some ((k.until? key peer).elim t (max t)) := by
  have hinsert : ∀ b, ({ k with entries := k.entries.insert (key, peer) t, bootIds := b } : Knowledge).until? key peer =
      some t := fun b => (Table.find?_insert _ _ _ _).trans (if_pos rfl)
  unfold note
  cases hk : k.until? key peer with
  | none => exact hinsert _
  | some known =>
    dsimp only [Option.elim_some]
    split_ifs with hle
    · rw [hk, max_eq_right hle]
    · rw [hinsert, max_eq_left (not_le.mp hle).le]

lemma until?_note_of_ne (h : ¬ (key = key' ∧ peer = other)) (k : Knowledge) (t : Instant) :
    (k.note key' other t).2.until? key peer = k.until? key peer := by
  have hinsert : ∀ b, ({ k with entries := k.entries.insert (key', other) t, bootIds := b } : Knowledge).until? key peer =
      k.until? key peer := fun b => (Table.find?_insert _ _ _ _).trans (if_neg (by simpa using h))
  unfold note
  cases hk : k.until? key' other with
  | none => exact hinsert _
  | some known =>
    dsimp only
    split_ifs
    · rfl
    · exact hinsert _

lemma bootId?_note (k : Knowledge) (key : FactKey) (peer : PublicKey) (t : Instant) (other : PublicKey) :
    (k.note key peer t).2.bootId? other = k.bootId? other := by
  unfold note
  split
  · split_ifs <;> rfl
  · rfl

lemma until?_dropEntries (k : Knowledge) (other : PublicKey) (key : FactKey) (peer : PublicKey) :
    (k.dropEntries other).until? key peer = if peer = other then none else k.until? key peer := by
  have hfilter : (k.dropEntries other).until? key peer =
      (k.until? key peer).filter fun _ => decide (peer ≠ other) := Table.find?_filter _ _ _
  rw [hfilter]
  cases k.until? key peer with
  | none => simp
  | some t => split_ifs with h <;> simp [h]

/-- A start that differs from the one told of before erases what its peer knows. -/
lemma until?_noteBoot (k : Knowledge) (source : PublicKey) (id : Uuid) (key : FactKey) (peer : PublicKey) :
    (k.noteBoot source id).until? key peer =
      if peer = source ∧ ∃ previous, k.bootId? source = some previous ∧ previous ≠ id then none
      else k.until? key peer := by
  unfold noteBoot
  have hrestarted : ((k.bootIds.find? source).any fun previous => previous ≠ id) = true ↔
      ∃ previous, k.bootId? source = some previous ∧ previous ≠ id := by
    rw [Option.any_eq_true]
    simp [bootId?]
  dsimp only
  split_ifs with hr hboth hboth
  · rw [until?_dropEntries, if_pos hboth.1]
  · rw [until?_dropEntries, if_neg fun heq => hboth ⟨heq, hrestarted.mp hr⟩]
    rfl
  · exact absurd (hrestarted.mpr hboth.2) hr
  · rfl

lemma bootId?_noteBoot (k : Knowledge) (source : PublicKey) (id : Uuid) (peer : PublicKey) :
    (k.noteBoot source id).bootId? peer = if peer = source then some id else k.bootId? peer := by
  unfold noteBoot
  dsimp only
  split_ifs <;> simp_all [bootId?, dropEntries, Table.find?_insert]

def heard (k : Knowledge) (f : Fact) (source : PublicKey) : Knowledge :=
  match f.bootId? with
  | some id => if f.subject = source then k.noteBoot source id else k
  | none => k

lemma received_eq (k : Knowledge) (f : Fact) (source : PublicKey) :
    k.received f source = (k.heard f source).note f.key source f.expires := rfl

lemma announces?_eq_some_iff {f : Fact} {source : PublicKey} {id : Uuid} :
    (Event.received f source).announces? peer = some id ↔ source = peer ∧ f.subject = peer ∧ f.bootId? = some id := by
  simp only [Event.announces?, Option.ite_none_right_eq_some, and_assoc]

lemma until?_heard_of_restart {f : Fact} {source : PublicKey} {previous id : Uuid}
    (hp : k.bootId? peer = some previous) (he : (Event.received f source).announces? peer = some id)
    (hne : id ≠ previous) (key : FactKey) : (k.heard f source).until? key peer = none := by
  obtain ⟨rfl, hsubject, hid⟩ := announces?_eq_some_iff.mp he
  simp only [heard, hid, if_pos hsubject]
  rw [until?_noteBoot, if_pos ⟨rfl, previous, hp, hne.symm⟩]

lemma until?_heard_of_not_restart {f : Fact} {source : PublicKey}
    (h : ∀ previous id, k.bootId? peer = some previous → (Event.received f source).announces? peer = some id →
      id = previous) (key : FactKey) : (k.heard f source).until? key peer = k.until? key peer := by
  simp only [announces?_eq_some_iff] at h
  unfold heard
  split
  · rename_i id hid
    split_ifs with hsubject
    · rw [until?_noteBoot, if_neg]
      rintro ⟨rfl, previous, hp, hne⟩
      exact hne (h previous id hp ⟨rfl, hsubject, hid⟩).symm
    · rfl
  · rfl

lemma bootId?_heard (k : Knowledge) (f : Fact) (source peer : PublicKey) :
    (k.heard f source).bootId? peer = ((Event.received f source).announces? peer).or (k.bootId? peer) := by
  unfold heard
  cases hid : f.bootId? with
  | none => simp [Event.announces?, hid]
  | some id =>
    simp only [Event.announces?, hid]
    split_ifs with hsubject hboth hboth
    · rw [bootId?_noteBoot, if_pos hboth.1.symm, Option.some_or]
    · rw [bootId?_noteBoot, if_neg fun heq => hboth ⟨heq.symm, hsubject.trans heq.symm⟩, Option.none_or]
    · exact absurd (hboth.2.trans hboth.1.symm) hsubject
    · rfl

lemma announced?_append (h : List Event) (e : Event) (peer : PublicKey) : announced? (h ++ [e]) peer =
    if e = .forget peer then none else (e.announces? peer).or (announced? h peer) := by
  unfold announced?
  rw [List.reverse_append, List.reverse_singleton, List.singleton_append]
  by_cases he : e = .forget peer
  · rw [if_pos he, List.takeWhile_cons_of_neg (by simp [he]), List.findSome?_nil]
  · rw [if_neg he, List.takeWhile_cons_of_pos (by simp [he]), List.findSome?_cons]
    cases e.announces? peer <;> rfl

lemma bootId?_after (h : List Event) (peer : PublicKey) : (after h).bootId? peer = announced? h peer := by
  induction h using List.reverseRecOn with
  | nil => rfl
  | append_singleton h e ih =>
    rw [after_append, announced?_append, ← ih]
    cases e with
    | received f source => simp [Event.apply, received_eq, bootId?_note, bootId?_heard]
    | sent other f => simp [Event.apply, sent, bootId?_note, Event.announces?]
    | expire now => rfl
    | forcePing self other => rfl
    | forget other =>
      have hforget : ((after h).forget other).bootId? peer = if peer = other then none else (after h).bootId? peer :=
        Table.find?_erase _ _ _
      simp only [Event.apply, hforget, Event.announces?, Event.forget.injEq, Option.none_or, eq_comm]

lemma until?_expire (k : Knowledge) (now : Instant) (key : FactKey) (peer : PublicKey) :
    (k.expire now).2.until? key peer = (k.until? key peer).filter fun t => decide (now < t) :=
  Table.find?_filter _ _ _

lemma until?_forcePing (k : Knowledge) (self other : PublicKey) (key : FactKey) (peer : PublicKey) :
    (k.forcePing self other).2.until? key peer =
      if (key, peer) = (.alive self, other) then none else k.until? key peer :=
  Table.find?_erase _ _ _

lemma until?_forget (k : Knowledge) (other : PublicKey) (key : FactKey) (peer : PublicKey) :
    (k.forget other).until? key peer = if peer = other then none else k.until? key peer :=
  until?_dropEntries k other key peer

def Event.clear (k : Knowledge) : Event → Knowledge
  | received f source => k.heard f source
  | sent _ _ => k
  | expire now => (k.expire now).2
  | forcePing self peer => (k.forcePing self peer).2
  | forget peer => k.forget peer

lemma until?_apply_of_records (ht : e.Records key peer t) (k : Knowledge) :
    (e.apply k).until? key peer = some (((e.clear k).until? key peer).elim t (max t)) := by
  cases ht with
  | received f => exact until?_note_self ..
  | sent f => exact until?_note_self ..

lemma until?_apply_of_not_records (hnot : ∀ t, ¬ e.Records key peer t) (k : Knowledge) :
    (e.apply k).until? key peer = (e.clear k).until? key peer := by
  cases e with
  | received f source =>
    exact until?_note_of_ne (by rintro ⟨rfl, rfl⟩; exact hnot _ (.received ..)) _ _
  | sent other f => exact until?_note_of_ne (by rintro ⟨rfl, rfl⟩; exact hnot _ (.sent ..)) _ _
  | expire | forcePing | forget => rfl

lemma until?_clear_of_erases (he : e.Erases h key peer) : (e.clear (after h)).until? key peer = none := by
  cases he with
  | forgotten => rw [Event.clear, until?_forget, if_pos rfl]
  | pinged hk => rw [Event.clear, until?_forcePing, if_pos (by rw [hk])]
  | ended ht hn => rw [Event.clear, until?_expire, ht, Option.filter_some_neg (by simpa using hn)]
  | restarted hp he hne =>
    rw [← bootId?_after] at hp
    cases e with
    | received f source => exact until?_heard_of_restart hp he hne key
    | sent | expire | forcePing | forget => cases he

lemma until?_clear_of_not_erases (he : ¬ e.Erases h key peer) :
    (e.clear (after h)).until? key peer = (after h).until? key peer := by
  cases e with
  | received f source =>
    refine until?_heard_of_not_restart (fun previous id hp hid => ?_) key
    rw [bootId?_after] at hp
    exact not_not.mp fun hne => he (.restarted hp hid hne)
  | sent => rfl
  | expire now =>
    rw [Event.clear, until?_expire]
    cases ht : (after h).until? key peer with
    | none => rfl
    | some t => exact Option.filter_some_pos (by simpa using fun hn => he (.ended ht hn))
  | forcePing self other =>
    rw [Event.clear, until?_forcePing, if_neg]
    rintro ⟨⟩
    exact he (.pinged rfl)
  | forget other =>
    rw [Event.clear, until?_forget, if_neg]
    rintro rfl
    exact he .forgotten

lemma Event.Records.unique {t u : Instant} (ht : e.Records key peer t) (hu : e.Records key peer u) : u = t := by
  cases ht <;> cases hu <;> rfl

lemma Event.Records.peer?_eq (ht : e.Records key peer t) : e.peer? = some peer := by
  cases ht <;> rfl

lemma Event.Erases.peer?_eq (he : e.Erases h key peer) (hn : e.peer? = some other) : other = peer := by
  cases he with
  | forgotten => exact (Option.some.inj hn).symm
  | pinged => exact (Option.some.inj hn).symm
  | ended => cases hn
  | restarted hp he =>
    cases e with
    | received f source => exact (Option.some.inj hn).symm.trans (announces?_eq_some_iff.mp he).1
    | sent | expire | forcePing | forget => cases he

/-- A fact that tells of a start is kept under the one key that says that its subject is alive. -/
lemma key_of_bootId? {f : Fact} {id : Uuid} (h : f.bootId? = some id) : f.key = .alive f.subject := by
  unfold Fact.bootId? at h
  split at h
  · split_ifs at h with hkind
    simp [Fact.key, hkind, FactKey.alive]
  · cases h

/-! ## Whole histories -/

/-- An entry is the latest of the ends that stand, and there is one as soon as any end stands. -/
lemma tracks_after (h : List Event) (key : FactKey) (peer : PublicKey) :
    ((after h).until? key peer = none ∧ ∀ t, ¬ Stands h key peer t) ∨
      ∃ t, (after h).until? key peer = some t ∧ IsGreatest {t | Stands h key peer t} t := by
  induction h using List.reverseRecOn with
  | nil =>
    refine .inl ⟨rfl, ?_⟩
    rintro t ⟨before, e, later, heq, -⟩
    simp at heq
  | append_singleton h e ih =>
    have hkept : ((e.clear (after h)).until? key peer = none ∧ ∀ t, ¬ (¬ e.Erases h key peer ∧ Stands h key peer t)) ∨
        ∃ t, (e.clear (after h)).until? key peer = some t ∧
          IsGreatest {t | ¬ e.Erases h key peer ∧ Stands h key peer t} t := by
      by_cases he : e.Erases h key peer
      · exact .inl ⟨until?_clear_of_erases he, fun t ht => ht.1 he⟩
      · simpa only [until?_clear_of_not_erases he, he, not_false_eq_true, true_and] using ih
    rw [after_append]
    simp only [stands_append]
    by_cases hrecords : ∃ t, e.Records key peer t
    · obtain ⟨t, ht⟩ := hrecords
      refine .inr ⟨_, until?_apply_of_records ht _, ?_⟩
      rcases hkept with ⟨hnone, hstands⟩ | ⟨u, hu, hgreatest⟩
      · rw [hnone]
        refine ⟨.inl ht, ?_⟩
        rintro v (hv | hv)
        · exact (ht.unique hv).le
        · exact absurd hv (hstands v)
      · rw [hu, Option.elim_some]
        constructor
        · rcases max_choice t u with hmax | hmax <;> rw [hmax]
          · exact .inl ht
          · exact .inr hgreatest.1
        · rintro v (hv | hv)
          · exact (ht.unique hv).le.trans (le_max_left _ _)
          · exact (hgreatest.2 hv).trans (le_max_right _ _)
    · rw [not_exists] at hrecords
      simpa only [until?_apply_of_not_records hrecords, hrecords, false_or] using hkept

/-- Until when a peer knows a fact is the latest end recorded for the two since an event last erased the entry. An
event that names one peer leaves all others as they were. -/
theorem entries_of_history (h : List Event) (key : FactKey) (peer : PublicKey) :
    (∀ t, (after h).until? key peer = some t ↔ IsGreatest {t | Stands h key peer t} t) ∧
      ((after h).until? key peer = none ↔ ∀ t, ¬ Stands h key peer t) ∧
      (∀ e other, e.peer? = some other → other ≠ peer →
        (after (h ++ [e])).until? key peer = (after h).until? key peer) ∧
      ∀ f previous id, announced? h peer = some previous → (Event.received f peer).announces? peer = some id →
        id ≠ previous → (after (h ++ [.received f peer])).until? key peer =
          if key = .alive peer then some f.expires else none := by
  refine ⟨fun t => ?_, ?_, fun e other he hne => ?_, fun f previous id hp hid hne => ?_⟩
  · rcases tracks_after h key peer with ⟨hnone, hstands⟩ | ⟨u, hu, hgreatest⟩
    · simp only [hnone, reduceCtorEq, false_iff]
      exact fun hgreatest => hstands t hgreatest.1
    · rw [hu, Option.some_inj]
      exact ⟨fun heq => heq ▸ hgreatest, fun ht => hgreatest.unique ht⟩
  · rcases tracks_after h key peer with ⟨hnone, hstands⟩ | ⟨u, hu, hgreatest⟩
    · exact ⟨fun _ => hstands, fun _ => hnone⟩
    · simp only [hu, reduceCtorEq, false_iff, not_forall, not_not]
      exact ⟨u, hgreatest.1⟩
  · rw [after_append, until?_apply_of_not_records, until?_clear_of_not_erases]
    · exact fun herases => hne (herases.peer?_eq he)
    · exact fun t ht => hne (Option.some.inj (he.symm.trans ht.peer?_eq))
  · obtain ⟨-, hsubject, hboot⟩ := announces?_eq_some_iff.mp hid
    have hkey : f.key = .alive peer := hsubject ▸ key_of_bootId? hboot
    have hcleared : ((Event.received f peer).clear (after h)).until? key peer = none :=
      until?_clear_of_erases (.restarted hp hid hne)
    rw [after_append]
    split_ifs with heq
    · have hrecords : (Event.received f peer).Records key peer f.expires := by
        rw [heq, ← hkey]
        exact .received f peer
      rw [until?_apply_of_records hrecords, hcleared, Option.elim_none]
    · rw [until?_apply_of_not_records, hcleared]
      rintro t ⟨⟩
      exact heq hkey

/-- A peer that knows of a member starts again, in the middle of which another is told of a member. -/
theorem entries_of_history_restart :
    let peer : PublicKey := ⟨.ofNatLE 32 1⟩
    let other : PublicKey := ⟨.ofNatLE 32 2⟩
    let member : Fact := .membership ⟨.ofNatLE 32 3⟩ 60
    let restarted : Fact := .alive peer (.ofNatLE 16 2) 90
    let h : List Event := [.received (.alive peer (.ofNatLE 16 1) 50) peer, .sent peer member, .expire 50,
      .sent other (member.withExpires 70), .sent peer (member.withExpires 40)]
    IsGreatest {t | Stands h member.key peer t} 60 ∧ (∀ t, ¬ Stands h (.alive peer) peer t) ∧
      (after (h ++ [.forget other])).until? member.key peer = (after h).until? member.key peer ∧
      (after (h ++ [.received restarted peer])).until? member.key peer = none ∧
      (after (h ++ [.received restarted peer])).until? (.alive peer) peer = some 90 := by
  intro peer other member restarted h
  obtain ⟨hknown, -, hothers, hrestart⟩ := entries_of_history h member.key peer
  obtain ⟨-, hended, -, hrestart'⟩ := entries_of_history h (.alive peer) peer
  have hp : announced? h peer = some (.ofNatLE 16 1) := by decide +kernel
  have hid : (Event.received restarted peer).announces? peer = some (.ofNatLE 16 2) := by decide +kernel
  have hne : (.ofNatLE 16 2 : Uuid) ≠ .ofNatLE 16 1 := by decide +kernel
  refine ⟨(hknown 60).mp (by decide +kernel), hended.mp (by decide +kernel),
    hothers (.forget other) other rfl (by decide +kernel), ?_, hrestart' restarted _ _ hp hid hne⟩
  rw [hrestart restarted _ _ hp hid hne, if_neg (by decide +kernel)]

end MeshFacts.Knowledge
