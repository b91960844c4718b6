import MeshFacts.Proofs.Observations
import MeshFacts.Proofs.PeerSteps
import MeshFacts.Proofs.RefusedMoves

/-! # Turns of endpoints
A peer that does not work is moved through its endpoints in turn, and back to none before it has been at all others. Each
choice makes its endpoint the one used last, and each later pass that sees the peer there does so again. What carries a
run of passes is a ranking: of any number of endpoints chosen last, each was used later than every other one. -/
namespace MeshFacts

structure Choice where
  time : Instant
  endpoint : SocketAddr
deriving DecidableEq

namespace PeerState
variable {candidates : List SocketAddr} {s : PeerState} {row : List Observation} {o : Observation} {e : SocketAddr}
  {now : Instant}

/-- One pass over a peer: it is observed, and moved if its endpoint has had its time. -/
def turn (candidates : List SocketAddr) (s : PeerState) (o : Observation) : Option SocketAddr × PeerState :=
  (s.observe o).rotated candidates o.time

/-- A row of passes over a peer: the endpoints chosen, and the history in the end. -/
def turns (candidates : List SocketAddr) (s : PeerState) (row : List Observation) : List Choice × PeerState :=
  row.foldl (fun r o => (r.1 ++ ((r.2.turn candidates o).1.map (Choice.mk o.time)).toList, (r.2.turn candidates o).2))
    ([], s)

lemma turns_concat (candidates : List SocketAddr) (s : PeerState) (row : List Observation) (o : Observation) :
    s.turns candidates (row ++ [o]) =
      ((s.turns candidates row).1 ++
        (((s.turns candidates row).2.turn candidates o).1.map (Choice.mk o.time)).toList,
        ((s.turns candidates row).2.turn candidates o).2) := by
  rw [turns, List.foldl_append]
  rfl

/-- What a pass chooses is the candidate left unused longest, in its time. -/
lemma turn_eq_some (h : (s.turn candidates o).1 = some e) :
    (s.observe o).timeForNextEndpoint o.time = true ∧ e ∈ candidates.argmin (s.observe o).lastUse ∧
      (s.turn candidates o).2 = (s.observe o).moved e o.time := by
  unfold turn rotated at h ⊢
  split_ifs at h ⊢ with hdue
  rw [nextEndpoint, leastRecent?_eq_argmin] at h ⊢
  cases hbest : candidates.argmin (s.observe o).lastUse with
  | none => simp [hbest] at h
  | some best =>
    simp only [hbest] at h ⊢
    obtain rfl : best = e := Option.some.inj h
    exact ⟨hdue, rfl, rfl⟩

lemma turn_eq_none (h : (s.turn candidates o).1 = none) : (s.turn candidates o).2 = s.observe o := by
  unfold turn rotated nextEndpoint at h ⊢
  split_ifs at h ⊢ with hdue
  · cases hbest : (s.observe o).leastRecent? candidates with
    | none => rfl
    | some best => simp [hbest] at h
  · rfl

/-- With one more pass there are no more choices than before, or one by the rule more. -/
lemma turns_concat_cases (candidates : List SocketAddr) (s : PeerState) (row : List Observation) (o : Observation) :
    s.turns candidates (row ++ [o]) =
        ((s.turns candidates row).1, (s.turns candidates row).2.observe o) ∨
      ∃ e, ((s.turns candidates row).2.observe o).timeForNextEndpoint o.time = true ∧
        e ∈ candidates.argmin ((s.turns candidates row).2.observe o).lastUse ∧
        s.turns candidates (row ++ [o]) =
          ((s.turns candidates row).1 ++ [⟨o.time, e⟩], ((s.turns candidates row).2.observe o).moved e o.time) := by
  rw [turns_concat]
  cases hturn : ((s.turns candidates row).2.turn candidates o).1 with
  | none =>
    left
    simp [turn_eq_none hturn]
  | some e =>
    obtain ⟨hdue, he, hmoved⟩ := turn_eq_some hturn
    exact .inr ⟨e, hdue, he, by simp [hmoved]⟩

lemma lastUse_observe (s : PeerState) (o : Observation) (e : SocketAddr) :
    (s.observe o).lastUse e = if o.peer.endpoint = some e then (o.time : WithBot Instant) else s.lastUse e := by
  unfold observe update lastUse
  cases o.peer.endpoint with
  | none => simp
  | some f =>
    simp only [Table.find?_insert, Option.some.injEq, eq_comm (a := e)]
    split_ifs <;> rfl

/-- Of any number of endpoints chosen last, the newest first, each was used later than every other endpoint. -/
structure Ranked (s : PeerState) (now : Instant) (recent : List SocketAddr) : Prop where
  le : ∀ e, s.lastUse e ≤ now
  lt : ∀ r, r <+: recent → ∀ w ∈ r, ∀ x, x ∉ r → s.lastUse x < s.lastUse w

/-- The same but for the newest, which may not have been seen in use yet. -/
def RankedBehind (s : PeerState) (recent : List SocketAddr) : Prop :=
  ∀ c older, recent = c :: older → ∀ r, r <+: older → ∀ w ∈ r, ∀ x, x ∉ c :: r → s.lastUse x < s.lastUse w

variable {recent : List SocketAddr}

lemma Ranked.behind (h : s.Ranked now recent) : s.RankedBehind recent := by
  rintro c older rfl r hr w hw x hx
  exact h.lt (c :: r) (List.cons_prefix_cons.mpr ⟨rfl, hr⟩) w (List.mem_cons_of_mem c hw) x hx

lemma RankedBehind.observe (h : s.RankedBehind recent) (hlt : ∀ e, s.lastUse e < (o.time : WithBot Instant))
    (hseen : ∀ c ∈ recent.head?, o.peer.endpoint = some c) : (s.observe o).Ranked o.time recent := by
  refine ⟨fun e => ?_, fun r hr w hw x hx => ?_⟩
  · rw [lastUse_observe]
    split_ifs
    · exact le_rfl
    · exact (hlt e).le
  · obtain ⟨c, r, rfl⟩ := List.exists_cons_of_ne_nil (List.ne_nil_of_mem hw)
    obtain ⟨older, rfl⟩ : ∃ older, recent = c :: older := by
      obtain ⟨rest, rfl⟩ := hr
      exact ⟨r ++ rest, rfl⟩
    have hc : o.peer.endpoint = some c := hseen c rfl
    have hxc : c ≠ x := fun hcx => hx (hcx ▸ List.mem_cons_self)
    rw [lastUse_observe, lastUse_observe, hc, if_neg (by simpa using hxc)]
    split_ifs with hwc
    · exact hlt x
    · have hwr : w ∈ r := (List.mem_cons.mp hw).resolve_left fun hwc' => hwc (by rw [hwc'])
      exact h c older rfl r (List.cons_prefix_cons.mp hr).2 w hwr x hx

lemma Ranked.moved (h : s.Ranked now recent) (e : SocketAddr) : (s.moved e now).RankedBehind (e :: recent) := by
  rintro c older hcons r hr w hw x hx
  obtain ⟨rfl, rfl⟩ := List.cons.inj hcons
  rw [List.mem_cons, not_or] at hx
  rw [lastUse_moved, lastUse_moved, if_neg hx.1]
  have hlt := h.lt r hr w hw x hx.2
  split_ifs with hwe
  · exact hlt.trans_le (h.le w)
  · exact hlt

/-- What has been left unused longest is none of the endpoints chosen last. -/
lemma Ranked.not_mem_of_argmin (h : s.Ranked now recent) (hd : candidates.Nodup)
    (he : e ∈ candidates.argmin s.lastUse) : e ∉ recent.take (candidates.length - 1) := by
  intro hmem
  have hpos : 0 < candidates.length := List.length_pos_of_mem (List.argmin_mem he)
  obtain ⟨x, hx, hout⟩ : ∃ x ∈ candidates, x ∉ recent.take (candidates.length - 1) := by
    by_contra hall
    push Not at hall
    have hle := (hd.subperm hall).length_le
    rw [List.length_take] at hle
    omega
  exact (h.lt _ (List.take_prefix _ _) e hmem x hout).not_ge (List.le_of_mem_argmin hx he)

/-- Passes in the order of time, each of which sees the peer at the endpoint that it was last moved to. -/
structure Orderly (candidates : List SocketAddr) (s : PeerState) (row : List Observation) : Prop where
  times : row.Pairwise fun a b => a.time < b.time
  later : ∀ o ∈ row, ∀ e u, s.lastUsed.find? e = some u → u < o.time
  follows : ∀ i (hi : i < row.length), ∀ c ∈ (s.turns candidates (row.take i)).1.getLast?,
    row[i].peer.endpoint = some c.endpoint

lemma Orderly.of_concat (h : s.Orderly candidates (row ++ [o])) : s.Orderly candidates row := by
  refine ⟨(List.pairwise_append.mp h.times).1, fun p hp => h.later p (List.mem_append_left _ hp), fun i hi c hc => ?_⟩
  have hfollows := h.follows i (by simp; omega) c
  rw [List.take_append_of_le_length hi.le, List.getElem_append_left hi] at hfollows
  exact hfollows hc

lemma Orderly.follows_last (h : s.Orderly candidates (row ++ [o])) {c : Choice}
    (hc : c ∈ (s.turns candidates row).1.getLast?) : o.peer.endpoint = some c.endpoint := by
  have hfollows := h.follows row.length (by simp) c
  rw [List.take_left, List.getElem_concat_length rfl] at hfollows
  exact hfollows hc

lemma lastUse_lt_iff {t : Instant} : s.lastUse e < (t : WithBot Instant) ↔ ∀ u, s.lastUsed.find? e = some u → u < t := by
  unfold lastUse
  cases s.lastUsed.find? e <;> simp

/-- At an instant after the passes and the uses on record all uses lie in the past. -/
lemma lastUse_turns_lt {t : Instant} (hs : ∀ e, s.lastUse e < (t : WithBot Instant)) (hrow : ∀ o ∈ row, o.time < t)
    (e : SocketAddr) : (s.turns candidates row).2.lastUse e < (t : WithBot Instant) := by
  induction row using List.reverseRecOn generalizing e with
  | nil => exact hs e
  | append_singleton row o ih =>
    have hbefore := ih fun p hp => hrow p (List.mem_append_left _ hp)
    have hnow : (o.time : WithBot Instant) < t := WithBot.coe_lt_coe.mpr (hrow o (by simp))
    have hseen : ∀ e, ((s.turns candidates row).2.observe o).lastUse e < (t : WithBot Instant) := by
      intro e
      rw [lastUse_observe]
      split_ifs
      · exact hnow
      · exact hbefore e
    rcases turns_concat_cases candidates s row o with hturn | ⟨best, -, -, hturn⟩ <;> rw [hturn]
    · exact hseen e
    · rw [lastUse_moved]
      split_ifs
      · exact hnow
      · exact hseen e

lemma Orderly.ranked (h : s.Orderly candidates (row ++ [o]))
    (hbehind : (s.turns candidates row).2.RankedBehind ((s.turns candidates row).1.map Choice.endpoint).reverse) :
    ((s.turns candidates row).2.observe o).Ranked o.time ((s.turns candidates row).1.map Choice.endpoint).reverse := by
  refine hbehind.observe (fun e => ?_) fun c hc => ?_
  · refine lastUse_turns_lt (fun e => lastUse_lt_iff.mpr (h.later o (by simp) e)) (fun p hp => ?_) e
    exact (List.pairwise_append.mp h.times).2.2 p hp o (by simp)
  · rw [List.head?_reverse, List.getLast?_map] at hc
    obtain ⟨choice, hchoice, rfl⟩ := Option.mem_map.mp hc
    exact h.follows_last hchoice

lemma Orderly.behind (h : s.Orderly candidates row) :
    (s.turns candidates row).2.RankedBehind ((s.turns candidates row).1.map Choice.endpoint).reverse := by
  induction row using List.reverseRecOn with
  | nil => rintro c older ⟨⟩
  | append_singleton row o ih =>
    have hranked := h.ranked (ih h.of_concat)
    rcases turns_concat_cases candidates s row o with hturn | ⟨e, -, -, hturn⟩ <;> rw [hturn]
    · exact hranked.behind
    · simpa using hranked.moved e

lemma Orderly.nodup_block (hd : candidates.Nodup) (h : s.Orderly candidates row) {block : List SocketAddr}
    (hb : block <:+: (s.turns candidates row).1.map Choice.endpoint) (hl : block.length ≤ candidates.length) :
    block.Nodup := by
  induction row using List.reverseRecOn generalizing block with
  | nil => simp_all [turns]
  | append_singleton row o ih =>
    rcases turns_concat_cases candidates s row o with hturn | ⟨e, -, he, hturn⟩ <;> rw [hturn] at hb
    · exact ih h.of_concat hb hl
    · rw [List.map_append, List.map_singleton] at hb
      rcases List.infix_concat_iff.mp hb with hsuffix | hinside
      · rcases List.suffix_concat_iff.mp hsuffix with rfl | ⟨before, rfl, hbefore⟩
        · exact List.nodup_nil
        · rw [List.length_append, List.length_singleton] at hl
          have hfresh := (h.ranked h.of_concat.behind).not_mem_of_argmin hd he
          have hrecent : before.reverse <+: ((s.turns candidates row).1.map Choice.endpoint).reverse.take
              (candidates.length - 1) :=
            List.prefix_take_iff.mpr ⟨List.reverse_prefix.mpr hbefore, by simp; omega⟩
          refine List.nodup_append.mpr ⟨ih h.of_concat hbefore.isInfix (by omega), List.nodup_singleton e, ?_⟩
          intro x hx y hy hxy
          obtain rfl : x = e := hxy.trans (List.mem_singleton.mp hy)
          exact hfresh (hrecent.subset (List.mem_reverse.mpr hx))
      · exact ih h.of_concat hinside hl

lemma mem_candidates_of_mem_turns {c : Choice} (hc : c ∈ (s.turns candidates row).1) : c.endpoint ∈ candidates := by
  induction row using List.reverseRecOn with
  | nil => cases hc
  | append_singleton row o ih =>
    rcases turns_concat_cases candidates s row o with hturn | ⟨e, -, he, hturn⟩ <;> rw [hturn] at hc
    · exact ih hc
    · rcases List.mem_append.mp hc with hc | hc
      · exact ih hc
      · rw [List.mem_singleton.mp hc]
        exact List.argmin_mem he

lemma lastRotation_turns {c : Choice} (hc : c ∈ (s.turns candidates row).1.getLast?) :
    (s.turns candidates row).2.lastRotation = some c.time := by
  induction row using List.reverseRecOn with
  | nil => cases hc
  | append_singleton row o ih =>
    rcases turns_concat_cases candidates s row o with hturn | ⟨e, -, -, hturn⟩ <;> rw [hturn] at hc ⊢
    · exact ih hc
    · rw [List.getLast?_concat] at hc
      obtain rfl := Option.some.inj hc
      rfl

lemma isChain_turns (candidates : List SocketAddr) (s : PeerState) (row : List Observation) :
    (s.turns candidates row).1.IsChain fun c d : Choice => c.time + Clock.endpointAttempt ≤ d.time := by
  induction row using List.reverseRecOn with
  | nil => exact .nil
  | append_singleton row o ih =>
    rcases turns_concat_cases candidates s row o with hturn | ⟨e, hdue, -, hturn⟩ <;> rw [hturn]
    · exact ih
    · refine List.isChain_append.mpr ⟨ih, .singleton _, fun c hc d hd => ?_⟩
      obtain rfl := Option.some.inj hd
      exact (timeForNextEndpoint_iff.mp hdue).2.2 c.time (lastRotation_turns hc)

/-- As many choices in a row as there are candidates are all of them, each once. Between two choices an endpoint has its
time, and no choice is made for a peer that works. -/
theorem turns_fair (hd : candidates.Nodup) (h : s.Orderly candidates row) :
    (∀ block, block <:+: (s.turns candidates row).1 → block.length = candidates.length →
      (block.map Choice.endpoint).Perm candidates) ∧
    (s.turns candidates row).1.IsChain (fun c d : Choice => c.time + Clock.endpointAttempt ≤ d.time) ∧
    ∀ before o rest e, row = before ++ o :: rest → ((s.turns candidates before).2.turn candidates o).1 = some e →
      ((s.turns candidates before).2.observe o).healthy = false ∧
        ∀ t, o.peer.lastHandshake = some t → t + Clock.endpointAttempt ≤ o.time := by
  refine ⟨fun block hblock hlength => ?_, isChain_turns candidates s row, fun before o rest e _ hturn => ?_⟩
  · have hnodup : (block.map Choice.endpoint).Nodup :=
      h.nodup_block hd (hblock.map _) (by rw [List.length_map, hlength])
    have hsub : block.map Choice.endpoint ⊆ candidates := by
      intro e he
      obtain ⟨c, hc, rfl⟩ := List.mem_map.mp he
      exact mem_candidates_of_mem_turns (hblock.subset hc)
    exact (hnodup.subperm hsub).perm_of_length_le (by rw [List.length_map, hlength])
  · obtain ⟨hsick, hquiet, -⟩ := timeForNextEndpoint_iff.mp (turn_eq_some hturn).1
    exact ⟨hsick, hquiet⟩

/-- The peer works for a while at the first of three endpoints, and then goes through the others before it comes back.
-/
theorem turns_fair_of_three :
    let e (port : UInt16) : SocketAddr := .v4 0xc0000201 port
    let s : PeerState := { lastUsed := Table.empty.insert (e 2) (-5000000000) }
    let pass (endpoint : Option SocketAddr) (handshake : Option Instant) (time : Instant) : Observation :=
      { peer := { publicKey := ⟨.zero 32⟩, endpoint := endpoint, lastHandshake := handshake.map (· * 1000000000) }
        time := time * 1000000000 }
    let row := [pass none none 0, pass (some (e 1)) none 10, pass (some (e 1)) (some 18) 20,
      pass (some (e 1)) (some 18) 160, pass (some (e 3)) (some 18) 175, pass (some (e 2)) (some 18) 190]
    s.Orderly [e 1, e 2, e 3] row ∧
      (s.turns [e 1, e 2, e 3] row).1.map Choice.endpoint = [e 1, e 3, e 2, e 1] ∧
      [e 3, e 2, e 1].Perm [e 1, e 2, e 3] := by
  intro e s pass row
  have horderly : s.Orderly [e 1, e 2, e 3] row := by
    refine ⟨by decide +kernel, fun o ho f u hu => ?_, by decide +kernel⟩
    have hpast : ∀ o ∈ row, (-5000000000 : Instant) < o.time := by decide +kernel
    have hused : s.lastUsed.find? f = some u := hu
    rw [Table.find?_insert] at hused
    split_ifs at hused with hf
    · obtain rfl := Option.some.inj hused
      exact hpast o ho
    · cases hused
  have hchosen : (s.turns [e 1, e 2, e 3] row).1.map Choice.endpoint = [e 1, e 3, e 2, e 1] := by decide +kernel
  refine ⟨horderly, hchosen, ?_⟩
  have hlast := (turns_fair (by decide +kernel) horderly).1 ((s.turns [e 1, e 2, e 3] row).1.drop 1)
    (List.drop_suffix _ _).isInfix (by decide +kernel)
  rwa [List.map_drop, hchosen] at hlast

end PeerState

end MeshFacts
