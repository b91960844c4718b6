import Mathlib
import MeshFacts.PeerState

/-! # Rows of observations
What the history of a peer says after a row of observations. It passes for working by what the last two of them saw of
its handshake, and that the handshake has changed counts for it even where the change is a loss. How long it has been
alive is told exactly: the streak reaches back to the first observation from which on no claim had run out and no new
start was told of. -/
namespace MeshFacts

/-- What is seen of a peer at an instant, and what it tells of itself by then. -/
structure Observation where
  peer : DevicePeer
  told : Option Instant := none
  bootId : Option Uuid := none
  time : Instant

namespace PeerState

def observe (s : PeerState) (o : Observation) : PeerState := s.update o.peer o.told o.bootId o.time

def after (row : List Observation) : PeerState := row.foldl observe {}

lemma after_concat (row : List Observation) (o : Observation) : after (row ++ [o]) = (after row).observe o := by
  rw [after, List.foldl_append]
  rfl

lemma lastHandshake_after (row : List Observation) :
    (after row).lastHandshake = row.getLast?.bind fun o => o.peer.lastHandshake := by
  rcases row.eq_nil_or_concat with rfl | ⟨row, o, rfl⟩
  · rfl
  · rw [List.concat_eq_append, after_concat, List.getLast?_concat]
    rfl

lemma observed_after (row : List Observation) : (after row).observed = row.getLast?.isSome := by
  rcases row.eq_nil_or_concat with rfl | ⟨row, o, rfl⟩
  · rfl
  · rw [List.concat_eq_append, after_concat, List.getLast?_concat]
    rfl

end PeerState

namespace Observation
variable {o p : Observation}

def IsRecent (o : Observation) : Prop :=
  ∃ h, o.peer.lastHandshake = some h ∧ o.time < h + Clock.handshakeValidity

/-- There is a handshake that is later than the one seen before, or the first. -/
def Advances (p o : Observation) : Prop :=
  ∃ h, o.peer.lastHandshake = some h ∧ ∀ h', p.peer.lastHandshake = some h' → h' < h

def FallsBack (p o : Observation) : Prop :=
  ∃ h', p.peer.lastHandshake = some h' ∧ ∀ h, o.peer.lastHandshake = some h → h < h'

lemma changed_iff : o.peer.lastHandshake ≠ p.peer.lastHandshake ↔ p.Advances o ∨ p.FallsBack o := by
  unfold Advances FallsBack
  cases o.peer.lastHandshake with
  | none => cases p.peer.lastHandshake <;> simp
  | some h =>
    cases p.peer.lastHandshake with
    | none => simp
    | some h' => simp [eq_comm, lt_or_lt_iff_ne]

lemma Advances.not_fallsBack (h : p.Advances o) : ¬ p.FallsBack o := by
  obtain ⟨new, hnew, hlater⟩ := h
  rintro ⟨old, hold, hback⟩
  exact lt_asymm (hlater old hold) (hback new hnew)

lemma isRecent_iff : o.IsRecent ↔
    (o.peer.lastHandshake.any fun t => Clock.since o.time t < Clock.handshakeValidity) = true := by
  have hlt : ∀ t, Clock.since o.time t < Clock.handshakeValidity ↔ o.time < t + Clock.handshakeValidity := by
    intro t
    rw [← not_le, Clock.le_since_iff (by decide), not_le]
  simp [IsRecent, Option.any_eq_true, hlt]

/-- A handshake shows that the peer works: it is recent, or it has come since the observation before. -/
def Shows (history : List Observation) (o : Observation) : Prop :=
  o.peer.endpoint ≠ none ∧ (o.IsRecent ∨ ∃ p, history.getLast? = some p ∧ p.Advances o)

/-- All that there is for the peer is that its handshake is not the one seen before. -/
def Misleads (history : List Observation) (o : Observation) : Prop :=
  o.peer.endpoint ≠ none ∧ ¬ o.IsRecent ∧ ∃ p, history.getLast? = some p ∧ p.FallsBack o

lemma Misleads.not_shows {history : List Observation} (h : Misleads history o) : ¬ Shows history o := by
  obtain ⟨-, hold, p, hlast, hback⟩ := h
  rintro ⟨-, hrecent | ⟨q, hq, hnew⟩⟩
  · exact hold hrecent
  · obtain rfl : p = q := Option.some.inj (hlast.symm.trans hq)
    exact hnew.not_fallsBack hback

end Observation

namespace PeerState
open Observation
variable {s : PeerState} {o : Observation}

lemma isHealthy_iff : s.isHealthy o.peer o.time = true ↔
    o.peer.endpoint ≠ none ∧ (o.IsRecent ∨ s.observed = true ∧ o.peer.lastHandshake ≠ s.lastHandshake) := by
  rw [isRecent_iff, isHealthy]
  cases o.peer.endpoint <;> simp [Bool.or_eq_true]

/-- After an observation a peer passes for working just if a handshake shows that it does or the observation misleads.
-/
theorem healthy_after_iff (history : List Observation) (o : Observation) :
    ((after (history ++ [o])).healthy = true ↔ Shows history o ∨ Misleads history o) ∧
      ¬ (Shows history o ∧ Misleads history o) := by
  refine ⟨?_, fun ⟨hshows, hmisleads⟩ => hmisleads.not_shows hshows⟩
  have hhealthy : (after (history ++ [o])).healthy = (after history).isHealthy o.peer o.time := by
    rw [after_concat]
    rfl
  rw [hhealthy, isHealthy_iff, observed_after, lastHandshake_after]
  unfold Shows Misleads
  cases history.getLast? with
  | none => simp
  | some p =>
    simp only [Option.isSome_some, Option.bind_some, changed_iff, true_and, Option.some.injEq, exists_eq_left']
    tauto

/-- An old handshake gives way to an older one, and that to none. Both times the peer passes for working. -/
theorem healthy_of_lost_handshake :
    let p : DevicePeer := { publicKey := ⟨.zero 32⟩, endpoint := some (.v4 0xc0000201 51820) }
    let old : Observation := { peer := { p with lastHandshake := some 10000000000 }, time := 600000000000 }
    let back : Observation := { peer := { p with lastHandshake := some 5000000000 }, time := 605000000000 }
    let gone : Observation := { peer := p, time := 610000000000 }
    [old, back, gone].Pairwise (fun a b => a.time ≤ b.time) ∧
      (after [old, back]).healthy = true ∧ ¬ Shows [old] back ∧
      (after [old, back, gone]).healthy = true ∧ ¬ Shows [old, back] gone := by
  intro p old back gone
  have hback : Misleads [old] back := by
    refine ⟨by decide, ?_, old, rfl, _, rfl, ?_⟩
    · rintro ⟨h, hh, hlt⟩
      obtain rfl : 5000000000 = h := Option.some.inj hh
      exact absurd hlt (by decide)
    · intro h hh
      obtain rfl : 5000000000 = h := Option.some.inj hh
      decide
  have hgone : Misleads [old, back] gone := by
    refine ⟨by decide, ?_, back, rfl, _, rfl, ?_⟩
    · rintro ⟨h, hh, -⟩
      cases hh
    · intro h hh
      cases hh
  exact ⟨by decide, by decide, hback.not_shows, by decide, hgone.not_shows⟩

end PeerState

namespace Observation
variable {row : List Observation} {o : Observation} {j : ℕ}

def IsAlive (o : Observation) : Prop := ∃ t, o.told = some t ∧ o.time < t

def lastBoot? (row : List Observation) : Option Uuid := (row.filterMap bootId).getLast?

/-- Another start is told of than the one that the row before told of last. -/
def Restarts (row : List Observation) (o : Observation) : Prop :=
  ∃ i j, o.bootId = some i ∧ lastBoot? row = some j ∧ i ≠ j

/-- From an observation on the row finds the peer alive, and after that one no new start is told of. -/
structure AliveFrom (row : List Observation) (j : ℕ) : Prop where
  lt : j < row.length
  alive : ∀ i o, j ≤ i → row[i]? = some o → o.IsAlive
  steady : ∀ i o, j < i → row[i]? = some o → ¬ Restarts (row.take i) o

lemma lastBoot?_concat (row : List Observation) (o : Observation) :
    lastBoot? (row ++ [o]) = (o.bootId <|> lastBoot? row) := by
  unfold lastBoot?
  cases hb : o.bootId with
  | none => simp [hb]
  | some i => simp [hb]

lemma getElem?_concat_iff {i : ℕ} {p : Observation} :
    (row ++ [o])[i]? = some p ↔ row[i]? = some p ∨ i = row.length ∧ p = o := by
  rcases lt_trichotomy i row.length with hi | rfl | hi
  · rw [List.getElem?_append_left hi]
    simp [hi.ne]
  · simp [eq_comm]
  · simp [List.getElem?_eq_none, hi.le, hi.ne', Nat.succ_le_of_lt hi]

lemma aliveFrom_concat_iff :
    AliveFrom (row ++ [o]) j ↔ o.IsAlive ∧ (j = row.length ∨ AliveFrom row j ∧ ¬ Restarts row o) := by
  have htake : ∀ i, i ≤ row.length → (row ++ [o]).take i = row.take i := fun i hi => List.take_append_of_le_length hi
  have hwhole : (row ++ [o]).take row.length = row := List.take_left
  have hinside : ∀ {i p}, row[i]? = some p → i < row.length := fun hp => (List.getElem?_eq_some_iff.mp hp).1
  constructor
  · rintro ⟨hlt, halive, hsteady⟩
    rw [List.length_append, List.length_singleton] at hlt
    refine ⟨halive _ o (by omega) (getElem?_concat_iff.mpr (.inr ⟨rfl, rfl⟩)), ?_⟩
    by_cases hj : j = row.length
    · exact .inl hj
    · refine .inr ⟨⟨by omega, fun i p hi hp => ?_, fun i p hi hp => ?_⟩, ?_⟩
      · exact halive i p hi (getElem?_concat_iff.mpr (.inl hp))
      · rw [← htake i (hinside hp).le]
        exact hsteady i p hi (getElem?_concat_iff.mpr (.inl hp))
      · have hlast := hsteady row.length o (by omega) (getElem?_concat_iff.mpr (.inr ⟨rfl, rfl⟩))
        rwa [hwhole] at hlast
  · rintro ⟨hnow, hrest⟩
    have hle : j ≤ row.length := hrest.elim Eq.le fun h => h.1.lt.le
    refine ⟨by simp only [List.length_append, List.length_singleton]; omega, fun i p hi hp => ?_, fun i p hi hp => ?_⟩
    · rcases getElem?_concat_iff.mp hp with hp | ⟨-, rfl⟩
      · rcases hrest with rfl | ⟨hrow, -⟩
        · exact absurd (hinside hp) (by omega)
        · exact hrow.alive i p hi hp
      · exact hnow
    · rcases getElem?_concat_iff.mp hp with hp | ⟨rfl, rfl⟩
      · rcases hrest with rfl | ⟨hrow, -⟩
        · exact absurd (hinside hp) (by omega)
        · rw [htake i (hinside hp).le]
          exact hrow.steady i p hi hp
      · rcases hrest with rfl | ⟨-, hsame⟩
        · exact absurd hi (by omega)
        · rwa [hwhole]

lemma exists_isLeast (h : ∃ j, AliveFrom row j) :
    ∃ j o, IsLeast {j | AliveFrom row j} j ∧ row[j]? = some o := by
  have hmem : AliveFrom row (sInf {j | AliveFrom row j}) := Nat.sInf_mem h
  exact ⟨_, _, ⟨hmem, fun _ hj => Nat.sInf_le hj⟩, List.getElem?_eq_getElem hmem.lt⟩

/-- A streak begins with the observation itself if there is none before it or a new start is told of. -/
lemma isLeast_concat_iff : IsLeast {j | AliveFrom (row ++ [o]) j} j ↔ o.IsAlive ∧
    (((¬ ∃ i, AliveFrom row i) ∨ Restarts row o) ∧ j = row.length ∨
      IsLeast {j | AliveFrom row j} j ∧ ¬ Restarts row o) := by
  simp only [IsLeast, mem_lowerBounds, Set.mem_ofPred_eq, aliveFrom_concat_iff]
  constructor
  · rintro ⟨⟨halive, hj⟩, hle⟩
    refine ⟨halive, ?_⟩
    by_cases hfresh : (¬ ∃ i, AliveFrom row i) ∨ Restarts row o
    · rcases hj with rfl | ⟨hrow, hsame⟩
      · exact .inl ⟨hfresh, rfl⟩
      · exact absurd hsame (not_not.mpr (hfresh.resolve_left (not_not.mpr ⟨j, hrow⟩)))
    · obtain ⟨⟨i, hi⟩, hsame⟩ := by simpa only [not_or, not_not] using hfresh
      have hji : j ≤ i := hle i ⟨halive, .inr ⟨hi, hsame⟩⟩
      rcases hj with rfl | ⟨hrow, -⟩
      · exact absurd hi.lt (by omega)
      · exact .inr ⟨⟨hrow, fun i hi => hle i ⟨halive, .inr ⟨hi, hsame⟩⟩⟩, hsame⟩
  · rintro ⟨halive, ⟨hfresh, rfl⟩ | ⟨⟨hrow, hle⟩, hsame⟩⟩
    · refine ⟨⟨halive, .inl rfl⟩, fun i hi => ?_⟩
      rcases hi.2 with rfl | ⟨hi, hsame⟩
      · exact le_rfl
      · exact absurd hsame (not_not.mpr (hfresh.resolve_left (not_not.mpr ⟨i, hi⟩)))
    · refine ⟨⟨halive, .inr ⟨hrow, hsame⟩⟩, fun i hi => ?_⟩
      rcases hi.2 with rfl | ⟨hi, -⟩
      · exact hrow.lt.le
      · exact hle i hi

end Observation

namespace PeerState
open Observation
variable {row : List Observation} {o : Observation} {t : Instant}

lemma lastBootId_after (row : List Observation) : (after row).lastBootId = lastBoot? row := by
  induction row using List.reverseRecOn with
  | nil => rfl
  | append_singleton row o ih =>
    rw [after_concat, lastBoot?_concat, ← ih]
    rfl

lemma aliveUntil_after (row : List Observation) (o : Observation) :
    (after (row ++ [o])).aliveUntil = o.told.filter fun t => o.time < t := by
  rw [after_concat]
  rfl

lemma isAlive_iff : o.IsAlive ↔ (o.told.filter fun t => o.time < t).isNone = false := by
  unfold IsAlive
  cases o.told <;> simp [Option.filter]

lemma restarts_iff (s : PeerState) (o : Observation) (hb : s.lastBootId = lastBoot? row) :
    Restarts row o ↔ (o.bootId.isSome && s.lastBootId.isSome && o.bootId != s.lastBootId) = true := by
  rw [hb, Restarts]
  cases o.bootId <;> cases lastBoot? row <;> simp

lemma aliveSince_observe {s : PeerState} (hb : s.lastBootId = lastBoot? row) (o : Observation) (t : Instant) :
    (s.observe o).aliveSince = some t ↔ o.IsAlive ∧
      ((s.aliveSince = none ∨ Restarts row o) ∧ o.time = t ∨ s.aliveSince = some t ∧ ¬ Restarts row o) := by
  rw [isAlive_iff, restarts_iff s o hb]
  simp only [observe, update]
  cases (o.told.filter fun t => o.time < t).isNone with
  | true => simp
  | false =>
    cases s.aliveSince <;> cases o.bootId.isSome && s.lastBootId.isSome && o.bootId != s.lastBootId <;> simp

/-- Since when a peer has been alive is told by the observation that its streak begins with. -/
theorem aliveSince_after (row : List Observation) (t : Instant) : (after row).aliveSince = some t ↔
    ∃ j o, IsLeast {j | AliveFrom row j} j ∧ row[j]? = some o ∧ o.time = t := by
  induction row using List.reverseRecOn generalizing t with
  | nil =>
    refine ⟨(nomatch ·), ?_⟩
    rintro ⟨j, o, -, ho, -⟩
    cases ho
  | append_singleton row o ih =>
    have hnone : (after row).aliveSince = none ↔ ¬ ∃ j, AliveFrom row j := by
      rw [Option.eq_none_iff_forall_ne_some]
      refine ⟨fun h hex => ?_, fun h t ht => ?_⟩
      · obtain ⟨j, p, hj, hp⟩ := exists_isLeast hex
        exact h p.time ((ih p.time).mpr ⟨j, p, hj, hp, rfl⟩)
      · obtain ⟨j, -, hj, -⟩ := (ih t).mp ht
        exact h ⟨j, hj.1⟩
    rw [after_concat, aliveSince_observe (lastBootId_after row), hnone, ih]
    simp only [isLeast_concat_iff, getElem?_concat_iff]
    constructor
    · rintro ⟨halive, ⟨hfresh, ht⟩ | ⟨⟨j, p, hj, hp, ht⟩, hsame⟩⟩
      · exact ⟨row.length, o, ⟨halive, .inl ⟨hfresh, rfl⟩⟩, .inr ⟨rfl, rfl⟩, ht⟩
      · exact ⟨j, p, ⟨halive, .inr ⟨hj, hsame⟩⟩, .inl hp, ht⟩
    · rintro ⟨j, p, ⟨halive, ⟨hfresh, rfl⟩ | ⟨hj, hsame⟩⟩, hp | ⟨hlast, rfl⟩, ht⟩
      · simp at hp
      · exact ⟨halive, .inl ⟨hfresh, ht⟩⟩
      · exact ⟨halive, .inr ⟨⟨j, p, hj, hp, ht⟩, hsame⟩⟩
      · exact absurd hj.1.lt (by omega)

/-- A peer has been alive since the first observation from which on each found it alive with no new start told of, and
stays so until the end last told. -/
theorem aliveFor_after (history : List Observation) (o : Observation)
    (htimes : (history ++ [o]).Pairwise fun a b => a.time ≤ b.time) (ht : o.time ≤ t) :
    (¬ o.IsAlive → (after (history ++ [o])).aliveFor t = 0 ∧ (after (history ++ [o])).stillAliveFor t = 0) ∧
      ∀ ending, o.told = some ending → o.time < ending →
        (∃ j first, IsLeast {j | AliveFrom (history ++ [o]) j} j ∧ (history ++ [o])[j]? = some first ∧
          ((after (history ++ [o])).aliveFor t : ℤ) = t - first.time) ∧
        ((after (history ++ [o])).stillAliveFor t : ℤ) = max (ending - t) 0 := by
  have hwithin : ∀ first ∈ history ++ [o], first.time ≤ o.time := by
    intro first hfirst
    rcases List.mem_append.mp hfirst with hfirst | hfirst
    · exact (List.pairwise_append.mp htimes).2.2 first hfirst o (List.mem_singleton_self o)
    · rw [List.mem_singleton.mp hfirst]
  refine ⟨fun hdead => ⟨?_, ?_⟩, fun ending htold hlater => ⟨?_, ?_⟩⟩
  · have hnone : (after (history ++ [o])).aliveSince = none := by
      rw [Option.eq_none_iff_forall_ne_some]
      intro t ht
      obtain ⟨j, -, hj, -⟩ := (aliveSince_after _ t).mp ht
      exact hdead (aliveFrom_concat_iff.mp hj.1).1
    rw [aliveFor, hnone, Option.map_none, Option.getD_none]
  · have hnone : (after (history ++ [o])).aliveUntil = none := by
      rw [aliveUntil_after, ← Option.isNone_iff_eq_none]
      simpa [isAlive_iff] using hdead
    rw [stillAliveFor, hnone, Option.map_none, Option.getD_none]
  · have halive : AliveFrom (history ++ [o]) history.length :=
      aliveFrom_concat_iff.mpr ⟨⟨ending, htold, hlater⟩, .inl rfl⟩
    obtain ⟨j, first, hj, hfirst⟩ := exists_isLeast ⟨_, halive⟩
    have hsince : (after (history ++ [o])).aliveSince = some first.time :=
      (aliveSince_after _ _).mpr ⟨j, first, hj, hfirst, rfl⟩
    have hle : first.time ≤ t := (hwithin first (List.mem_of_getElem? hfirst)).trans ht
    refine ⟨j, first, hj, hfirst, ?_⟩
    rw [aliveFor, hsince, Option.map_some, Option.getD_some, Clock.since]
    exact Int.toNat_of_nonneg (Int.sub_nonneg_of_le hle)
  · have huntil : (after (history ++ [o])).aliveUntil = some ending := by
      rw [aliveUntil_after, htold, Option.filter_some, if_pos (decide_eq_true hlater)]
    rw [stillAliveFor, huntil, Option.map_some, Option.getD_some, Clock.since]
    exact Int.ofNat_toNat _

/-- The start changes while the peer is not alive, and again while it is. The second change begins the streak. -/
theorem aliveFor_after_restarts :
    let p : DevicePeer := { publicKey := ⟨.zero 32⟩ }
    let seen (told : Instant) (bootId : Option Uuid) (time : Instant) : Observation :=
      { peer := p, told := some (told * 1000000000), bootId := bootId, time := time * 1000000000 }
    let history := [seen 100 (some (.ofNatLE 16 1)) 0, seen 100 (some (.ofNatLE 16 2)) 200,
      seen 300 (some (.ofNatLE 16 2)) 205, seen 300 (some (.ofNatLE 16 3)) 210]
    let o := seen 300 none 214
    let row := history ++ [o]
    row.Pairwise (fun a b => a.time ≤ b.time) ∧ o.time ≤ 215000000000 ∧ o.time < 300000000000 ∧
      (after row).aliveFor 215000000000 = 5000000000 ∧ (after row).stillAliveFor 215000000000 = 85000000000 ∧
      ∃ j first, IsLeast {j | AliveFrom row j} j ∧ row[j]? = some first ∧ first.time = 210000000000 := by
  intro p seen history o row
  have htimes : row.Pairwise fun a b => a.time ≤ b.time := by decide
  have hnow : o.time ≤ 215000000000 := by decide
  have hlater : o.time < 300000000000 := by decide
  have hfor : (after row).aliveFor 215000000000 = 5000000000 := by decide +kernel
  obtain ⟨⟨j, first, hj, hfirst, hsince⟩, hstill⟩ :=
    (aliveFor_after history o htimes hnow).2 300000000000 rfl hlater
  rw [hfor] at hsince
  refine ⟨htimes, hnow, hlater, hfor, Int.ofNat_inj.mp (hstill.trans (by decide)), j, first, hj, hfirst, ?_⟩
  unfold Instant at *
  omega

end PeerState

end MeshFacts
