import MeshFacts.DeviceDump
import MeshFacts.PeerState
import MeshFacts.Proofs.Outcomes

/-! # Times of handshakes
One line of a dump under two polls. The instant that it tells moves between them by the difference in what the
wall clock shows beyond whole seconds, and a handshake that has moved passes for a new one. -/
namespace MeshFacts

namespace DeviceDump
variable {now d : Instant} {wall : Int} {line : List Char} {p : DevicePeer}

def seconds (wall : Int) : Nat := (wall / Clock.second).toNat

def peerLines (dump : String) : List (List Char) :=
  ((textLines dump.toList).filter fun l => !isBlankText l).drop 1

def toldHandshake? (line : List Char) : Option Nat :=
  (fieldTexts line)[4]?.bind (Numeral.word? 64)

lemma readPeer_eq_ok {w : Nat} (h : readPeer now w line = .ok p) :
    ∃ t key endpoint nets keepalive, toldHandshake? line = some t ∧
      p = ⟨key, endpoint, nets, if t = 0 then none else handshakeAt now w t, keepalive⟩ ∧
      ∀ now' w', readPeer now' w' line =
        .ok ⟨key, endpoint, nets, if t = 0 then none else handshakeAt now' w' t, keepalive⟩ := by
  unfold readPeer at h
  split at h
  · rename_i k _ e n hs _ _ ka _ hfields
    obtain ⟨key, hk, h⟩ := bind_eq_ok_iff.mp h
    obtain ⟨endpoint, he, h⟩ := bind_eq_ok_iff.mp h
    obtain ⟨nets, hn, h⟩ := bind_eq_ok_iff.mp h
    split at h
    · simp [malformed] at h
    · rename_i t ht
      refine ⟨t, key, endpoint, nets, Numeral.word? 64 ka, ?_, (Except.ok.inj h).symm, ?_⟩
      · simp [toldHandshake?, hfields, ht]
      · intro now' w'
        simp [readPeer, hfields, hk, he, hn, ht, bind, Except.bind]
  · simp [malformed] at h

lemma mapM_peerLines_of_parse {name dump : String} {st : DeviceState} (h : parse name dump now wall = .ok st) :
    (peerLines dump).mapM (readPeer now (seconds wall)) = .ok st.peers := by
  unfold parse at h
  unfold peerLines
  split at h
  · simp [malformed] at h
  · rename_i first rest hlines
    obtain ⟨⟨pair, port⟩, -, h⟩ := bind_eq_ok_iff.mp h
    obtain ⟨peers, hpeers, h⟩ := bind_eq_ok_iff.mp h
    obtain rfl := Except.ok.inj h
    rw [hlines]
    exact hpeers

lemma mem_peers_of_parse {name dump : String} {st : DeviceState} (h : parse name dump now wall = .ok st)
    (hl : line ∈ peerLines dump) (hp : readPeer now (seconds wall) line = .ok p) : p ∈ st.peers := by
  obtain ⟨q, hq, hread⟩ := mem_of_mem_mapM (mapM_peerLines_of_parse h) line hl
  obtain rfl : q = p := Except.ok.inj (hread.symm.trans hp)
  exact hq

lemma handshakeAt_eq_some {w h : Nat} {t : Instant} (ht : handshakeAt now w h = some t) :
    t = now - ((w - h) * Clock.second : Nat) := by
  unfold handshakeAt at ht
  dsimp only at ht
  split_ifs at ht
  exact (Option.some.inj ht).symm

/-- Between two polls a handshake moves by what the wall clock's part of a second has changed. -/
lemma handshakeAt_drift {h : Nat} {t u : Instant} (hd : 0 ≤ d) (hne : h ≠ 0) (hpast : h ≤ seconds wall)
    (ht : handshakeAt now (seconds wall) h = some t)
    (hu : handshakeAt (now + d) (seconds (wall + d)) h = some u) :
    u - t = (wall + d) % Clock.second - wall % Clock.second := by
  rw [handshakeAt_eq_some ht, handshakeAt_eq_some hu]
  unfold seconds Clock.second at *
  unfold Instant Span at *
  push_cast
  omega

lemma handshakeAt_stands_iff {h : Nat} {t u : Instant} (hd : 0 ≤ d) (hne : h ≠ 0) (hpast : h ≤ seconds wall)
    (ht : handshakeAt now (seconds wall) h = some t)
    (hu : handshakeAt (now + d) (seconds (wall + d)) h = some u) : u = t ↔ (Clock.second : Int) ∣ d := by
  have hdrift := handshakeAt_drift hd hne hpast ht hu
  unfold Clock.second at *
  unfold Instant Span at *
  omega

end DeviceDump

namespace PeerState
variable {s : PeerState} {p q : DevicePeer} {now later : Instant}

/-- Once its handshake is too old, a peer passes for working only by a change of the handshake. -/
lemma isHealthy_of_stale (h : ∀ t, p.lastHandshake = some t → Clock.handshakeValidity ≤ Clock.since now t) :
    s.isHealthy p now = (p.endpoint.isSome && (s.observed && p.lastHandshake != s.lastHandshake)) := by
  have hstale : (p.lastHandshake.any fun t => Clock.since now t < Clock.handshakeValidity) = false := by
    rw [Option.any_eq_false]
    intro t ht
    simpa using h t ht
  unfold isHealthy
  cases p.endpoint <;> simp [hstale]

lemma healthy_update_update (a b : Option Instant) (i j : Option Uuid)
    (h : ∀ t, q.lastHandshake = some t → Clock.handshakeValidity ≤ Clock.since later t) :
    ((s.update p a i now).update q b j later).healthy = false ↔
      q.endpoint = none ∨ q.lastHandshake = p.lastHandshake := by
  have hhealthy : ((s.update p a i now).update q b j later).healthy =
      (s.update p a i now).isHealthy q later := rfl
  have hobserved : (s.update p a i now).observed = true := rfl
  have hlast : (s.update p a i now).lastHandshake = p.lastHandshake := rfl
  rw [hhealthy, isHealthy_of_stale h, hobserved, hlast]
  cases q.endpoint <;> simp

end PeerState

namespace DeviceDump

/-- A line that stays the same tells the same instant at two polls just if whole seconds have passed; if not, the peer
passes for working. -/
theorem handshake_stands_iff {now d : Instant} {wall : Int} {line : List Char} {p : DevicePeer} {h : Nat}
    {t u : Instant} (hread : readPeer now (seconds wall) line = .ok p) (htold : toldHandshake? line = some h)
    (hd : 0 ≤ d) (hne : h ≠ 0) (hpast : h ≤ seconds wall) (ht : handshakeAt now (seconds wall) h = some t)
    (hu : handshakeAt (now + d) (seconds (wall + d)) h = some u) :
    let q := { p with lastHandshake := some u }
    p.lastHandshake = some t ∧
      (∀ name dump st, parse name dump now wall = .ok st → line ∈ peerLines dump → p ∈ st.peers) ∧
      (∀ name dump st, parse name dump (now + d) (wall + d) = .ok st → line ∈ peerLines dump → q ∈ st.peers) ∧
      (u = t ↔ (Clock.second : Int) ∣ d) ∧
      ∀ (s : PeerState) (a b : Option Instant) (i j : Option Uuid) (seen seen' : Instant),
        Clock.handshakeValidity ≤ Clock.since seen' u →
          (((s.update p a i seen).update q b j seen').healthy = false ↔
            p.endpoint = none ∨ (Clock.second : Int) ∣ d) := by
  intro q
  obtain ⟨h', key, endpoint, nets, keepalive, htold', hp, hany⟩ := readPeer_eq_ok hread
  obtain rfl : h' = h := Option.some.inj (htold'.symm.trans htold)
  have hlast : p.lastHandshake = some t := by rw [hp, if_neg hne, ht]
  have hread' : readPeer (now + d) (seconds (wall + d)) line = .ok q := by
    rw [hany, if_neg hne, hu]
    simp only [q, hp]
  have hstands := handshakeAt_stands_iff hd hne hpast ht hu
  refine ⟨hlast, fun _ _ _ hparse hl => mem_peers_of_parse hparse hl hread,
    fun _ _ _ hparse hl => mem_peers_of_parse hparse hl hread', hstands, ?_⟩
  intro s a b i j seen seen' hold
  have hq : q.lastHandshake = some u := rfl
  rw [PeerState.healthy_update_update a b i j, hq, hlast, Option.some.injEq, hstands]
  intro v hv
  exact Option.some.inj (hq.symm.trans hv) ▸ hold

theorem handshake_stands_whole_seconds :
    let line := "YMVZD3Lu8pL5VFr8KL9jypHSAWoKKI+Q+aMvidP//K8=\t-\t192.0.2.1:5\t(none)\t1000\t0\t0\toff"
    let t : Instant := -1000 * (Clock.second : Int)
    ∃ p, readPeer 0 (seconds 2000500000000) line.toList = .ok p ∧ p.lastHandshake = some t ∧
      ((({} : PeerState).update p none none 0).update { p with lastHandshake := some t } none none
        5000000000).healthy = false := by
  intro line t
  have hok : (readPeer 0 (seconds 2000500000000) line.toList).isOk = true := by decide +kernel
  have htold : toldHandshake? line.toList = some 1000 := by decide +kernel
  have ht : handshakeAt 0 (seconds 2000500000000) 1000 = some t := by decide
  have hu : handshakeAt (0 + 5000000000) (seconds (2000500000000 + 5000000000)) 1000 = some t := by decide
  obtain ⟨p, hp⟩ := exists_of_isOk hok
  obtain ⟨hlast, -, -, -, hhealth⟩ :=
    handshake_stands_iff hp htold (by decide) (by decide) (by decide) ht hu
  exact ⟨p, hp, hlast, (hhealth {} none none none none 0 5000000000 (by decide)).mpr (.inr (by decide))⟩

theorem handshake_moves_within_second :
    let header := "fjKfG8nHSbLHaHj1aGM6w5ySu50r7aJuWcchK6IEe1g=\t-\t51820\toff\n"
    let line := "YMVZD3Lu8pL5VFr8KL9jypHSAWoKKI+Q+aMvidP//K8=\t-\t192.0.2.1:5\t(none)\t1000\t0\t0\toff"
    let t : Instant := -1000 * (Clock.second : Int)
    let d : Instant := 500000000
    ∃ st st' p q, parse "wg0" (header ++ line) 0 2000500000000 = .ok st ∧ st.peers = [p] ∧
      parse "wg0" (header ++ line) d (2000500000000 + d) = .ok st' ∧ st'.peers = [q] ∧
      p.lastHandshake = some t ∧ q.lastHandshake = some (t - d) ∧
        ∀ s : PeerState, ((s.update p none none 0).update q none none d).healthy = true := by
  intro header line t d
  have hpoll : ((parse "wg0" (header ++ line) 0 2000500000000).toOption.map fun st =>
      st.peers.map DevicePeer.lastHandshake) = some [some t] := by
    simp only [parse, String.toList_append]
    decide +kernel
  have hpoll' : ((parse "wg0" (header ++ line) d (2000500000000 + d)).toOption.map fun st =>
      st.peers.map fun p => (p.endpoint.isSome, p.lastHandshake)) = some [(true, some (t - d))] := by
    simp only [parse, String.toList_append]
    decide +kernel
  obtain ⟨st, hst, hpeers⟩ := Option.map_eq_some_iff.mp hpoll
  obtain ⟨st', hst', hpeers'⟩ := Option.map_eq_some_iff.mp hpoll'
  obtain ⟨p, hp, hlast⟩ := List.map_eq_singleton_iff.mp hpeers
  obtain ⟨q, hq, hlast'⟩ := List.map_eq_singleton_iff.mp hpeers'
  obtain ⟨hendpoint, hlast'⟩ := Prod.mk.inj hlast'
  refine ⟨st, st', p, q, toOption_eq_some_iff.mp hst, hp, toOption_eq_some_iff.mp hst', hq, hlast, hlast', ?_⟩
  intro s
  have hstale : ∀ u, q.lastHandshake = some u → Clock.handshakeValidity ≤ Clock.since d u := by
    intro u hu
    obtain rfl : t - d = u := Option.some.inj (hlast'.symm.trans hu)
    decide
  rw [← Bool.not_eq_false, PeerState.healthy_update_update none none none none hstale, hlast, hlast', not_or]
  exact ⟨by simpa [Option.isSome_iff_ne_none] using hendpoint, by decide⟩

end DeviceDump

end MeshFacts
