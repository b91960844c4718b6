import MeshFacts.Proofs.PeerHistories
import MeshFacts.Proofs.Removals

/-! # Who vouches for removals
A pass removes peers only on the strength of a source of members, and what it knows of the source is the source's
history. That goes back to the last pass that saw the source, which may be long ago: a source that is configured
keeps its history while it is off the device. So a removal rests on a source that worked and was alive when it was
last seen. Only if the source is seen at every pass does that make it one that works now. -/
namespace MeshFacts

namespace Reconcile
variable {l : Link} {peers : List DevicePeer} {chunk : FactChunk} {s : LinkState} {k : PublicKey}

/-- The sources of members: the peers configured to introduce them, or if there are none the routers. -/
def IsSource (l : Link) (peers : List DevicePeer) (k : PublicKey) : Prop :=
  (∃ level, l.config.peers.trust? k = some level ∧ .addPeer ≤ level) ∨
    ¬ l.config.peers.Introduces ∧ ∃ p ∈ peers, p.publicKey = k ∧ p.isRouter = true

lemma isSource_of_mem_sources (h : k ∈ sources l peers) : IsSource l peers k := by
  unfold sources at h
  split_ifs at h with hauto
  · obtain ⟨p, hp, rfl⟩ := List.mem_map.mp h
    obtain ⟨hp, hrouter⟩ := List.mem_filter.mp hp
    exact .inr ⟨isAutomatic_iff.mp hauto, p, hp, rfl, hrouter⟩
  · exact .inl (PeerTable.mem_membershipSources.mp h)

lemma IsSource.mem_membershipSources (h : IsSource l peers k)
    (hsome : l.config.peers.hasMembershipSources = true) : k ∈ l.config.peers.membershipSources := by
  rcases h with h | ⟨hnone, -⟩
  · exact PeerTable.mem_membershipSources.mpr h
  · exact absurd (PeerTable.hasMembershipSources_iff.mp hsome) hnone

lemma isComplete_iff {st : PeerState} {now : Instant} : isComplete st now = true ↔
    st.healthy = true ∧ (∃ t, st.aliveSince = some t ∧ t + Clock.minAliveForDelete ≤ now) ∧
      ∃ t, st.aliveUntil = some t ∧ now + Clock.minStillAliveForDelete < t := by
  have hlong : Clock.minAliveForDelete ≤ st.aliveFor now ↔
      ∃ t, st.aliveSince = some t ∧ t + Clock.minAliveForDelete ≤ now := by
    cases hsince : st.aliveSince with
    | none => simp [PeerState.aliveFor, hsince, Clock.minAliveForDelete, Clock.factTtl, Clock.second]
    | some t => simp [PeerState.aliveFor, hsince, Clock.le_since_iff (show 0 < Clock.minAliveForDelete by decide)]
  have hstill : Clock.minStillAliveForDelete < st.stillAliveFor now ↔
      ∃ t, st.aliveUntil = some t ∧ now + Clock.minStillAliveForDelete < t := by
    cases huntil : st.aliveUntil with
    | none => simp [PeerState.stillAliveFor, huntil]
    | some t => simp [PeerState.stillAliveFor, huntil, Clock.lt_since_iff]
  simp only [isComplete, Bool.and_eq_true, decide_eq_true_eq, hlong, hstill, and_assoc]

/-- A pass removes peers only if it may when it comes to that. -/
lemma mayRemove_of_removed (hk : k ∈ removed l chunk s) :
    s.device.read l.config.iface = .ok s.device.state ∧ mayRemove l s.device.peers chunk
      (beforeRemovals l s.device.peers chunk { s with cached := some s.device.state }) = true := by
  by_cases hread : s.device.read l.config.iface = .ok s.device.state
  · refine ⟨hread, ?_⟩
    by_contra hmay
    have hpass : (pass l chunk s).2 =
        beforeRemovals l s.device.peers chunk { s with cached := some s.device.state } := by
      rw [pass_of_read hread, passOn_eq]
      simp [deletePeers, hmay]
    obtain ⟨made, hdevice, hkeeps⟩ :=
      updatedBy_beforeRemovals l s.device.peers chunk { s with cached := some s.device.state }
    obtain ⟨u, hu, hremove, -⟩ := (mem_removed_of_made (hpass ▸ hdevice)).mp hk
    simp [hkeeps u hu] at hremove
  · have hdevice : (pass l chunk s).2.device = [].foldl MemoryDevice.make s.device := by
      rw [pass_of_unread hread, List.foldl_nil]
    obtain ⟨u, hu, -⟩ := (mem_removed_of_made hdevice).mp hk
    cases hu

end Reconcile

/-- A pass as a node comes to it, with the device as others have left it. -/
structure Visit where
  device : MemoryDevice
  knowledge : Knowledge
  chunk : FactChunk

namespace Visit
variable {l : Link} {s : LinkState} {v w : Visit} {k : PublicKey} {st seen : PeerState}

def time (v : Visit) : Instant := v.chunk.now

def enter (v : Visit) (s : LinkState) : LinkState := { s with device := v.device, knowledge := v.knowledge }

def run (l : Link) (s : LinkState) (visits : List Visit) : LinkState :=
  visits.foldl (fun s v => (Reconcile.pass l v.chunk (v.enter s)).2) s

def Reads (l : Link) (v : Visit) : Prop := v.device.read l.config.iface = .ok v.device.state

def Sees (l : Link) (k : PublicKey) (v : Visit) : Prop := v.Reads l ∧ k ∈ v.device.peers.map DevicePeer.publicKey

def Works (l : Link) (s : LinkState) (k : PublicKey) (v : Visit) : Prop :=
  (Reconcile.observe l v.device.peers v.time (v.enter s)).states.isHealthy k = true

def Alive (k : PublicKey) (margin : Span) (v : Visit) : Prop :=
  ∃ t, v.knowledge.aliveUntil? k = some t ∧ v.time + margin < t

/-- The peer is alive, and tells of no start but one. -/
def Stays (k : PublicKey) (start : Option Uuid) (v : Visit) : Prop :=
  v.Alive k 0 ∧ ∀ i, v.knowledge.bootId? k = some i → start = some i

/-- Since a pass at an instant, each pass that sees the peer finds it alive and of one start. -/
def Streak (l : Link) (visits : List Visit) (k : PublicKey) (start : Option Uuid) (t : Instant) : Prop :=
  ∃ before v after, visits = before ++ v :: after ∧ v.Sees l k ∧ v.time = t ∧
    ∀ w ∈ v :: after, w.Sees l k → w.Stays k start

/-- What a history says goes back to passes that saw the peer. -/
structure Traced (l : Link) (s : LinkState) (visits : List Visit) (k : PublicKey) (st : PeerState) : Prop where
  ne_self : k ≠ l.self
  last : ∃ before v after, visits = before ++ v :: after ∧ v.Sees l k ∧ (∀ w ∈ after, ¬ w.Sees l k) ∧
    (st.healthy = true → v.Works l (run l s before) k) ∧
    ∀ t, st.aliveUntil = some t → v.knowledge.aliveUntil? k = some t
  streak : ∀ t, st.aliveSince = some t → Streak l visits k st.lastBootId t

lemma run_append (l : Link) (s : LinkState) (visits : List Visit) (v : Visit) :
    run l s (visits ++ [v]) = (Reconcile.pass l v.chunk (v.enter (run l s visits))).2 := by
  rw [run, List.foldl_append]
  rfl

lemma Traced.congr {visits : List Visit} (h : Traced l s visits k seen) (he : seen.evidence = st.evidence) :
    Traced l s visits k st := by
  simp only [PeerState.evidence, Prod.mk.injEq] at he
  obtain ⟨hhealthy, hsince, huntil, hboot⟩ := he
  exact ⟨h.ne_self, hhealthy ▸ huntil ▸ h.last, hsince ▸ hboot ▸ h.streak⟩

lemma Streak.append {visits : List Visit} {start start' : Option Uuid} {t : Instant}
    (h : Streak l visits k start t) (hstart : ∀ i, start = some i → start' = some i)
    (hv : v.Sees l k → v.Stays k start') : Streak l (visits ++ [v]) k start' t := by
  obtain ⟨before, w, after, rfl, hsees, htime, hall⟩ := h
  refine ⟨before, w, after ++ [v], by simp, hsees, htime, ?_⟩
  intro x hx hxsees
  rw [← List.cons_append] at hx
  rcases List.mem_append.mp hx with hx | hx
  · obtain ⟨halive, htold⟩ := hall x hx hxsees
    exact ⟨halive, fun i hi => hstart i (htold i hi)⟩
  · obtain rfl := List.mem_singleton.mp hx
    exact hv hxsees

lemma Traced.unseen {visits : List Visit} (h : Traced l s visits k st) (hv : ¬ v.Sees l k) :
    Traced l s (visits ++ [v]) k st := by
  refine ⟨h.ne_self, ?_, fun t ht => (h.streak t ht).append (fun _ hi => hi) (absurd · hv)⟩
  obtain ⟨before, w, after, rfl, hsees, hafter, hrest⟩ := h.last
  refine ⟨before, w, after ++ [v], by simp, hsees, ?_, hrest⟩
  intro x hx
  rcases List.mem_append.mp hx with hx | hx
  · exact hafter x hx
  · obtain rfl := List.mem_singleton.mp hx
    exact hv

/-- A streak either begins with an observation or was there before it, with no other start told of. -/
lemma streak_of_observes {visits : List Visit} {old : PeerState}
    (hold : ∀ t, old.aliveSince = some t → Streak l visits k old.lastBootId t)
    (h : old.Observes (v.knowledge.aliveUntil? k) (v.knowledge.bootId? k) v.time st) (hv : v.Sees l k) {t : Instant}
    (ht : st.aliveSince = some t) : Streak l (visits ++ [v]) k st.lastBootId t := by
  obtain ⟨⟨e, he, hlater⟩, hbegin⟩ := h.streak t ht
  have hstays : v.Stays k st.lastBootId := by
    refine ⟨⟨e, he, by simpa using hlater⟩, fun i hi => ?_⟩
    rw [h.bootId, hi]
    rfl
  rcases hbegin with rfl | ⟨hsince, hsame⟩
  · refine ⟨visits, v, [], rfl, hv, rfl, ?_⟩
    intro x hx _
    obtain rfl := List.mem_singleton.mp hx
    exact hstays
  · refine (hold t hsince).append (fun i hi => ?_) fun _ => hstays
    rw [h.bootId]
    cases hid : v.knowledge.bootId? k with
    | none => exact hi
    | some j => exact congrArg some (hsame j i hid hi)

/-- One pass: what it observes goes back to it or to the passes before. -/
lemma traced_observe {visits : List Visit}
    (hprior : ∀ st, (run l s visits).states.find? k = some st → Traced l s visits k st) (hreads : v.Reads l)
    (h : (Reconcile.observe l v.device.peers v.time (v.enter (run l s visits))).states.find? k = some st) :
    Traced l s (visits ++ [v]) k st := by
  by_cases hseen : Reconcile.sightings l v.device.peers k = []
  · rw [Reconcile.find?_observe, hseen] at h
    have htraced := hprior st h
    refine htraced.unseen fun hv => ?_
    exact (Reconcile.sightings_eq_nil_iff.mp hseen).elim (absurd hv.2) (absurd · htraced.ne_self)
  · have hobserves := Reconcile.observes_of_sightings hseen h
    rw [Reconcile.sightings_eq_nil_iff, not_or, not_not] at hseen
    obtain ⟨hmem, hself⟩ := hseen
    have hv : v.Sees l k := ⟨hreads, hmem⟩
    refine ⟨hself, ⟨visits, v, [], rfl, hv, by simp, ?_, hobserves.lasting⟩, ?_⟩
    · intro hhealthy
      simp [Works, PeerStates.isHealthy, h, hhealthy]
    · intro t ht
      refine streak_of_observes (fun t ht => ?_) hobserves hv ht
      cases hst : (run l s visits).states.find? k with
      | none => simp [enter, PeerStates.get, hst] at ht
      | some old =>
        have hget : (v.enter (run l s visits)).states.get k = old := by simp [enter, PeerStates.get, hst]
        rw [hget] at ht ⊢
        exact (hprior old hst).streak t ht

/-- A whole run: every history goes back to the passes that saw its peer. -/
theorem traced_run (hs : s.states = .empty) (visits : List Visit) :
    ∀ st, (run l s visits).states.find? k = some st → Traced l s visits k st := by
  induction visits using List.reverseRecOn with
  | nil =>
    intro st h
    rw [run, List.foldl_nil, hs] at h
    cases h
  | append_singleton visits v ih =>
    intro st h
    rw [run_append] at h
    by_cases hreads : v.Reads l
    · rw [Reconcile.pass_of_read (s := v.enter (run l s visits)) hreads] at h
      obtain ⟨seen, hseen, he⟩ := Reconcile.evidence_of_passOn h
      exact (traced_observe ih hreads hseen).congr he
    · rw [Reconcile.pass_of_unread (s := v.enter (run l s visits)) hreads] at h
      exact (ih st h).unseen fun hv => hreads hv.1

/-- A source vouches for removals: it works, will be alive for a while, and was there, alive and of one start whenever
the device was read of late. -/
structure Vouches (l : Link) (s : LinkState) (visits : List Visit) (v : Visit) (k : PublicKey) : Prop where
  source : Reconcile.IsSource l v.device.peers k
  present : v.Sees l k
  works : v.Works l (run l s visits) k
  lasting : v.Alive k Clock.minStillAliveForDelete
  steady : ∃ start, ∀ w ∈ visits ++ [v], w.Reads l → v.time < w.time + Clock.minAliveForDelete →
    w.Sees l k ∧ w.Stays k start

lemma eq_of_sees_last {visits before after : List Visit} (h : visits ++ [v] = before ++ w :: after)
    (hv : v.Sees l k) (hafter : ∀ x ∈ after, ¬ x.Sees l k) : before = visits ∧ w = v := by
  rcases after.eq_nil_or_concat with rfl | ⟨rest, x, rfl⟩
  · obtain ⟨hvisits, hlast⟩ := List.append_inj' h rfl
    exact ⟨hvisits.symm, (List.singleton_inj.mp hlast).symm⟩
  · rw [List.concat_eq_append, ← List.cons_append, ← List.append_assoc] at h
    obtain ⟨-, hlast⟩ := List.append_inj' h rfl
    obtain rfl := List.singleton_inj.mp hlast
    exact absurd hv (hafter v (by simp))

/-- A pass that removes a peer has a source that worked when last seen and had been alive for long enough at all
passes that saw it. If all recent passes saw it, the source vouches for the removal. -/
theorem removed_vouched {visits : List Visit} (hs : s.states = .empty)
    (htimes : (visits ++ [v]).Pairwise fun a b => a.time ≤ b.time)
    (hk : k ∈ Reconcile.removed l v.chunk (v.enter (run l s visits))) :
    ∃ source, Reconcile.IsSource l v.device.peers source ∧
      (∃ before w after t, visits ++ [v] = before ++ w :: after ∧ w.Sees l source ∧
        (∀ x ∈ after, ¬ x.Sees l source) ∧ w.Works l (run l s before) source ∧
          w.knowledge.aliveUntil? source = some t ∧ v.time + Clock.minStillAliveForDelete < t) ∧
      (∃ start t, Streak l (visits ++ [v]) source start t ∧ t + Clock.minAliveForDelete ≤ v.time) ∧
      ((∀ w ∈ visits ++ [v], w.Reads l → v.time < w.time + Clock.minAliveForDelete → w.Sees l source) →
        Vouches l s visits v source) := by
  obtain ⟨hreads, hmay⟩ := Reconcile.mayRemove_of_removed hk
  simp only [Reconcile.mayRemove, Bool.and_eq_true, List.any_eq_true, Option.any_eq_true] at hmay
  obtain ⟨-, source, hsource, st, hst, hcomplete⟩ := hmay
  obtain ⟨seen, hseen, he⟩ := Reconcile.evidence_of_beforeRemovals hst
  have htraced : Traced l s (visits ++ [v]) source st :=
    (traced_observe (traced_run hs visits) hreads hseen).congr he
  obtain ⟨hhealthy, ⟨t, hsince, hlong⟩, e, huntil, hstill⟩ := Reconcile.isComplete_iff.mp hcomplete
  obtain ⟨before, w, after, hlist, hsees, hafter, hworks, hlasting⟩ := htraced.last
  have hstreak := htraced.streak t hsince
  refine ⟨source, Reconcile.isSource_of_mem_sources hsource, ⟨before, w, after, e, hlist, hsees, hafter,
    hworks hhealthy, hlasting e huntil, hstill⟩, ⟨_, t, hstreak, hlong⟩, ?_⟩
  intro hwindow
  have hnow : v.time < v.time + Clock.minAliveForDelete := Int.lt_add_of_pos_right _ (by decide)
  have hv := hwindow v (by simp) hreads hnow
  obtain ⟨rfl, rfl⟩ := eq_of_sees_last hlist hv hafter
  refine ⟨Reconcile.isSource_of_mem_sources hsource, hv, hworks hhealthy, ⟨e, hlasting e huntil, hstill⟩,
    st.lastBootId, ?_⟩
  intro x hx hxreads hrecent
  have hxsees := hwindow x hx hxreads hrecent
  obtain ⟨earlier, first, later, hlist, -, rfl, hstays⟩ := hstreak
  refine ⟨hxsees, hstays x ?_ hxsees⟩
  rw [hlist] at hx htimes
  rcases List.mem_append.mp hx with hx | hx
  · have hbefore := (List.pairwise_append.mp htimes).2.2 x hx first (by simp)
    exact absurd (hrecent.trans_le ((Int.add_le_add_right hbefore _).trans hlong)) (lt_irrefl _)
  · exact hx

/-- A source that every pass sees vouches for the removal of a peer that nobody introduced. -/
theorem removed_vouched_present :
    let authority : PublicKey := ⟨.ofNatLE 32 1⟩
    let orphan : PublicKey := ⟨.ofNatLE 32 2⟩
    let peers : PeerTable := .ofList [(authority, { trust := some .addPeer })]
    let l : Link :=
      { config := { iface := "wg0", peers := peers }, self := ⟨.ofNatLE 32 3⟩, bootId := .zero 16, started := 0,
        resolve := fun _ => [] }
    let seen (handshake : Instant) : DevicePeer :=
      { publicKey := authority, endpoint := some (.ofIp authority.overlayIp 5), lastHandshake := some handshake }
    let visit (now expires : Int) (others : List DevicePeer) : Visit :=
      { device := { state := ⟨"wg0", default, 51820, { publicKey := orphan } :: others⟩ },
        knowledge := (Knowledge.empty.received (.alive authority (.zero 16) (expires * 1000000000)) authority).2,
        chunk := ⟨[], now * 1000000000, false, false⟩ }
    let start : LinkState := { device := { state := ⟨"wg0", default, 51820, []⟩ } }
    let visits := [visit 0 250 [seen 0], visit 200 440 [seen 190000000000]]
    let last := visit 260 440 [seen 190000000000]
    orphan ∈ Reconcile.removed l last.chunk (last.enter (run l start visits)) ∧
      Vouches l start visits last authority := by
  intro authority orphan peers l seen visit start visits last
  have hremoved : orphan ∈ Reconcile.removed l last.chunk (last.enter (run l start visits)) := by decide +kernel
  obtain ⟨source, hsource, -, -, hvouches⟩ := removed_vouched rfl (by decide +kernel) hremoved
  have hmem := hsource.mem_membershipSources (by decide +kernel)
  have hsources : l.config.peers.membershipSources = [authority] := by decide +kernel
  rw [hsources, List.mem_singleton] at hmem
  subst hmem
  have hthere : ∀ w ∈ visits ++ [last], authority ∈ w.device.peers.map DevicePeer.publicKey := by
    decide +kernel
  exact ⟨hremoved, hvouches fun w hw hreads _ => ⟨hreads, hthere w hw⟩⟩

/-- A source that is no longer there does not vouch for a removal, but the peer is removed. -/
theorem removed_unvouched :
    let authority : PublicKey := ⟨.ofNatLE 32 1⟩
    let orphan : PublicKey := ⟨.ofNatLE 32 2⟩
    let peers : PeerTable := .ofList [(authority, { trust := some .addPeer })]
    let l : Link :=
      { config := { iface := "wg0", peers := peers }, self := ⟨.ofNatLE 32 3⟩, bootId := .zero 16, started := 0,
        resolve := fun _ => [] }
    let seen (handshake : Instant) : DevicePeer :=
      { publicKey := authority, endpoint := some (.ofIp authority.overlayIp 5), lastHandshake := some handshake }
    let visit (now expires : Int) (others : List DevicePeer) : Visit :=
      { device := { state := ⟨"wg0", default, 51820, { publicKey := orphan } :: others⟩ },
        knowledge := (Knowledge.empty.received (.alive authority (.zero 16) (expires * 1000000000)) authority).2,
        chunk := ⟨[], now * 1000000000, false, false⟩ }
    let start : LinkState := { device := { state := ⟨"wg0", default, 51820, []⟩ } }
    let visits := [visit 0 250 [seen 0], visit 200 440 [seen 190000000000]]
    let last := visit 260 440 []
    (visits ++ [last]).Pairwise (fun a b => a.time ≤ b.time) ∧
      orphan ∈ Reconcile.removed l last.chunk (last.enter (run l start visits)) ∧
        ∀ k, ¬ Vouches l start visits last k := by
  intro authority orphan peers l seen visit start visits last
  refine ⟨by decide +kernel, by decide +kernel, ?_⟩
  intro k h
  have hmem := h.source.mem_membershipSources (by decide +kernel)
  have hsources : l.config.peers.membershipSources = [authority] := by decide +kernel
  rw [hsources, List.mem_singleton] at hmem
  subst hmem
  exact absurd h.present.2 (by decide +kernel)

end Visit

end MeshFacts
