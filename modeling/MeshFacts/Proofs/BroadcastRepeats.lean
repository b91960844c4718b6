import MeshFacts.Proofs.BroadcastTurns

/-! # Broadcasts again
A broadcast makes a peer know what it is to know for as long as it is to know it, so that the same broadcast again has
nothing left to tell it. -/
namespace MeshFacts.Broadcast
variable {l : Link} {lost : Failures} {chunk : FactChunk} {o t : Outlet} {peer : PublicKey} {f : Fact}
  {parts : List (List Fact)}

lemma ownAlive_of_mem {self : PublicKey} {facts : List Fact}
    (hone : (facts.filter fun f => f.kind = .alive ∧ f.subject = self).length ≤ 1) (hf : f ∈ facts)
    (hkind : f.kind = .alive) (hsubject : f.subject = self) : ownAlive self facts = some f := by
  have hown : ∀ g ∈ facts, g.kind = .alive ∧ g.subject = self →
      g ∈ facts.filter fun f => f.kind = .alive ∧ f.subject = self := fun g hg h => by simp [hg, h]
  have hmem := hown f hf ⟨hkind, hsubject⟩
  obtain ⟨x, hx⟩ := List.length_eq_one_iff.mp (le_antisymm hone (List.length_pos_of_mem hmem))
  rw [hx] at hown hmem
  cases h : ownAlive self facts with
  | none =>
    have hnot := List.find?_eq_none.mp h f (List.mem_reverse.mpr hf)
    simp [hkind, hsubject] at hnot
  | some g =>
    have hg := hown g (List.mem_reverse.mp (List.mem_of_find?_eq_some h)) (by simpa using List.find?_some h)
    rw [List.mem_singleton.mp hmem, List.mem_singleton.mp hg]

/-- Once a peer has been told, nothing of the same chunk is selected for it. -/
lemma Told.plans (h : Told l peer chunk o parts t) : Plans l t.state.knowledge peer chunk [] := by
  obtain ⟨packing, hselect⟩ := h.selected
  have hselected := selected_of_select hselect
  have hdue : due t.state.knowledge peer chunk = [] := by
    refine List.filter_eq_nil_iff.mpr fun f hf => ?_
    rw [isDue_congr h.entries, Bool.and_eq_true]
    rintro ⟨hconcerns, hdue⟩
    simp [isDue_noteSent hselected hf hconcerns] at hdue
  have halive : ∀ f, ownAlive l.self chunk.facts = some f →
      t.state.knowledge.peerKnows peer f Clock.alivePeriod = true := fun f hf =>
    (peerKnows_congr h.entries f _).trans (peerKnows_noteSent hselected hf)
  intro packing included hagain
  obtain ⟨rfl, rfl⟩ := eq_of_quiet hagain hdue halive
  exact ⟨rfl, rfl, rfl, by simp⟩

lemma Stage.packets_of_nil {g : Progress} (h : Stage l lost peer chunk o [] g t) :
    t.packetsTo peer = o.packetsTo peer := by
  have hgone : ∀ {n}, Gone lost peer chunk o [] n t → t.packetsTo peer = o.packetsTo peer := fun h => by
    obtain ⟨new, hnew, hcarry⟩ := h.packets
    rw [List.take_nil, List.forall₂_nil_right_iff] at hcarry
    rw [hnew, hcarry, List.append_nil]
  cases h with
  | begun h | refused _ h => exact h.packets
  | sending _ h | failed _ h | told _ h => exact hgone h

lemma recipients_run (lost : Failures) (chunk : FactChunk) (turns : List ℕ) (o : Outlet) :
    recipients l (Telling.run l lost chunk turns o).outlet.state = recipients l o.state := by
  simp only [recipients, Telling.cached_run]

lemma count_recipients {s : LinkState} {d : DeviceState} (hcached : s.cached = some d)
    (hone : (d.peers.map DevicePeer.publicKey).count peer = 1) (hpeer : peer ∈ recipients l s) :
    (recipients l s).count peer = 1 := by
  simp only [recipients, hcached] at hpeer ⊢
  have htakes := (List.mem_filter.mp hpeer).2
  exact (List.count_filter (p := fun k => k ≠ l.self && l.config.peers.isFactExchanger k) htakes).trans hone

lemma Told.of_mem (h : Told l peer chunk o parts t) (hf : f ∈ parts.flatten) :
    f ∈ chunk.facts ∧ (concerns peer chunk.now f = true ∨ f.kind = .alive ∧ f.subject = l.self) := by
  obtain ⟨packing, hselect⟩ := h.selected
  rcases (selected_of_select hselect).told f hf with hdue | halive
  · obtain ⟨hmem, hconcerns, -⟩ := mem_due_iff.mp hdue
    exact ⟨hmem, .inl hconcerns⟩
  · have hown : f.kind = .alive ∧ f.subject = l.self := by simpa using List.find?_some halive
    exact ⟨List.mem_reverse.mp (List.mem_of_find?_eq_some halive), .inr hown⟩

/-- A peer that got its packets knows all that concerns it for nearly as long as may be, was not told what it is not
to be told, and gets nothing of the same chunk again. -/
theorem told_once (l : Link) (lost : Failures) (chunk : FactChunk) (o : Outlet) (d : DeviceState) (peer : PublicKey)
    (hcached : o.state.cached = some d) (hone : (d.peers.map DevicePeer.publicKey).count peer = 1)
    (halive : (chunk.facts.filter fun f => f.kind = .alive ∧ f.subject = l.self).length ≤ 1) :
    (∃ b : Telling, b.Ends l lost chunk o ∧ run l lost chunk o = (b.count, b.outlet)) ∧
    ∀ (b : Telling) (n : ℕ), b.Ends l lost chunk o → (peer, .done (.ok n)) ∈ b.parties →
      (∀ f ∈ chunk.facts, f.kind ≠ .alive → f.isExpired chunk.now = false →
        f.subject ≠ peer ∨ f.kind.isEndpoint = true →
        ∃ t, b.outlet.state.knowledge.until? f.key peer = some t ∧
          min (chunk.now + Clock.refreshWindow) (f.expires - Clock.chunkPeriod) ≤ t) ∧
      (∀ f ∈ chunk.facts, f.kind = .alive → f.subject = l.self →
        ∃ t, b.outlet.state.knowledge.until? f.key peer = some t ∧ f.expires - Clock.alivePeriod ≤ t) ∧
      (∃ parts, parts.length = n ∧ Told l peer chunk o parts b.outlet ∧ ∀ f ∈ parts.flatten, f ∈ chunk.facts ∧
        (f.subject = peer → f.kind.isEndpoint = true) ∧ (f.kind = .alive → f.subject = l.self)) ∧
      (∀ (lost' : Failures) (b' : Telling), b'.Ends l lost' chunk b.outlet →
        b'.outlet.packetsTo peer = b.outlet.packetsTo peer) ∧
      ∀ lost' : Failures, (run l lost' chunk b.outlet).2.packetsTo peer = b.outlet.packetsTo peer := by
  refine ⟨Telling.exists_ends l lost chunk o, ?_⟩
  rintro b n ⟨-, turns, rfl⟩ hg
  have hpeer : peer ∈ recipients l o.state := by
    rw [← Telling.keys_run l lost chunk turns o]
    exact List.mem_map_of_mem hg
  have hself : peer ≠ l.self := by
    simp only [recipients, hcached, List.mem_filter, Bool.and_eq_true, decide_eq_true_eq] at hpeer
    exact hpeer.2.1
  have hcount := count_recipients hcached hone hpeer
  obtain ⟨parts, hplan⟩ := exists_plans l o.state.knowledge peer chunk
  obtain ⟨hn, htold⟩ := (Telling.stage_run hcount hplan turns _ hg).told_of_ok
  obtain ⟨packing, hselect⟩ := htold.selected
  have hselected := selected_of_select hselect
  have hquiet : ∀ (lost' : Failures) (b' : Telling),
      b'.Ends l lost' chunk (Telling.run l lost chunk turns o).outlet →
      b'.outlet.packetsTo peer = (Telling.run l lost chunk turns o).outlet.packetsTo peer := by
    rintro lost' b' ⟨-, turns', rfl⟩
    have hkey : peer ∈ (Telling.run l lost' chunk turns' (Telling.run l lost chunk turns o).outlet).keys := by
      rwa [Telling.keys_run, recipients_run]
    obtain ⟨⟨_, g⟩, hg', rfl⟩ := List.mem_map.mp hkey
    exact (Telling.stage_run (by rwa [recipients_run]) htold.plans turns' g hg').packets_of_nil
  refine ⟨fun f hf hkind hlive hother => ?_, fun f hf hkind hsubject => ?_,
    ⟨parts, hn.symm, htold, fun f hf => ?_⟩, hquiet, fun lost' => ?_⟩
  · have hconcerns : concerns peer chunk.now f = true := by simp [concerns, hkind, hlive, hother]
    rw [← isDue_eq_false_iff, isDue_congr htold.entries]
    exact isDue_noteSent hselected hf hconcerns
  · rw [← Knowledge.peerKnows_eq_true_iff, peerKnows_congr htold.entries]
    exact peerKnows_noteSent hselected (ownAlive_of_mem halive hf hkind hsubject)
  · obtain ⟨hmem, hconcerns | ⟨hkind, hsubject⟩⟩ := htold.of_mem hf
    · simp only [concerns, Bool.and_eq_true, Bool.or_eq_true, decide_eq_true_eq] at hconcerns
      obtain ⟨⟨hkind, -⟩, hother⟩ := hconcerns
      exact ⟨hmem, fun hs => hother.resolve_left fun hne => hne hs, fun hk => absurd hk hkind⟩
    · exact ⟨hmem, fun hs => absurd (hs.symm.trans hsubject) hself, fun _ => hsubject⟩
  · obtain ⟨b', hends, hrun⟩ := Telling.exists_ends l lost' chunk (Telling.run l lost chunk turns o).outlet
    rw [hrun]
    exact hquiet lost' b' hends

/-- One member the peer knows already, another it does not. A peer that the device has twice gets no packet. -/
theorem told_once_near :
    let near : PublicKey := ⟨.ofNatLE 32 1⟩
    let other : PublicKey := ⟨.ofNatLE 32 2⟩
    let device : DeviceState :=
      ⟨"wg0", default, 51820, [{ publicKey := other }, { publicKey := near }, { publicKey := other }]⟩
    let l : Link := { (default : Link) with self := ⟨.ofNatLE 32 3⟩ }
    let kept : Fact := .membership ⟨.ofNatLE 32 4⟩ 250000000000
    let due : Fact := .membership ⟨.ofNatLE 32 5⟩ 200000000000
    let own : Fact := .alive l.self (.zero 16) 255000000000
    let facts : List Fact := [kept, due, .endpoint near (.ofIp (.v4 0x0a000001) 51820) 90000000000,
      .membership near 250000000000, .alive other (.zero 16) 250000000000, own]
    let chunk : FactChunk := ⟨facts, 0, false, false⟩
    let knowledge : Knowledge := (Knowledge.empty.note kept.key near 246000000000).2
    let o : Outlet := { (default : Outlet) with
      state := { (default : LinkState) with cached := some device, knowledge := knowledge } }
    let lost : Failures := fun k _ => k = other
    let b := Telling.run l lost chunk [0, 1, 2, 1, 0, 2, 1] o
    b.parties = [(other, .done (.error .io)), (near, .done (.ok 1)), (other, .done (.error .io))] ∧
      (∃ t, b.outlet.state.knowledge.until? kept.key near = some t ∧ 225000000000 ≤ t) ∧
      (∃ t, b.outlet.state.knowledge.until? due.key near = some t ∧ 195000000000 ≤ t) ∧
      (∃ t, b.outlet.state.knowledge.until? own.key near = some t ∧ 225000000000 ≤ t) ∧
      (∃ parts : List (List Fact), parts.length = 1 ∧ ∀ f ∈ parts.flatten, f ∈ facts ∧
        (f.subject = near → f.kind.isEndpoint = true) ∧ (f.kind = .alive → f.subject = l.self)) ∧
      (run l (fun _ _ => false) chunk b.outlet).2.packetsTo near = b.outlet.packetsTo near := by
  intro near other device l kept due own facts chunk knowledge o lost b
  have hb : b.parties = [(other, .done (.error .io)), (near, .done (.ok 1)), (other, .done (.error .io))] := by
    decide +kernel
  have hends : b.Ends l lost chunk o := ⟨by simp [Telling.IsOver, hb], _, rfl⟩
  obtain ⟨-, hall⟩ := told_once l lost chunk o device near rfl (by decide +kernel) (by decide +kernel)
  obtain ⟨hknown, halive, ⟨parts, hlength, -, hparts⟩, -, hagain⟩ := hall b 1 hends (by simp [hb])
  refine ⟨hb, ?_, ?_, ?_, ⟨parts, hlength, hparts⟩, hagain _⟩
  · exact hknown kept (by simp [chunk, facts]) (by decide) (by decide) (.inl (by decide))
  · exact hknown due (by simp [chunk, facts]) (by decide) (by decide) (.inl (by decide))
  · exact halive own (by simp [chunk, facts]) rfl rfl

end MeshFacts.Broadcast
