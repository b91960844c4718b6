import MeshFacts.Server
import MeshFacts.Proofs.BroadcastTurns
import MeshFacts.Proofs.FactHistories
import MeshFacts.Proofs.Reflection

/-! # Announcements
A node holds what it asserts, and what it holds it tells. To a peer that is not taken to know anything yet goes all that
concerns it, in as many packets as that takes, and nothing but what the node asserts. -/
namespace MeshFacts

namespace Link
variable {l : Link} {device : DeviceState} {interfaces : List NetInterface} {now : Instant} {f : Fact} {k : PublicKey}

lemma built_of_mem_localFacts (h : f ∈ l.localFacts device interfaces now) : f.Built := by
  simp only [localFacts, List.mem_append, List.mem_singleton, or_assoc] at h
  rcases h with h | h | rfl | h | h
  · obtain ⟨i, -, hf⟩ := List.mem_flatMap.mp h
    unfold interfaceFacts at hf
    split_ifs at hf
    · obtain ⟨n, -, rfl⟩ := List.mem_map.mp hf
      exact .allowedIps ..
    · obtain ⟨n, -, rfl⟩ := List.mem_map.mp hf
      exact .endpoint ..
  · obtain ⟨n, -, rfl⟩ := List.mem_map.mp h
    exact .allowedIps ..
  · exact .alive ..
  · obtain ⟨p, -, hf⟩ := List.mem_filterMap.mp h
    unfold workingEndpoint at hf
    split_ifs at hf
    obtain ⟨e, -, rfl⟩ := Option.map_eq_some_iff.mp hf
    exact .endpoint ..
  · obtain ⟨entry, -, hf⟩ := List.mem_flatMap.mp h
    rcases List.mem_cons.mp hf with rfl | hf
    · exact .membership ..
    · obtain ⟨n, -, rfl⟩ := List.mem_map.mp hf
      exact .allowedIps ..

lemma tellable_of_mem_localFacts (h : f ∈ l.localFacts device interfaces now) : f.Tellable :=
  ⟨.inl (built_of_mem_localFacts h), (Intake.brought_of_mem_localFacts h).not_group⟩

lemma membership_mem_localFacts (hk : l.config.peers.contains k = true) (hself : k ≠ l.self) :
    .membership k (now + Clock.factTtl) ∈ l.localFacts device interfaces now := by
  obtain ⟨entry, hentry⟩ := Option.isSome_iff_exists.mp hk
  have hmem : (k, entry) ∈ l.config.peers.entries.filter fun e => e.1 ≠ l.self :=
    List.mem_filter.mpr ⟨Table.find?_eq_some_iff.mp hentry, by simpa using hself⟩
  exact List.mem_append_right _ (List.mem_flatMap.mpr ⟨_, hmem, List.mem_cons_self⟩)

end Link

namespace Broadcast

variable {l : Link} {lost : Failures} {peer other : PublicKey} {chunk : FactChunk} {o s t : Outlet} {f : Fact}
  {told more : List Fact}

lemma makes_sendFacts (l : Link) (lost : Failures) (peer : PublicKey) (chunk : FactChunk) (o : Outlet) :
    Relation.ReflTransGen (Progress.Makes peer) o (sendFacts l lost peer chunk o).2 := by
  have hsteps : ∀ n, Relation.ReflTransGen (Progress.Makes peer) o
      ((Progress.step l lost peer chunk)^[n] (.begun, o)).2 := by
    intro n
    induction n with
    | zero => exact .refl
    | succ n ih =>
      rw [Function.iterate_succ_apply']
      exact ih.tail (Progress.makes_step ..)
  obtain ⟨n, hn⟩ := Progress.exists_iterate_step l lost peer chunk o
  have hsent := hsteps n
  rwa [hn] at hsent

lemma pair_sendFacts (l : Link) (lost : Failures) (peer : PublicKey) (chunk : FactChunk) (o : Outlet) :
    (sendFacts l lost peer chunk o).2.signer.pair = o.signer.pair := by
  have hsteps := makes_sendFacts l lost peer chunk o
  generalize (sendFacts l lost peer chunk o).2 = t at hsteps ⊢
  induction hsteps with
  | refl => rfl
  | tail _ hmakes ih => exact hmakes.pair.trans ih

lemma sameFor_sendFacts (hne : other ≠ peer) (l : Link) (lost : Failures) (chunk : FactChunk) (o : Outlet) :
    o.SameFor peer (sendFacts l lost other chunk o).2 := by
  have hsteps := makes_sendFacts l lost other chunk o
  generalize (sendFacts l lost other chunk o).2 = t at hsteps ⊢
  induction hsteps with
  | refl => exact .refl _ _
  | tail _ hmakes ih => exact ih.trans (hmakes.sameFor hne)

/-- Where no packet gets lost a peer is told whatever is selected for it. -/
lemma exists_ok_sendFacts (hc : ∀ f ∈ chunk.facts, f.Tellable) (hkept : ∀ n, lost peer n = false) (o : Outlet) :
    ∃ n, (sendFacts l lost peer chunk o).1 = .ok n := by
  obtain ⟨packing, included, hs, hheld, hmax, hnow, -⟩ :=
    select_holds l o.state.knowledge peer fun f hf => (hc f hf).packable
  obtain ⟨parts, -, hgroups⟩ := hheld.signedGroups hmax o.signer o.nonces peer
  rcases deliver_eq lost peer chunk.now (Signer.Groups.forall_le_max hgroups) o.sent with hd | ⟨-, n, hn⟩
  · exact ⟨(packing.signedGroups o.signer o.nonces peer).1.length, by simp only [sendFacts, hs, hd]⟩
  · rw [hkept n] at hn
    cases hn

/-- In the meantime these facts of a chunk have gone out to a peer, in a packet for each group. -/
structure Informed (peer : PublicKey) (chunk : FactChunk) (o t : Outlet) (told : List Fact) : Prop where
  sender : t.signer.pair = o.signer.pair
  packets : ∃ groups parts, t.packetsTo peer = o.packetsTo peer ++ groups.map (·.formAt chunk.now) ∧
    List.Forall₂ (o.signer.Groups peer chunk.now) groups parts ∧ parts.flatten = told
  mem : ∀ f ∈ told, f ∈ chunk.facts

namespace Informed

lemma of_sameFor (h : o.SameFor peer t) : Informed peer chunk o t [] :=
  ⟨h.sender, ⟨[], [], by simpa using h.packets, .nil, rfl⟩, by simp⟩

lemma trans (h : Informed peer chunk o s told) (h' : Informed peer chunk s t more) :
    Informed peer chunk o t (told ++ more) := by
  obtain ⟨groups, parts, hpackets, hgroups, rfl⟩ := h.packets
  obtain ⟨groups', parts', hpackets', hgroups', rfl⟩ := h'.packets
  refine ⟨h'.sender.trans h.sender, ⟨groups ++ groups', parts ++ parts', ?_, ?_, by simp⟩, ?_⟩
  · rw [hpackets', hpackets, List.map_append, List.append_assoc]
  · exact List.rel_append hgroups (hgroups'.imp fun f part => .congr h.sender)
  · exact List.forall_mem_append.mpr ⟨h.mem, h'.mem⟩

lemma exists_of_sendFacts (hc : ∀ f ∈ chunk.facts, f.Tellable) (hkept : ∀ n, lost peer n = false) (o : Outlet) :
    ∃ told, Informed peer chunk o (sendFacts l lost peer chunk o).2 told ∧
      ∀ f ∈ due o.state.knowledge peer chunk, f ∈ told := by
  obtain ⟨n, hn⟩ := exists_ok_sendFacts (l := l) hc hkept o
  obtain ⟨packing, parts, groups, hs, -, hgroups, hsent⟩ := sent_groups hc hn
  have hselected := selected_of_select hs
  refine ⟨parts.flatten, ⟨pair_sendFacts .., ⟨groups, parts, ?_, hgroups, rfl⟩, fun f hf => ?_⟩, hselected.due⟩
  · simp [Outlet.packetsTo, hsent, List.filter_map, Function.comp_def]
  · rcases hselected.told f hf with hdue | halive
    · exact (mem_due_iff.mp hdue).1
    · exact List.mem_reverse.mp (List.mem_of_find?_eq_some halive)

end Informed

/-- Of the peers told one after the other, each gets all that was due for it at first. -/
theorem exists_informed_sendAll (hc : ∀ f ∈ chunk.facts, f.Tellable) (hkept : ∀ n, lost peer n = false)
    (peers : List PublicKey) (o : Outlet) :
    ∃ told, Informed peer chunk o (sendAll l lost chunk peers o).2 told ∧
      (peer ∈ peers → ∀ f ∈ due o.state.knowledge peer chunk, f ∈ told) := by
  induction peers generalizing o with
  | nil => exact ⟨[], .of_sameFor (.refl _ _), by simp⟩
  | cons other peers ih =>
    obtain ⟨rest, hrest, hdue⟩ := ih (sendFacts l lost other chunk o).2
    by_cases hother : other = peer
    · subst hother
      obtain ⟨told, hfirst, hall⟩ := Informed.exists_of_sendFacts (l := l) hc hkept o
      exact ⟨told ++ rest, hfirst.trans hrest, fun _ f hf => List.mem_append_left _ (hall f hf)⟩
    · have hsame := sameFor_sendFacts hother l lost chunk o
      refine ⟨rest, (Informed.of_sameFor hsame).trans hrest, fun hmem f hf => ?_⟩
      obtain ⟨hin, hconcerns, hisDue⟩ := mem_due_iff.mp hf
      refine hdue (List.mem_of_ne_of_mem (Ne.symm hother) hmem) f (mem_due_iff.mpr ⟨hin, hconcerns, ?_⟩)
      rw [isDue_congr hsame.entries]
      exact hisDue

end Broadcast

namespace Server
variable {sv : Server} {peer k : PublicKey} {now : Instant} {received : ReceivedChunk} {f : Fact}

def firstHeld (sv : Server) (received : ReceivedChunk) (now : Instant) : FactChunk :=
  let accepts := sv.link.accepts (Opinion.standard sv.link.config.peers sv.device.peers) now
  ⟨Link.heldFacts [] ((received.facts.filter accepts).map ReceivedFact.fact)
      (sv.link.localFacts sv.device.state sv.interfaces now) now,
    now, sv.link.isLocalRouter sv.interfaces, received.print⟩

lemma process_of_read (hread : sv.device.read sv.link.config.iface = .ok sv.device.state) (hnone : sv.current = [])
    (received : ReceivedChunk) (now : Instant) :
    sv.process now received = (.ok (sv.firstHeld received now),
      { sv.withState { sv.outlet.state with
          cached := some sv.device.state
          knowledge := ((Link.noteReceived sv.outlet.state.knowledge received.facts).expire now).2 } with
        current := (sv.firstHeld received now).facts }) := by
  have hread : sv.outlet.state.device.read sv.link.config.iface = .ok sv.outlet.state.device.state := hread
  unfold process
  rw [hnone]
  simp only [Link.process, Link.refresh, hread]
  rfl

lemma mem_firstHeld (h : f ∈ (sv.firstHeld received now).facts) :
    (∃ r ∈ received.facts, r.fact = f) ∨ f ∈ sv.link.localFacts sv.device.state sv.interfaces now := by
  obtain ⟨-, hf | hf | hf⟩ := Link.mem_heldFacts h
  · cases hf
  · obtain ⟨r, hr, rfl⟩ := List.mem_map.mp hf
    exact .inl ⟨r, List.mem_of_mem_filter hr, rfl⟩
  · exact .inr hf

/-- That a configured peer is a member is held from the first chunk on. -/
lemma exists_mem_firstHeld (hk : sv.link.config.peers.contains k = true) (hself : k ≠ sv.link.self)
    (received : ReceivedChunk) (now : Instant) :
    ∃ f ∈ (sv.firstHeld received now).facts,
      f.kind = .membership ∧ f.subject = k ∧ now + Clock.factTtl ≤ f.expires := by
  have hown : .membership k (now + Clock.factTtl) ∈ sv.link.localFacts sv.device.state sv.interfaces now :=
    Link.membership_mem_localFacts hk hself
  have hlive : now < now + Clock.factTtl := lt_add_of_pos_right now (by decide)
  obtain ⟨f, hf, hkey, hle⟩ := Link.exists_mem_heldFacts (.inr (.inr hown)) hlive
  exact ⟨f, hf, congrArg FactKey.kind hkey, congrArg FactKey.subject hkey, hle⟩

/-- The packets to a peer when a node first processes what it has received and then tells its peers. -/
def packetsFor (sv : Server) (peer : PublicKey) (now : Instant) (received : ReceivedChunk) :
    Except EngineError (List (List UInt8)) :=
  match sv.process now received with
  | (.error e, _) => .error e
  | (.ok chunk, next) =>
    .ok (((next.broadcast chunk).2.outlet.packetsTo peer).drop (sv.outlet.packetsTo peer).length)

/-- A node that holds and knows nothing yet, is to tell a peer of its device, and loses no packet to it. -/
structure Announces (sv : Server) (peer : PublicKey) : Prop where
  readable : sv.device.read sv.link.config.iface = .ok sv.device.state
  own : sv.outlet.signer.publicKey = sv.link.self
  holds_nothing : sv.current = []
  knows_nothing : sv.outlet.state.knowledge = .empty
  listed : peer ∈ sv.device.peers.map DevicePeer.publicKey
  exchanger : sv.link.config.peers.isFactExchanger peer = true
  other : peer ≠ sv.link.self
  kept : ∀ n, sv.lost peer n = false

namespace Announces

lemma mem_recipients (h : sv.Announces peer) {s : LinkState} (hs : s.cached = some sv.device.state) :
    peer ∈ Broadcast.recipients sv.link s := by
  have htakes : decide (peer ≠ sv.link.self) && sv.link.config.peers.isFactExchanger peer := by
    simp [h.other, h.exchanger]
  simp only [Broadcast.recipients, hs]
  exact List.mem_filter.mpr ⟨h.listed, htakes⟩

/-- The first packets to a peer hold facts that the node asserts, among them that each configured peer is a member. -/
theorem exists_packetsFor (h : sv.Announces peer) (now : Instant) :
    ∃ (packets : List (List UInt8)) (told : List Fact), sv.packetsFor peer now {} = .ok packets ∧
      (∀ f ∈ told, f ∈ sv.link.localFacts sv.device.state sv.interfaces now) ∧
      (∀ k, sv.link.config.peers.contains k = true → k ≠ sv.link.self → k ≠ peer →
        ∃ f ∈ told, f.kind = .membership ∧ f.subject = k ∧ now + Clock.factTtl ≤ f.expires) ∧
      ∀ (q : Signer) (source : SocketAddr), q.publicKey = peer → sv.outlet.signer.Agrees q →
        source.ip = sv.link.self.overlayIp →
          Packet.unpackAll source now q packets = .ok (told.map fun f => ⟨f.asRead now, source, sv.link.self⟩) := by
  set o : Outlet := { sv.outlet with state := { sv.outlet.state with
    cached := some sv.device.state, knowledge := (Knowledge.empty.expire now).2 } }
  set chunk := sv.firstHeld {} now
  have hasserted : ∀ f ∈ chunk.facts, f ∈ sv.link.localFacts sv.device.state sv.interfaces now := fun f hf =>
    (mem_firstHeld hf).resolve_left (by simp)
  have htellable : ∀ f ∈ chunk.facts, f.Tellable := fun f hf => Link.tellable_of_mem_localFacts (hasserted f hf)
  obtain ⟨told, hinformed, hdue⟩ := Broadcast.exists_informed_sendAll (l := sv.link) htellable h.kept
    (Broadcast.recipients sv.link o.state) o
  obtain ⟨groups, parts, hpackets, hgroups, rfl⟩ := hinformed.packets
  refine ⟨groups.map (·.formAt now), parts.flatten, ?_, ?_, ?_, ?_⟩
  · have hprocess := process_of_read h.readable h.holds_nothing {} now
    rw [h.knows_nothing] at hprocess
    have hout : sv.packetsFor peer now {} = .ok ((Outlet.packetsTo (Broadcast.sendAll sv.link sv.lost chunk
        (Broadcast.recipients sv.link o.state) o).2 peer).drop (o.packetsTo peer).length) := by
      unfold packetsFor
      rw [hprocess]
      rfl
    rw [hout, hpackets, List.drop_left]
    rfl
  · exact fun f hf => hasserted f (hinformed.mem f hf)
  · intro k hk hself hpeer
    obtain ⟨f, hf, hkind, hsubject, hle⟩ := exists_mem_firstHeld hk hself {} now
    have hlive : now < f.expires := (Link.mem_heldFacts hf).1
    have hconcerns : Broadcast.concerns peer now f = true := by
      simp [Broadcast.concerns, hkind, hsubject, hpeer, Fact.isExpired, hlive]
    have hisDue : Broadcast.isDue o.state.knowledge peer now f = true := rfl
    have hfdue : f ∈ Broadcast.due o.state.knowledge peer chunk := Broadcast.mem_due_iff.mpr ⟨hf, hconcerns, hisDue⟩
    exact ⟨f, hdue (h.mem_recipients rfl) f hfdue, hkind, hsubject, hle⟩
  · rintro q source rfl hagrees hsource
    have hpackable : ∀ f ∈ parts.flatten, f.Packable := fun f hf => (htellable f (hinformed.mem f hf)).packable
    rw [← h.own] at hsource ⊢
    exact Packet.unpackAll_groups hgroups hpackable hagrees.symm hsource

end Announces

end Server

end MeshFacts
