import MeshFacts.Proofs.Outcomes
import MeshFacts.Proofs.PeerIndependence
import MeshFacts.Proofs.ToolRequests

/-! # Updates by commands
A device behind the `wg` tool against a device in memory under the same updates. The tool is told networks as a whole,
and those that are to join others are joined to what the peer had when the device was read. So each update is made
against the peer as it was found, and the two devices agree on a peer as long as no update of a row relies on what an
earlier one has changed. -/
namespace MeshFacts

variable {peers : List DevicePeer} {u : PeerUpdate} {k : PublicKey} {found entry : Option DevicePeer}

namespace ToolRequest
variable {r : ToolRequest}

def entryAfter (r : ToolRequest) (entry : Option DevicePeer) : Option DevicePeer :=
  if r.remove then none else some (r.apply (entry.getD { publicKey := r.publicKey }))

lemma find?_applyTo_of_ne (h : r.publicKey ≠ k) :
    (r.applyTo peers).find? (fun p => p.publicKey = k) = peers.find? fun p => p.publicKey = k := by
  unfold applyTo
  split_ifs
  · exact DevicePeer.find?_eraseP_of_ne h peers
  · exact DevicePeer.find?_change_of_ne (f := r.apply) (fun _ => rfl) h peers
  · simp [List.find?_append, apply, h]

lemma find?_applyTo_self (hd : (peers.map DevicePeer.publicKey).Nodup) :
    (r.applyTo peers).find? (fun p => p.publicKey = r.publicKey) =
      r.entryAfter (peers.find? fun p => p.publicKey = r.publicKey) := by
  unfold applyTo entryAfter
  split_ifs with hremove hany
  · exact DevicePeer.find?_eraseP_self hd r.publicKey
  · obtain ⟨p, hp⟩ : ∃ p, peers.find? (fun p => p.publicKey = r.publicKey) = some p :=
      Option.isSome_iff_exists.mp (List.find?_isSome.mpr (List.any_eq_true.mp hany))
    rw [DevicePeer.find?_change_self (f := r.apply) fun _ => rfl, hp]
    rfl
  · have hnone : peers.find? (fun p => p.publicKey = r.publicKey) = none := by simpa using hany
    simp [List.find?_append, hnone, apply]

lemma nodup_applyTo (hd : (peers.map DevicePeer.publicKey).Nodup) :
    ((r.applyTo peers).map DevicePeer.publicKey).Nodup := by
  unfold applyTo
  split_ifs with hremove hany
  · exact hd.sublist (List.eraseP_sublist.map _)
  · rwa [DevicePeer.map_publicKey_change (f := r.apply) fun _ => rfl]
  · rw [List.map_append]
    refine List.Nodup.append hd (List.nodup_singleton _) ?_
    rw [List.map_singleton, List.disjoint_singleton]
    simpa [apply] using hany

end ToolRequest

namespace DeviceCommand
open DevicePeer

/-- What becomes of a table when an update is made by command, if the device was found with other peers. -/
def commandOn (foundPeers peers : List DevicePeer) (u : PeerUpdate) : List DevicePeer :=
  let found := foundPeers.find? fun p => p.publicKey = u.publicKey
  if isNeeded u found then (u.request found).applyTo peers else peers

/-- What becomes of the entry of a peer when an update of it is made by command, if the peer was found like this. -/
def commandOnEntry (found entry : Option DevicePeer) (u : PeerUpdate) : Option DevicePeer :=
  if isNeeded u found then (u.request found).entryAfter entry else entry

lemma publicKey_request (u : PeerUpdate) (found : Option DevicePeer) : (u.request found).publicKey = u.publicKey := by
  unfold PeerUpdate.request
  split_ifs <;> rfl

lemma nodup_commandOn (foundPeers : List DevicePeer) (u : PeerUpdate) (hd : (peers.map publicKey).Nodup) :
    ((commandOn foundPeers peers u).map publicKey).Nodup := by
  unfold commandOn
  dsimp only
  split_ifs
  · exact ToolRequest.nodup_applyTo hd
  · exact hd

lemma find?_commandOn_self (foundPeers : List DevicePeer) (hd : (peers.map publicKey).Nodup) (hu : u.publicKey = k) :
    (commandOn foundPeers peers u).find? (fun p => p.publicKey = k) =
      commandOnEntry (foundPeers.find? fun p => p.publicKey = k) (peers.find? fun p => p.publicKey = k) u := by
  have hkey : (u.request (foundPeers.find? fun p => p.publicKey = k)).publicKey = k := (publicKey_request u _).trans hu
  have hself := ToolRequest.find?_applyTo_self (r := u.request (foundPeers.find? fun p => p.publicKey = k)) hd
  rw [hkey] at hself
  unfold commandOn commandOnEntry
  rw [hu]
  dsimp only
  split_ifs
  · exact hself
  · rfl

lemma find?_commandOn_of_ne (foundPeers : List DevicePeer) (hu : u.publicKey ≠ k) :
    (commandOn foundPeers peers u).find? (fun p => p.publicKey = k) = peers.find? fun p => p.publicKey = k := by
  unfold commandOn
  dsimp only
  split_ifs
  · exact ToolRequest.find?_applyTo_of_ne (by rwa [publicKey_request])
  · rfl

/-- A row of updates comes for each peer to those about it. -/
lemma find?_foldl_of_own {step : List DevicePeer → PeerUpdate → List DevicePeer}
    {own : Option DevicePeer → PeerUpdate → Option DevicePeer}
    (hnodup : ∀ peers u, (peers.map publicKey).Nodup → ((step peers u).map publicKey).Nodup)
    (hself : ∀ peers u, (peers.map publicKey).Nodup → u.publicKey = k →
      (step peers u).find? (fun p => p.publicKey = k) = own (peers.find? fun p => p.publicKey = k) u)
    (hother : ∀ peers u, u.publicKey ≠ k →
      (step peers u).find? (fun p => p.publicKey = k) = peers.find? fun p => p.publicKey = k)
    (us : List PeerUpdate) (hd : (peers.map publicKey).Nodup) :
    ((us.foldl step peers).map publicKey).Nodup ∧
      (us.foldl step peers).find? (fun p => p.publicKey = k) =
        (us.filter fun u => u.publicKey = k).foldl own (peers.find? fun p => p.publicKey = k) := by
  induction us generalizing peers with
  | nil => exact ⟨hd, rfl⟩
  | cons u us ih =>
    obtain ⟨hkept, hfind⟩ := ih (hnodup peers u hd)
    refine ⟨hkept, ?_⟩
    rw [List.foldl_cons, hfind, List.filter_cons]
    by_cases hu : u.publicKey = k
    · rw [if_pos (by simpa using hu), List.foldl_cons, hself peers u hd hu]
    · rw [if_neg (by simpa using hu), hother peers u hu]

end DeviceCommand

namespace PeerUpdate

/-- The update comes to the same whatever the peer has become. -/
def StandsAlone (u : PeerUpdate) : Prop :=
  u.remove = true ∨ u.updateOnly = false ∧ (u.replaceAllowedIps = true ∨ u.allowedIps = [])

/-- The update changes neither whether a peer that was found like this is there nor its networks. -/
def Spares (found : Option DevicePeer) (u : PeerUpdate) : Prop :=
  u.remove = false ∧ u.replaceAllowedIps = false ∧ u.allowedIps = [] ∧ (u.updateOnly = true ∨ found.isSome = true)

instance (u : PeerUpdate) : Decidable u.StandsAlone := inferInstanceAs (Decidable (_ ∨ _))

instance (found : Option DevicePeer) (u : PeerUpdate) : Decidable (u.Spares found) := inferInstanceAs (Decidable (_ ∧ _))

lemma pairwise_of_nodup {us : List PeerUpdate} {R : PeerUpdate → PeerUpdate → Prop} (h : (us.map publicKey).Nodup)
    (k : PublicKey) : (us.filter fun u => u.publicKey = k).Pairwise R := by
  refine ((List.pairwise_map.mp h).sublist List.filter_sublist).imp_of_mem fun {v u} hv hu hne => absurd ?_ hne
  have hv : v.publicKey = k := by simpa using (List.mem_filter.mp hv).2
  have hu : u.publicKey = k := by simpa using (List.mem_filter.mp hu).2
  rw [hv, hu]

end PeerUpdate

namespace DeviceCommand
open DevicePeer

def StillAs (found entry : Option DevicePeer) : Prop := entry.map allowedIps = found.map allowedIps

lemma request_apply {p : DevicePeer} (hremove : u.remove = false) (hnets : u.replaceAllowedIps = true ∨ u.allowedIps = [] ∨
    (found.map allowedIps).getD [] = p.allowedIps) : (u.request found).apply p = p.apply u := by
  cases hreplace : u.replaceAllowedIps with
  | true => simp [PeerUpdate.request, ToolRequest.apply, DevicePeer.apply, hremove, hreplace]
  | false =>
    cases hadded : u.allowedIps with
    | nil => simp [PeerUpdate.request, ToolRequest.apply, DevicePeer.apply, hremove, hreplace, hadded, joinNets]
    | cons n nets =>
      have hbase : (found.map allowedIps).getD [] = p.allowedIps := by simpa [hreplace, hadded] using hnets
      simp [PeerUpdate.request, ToolRequest.apply, DevicePeer.apply, hremove, hreplace, hadded, hbase]

lemma commandOnEntry_of_remove (h : u.remove = true) : commandOnEntry found entry u = entryAfter u entry := by
  simp [commandOnEntry, isNeeded, PeerUpdate.request, ToolRequest.entryAfter, entryAfter, h]

/-- The command for an update does what the update does if it gives the same networks. -/
lemma commandOnEntry_of_needed (hremove : u.remove = false) (hneeded : isNeeded u found = true)
    (hadds : entry = none → u.updateOnly = false)
    (happly : ∀ p, entry.getD { publicKey := u.publicKey } = p → (u.request found).apply p = p.apply u) :
    commandOnEntry found entry u = entryAfter u entry := by
  have hasked : (u.request found).remove = false := by simp [PeerUpdate.request, hremove]
  rw [commandOnEntry, if_pos hneeded, ToolRequest.entryAfter, publicKey_request, happly _ rfl]
  cases entry with
  | none => simp [entryAfter, hasked, hremove, hadds rfl]
  | some p => simp [entryAfter, hasked, hremove]

lemma commandOnEntry_of_standsAlone (h : u.StandsAlone) (found entry : Option DevicePeer) :
    commandOnEntry found entry u = entryAfter u entry := by
  cases hremove : u.remove with
  | true => exact commandOnEntry_of_remove hremove
  | false =>
    obtain ⟨honly, hnets⟩ := h.resolve_left (by simp [hremove])
    refine commandOnEntry_of_needed hremove (by simp [isNeeded, honly]) (fun _ => honly) fun p _ => ?_
    exact request_apply hremove (hnets.imp_right .inl)

lemma commandOnEntry_of_stillAs (h : StillAs found entry) : commandOnEntry found entry u = entryAfter u entry := by
  have hnets : (found.map allowedIps).getD [] = (entry.getD { publicKey := u.publicKey }).allowedIps := by
    rw [← h]
    cases entry <;> rfl
  have hthere : found.isSome = entry.isSome := by simpa using congrArg Option.isSome h.symm
  cases hremove : u.remove with
  | true => exact commandOnEntry_of_remove hremove
  | false =>
    by_cases hidle : entry = none ∧ u.updateOnly = true
    · obtain ⟨rfl, honly⟩ := hidle
      simp [commandOnEntry, isNeeded, entryAfter, hthere, honly, hremove]
    · refine commandOnEntry_of_needed hremove ?_ (fun hnone => ?_) fun p hp => ?_
      · cases entry <;> simp_all [isNeeded]
      · simpa [hnone] using hidle
      · exact request_apply hremove (.inr (.inr (hp ▸ hnets)))

lemma stillAs_entryAfter (h : StillAs found entry) (hu : u.Spares found) : StillAs found (entryAfter u entry) := by
  obtain ⟨hremove, hreplace, hnets, hthere⟩ := hu
  unfold StillAs at h ⊢
  cases entry with
  | some p => simpa [DevicePeer.entryAfter, hremove, DevicePeer.apply, hreplace, hnets, joinNets] using h
  | none =>
    have hnone : found = none := by simpa using h.symm
    have honly : u.updateOnly = true := by simpa [hnone] using hthere
    simp [DevicePeer.entryAfter, hremove, honly, hnone]

lemma stillAs_foldl {us : List PeerUpdate} (h : ∀ u ∈ us, u.Spares found) :
    StillAs found (us.foldl (fun entry u => DevicePeer.entryAfter u entry) found) := by
  induction us using List.reverseRecOn with
  | nil => rfl
  | append_singleton us u ih =>
    rw [List.foldl_append, List.foldl_cons, List.foldl_nil]
    exact stillAs_entryAfter (ih fun v hv => h v (by simp [hv])) (h u (by simp))

/-- Updates of which none relies on what an earlier one changes come to the same on both devices. -/
lemma foldl_commandOnEntry {us : List PeerUpdate} (h : us.Pairwise fun v u => v.Spares found ∨ u.StandsAlone) :
    us.foldl (commandOnEntry found) found = us.foldl (fun entry u => DevicePeer.entryAfter u entry) found := by
  induction us using List.reverseRecOn with
  | nil => rfl
  | append_singleton us u ih =>
    obtain ⟨hfront, -, hlast⟩ := List.pairwise_append.mp h
    rw [List.foldl_append, List.foldl_append, ih hfront, List.foldl_cons, List.foldl_nil, List.foldl_cons, List.foldl_nil]
    by_cases hu : u.StandsAlone
    · exact commandOnEntry_of_standsAlone hu _ _
    · have hspares : ∀ v ∈ us, v.Spares found := fun v hv => (hlast v hv u (by simp)).resolve_right hu
      exact commandOnEntry_of_stillAs (stillAs_foldl hspares)

end DeviceCommand

/-- A program is there, and whatever has yet to be answered tells of success. -/
structure Shell.Obliges (sh : Shell) (program : String) : Prop where
  hasProgram : sh.hasProgram program = true
  succeeds : ∀ r ∈ sh.replies, r.exit = 0

namespace DeviceCommand
open DevicePeer
open ToolRequest (execute tableAfter)
variable {program name : String} {sh : Shell} {found : DeviceState} {now : Instant} {wall : Int}

lemma runTool_of_obliges {args : List String} (h : sh.Obliges program) (hprogram : IsArgument program)
    (hargs : ∀ a ∈ args, IsArgument a) (iface : String) :
    ∃ sh', runTool program iface args sh = (.ok (sh.replies.headD {}).out, sh') ∧ sh'.Obliges program ∧
      sh'.ran = sh.ran ++ [⟨program, args⟩] := by
  have hplain : ((program :: args).any fun a => a.toList.contains '\x00') = false := by
    refine List.any_eq_false.mpr fun a ha => ?_
    rcases List.mem_cons.mp ha with rfl | ha
    · simpa [IsArgument] using hprogram
    · simpa [IsArgument] using hargs a ha
  have hexit : (sh.replies.headD {}).exit = 0 := by
    cases hreplies : sh.replies with
    | nil => rfl
    | cons r later => exact h.succeeds r (by simp [hreplies])
  refine ⟨{ sh with replies := sh.replies.drop 1, ran := sh.ran ++ [⟨program, args⟩] }, ?_,
    ⟨h.hasProgram, fun r hr => h.succeeds r (List.mem_of_mem_drop hr)⟩, rfl⟩
  rw [runTool, Shell.run, if_neg (by simpa [h.hasProgram] using hplain)]
  exact if_pos hexit

def runsFor (program name : String) (found : DeviceState) (us : List PeerUpdate) : List Command :=
  (us.filter fun u => isNeeded u (found.peer? u.publicKey)).map fun u =>
    ⟨program, setArgs name u (found.peer? u.publicKey)⟩

lemma setAll_of_obliges (h : sh.Obliges program) (hprogram : IsArgument program) (hname : IsArgument name)
    (found : DeviceState) (us : List PeerUpdate) :
    ∃ sh', setAll program name found us sh = (.ok (), sh') ∧ sh'.ran = sh.ran ++ runsFor program name found us := by
  induction us generalizing sh with
  | nil => exact ⟨sh, rfl, by simp [runsFor]⟩
  | cons u us ih =>
    cases hneeded : isNeeded u (found.peer? u.publicKey) with
    | false =>
      obtain ⟨sh', hset, hran⟩ := ih h
      exact ⟨sh', by simp [setAll, hneeded, hset], by simp [runsFor, hneeded, hran]⟩
    | true =>
      obtain ⟨mid, hrun, hmid, hran⟩ :=
        runTool_of_obliges h hprogram (isArgument_setArgs hname u (found.peer? u.publicKey)) name
      obtain ⟨sh', hset, hran'⟩ := ih hmid
      exact ⟨sh', by simp [setAll, hneeded, hrun, hset], by simp [runsFor, hneeded, hran, hran']⟩

lemma execute_setArgs (u : PeerUpdate) (entry : Option DevicePeer) (peers : List DevicePeer) :
    execute name peers ⟨program, setArgs name u entry⟩ = some ((u.request entry).applyTo peers) := by
  have hset : setArgs name u entry ≠ ["show", name, "dump"] := by
    unfold setArgs
    split_ifs <;> simp
  rw [execute, if_neg hset, ofArgs?_setArgs, Option.map_some]

lemma tableAfter_runsFor (us : List PeerUpdate) (peers : List DevicePeer) :
    tableAfter name peers (runsFor program name found us) = some (us.foldl (commandOn found.peers) peers) := by
  induction us generalizing peers with
  | nil => rfl
  | cons u us ih =>
    cases hneeded : isNeeded u (found.peer? u.publicKey) with
    | false =>
      have hstep : commandOn found.peers peers u = peers := if_neg (by simpa [DeviceState.peer?] using hneeded)
      rw [List.foldl_cons, hstep, ← ih]
      simp [runsFor, hneeded]
    | true =>
      have hstep : commandOn found.peers peers u = (u.request (found.peer? u.publicKey)).applyTo peers := if_pos hneeded
      rw [List.foldl_cons, hstep, ← ih]
      simp [tableAfter, runsFor, hneeded, execute_setArgs]

/-- The device is changed by commands, each made for one update and the peers as they were found. -/
lemma configure_of_obliges (h : sh.Obliges program) (hprogram : IsArgument program) (hname : IsArgument name)
    (hfound : DeviceDump.parse name (sh.replies.headD {}).out now wall = .ok found) (us : List PeerUpdate) :
    ∃ sh' runs, configure program name us now wall sh = (.ok (), sh') ∧ sh'.ran = sh.ran ++ runs ∧
      tableAfter name found.peers runs = some (us.foldl (commandOn found.peers) found.peers) := by
  have hshow : ∀ a ∈ ["show", name, "dump"], IsArgument a := by
    have hwords : IsArgument "show" ∧ IsArgument "dump" := by unfold IsArgument; decide
    simp [hname, hwords]
  obtain ⟨mid, hread, hmid, hran⟩ := runTool_of_obliges h hprogram hshow name
  obtain ⟨sh', hset, hran'⟩ := setAll_of_obliges hmid hprogram hname found us
  refine ⟨sh', ⟨program, ["show", name, "dump"]⟩ :: runsFor program name found us, ?_, by simp [hran', hran], ?_⟩
  · rw [configure, read, hread]
    dsimp only
    rw [hfound]
    exact hset
  · have hfirst : execute name found.peers ⟨program, ["show", name, "dump"]⟩ = some found.peers := if_pos rfl
    rw [tableAfter, List.foldlM_cons, hfirst]
    exact tableAfter_runsFor us found.peers

lemma name_of_parse {dump : String} (h : DeviceDump.parse name dump now wall = .ok found) : found.name = name := by
  unfold DeviceDump.parse at h
  split at h
  · cases h
  · obtain ⟨⟨pair, port⟩, -, h⟩ := bind_eq_ok_iff.mp h
    obtain ⟨peers, -, h⟩ := bind_eq_ok_iff.mp h
    exact (congrArg DeviceState.name (Except.ok.inj h)).symm

lemma configure_of_found {d : MemoryDevice} {dump : String} (us : List PeerUpdate)
    (hfound : DeviceDump.parse name dump now wall = .ok found) (hstate : d.state = found) (hfailing : d.failing = []) :
    d.configure name us = (.ok (), { d.setPeers (us.foldl applyTo found.peers) with calls := d.calls ++ [us] }) := by
  have hnone : (us.find? fun u => u.publicKey ∈ d.failing) = none := by simp [hfailing]
  rw [MemoryDevice.configure, if_neg (by simp [hstate, name_of_parse hfound]), hnone, MemoryDevice.peers, hstate]

/-- A device behind commands makes each update against its peer as it was found. So it ends like a device in memory
where no update relies on what an earlier one has changed. -/
theorem configure_agrees {d : MemoryDevice} (us : List PeerUpdate) (h : sh.Obliges program)
    (hprogram : IsArgument program) (hname : IsArgument name)
    (hfound : DeviceDump.parse name (sh.replies.headD {}).out now wall = .ok found)
    (hkeys : (found.peers.map publicKey).Nodup) (hstate : d.state = found) (hfailing : d.failing = []) :
    ∃ sh' runs table d', configure program name us now wall sh = (.ok (), sh') ∧ sh'.ran = sh.ran ++ runs ∧
      tableAfter name found.peers runs = some table ∧ (table.map publicKey).Nodup ∧
      d.configure name us = (.ok (), d') ∧ (d'.peers.map publicKey).Nodup ∧
      (∀ k, table.find? (fun p => p.publicKey = k) =
          (us.filter fun u => u.publicKey = k).foldl (commandOnEntry (found.peer? k)) (found.peer? k)) ∧
      (∀ k, ((us.filter fun u => u.publicKey = k).Pairwise fun v u => v.Spares (found.peer? k) ∨ u.StandsAlone) →
          table.find? (fun p => p.publicKey = k) = d'.state.peer? k) ∧
      ((us.map PeerUpdate.publicKey).Nodup → ∀ k, table.find? (fun p => p.publicKey = k) = d'.state.peer? k) := by
  obtain ⟨sh', runs, hconfigure, hran, htable⟩ := configure_of_obliges h hprogram hname hfound us
  have hmemory := configure_of_found us hfound hstate hfailing
  have hcommanded : ∀ k, ((us.foldl (commandOn found.peers) found.peers).map publicKey).Nodup ∧
      (us.foldl (commandOn found.peers) found.peers).find? (fun p => p.publicKey = k) =
        (us.filter fun u => u.publicKey = k).foldl (commandOnEntry (found.peer? k)) (found.peer? k) := fun k =>
    find?_foldl_of_own (fun _ => nodup_commandOn found.peers) (fun _ _ => find?_commandOn_self found.peers)
      (fun _ _ => find?_commandOn_of_ne found.peers) us hkeys
  have hkept : ∀ k, ((us.foldl applyTo found.peers).map publicKey).Nodup ∧
      (us.foldl applyTo found.peers).find? (fun p => p.publicKey = k) =
        (us.filter fun u => u.publicKey = k).foldl (fun entry u => entryAfter u entry) (found.peer? k) := fun k =>
    find?_foldl_of_own (fun _ _ => nodup_applyTo) (fun _ _ hd hu => hu ▸ find?_applyTo_self hd)
      (fun _ _ => find?_applyTo_of_ne) us hkeys
  have hagree : ∀ k,
      ((us.filter fun u => u.publicKey = k).Pairwise fun v u => v.Spares (found.peer? k) ∨ u.StandsAlone) →
        (us.foldl (commandOn found.peers) found.peers).find? (fun p => p.publicKey = k) =
          (us.foldl applyTo found.peers).find? fun p => p.publicKey = k := by
    intro k hfree
    rw [(hcommanded k).2, (hkept k).2]
    exact foldl_commandOnEntry hfree
  exact ⟨sh', runs, _, _, hconfigure, hran, htable, (hcommanded default).1, hmemory, (hkept default).1,
    fun k => (hcommanded k).2, hagree, fun honce k => hagree k (PeerUpdate.pairwise_of_nodup honce k)⟩

def onePeer : PublicKey := ⟨⟨List.replicate 32 7, rfl⟩⟩

def onePeerDump : String :=
  "fjKfG8nHSbLHaHj1aGM6w5ySu50r7aJuWcchK6IEe1g=\t-\t51820\toff\nBwcHBwcHBwcHBwcHBwcHBwcHBwcHBwcHBwcHBwcHBwc=\t-\t(none)\t10.0.0.0/8\t0\t0\t0\toff"

lemma exists_parse_onePeerDump : ∃ found, DeviceDump.parse "wg0" onePeerDump 0 0 = .ok found ∧
    found.peers = [{ publicKey := onePeer, allowedIps := [.v4 0x0a000000#32 8] }] := by
  have hpoll : ((DeviceDump.parse "wg0" onePeerDump 0 0).toOption.map DeviceState.peers) =
      some [{ publicKey := onePeer, allowedIps := [.v4 0x0a000000#32 8] }] := by
    decide +kernel
  obtain ⟨found, hfound, hpeers⟩ := Option.map_eq_some_iff.mp hpoll
  exact ⟨found, toOption_eq_some_iff.mp hfound, hpeers⟩

lemma obliges_onePeerDump : Shell.Obliges ⟨fun _ => true, [⟨onePeerDump, "", 0⟩], []⟩ "wg" := ⟨rfl, by simp⟩

lemma isArgument_wg : IsArgument "wg" := by unfold IsArgument; decide

lemma isArgument_wg0 : IsArgument "wg0" := by unfold IsArgument; decide

/-- A new endpoint and then another network come to the same on both devices. -/
theorem configure_agrees_endpoint_first :
    let us : List PeerUpdate := [{ publicKey := onePeer, endpoint := some (.v4 0xc0000201#32 9) },
      { publicKey := onePeer, allowedIps := [.v4 0x0a010000#32 16] }]
    ∃ found sh' runs table d', DeviceDump.parse "wg0" onePeerDump 0 0 = .ok found ∧
      configure "wg" "wg0" us 0 0 ⟨fun _ => true, [⟨onePeerDump, "", 0⟩], []⟩ = (.ok (), sh') ∧ sh'.ran = runs ∧
      tableAfter "wg0" found.peers runs = some table ∧
      ({ state := found } : MemoryDevice).configure "wg0" us = (.ok (), d') ∧
      table.find? (fun p => p.publicKey = onePeer) = d'.state.peer? onePeer := by
  intro us
  obtain ⟨found, hfound, hpeers⟩ := exists_parse_onePeerDump
  obtain ⟨sh', runs, table, d', hconfigure, hran, htable, -, hmemory, -, -, hagree, -⟩ :=
    configure_agrees (d := { state := found }) us obliges_onePeerDump isArgument_wg isArgument_wg0 hfound
      (by rw [hpeers]; decide) rfl rfl
  have hentry : found.peer? onePeer = some { publicKey := onePeer, allowedIps := [.v4 0x0a000000#32 8] } := by
    rw [DeviceState.peer?, hpeers]
    rfl
  refine ⟨found, sh', runs, table, d', hfound, hconfigure, hran, htable, hmemory, hagree onePeer ?_⟩
  rw [hentry]
  decide

/-- Of two networks that are added one after the other only the second stays behind commands. -/
theorem configure_loses_addition :
    let us : List PeerUpdate := [{ publicKey := onePeer, allowedIps := [.v4 0x0a010000#32 16] },
      { publicKey := onePeer, allowedIps := [.v4 0x0a020000#32 16] }]
    ∃ found sh' runs table d', DeviceDump.parse "wg0" onePeerDump 0 0 = .ok found ∧
      (found.peers.map publicKey).Nodup ∧
      configure "wg" "wg0" us 0 0 ⟨fun _ => true, [⟨onePeerDump, "", 0⟩], []⟩ = (.ok (), sh') ∧ sh'.ran = runs ∧
      tableAfter "wg0" found.peers runs = some table ∧
      ({ state := found } : MemoryDevice).configure "wg0" us = (.ok (), d') ∧
      (table.find? fun p => p.publicKey = onePeer).map allowedIps =
        some [.v4 0x0a000000#32 8, .v4 0x0a020000#32 16] ∧
      (d'.state.peer? onePeer).map allowedIps =
        some [.v4 0x0a000000#32 8, .v4 0x0a010000#32 16, .v4 0x0a020000#32 16] := by
  intro us
  obtain ⟨found, hfound, hpeers⟩ := exists_parse_onePeerDump
  obtain ⟨sh', runs, hconfigure, hran, htable⟩ :=
    configure_of_obliges obliges_onePeerDump isArgument_wg isArgument_wg0 hfound us
  refine ⟨found, sh', runs, _, _, hfound, by rw [hpeers]; decide, hconfigure, hran, htable,
    configure_of_found (d := { state := found }) us hfound rfl rfl, ?_, ?_⟩
  · rw [hpeers]
    decide
  · change ((us.foldl applyTo found.peers).find? fun p => p.publicKey = onePeer).map allowedIps = _
    rw [hpeers]
    decide

end DeviceCommand

end MeshFacts
