import MeshFacts.Proofs.HeldFacts
import MeshFacts.Proofs.PassUpdates

/-! # Runs of a node
A node takes one chunk after the other: it processes what it received and brings its device in line with what
it holds then. Every fact that it holds has an origin in what it received, or asserted itself, in the run. -/
namespace MeshFacts

structure Node where
  current : List Fact := []
  state : LinkState
deriving Inhabited

/-- A chunk to be taken through both stages. Anything may happen to the state, the device included, before
each of them. -/
structure Round where
  chunk : ReceivedChunk
  interfaces : List NetInterface := []
  now : Instant
  before : LinkState → LinkState := id
  between : LinkState → LinkState := id

/-- What was received in a chunk, and the device as it was read to judge it. -/
structure Reception where
  device : DeviceState
  facts : List ReceivedFact
  now : Instant

namespace Node
variable {l : Link} {n : Node} {r : Round}

def process (l : Link) (n : Node) (r : Round) : Except DeviceError FactChunk × LinkState :=
  l.process r.interfaces n.current r.chunk r.now (r.before n.state)

def round (l : Link) (n : Node) (r : Round) : Node :=
  match n.process l r with
  | (.error _, s) => { n with state := s }
  | (.ok chunk, s) => ⟨chunk.facts, (Reconcile.pass l chunk (r.between s)).2⟩

def run (l : Link) (n : Node) (rounds : List Round) : Node := rounds.foldl (round l) n

def reception? (l : Link) (n : Node) (r : Round) : Option Reception :=
  (l.refresh (r.before n.state)).1.toOption.map fun device => ⟨device, r.chunk.facts, r.now⟩

def receptions (l : Link) : Node → List Round → List Reception
  | _, [] => []
  | n, r :: rounds => (n.reception? l r).toList ++ receptions l (n.round l r) rounds

lemma run_append (l : Link) (n : Node) (rounds : List Round) (r : Round) :
    n.run l (rounds ++ [r]) = (n.run l rounds).round l r := by
  rw [run, List.foldl_append]
  rfl

lemma receptions_append (l : Link) (n : Node) (rounds : List Round) (r : Round) :
    n.receptions l (rounds ++ [r]) = n.receptions l rounds ++ ((n.run l rounds).reception? l r).toList := by
  induction rounds generalizing n with
  | nil => simp [receptions, run]
  | cons q rounds ih =>
    rw [List.cons_append, receptions, receptions, ih, List.append_assoc]
    rfl

/-- Where a fact comes from: somebody told it and was believed, or the node asserts it itself. -/
inductive Origin (l : Link) (history : List Reception) (f : Fact) : Prop
  | told {c : Reception} {r : ReceivedFact} (hc : c ∈ history) (hr : r ∈ c.facts) (hf : r.fact = f)
      (ha : l.accepts (Opinion.standard l.config.peers c.device.peers) c.now r = true) : Origin l history f
  | asserted {c : Reception} (hc : c ∈ history) (ha : l.Asserts c.device c.now f) : Origin l history f

lemma Origin.mono {history later : List Reception} {f : Fact} (h : Origin l history f)
    (hs : history ⊆ later) : Origin l later f := by
  cases h with
  | told hc hr hf ha => exact .told (hs hc) hr hf ha
  | asserted hc ha => exact .asserted (hs hc) ha

/-- One chunk: what is held then has not ended, and was held before or comes of the reception. -/
lemma process_spec {chunk : FactChunk} {s : LinkState} (h : n.process l r = (.ok chunk, s)) :
    ∃ c, n.reception? l r = some c ∧ chunk.now = r.now ∧ s.device = (r.before n.state).device ∧
      ∀ f ∈ chunk.facts, r.now < f.expires ∧ (f ∈ n.current ∨ Origin l [c] f) := by
  unfold process Link.process at h
  obtain ⟨hdevice, -⟩ := l.refresh_spec (r.before n.state)
  cases hread : l.refresh (r.before n.state) with
  | mk result t =>
    rw [hread] at hdevice
    cases result with
    | error e => simp [hread] at h
    | ok device =>
      simp only [hread, Prod.mk.injEq, Except.ok.injEq] at h
      obtain ⟨rfl, rfl⟩ := h
      refine ⟨⟨device, r.chunk.facts, r.now⟩, by simp [reception?, hread, Except.toOption], rfl, hdevice, ?_⟩
      intro f hf
      obtain ⟨he, hf | hf | hf⟩ := Link.mem_heldFacts hf
      · exact ⟨he, .inl hf⟩
      · obtain ⟨told, ht, rfl⟩ := List.mem_map.mp hf
        obtain ⟨ht, ha⟩ := List.mem_filter.mp ht
        exact ⟨he, .inr (.told (List.mem_singleton.mpr rfl) ht rfl ha)⟩
      · exact ⟨he, .inr (.asserted (List.mem_singleton.mpr rfl) (Link.asserts_of_mem_localFacts hf))⟩

lemma round_of_process {chunk : FactChunk} {s : LinkState} (h : n.process l r = (.ok chunk, s)) :
    n.round l r = ⟨chunk.facts, (Reconcile.pass l chunk (r.between s)).2⟩ := by
  simp [round, h]

lemma round_of_error {e : DeviceError} {s : LinkState} (h : n.process l r = (.error e, s)) :
    n.round l r = { n with state := s } := by
  simp [round, h]

lemma round_origin {history : List Reception} (h : ∀ f ∈ n.current, Origin l history f) :
    ∀ f ∈ (n.round l r).current, Origin l (history ++ (n.reception? l r).toList) f := by
  intro f hf
  obtain ⟨result, s, hp⟩ : ∃ result s, n.process l r = (result, s) := ⟨_, _, rfl⟩
  cases result with
  | error e =>
    rw [round_of_error hp] at hf
    exact (h f hf).mono (List.subset_append_left _ _)
  | ok chunk =>
    rw [round_of_process hp] at hf
    obtain ⟨c, hc, -, -, hfacts⟩ := process_spec hp
    rcases (hfacts f hf).2 with hf | hf
    · exact (h f hf).mono (List.subset_append_left _ _)
    · exact hf.mono (by simp [hc])

/-- All that a node holds after a run comes of what it received and asserted in the run. -/
theorem run_origin (rounds : List Round) (history : List Reception)
    (h : ∀ f ∈ n.current, Origin l history f) :
    ∀ f ∈ (n.run l rounds).current, Origin l (history ++ n.receptions l rounds) f := by
  induction rounds generalizing n history with
  | nil => simpa [run, receptions] using h
  | cons r rounds ih =>
    have hi := ih _ (round_origin (r := r) h)
    rw [List.append_assoc] at hi
    exact hi

end Node

end MeshFacts
