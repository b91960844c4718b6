import Mathlib.Data.List.Count
import MeshFacts.Chunker
import MeshFacts.Proofs.Authenticity
import MeshFacts.Reader

/-! # The inflow of facts
The reader hands facts to the chunker through a queue, and both run at once with what comes from outside. However their
steps fall, no fact is lost on the way, none comes twice and none overtakes another; the requests to print are answered
one by one; and only a cancellation ends the reader. -/
namespace MeshFacts

namespace Inflow

inductive Task where
  | asking
  /-- It was not cancelled when it asked and waits for the network. -/
  | receiving
  | pausing
  | handing (facts : List ReceivedFact)
  | ended
deriving DecidableEq

def Task.facts : Task → List ReceivedFact
  | handing facts => facts
  | _ => []

/-- What the chunker is about. It looks at one input after the other. -/
inductive Look where
  | period
  | request
  | fact
  | draining (print : Bool)
  | sending (chunk : ReceivedChunk)
  /-- It sends its last chunk. -/
  | closing (chunk : ReceivedChunk)
  | ended
deriving DecidableEq

def Look.facts : Look → List ReceivedFact
  | sending chunk | closing chunk => chunk.facts
  | _ => []

def Look.isLast : Look → Bool
  | closing _ | ended => true
  | _ => false

def Look.marks : Look → List Bool
  | draining print => [print]
  | sending chunk | closing chunk => [chunk.print]
  | _ => []

inductive Cause where
  | period
  | request
  | ending
deriving DecidableEq

def Cause.print : Cause → Bool
  | request => true
  | _ => false

end Inflow

/-- The reader and the chunker, the queue between them and the chunks that lie before the next stage. -/
structure Inflow where
  reader : Reader
  task : Inflow.Task := .asking
  cancelled : Bool := false
  chunker : Chunker := {}
  look : Inflow.Look := .period
  outbox : List ReceivedChunk := []
  /-- The chunks that the next stage has taken. -/
  collected : List ReceivedChunk := []
  /-- Why the chunks so far were made. -/
  causes : List Inflow.Cause := []

namespace Inflow

def sent (s : Inflow) : List ReceivedChunk := s.collected ++ s.outbox

/-- The facts that have not been sent, in their order. -/
def held (s : Inflow) : List ReceivedFact :=
  s.look.facts ++ (s.chunker.gathered ++ (s.chunker.waiting ++ s.task.facts))

def facts (s : Inflow) : List ReceivedFact := s.sent.flatMap ReceivedChunk.facts ++ s.held

def receive (s : Inflow) (now : Instant) (x : Receipt) : Inflow :=
  let (facts, pause, reader) := s.reader.receive now x
  { s with reader := reader, task := if pause = 0 then .handing facts else .pausing }

def quit (s : Inflow) : Inflow := { s with task := .ended, chunker := s.chunker.accept .close }

/-- What can happen: what comes from outside, the end of a pause, the taking of a chunk, and steps of the reader and
the chunker. -/
inductive Act where
  | cancel
  | period
  | request
  | receive (now : Instant) (x : Receipt)
  | wake
  | collect
  | reader
  | chunker
deriving DecidableEq

/-- The facts that an act brings: those of a good packet, and otherwise none. -/
def Act.facts (signer : Signer) : Act → List ReceivedFact
  | receive now (.packet bytes source) =>
    match (Packet.unpack bytes source signer now).1 with
    | .ok facts => facts
    | .error _ => []
  | _ => []

/-- What can happen next, with room for so many facts and chunks. The reader looks for a cancellation whenever it is
woken, the chunker for a due period, then a request, then a fact. -/
inductive Step (room space : ℕ) (s : Inflow) : Act → Inflow → Prop
  | cancel : Step room space s .cancel { s with cancelled := true }
  | period : Step room space s .period { s with chunker := s.chunker.accept .period }
  | request : Step room space s .request { s with chunker := s.chunker.accept .request }
  | receive (ht : s.task = .receiving) (now : Instant) (x : Receipt) :
      Step room space s (.receive now x) (s.receive now x)
  | wake (ht : s.task = .pausing) : Step room space s .wake { s with task := .asking }
  | collect {chunk : ReceivedChunk} {rest : List ReceivedChunk} (ho : s.outbox = chunk :: rest) :
      Step room space s .collect { s with outbox := rest, collected := s.collected ++ [chunk] }
  | ask (ht : s.task = .asking) (hc : s.cancelled = false) : Step room space s .reader { s with task := .receiving }
  | again (ht : s.task = .receiving) : Step room space s .reader { s with task := .asking }
  | quit (ht : s.task = .asking ∨ s.task = .pausing) (hc : s.cancelled = true) : Step room space s .reader s.quit
  | hand {f : ReceivedFact} {facts : List ReceivedFact} (ht : s.task = .handing (f :: facts)) (hl : s.look ≠ .ended)
      (hr : s.chunker.waiting.length < room) :
      Step room space s .reader { s with task := .handing facts, chunker := s.chunker.accept (.fact f) }
  | unheard {f : ReceivedFact} {facts : List ReceivedFact} (ht : s.task = .handing (f :: facts))
      (hl : s.look = .ended) : Step room space s .reader s.quit
  | handed (ht : s.task = .handing []) : Step room space s .reader { s with task := .asking }
  | due (hl : s.look = .period) (hd : s.chunker.due = true) :
      Step room space s .chunker
        { s with look := .draining false, chunker.due := false, causes := s.causes ++ [.period] }
  | undue (hl : s.look = .period) (hd : s.chunker.due = false) : Step room space s .chunker { s with look := .request }
  | requested {n : ℕ} (hl : s.look = .request) (hn : s.chunker.requests = n + 1) :
      Step room space s .chunker
        { s with look := .draining true, chunker.requests := n, causes := s.causes ++ [.request] }
  | unrequested (hl : s.look = .request) (hn : s.chunker.requests = 0) :
      Step room space s .chunker { s with look := .fact }
  | take {f : ReceivedFact} {facts : List ReceivedFact} (hl : s.look = .fact) (hw : s.chunker.waiting = f :: facts) :
      Step room space s .chunker
        { s with look := .period,
                 chunker := { s.chunker with waiting := facts, gathered := s.chunker.gathered ++ [f] } }
  | idle (hl : s.look = .fact) (hw : s.chunker.waiting = []) (hc : s.chunker.closed = false) :
      Step room space s .chunker { s with look := .period }
  | stop (hl : s.look = .fact) (hw : s.chunker.waiting = []) (hc : s.chunker.closed = true)
      (hg : s.chunker.gathered = []) : Step room space s .chunker { s with look := .ended }
  | close (hl : s.look = .fact) (hw : s.chunker.waiting = []) (hc : s.chunker.closed = true)
      (hg : s.chunker.gathered ≠ []) :
      Step room space s .chunker
        { s with look := .closing ⟨s.chunker.gathered, false⟩, chunker.gathered := [],
                 causes := s.causes ++ [.ending] }
  | drain {print : Bool} {f : ReceivedFact} {facts : List ReceivedFact} (hl : s.look = .draining print)
      (hw : s.chunker.waiting = f :: facts) :
      Step room space s .chunker
        { s with chunker := { s.chunker with waiting := facts, gathered := s.chunker.gathered ++ [f] } }
  | drained {print : Bool} (hl : s.look = .draining print) (hw : s.chunker.waiting = []) :
      Step room space s .chunker { s with look := .sending ⟨s.chunker.gathered, print⟩, chunker.gathered := [] }
  | send {chunk : ReceivedChunk} (hl : s.look = .sending chunk) (ho : s.outbox.length < space) :
      Step room space s .chunker { s with look := .period, outbox := s.outbox ++ [chunk] }
  | finish {chunk : ReceivedChunk} (hl : s.look = .closing chunk) (ho : s.outbox.length < space) :
      Step room space s .chunker { s with look := .ended, outbox := s.outbox ++ [chunk] }

inductive Run (room space : ℕ) : Inflow → List Act → Inflow → Prop
  | nil (s : Inflow) : Run room space s [] s
  | cons {s t u : Inflow} {a : Act} {acts : List Act} (h : Step room space s a t) (hr : Run room space t acts u) :
      Run room space s (a :: acts) u

section
variable {signer : Signer} {room space : ℕ} {s t : Inflow} {a : Act} {acts : List Act}

/-- The reader answers a receipt by the facts in it. It pauses only where there are none. -/
lemma exists_receive {r : Reader} (hr : r.signer.pair = signer.pair) (now : Instant) (x : Receipt) :
    ∃ pause q, r.receive now x = ((Act.receive now x).facts signer, pause, q) ∧ q.signer.pair = signer.pair ∧
      (pause ≠ 0 → (Act.receive now x).facts signer = []) := by
  cases x with
  | failure => exact ⟨_, _, rfl, hr, fun _ => rfl⟩
  | packet bytes source =>
    refine ⟨0, ⟨(Packet.unpack bytes source r.signer now).2, 0⟩, ?_, ?_, by simp⟩
    · simp only [Reader.receive, Act.facts, Packet.unpack_congr hr]
      cases (Packet.unpack bytes source signer now).1 <;> rfl
    · exact (Packet.pair_unpack bytes source r.signer now).trans hr

/-- The queue ends with the reader, which ends when it is cancelled, and the chunker goes after all that was in the
queue. -/
structure Sound (signer : Signer) (s : Inflow) : Prop where
  pair : s.reader.signer.pair = signer.pair
  closed : s.chunker.closed = true ↔ s.task = .ended
  cancelled : s.task = .ended → s.cancelled = true
  last : s.look.isLast = true → s.chunker.closed = true ∧ s.chunker.gathered = [] ∧ s.chunker.waiting = []
  marks : s.sent.map ReceivedChunk.print ++ s.look.marks = s.causes.map Cause.print

lemma sound_start (signer : Signer) : Sound signer { reader := { signer := signer } } where
  pair := rfl
  closed := by simp
  cancelled := by simp
  last := by simp [Look.isLast]
  marks := rfl

lemma Sound.exists_receive (hs : Sound signer s) (now : Instant) (x : Receipt) :
    ∃ task reader, s.receive now x = { s with task := task, reader := reader } ∧ task ≠ .ended ∧
      task.facts = (Act.receive now x).facts signer ∧ reader.signer.pair = signer.pair := by
  obtain ⟨pause, r, hr, hpair, hpause⟩ := Inflow.exists_receive hs.pair now x
  refine ⟨if pause = 0 then .handing ((Act.receive now x).facts signer) else .pausing, r, ?_, ?_, ?_, hpair⟩
  · simp only [Inflow.receive, hr]
  · split_ifs <;> simp
  · split_ifs with hp
    · rfl
    · exact (hpause hp).symm

lemma Sound.withTask (hs : Sound signer s) {task : Task} (h : s.task ≠ .ended) (hgoing : task ≠ .ended) :
    Sound signer { s with task := task } :=
  { hs with
    closed := ⟨fun hc => absurd (hs.closed.mp hc) h, fun ht => absurd ht hgoing⟩
    cancelled := fun ht => absurd ht hgoing }

lemma Sound.withLook (hs : Sound signer s) {look : Look} (hlast : look.isLast = false)
    (hmarks : look.marks = s.look.marks) : Sound signer { s with look := look } :=
  { hs with
    last := fun h => absurd h (by simp [hlast])
    marks := by rw [← hs.marks, ← hmarks]; rfl }

lemma Sound.not_unheard (hs : Sound signer s) {facts : List ReceivedFact} (ht : s.task = .handing facts) :
    s.look ≠ .ended := by
  intro hl
  have hended := hs.closed.mp (hs.last (by rw [hl]; rfl)).1
  cases ht.symm.trans hended

lemma Sound.accept_fact (hs : Sound signer s) (ht : s.task ≠ .ended) (f : ReceivedFact) :
    s.chunker.accept (.fact f) = { s.chunker with waiting := s.chunker.waiting ++ [f] } := by
  rw [Chunker.accept, if_neg (hs.closed.not.mpr ht)]

lemma Sound.step (hs : Sound signer s) (h : Step room space s a t) : Sound signer t := by
  have hmarks := hs.marks
  cases h with
  | cancel => exact { hs with cancelled := fun _ => rfl }
  | period => exact { hs with }
  | request => exact { hs with }
  | receive ht now x =>
    obtain ⟨task, reader, heq, hgoing, -, hpair⟩ := hs.exists_receive now x
    rw [heq]
    exact { hs.withTask (by simp [ht]) hgoing with pair := hpair }
  | wake ht | ask ht hc | again ht | handed ht => exact hs.withTask (by simp [ht]) (by simp)
  | collect ho =>
    rw [sent, ho] at hmarks
    exact { hs with marks := by simpa [sent] using hmarks }
  | quit ht hc => exact { hs with
      closed := ⟨fun _ => rfl, fun _ => rfl⟩, cancelled := fun _ => hc, last := fun h => ⟨rfl, (hs.last h).2⟩ }
  | @hand f facts ht hl hr =>
    rw [hs.accept_fact (by simp [ht])]
    have hopen : ¬ s.chunker.closed = true := by simp [hs.closed, ht]
    exact { hs with
      closed := by simp [hopen], cancelled := by simp, last := fun h => absurd (hs.last h).1 hopen }
  | unheard ht hl => exact absurd hl (hs.not_unheard ht)
  | due hl hd | requested hl hn =>
    rw [hl] at hmarks
    exact { hs with last := by simp [Look.isLast], marks := by simp [sent, Look.marks, Cause.print, ← hmarks] }
  | undue hl hd | unrequested hl hn | idle hl hw hc => exact hs.withLook rfl (by simp [hl, Look.marks])
  | take hl hw =>
    rw [hl] at hmarks
    exact { hs with last := by simp [Look.isLast], marks := hmarks }
  | stop hl hw hc hg =>
    rw [hl] at hmarks
    exact { hs with last := fun _ => ⟨hc, hg, hw⟩, marks := hmarks }
  | close hl hw hc hg =>
    rw [hl] at hmarks
    exact { hs with last := fun _ => ⟨hc, rfl, hw⟩, marks := by simp [sent, Look.marks, Cause.print, ← hmarks] }
  | drain hl hw => exact { hs with last := by simp [hl, Look.isLast] }
  | drained hl hw =>
    rw [hl] at hmarks
    exact { hs with last := by simp [Look.isLast], marks := hmarks }
  | send hl ho =>
    rw [hl] at hmarks
    exact { hs with last := by simp [Look.isLast], marks := by simpa [sent, Look.marks] using hmarks }
  | finish hl ho =>
    have hlast := hs.last (by rw [hl]; rfl)
    rw [hl] at hmarks
    exact { hs with last := fun _ => hlast, marks := by simpa [sent, Look.marks] using hmarks }

lemma Sound.run (hs : Sound signer s) (h : Run room space s acts t) : Sound signer t := by
  induction h with
  | nil => exact hs
  | cons h _ ih => exact ih (hs.step h)

/-- A step keeps the facts in their order and puts those behind them that it brings. -/
lemma Sound.facts_step (hs : Sound signer s) (h : Step room space s a t) : t.facts = s.facts ++ a.facts signer := by
  cases h with
  | receive ht now x =>
    obtain ⟨task, reader, heq, -, hfacts, -⟩ := hs.exists_receive now x
    have hnone : s.task.facts = [] := by rw [ht]; rfl
    rw [heq]
    simp [Inflow.facts, held, sent, hnone, hfacts]
  | cancel | period | request => exact (List.append_nil _).symm
  | wake ht | ask ht hc | again ht | handed ht => simp [Inflow.facts, held, sent, ht, Task.facts, Act.facts]
  | collect ho => simp [Inflow.facts, held, sent, ho, Act.facts]
  | quit ht hc =>
    have hnone : s.task.facts = [] := by obtain ht | ht := ht <;> rw [ht] <;> rfl
    have hended : Task.ended.facts = [] := rfl
    simp [Inflow.facts, held, sent, Inflow.quit, hnone, hended, Act.facts, Chunker.accept]
  | @hand f facts ht hl hr =>
    rw [hs.accept_fact (by simp [ht])]
    simp [Inflow.facts, held, sent, ht, Task.facts, Act.facts]
  | unheard ht hl => exact absurd hl (hs.not_unheard ht)
  | due hl hd | requested hl hn | undue hl hd | unrequested hl hn | idle hl hw hc | stop hl hw hc hg
  | close hl hw hc hg | drained hl hw | send hl ho | finish hl ho =>
    simp [Inflow.facts, held, sent, hl, Look.facts, Act.facts]
  | take hl hw | drain hl hw => simp [Inflow.facts, held, sent, hl, hw, Look.facts, Act.facts]

lemma Sound.facts_run (hs : Sound signer s) (h : Run room space s acts t) :
    t.facts = s.facts ++ acts.flatMap (Act.facts signer) := by
  induction h with
  | nil => simp
  | cons h _ ih => rw [ih (hs.step h), hs.facts_step h, List.append_assoc, List.flatMap_cons]

/-- Each request that has come waits, or the chunker has taken it and makes a chunk for it. -/
lemma requests_step (h : Step room space s a t) : t.chunker.requests + t.causes.count .request =
    s.chunker.requests + s.causes.count .request + [a].count .request := by
  cases h with
  | request => simp [Chunker.accept]; omega
  | requested hl hn => simp [hn]; omega
  | hand ht hl hr =>
    have hsame : ∀ f, (s.chunker.accept (.fact f)).requests = s.chunker.requests := fun f => by
      rw [Chunker.accept]
      split_ifs <;> rfl
    simp [hsame]
  | receive ht now x => simp [Inflow.receive]
  | _ => simp [Inflow.quit, Chunker.accept]

lemma requests_run (h : Run room space s acts t) : t.chunker.requests + t.causes.count .request =
    s.chunker.requests + s.causes.count .request + acts.count .request := by
  induction h with
  | nil => simp
  | cons h _ ih =>
    rw [ih, requests_step h, add_assoc, ← List.count_append]
    rfl

lemma Sound.cancelled_of_ended (hs : Sound signer s) (h : Step room space s a t) (hgoing : s.task ≠ .ended)
    (hended : t.task = .ended) : a = .reader ∧ s.cancelled = true := by
  cases h with
  | quit ht hc => exact ⟨rfl, hc⟩
  | unheard ht hl => exact absurd hl (hs.not_unheard ht)
  | receive ht now x =>
    obtain ⟨task, reader, heq, hne, -⟩ := hs.exists_receive now x
    rw [heq] at hended
    exact absurd hended hne
  | wake | ask | again | hand | handed => cases hended
  | _ => exact absurd hended hgoing

lemma Run.append {u : Inflow} {others : List Act} (h : Run room space s acts t) (hr : Run room space t others u) :
    Run room space s (acts ++ others) u := by
  induction h with
  | nil => exact hr
  | cons h _ ih => exact .cons h (ih hr)

lemma Step.run (h : Step room space s a t) : Run room space s [a] t := .cons h (.nil t)

def turned (s : Inflow) : Chunker.Turn → Inflow
  | .idle => s
  | .took c => { s with chunker := c }
  | .handOn chunk c =>
    { s with
      chunker := c, look := .sending chunk,
      causes := s.causes ++ [if chunk.print then Cause.request else Cause.period] }
  | .finish none => { s with look := .ended }
  | .finish (some chunk) =>
    { s with look := .closing chunk, chunker.gathered := [], causes := s.causes ++ [.ending] }

variable (room space) in
lemma exists_run_drain {print : Bool} (hl : s.look = .draining print) :
    ∃ n, Run room space s (List.replicate n .chunker)
      { s with
        look := .sending ⟨s.chunker.gathered ++ s.chunker.waiting, print⟩
        chunker := { s.chunker with gathered := [], waiting := [] } } := by
  induction hw : s.chunker.waiting generalizing s with
  | nil =>
    have hempty : ({ s.chunker with gathered := [], waiting := [] } : Chunker) = { s.chunker with gathered := [] } := by
      rw [← hw]
    refine ⟨1, ?_⟩
    rw [hempty, List.append_nil]
    exact (Step.drained hl hw).run
  | cons f facts ih =>
    have h : Step room space s .chunker _ := .drain hl hw
    obtain ⟨n, hr⟩ := ih (s := { s with chunker := { s.chunker with
      waiting := facts, gathered := s.chunker.gathered ++ [f] } }) hl rfl
    refine ⟨n + 1, .cons h ?_⟩
    simpa using hr

/-- A look of the chunker that nothing comes between is one of its turns. -/
theorem exists_run_turned (hl : s.look = .period) :
    ∃ n, Run room space s (List.replicate n .chunker) (s.turned s.chunker.turn) := by
  obtain ⟨reader, task, cancelled, ⟨due, requests, waiting, closed, gathered⟩, look, outbox, collected, causes⟩ := s
  obtain rfl : look = .period := hl
  cases due with
  | true =>
    obtain ⟨n, hr⟩ := exists_run_drain room space (s := ⟨reader, task, cancelled,
      ⟨false, requests, waiting, closed, gathered⟩, .draining false, outbox, collected, causes ++ [.period]⟩) rfl
    exact ⟨n + 1, .cons (.due rfl rfl) hr⟩
  | false =>
    cases requests with
    | succ n =>
      obtain ⟨m, hr⟩ := exists_run_drain room space (s := ⟨reader, task, cancelled,
        ⟨false, n, waiting, closed, gathered⟩, .draining true, outbox, collected, causes ++ [.request]⟩) rfl
      exact ⟨m + 2, .cons (.undue rfl rfl) (.cons (.requested rfl rfl) hr)⟩
    | zero =>
      refine ⟨3, .cons (.undue rfl rfl) (.cons (.unrequested rfl rfl) ?_)⟩
      cases waiting with
      | cons f facts => exact (Step.take rfl rfl).run
      | nil =>
        cases closed with
        | false => exact (Step.idle rfl rfl rfl).run
        | true =>
          cases gathered with
          | nil => exact (Step.stop rfl rfl rfl rfl).run
          | cons f facts => exact (Step.close rfl rfl rfl (by simp)).run

/-- How much the reader and the chunker have still to do once there is a cancellation. -/
def Task.left : Task → ℕ
  | ended => 0
  | asking | pausing => 1
  | receiving => 2
  | handing facts => 2 + 4 * facts.length

def Look.left : Look → ℕ
  | ended => 0
  | closing _ => 3
  | fact => 4
  | request => 5
  | period => 6
  | sending _ => 8
  | draining _ => 9

/-- A bound for the steps until all is sent and taken. -/
def left (s : Inflow) : ℕ :=
  s.task.left + (s.look.left + 3 * s.chunker.waiting.length + 5 * s.chunker.requests +
    (if s.chunker.due then 4 else 0) + s.outbox.length)

lemma left_quit (h : 0 < s.task.left) : s.quit.left < s.left := Nat.add_lt_add_right h _

variable (room) in
/-- The chunker comes nearer to the end when it has a fact to take or its last chunk to send. -/
lemma exists_chunker_left (hspace : 0 < space) (ho : s.outbox = []) (hl : s.look ≠ .ended)
    (h : s.chunker.waiting ≠ [] ∨ s.chunker.closed = true) :
    ∃ t, Step room space s .chunker t ∧ t.left < s.left ∧ t.cancelled = s.cancelled := by
  cases hlook : s.look with
  | period =>
    cases hd : s.chunker.due with
    | true => exact ⟨_, .due hlook hd, by simp [left, hlook, hd, Look.left]; omega, rfl⟩
    | false => exact ⟨_, .undue hlook hd, by simp [left, hlook, Look.left], rfl⟩
  | request =>
    cases hn : s.chunker.requests with
    | zero => exact ⟨_, .unrequested hlook hn, by simp [left, hlook, Look.left], rfl⟩
    | succ n => exact ⟨_, .requested hlook hn, by simp [left, hlook, hn, Look.left]; omega, rfl⟩
  | fact =>
    cases hw : s.chunker.waiting with
    | cons f facts => exact ⟨_, .take hlook hw, by simp [left, hlook, hw, Look.left]; omega, rfl⟩
    | nil =>
      have hc := h.resolve_left (by simp [hw])
      by_cases hg : s.chunker.gathered = []
      · exact ⟨_, .stop hlook hw hc hg, by simp [left, hlook, Look.left], rfl⟩
      · exact ⟨_, .close hlook hw hc hg, by simp [left, hlook, Look.left], rfl⟩
  | draining print =>
    cases hw : s.chunker.waiting with
    | nil => exact ⟨_, .drained hlook hw, by simp [left, hlook, Look.left], rfl⟩
    | cons f facts => exact ⟨_, .drain hlook hw, by simp [left, hw], rfl⟩
  | sending chunk => exact ⟨_, .send hlook (by simp [ho, hspace]), by simp [left, hlook, Look.left]; omega, rfl⟩
  | closing chunk => exact ⟨_, .finish hlook (by simp [ho, hspace]), by simp [left, hlook, Look.left]; omega, rfl⟩
  | ended => exact absurd hlook hl

/-- After a cancellation something can be done that brings the end nearer. -/
lemma Sound.exists_left (hs : Sound signer s) (hroom : 0 < room) (hspace : 0 < space) (hc : s.cancelled = true)
    (hl : s.look ≠ .ended) :
    ∃ a t, (a = .reader ∨ a = .chunker ∨ a = .collect) ∧ Step room space s a t ∧ t.left < s.left ∧
      t.cancelled = true := by
  cases ho : s.outbox with
  | cons chunk rest => exact ⟨.collect, _, by simp, .collect ho, by simp [left, ho], hc⟩
  | nil =>
    cases ht : s.task with
    | asking => exact ⟨.reader, _, by simp, .quit (.inl ht) hc, left_quit (by simp [ht, Task.left]), hc⟩
    | pausing => exact ⟨.reader, _, by simp, .quit (.inr ht) hc, left_quit (by simp [ht, Task.left]), hc⟩
    | receiving => exact ⟨.reader, _, by simp, .again ht, by simp [left, ht, Task.left], hc⟩
    | handing facts =>
      cases facts with
      | nil => exact ⟨.reader, _, by simp, .handed ht, by simp [left, ht, Task.left], hc⟩
      | cons f facts =>
        by_cases hr : s.chunker.waiting.length < room
        · refine ⟨.reader, _, by simp, .hand ht hl hr, ?_, hc⟩
          rw [hs.accept_fact (by simp [ht])]
          simp [left, ht, Task.left]
          omega
        · have hw : s.chunker.waiting ≠ [] := List.ne_nil_of_length_pos (by omega)
          obtain ⟨t, h, hleft, hsame⟩ := exists_chunker_left room hspace ho hl (.inl hw)
          exact ⟨.chunker, t, by simp, h, hleft, hsame.trans hc⟩
    | ended =>
      obtain ⟨t, h, hleft, hsame⟩ := exists_chunker_left room hspace ho hl (.inr (hs.closed.mpr ht))
      exact ⟨.chunker, t, by simp, h, hleft, hsame.trans hc⟩

lemma Sound.exists_run_ended (hs : Sound signer s) (hroom : 0 < room) (hspace : 0 < space) (hc : s.cancelled = true) :
    ∃ acts t, (∀ a ∈ acts, a = .reader ∨ a = .chunker ∨ a = .collect) ∧ Run room space s acts t ∧ t.look = .ended := by
  induction hn : s.left using Nat.strong_induction_on generalizing s with
  | _ n ih =>
    by_cases hl : s.look = .ended
    · exact ⟨[], s, by simp, .nil s, hl⟩
    · obtain ⟨a, t, ha, h, hleft, hct⟩ := hs.exists_left hroom hspace hc hl
      obtain ⟨acts, u, hacts, hr, hu⟩ := ih t.left (hn ▸ hleft) (hs.step h) hct rfl
      exact ⟨a :: acts, u, List.forall_mem_cons.mpr ⟨ha, hacts⟩, .cons h hr, hu⟩

/-- After a cancellation the reader and the chunker come to their end by themselves if only the next stage takes the
chunks. -/
theorem exists_run_ended (h : Run room space { reader := { signer := signer } } acts s) (hroom : 0 < room)
    (hspace : 0 < space) : ∃ more t, (∀ a ∈ more, a = .reader ∨ a = .chunker ∨ a = .collect) ∧
      Run room space s (.cancel :: more) t ∧ t.look = .ended := by
  have hcancel : Step room space s .cancel _ := .cancel
  have hs := ((sound_start signer).run h).step hcancel
  obtain ⟨more, t, hmore, hr, ht⟩ := hs.exists_run_ended hroom hspace rfl
  exact ⟨more, t, hmore, .cons .cancel hr, ht⟩

/-- However the steps fall, facts are sent in the order in which they came, and there is one chunk for each cause,
marked just where that is a request. -/
theorem run_conserves (h : Run room space { reader := { signer := signer } } acts s) :
    s.sent.flatMap ReceivedChunk.facts ++ s.held = acts.flatMap (Act.facts signer) ∧
      s.sent.map ReceivedChunk.print ++ s.look.marks = s.causes.map Cause.print ∧
      acts.count .request = s.chunker.requests + s.causes.count .request ∧
      (s.look = .ended → s.sent.flatMap ReceivedChunk.facts = acts.flatMap (Act.facts signer) ∧
        s.sent.map ReceivedChunk.print = s.causes.map Cause.print ∧
        acts.count .request = s.chunker.requests + s.sent.countP ReceivedChunk.print ∧ s.task = .ended) ∧
      ∀ a t, Step room space s a t → s.task ≠ .ended → t.task = .ended → a = .reader ∧ s.cancelled = true := by
  have hs := (sound_start signer).run h
  have hfacts : s.facts = acts.flatMap (Act.facts signer) := (sound_start signer).facts_run h
  have hrequests : acts.count .request = s.chunker.requests + s.causes.count .request := by
    simpa using (requests_run h).symm
  refine ⟨hfacts, hs.marks, hrequests, fun hl => ?_, fun a t => hs.cancelled_of_ended⟩
  obtain ⟨hclosed, hgathered, hwaiting⟩ := hs.last (by rw [hl]; rfl)
  have hended := hs.closed.mp hclosed
  have hnone : s.held = [] := by simp [held, hl, hgathered, hwaiting, hended, Look.facts, Task.facts]
  have hmarks : s.sent.map ReceivedChunk.print = s.causes.map Cause.print := by
    rw [← hs.marks, hl]
    exact (List.append_nil _).symm
  have hcount : s.sent.countP ReceivedChunk.print = s.causes.count .request := by
    have hmarked := congrArg (List.countP id) hmarks
    rw [List.countP_map, List.countP_map] at hmarked
    exact hmarked.trans (List.countP_congr fun c _ => by cases c <;> simp [Cause.print])
  refine ⟨?_, hmarks, hcount ▸ hrequests, hended⟩
  rw [← hfacts, Inflow.facts, hnone, List.append_nil]

/-- A request to print and a cancellation come while the fact of a good packet is handed on. -/
theorem run_conserves_print :
    let sender : Signer := .ofPair (.ofPrivate ⟨.ofNatLE 32 1⟩)
    let receiver : Signer := .ofPair (.ofPrivate ⟨.ofNatLE 32 2⟩)
    let source : SocketAddr := .ofIp sender.publicKey.overlayIp 51821
    let told : ReceivedFact := ⟨.membership ⟨.zero 32⟩ 60000000000, source, sender.publicKey⟩
    let packet := (sender.groupOf receiver.publicKey 0 (.zero 24) [told.fact]).formAt 0
    let acts := [Act.reader, .receive 0 .failure, .reader, .reader, .receive 0 (.packet [] source), .reader, .reader,
      .receive 0 (.packet packet source), .chunker, .request, .reader, .chunker, .chunker, .chunker, .cancel, .reader,
      .reader, .chunker, .collect, .chunker, .chunker, .chunker]
    ∃ s, Run 1 1 { reader := { signer := receiver } } acts s ∧ s.look = .ended ∧ s.sent = [⟨[told], true⟩] ∧
      s.sent.flatMap ReceivedChunk.facts = acts.flatMap (Act.facts receiver) ∧
      acts.count .request = s.chunker.requests + s.sent.countP ReceivedChunk.print := by
  intro sender receiver source told packet acts
  have hgroup : sender.Groups receiver.publicKey 0 (sender.groupOf receiver.publicKey 0 (.zero 24) [told.fact])
      [told.fact] := ⟨⟨.zero 24, rfl⟩, by decide⟩
  have hpackable : ∀ f ∈ [told.fact], f.Packable := by
    simpa [told] using (⟨.membership, by simp [Fact.membership]⟩ : (Fact.membership ⟨.zero 32⟩ 60000000000).Packable)
  have hagree : receiver.pair.privateKey.sharedSecret sender.publicKey =
      sender.pair.privateKey.sharedSecret receiver.publicKey := by decide +kernel
  have hsource : source.ip = sender.publicKey.overlayIp := rfl
  obtain ⟨after, -, hunpack⟩ := Packet.unpack_group hgroup hpackable hagree hsource
  have hread : told.fact.asRead 0 = told.fact := by decide +kernel
  rw [List.map_singleton, hread] at hunpack
  let before : Inflow := { reader := { signer := receiver }, task := .receiving }
  let good : Inflow := { reader := { signer := after }, task := .handing [told] }
  have hfirst : Run 1 1 { reader := { signer := receiver } }
      [.reader, .receive 0 .failure, .reader, .reader, .receive 0 (.packet [] source), .reader, .reader] before :=
    .cons (.ask rfl rfl) <| .cons (.receive rfl 0 .failure) <| .cons (.handed rfl) <| .cons (.ask rfl rfl) <|
      .cons (.receive rfl 0 (.packet [] source)) <| .cons (.handed rfl) <| .cons (.ask rfl rfl) <| .nil before
  have hgood : before.receive 0 (.packet packet source) = good := by
    simp [Inflow.receive, Reader.receive, before, good, packet, hunpack, Except.toOption, told]
  have hreceive : Step 1 1 before (.receive 0 (.packet packet source)) good := hgood ▸ Step.receive rfl 0 _
  let done : Inflow :=
    { reader := { signer := after }, task := .ended, cancelled := true, look := .ended, collected := [⟨[told], true⟩],
      chunker := { closed := true }, causes := [.request] }
  have hrest : Run 1 1 good [.chunker, .request, .reader, .chunker, .chunker, .chunker, .cancel, .reader, .reader,
      .chunker, .collect, .chunker, .chunker, .chunker] done :=
    .cons (.undue rfl rfl) <| .cons .request <| .cons (.hand rfl (by simp) (by simp [good, Chunker.accept])) <|
      .cons (.requested rfl rfl) <| .cons (.drain rfl rfl) <| .cons (.drained rfl rfl) <| .cons .cancel <|
      .cons (.handed rfl) <| .cons (.quit (.inl rfl) rfl) <| .cons (.send rfl Nat.one_pos) <|
      .cons (.collect rfl) <| .cons (.undue rfl rfl) <| .cons (.unrequested rfl rfl) <|
      .cons (.stop rfl rfl rfl rfl) <| .nil done
  have hrun : Run 1 1 { reader := { signer := receiver } } acts done := hfirst.append (.cons hreceive hrest)
  obtain ⟨-, -, -, hended, -⟩ := run_conserves hrun
  obtain ⟨hfacts, -, hrequests, -⟩ := hended rfl
  exact ⟨done, hrun, rfl, rfl, hfacts, hrequests⟩

end

end Inflow

end MeshFacts
