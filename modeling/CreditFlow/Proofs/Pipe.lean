import CreditFlow.Proofs.InletPort
import CreditFlow.Scenario.Piping
import Mathlib.Tactic.Common

/-!
# Pipes

A *pipe* is a line that was put together from a writer, any number of hops, and a reader or
a pull stream at the end, together with what has come of it: the items whose push was
accepted, and what was taken at the end.  At any time the writer may take a step, the
reader or the puller may make a call, and the tasks may make a move, in whatever order
they come to run.  Every order in which all this can happen is the order of some list of
events.

What happens at the writer is a sequence of operations of which at most one signals anybody.
Such a sequence is one operation, so a chain never has to be looked at in between.

Main results:

- {lit}`Pipe.settle_eq_run`: letting the tasks run is one of the runs.
- {lit}`Line.reactAll_parts`: reactions reach the chain only, and lose no wakeup.
- {lit}`Line.atWriter_fuse`: an operation that signals nobody is one with the next.
- {lit}`Line.pushes_push`, {lit}`Writer.steps_step`: all that a push, or any step of a
  writer, can come to.
-/

namespace CreditFlow

/-- The item that a step of a writer pushes, if it pushes one. -/
def WriterStep.item? : WriterStep → Option Octets
  | .write [] => none
  | .write (b :: rest) => some (b :: rest)
  | .writeAll [] => none
  | .writeAll (b :: rest) => some (b :: rest)
  | .writeByte b => some [b]
  | .push o => some o
  | _ => none

/-- The failure that a reply tells of, if any. -/
def Reply.failure? : Reply → Option Failure
  | .failed f => some f
  | .ioFailed (.stream f) => some f
  | _ => none

/-- Whether a reply tells of success. -/
def Reply.isAccepted : Reply → Bool
  | .accepted _ => true
  | _ => false

/-- Whether a notice tells of an empty chunk that was skipped. -/
def Notice.isSkip : Notice → Bool
  | .emptyChunkSkipped => true
  | _ => false

/-- The ledger when one item of credit has been used. -/
def Ledger.spent (l : Ledger) : Ledger :=
  { l with demand := l.demand.spend }

namespace Line

/-- One of the tasks that are to run comes first. -/
def prefer (task : Nat) (l : Line) : Line :=
  if task ∈ l.ready then { l with ready := task :: l.ready.erase task } else l

/-- How many chunks wait for the reader at the end. -/
def waiting (l : Line) : Nat :=
  (l.sink.inlet?.map fun b => b.chunks.length).getD 0

/-- How many empty chunks the inlet at the end has skipped. -/
def skipped (l : Line) : Nat :=
  l.journal.countP Notice.isSkip

end Line

/-! ## Events -/

/-- One thing that happens along a pipe. -/
inductive PipeEvent where
  /-- The tasks make one move. -/
  | ticks
  /-- One of the tasks that are to run comes first. -/
  | prefers (task : Nat)
  /-- The writer takes a step, unless it has to wait. -/
  | writes (s : WriterStep)
  /-- The reader makes a call, unless it has to wait. -/
  | reads (call : ReadCall)
  /-- Someone closes the reader. -/
  | closes
  | readerLeaves
  /-- The interrupt token is fired. -/
  | interrupts
  /-- The stream at the end is polled. -/
  | polls
  | streamLeaves

/-- A line, and what has come of it. -/
structure Pipe where
  line : Line
  /-- The items whose push was accepted, in order. -/
  accepted : List Octets := []
  /-- The bytes that the reader's calls have returned, in order. -/
  returned : Octets := []
  /-- How many chunks the reader has taken. -/
  taken : Nat := 0
  /-- How many items the stream at the end has yielded. -/
  yielded : Nat := 0

namespace Pipe

/-- A writer, `n` hops, and an end, put together; no task has run. -/
def start (contentLength n : Nat) (ending : PipeEnd) (interrupted : Bool) : Pipe :=
  let pieces : PipeScenario := { head := .writer contentLength, hops := n, ending := ending }
  { line := { pieces.pieces with interrupted := interrupted }.subscribe }

/-- The writer takes a step. -/
def write (s : WriterStep) (t : Pipe) : Pipe :=
  let stepped := (Writer.step s).carry [] t.line
  { t with
    line := stepped.2
    accepted := t.accepted ++ if stepped.1.isAccepted then s.item?.toList else [] }

/-- The reader makes a call.  A call that would have to wait does nothing yet. -/
def read (call : ReadCall) (t : Pipe) : Pipe :=
  match Reader.attempt (Inlet.answer call) t.line with
  | none => t
  | some answered =>
      { t with
        line := answered.2
        returned := t.returned ++ Inlet.bytes answered.1
        taken := t.taken + (t.line.waiting - answered.2.waiting) }

/-- The stream at the end is polled. -/
def poll (t : Pipe) : Pipe :=
  { t with
    line := t.line.poll.2
    yielded := t.yielded + if t.line.poll.1.isItem then 1 else 0 }

/-- What an event does.  Whoever is gone does nothing. -/
def step (t : Pipe) : PipeEvent → Pipe
  | .ticks => { t with line := t.line.tick.getD t.line }
  | .prefers task => { t with line := t.line.prefer task }
  | .writes s => t.write s
  | .reads call => if Reader.isHeld t.line then t.read call else t
  | .closes => { t with line := Reader.change Inlet.close t.line }
  | .readerLeaves => { t with line := Reader.change Inlet.dropReader t.line }
  | .interrupts => { t with line := t.line.react .interrupt }
  | .polls => if Puller.isHeld t.line then t.poll else t
  | .streamLeaves => { t with line := Puller.drop t.line }

/-- What a list of events comes to. -/
def run (events : List PipeEvent) (t : Pipe) : Pipe :=
  events.foldl step t

@[simp]
theorem run_nil (t : Pipe) : t.run [] = t := rfl

theorem run_cons (e : PipeEvent) (events : List PipeEvent) (t : Pipe) :
    t.run (e :: events) = (t.step e).run events := rfl

theorem run_append (first second : List PipeEvent) (t : Pipe) :
    t.run (first ++ second) = (t.run first).run second :=
  List.foldl_append

/-- What every event of a list keeps is kept by the run. -/
theorem run_keeps {holds : Pipe → Prop} {events : List PipeEvent}
    (hstep : ∀ {t : Pipe}, ∀ e ∈ events, holds t → holds (t.step e)) {t : Pipe} (ht : holds t) :
    holds (t.run events) := by
  induction events generalizing t with
  | nil => exact ht
  | cons e events ih =>
      rw [run_cons]
      exact ih (fun e' he' => hstep e' (List.mem_cons_of_mem e he'))
        (hstep e List.mem_cons_self ht)

/-- Nobody polls an inlet. -/
theorem step_of_inlet {t : Pipe} {b : Inlet Unit} (hsink : t.line.sink = .inlet b) :
    t.step .polls = t ∧ t.step .streamLeaves = t := by
  have hnobody : Puller.isHeld t.line = false := by
    simp [Puller.isHeld, hsink, Sink.stream?]
  simp [step, Puller.drop, hnobody]

/-- Letting the tasks run until the line is idle is a run. -/
theorem settle_eq_run (t : Pipe) :
    ∃ moves, t.run (List.replicate moves .ticks) = { t with line := t.line.settle } := by
  rcases t with ⟨line, accepted, returned, taken, yielded⟩
  dsimp only
  fun_induction Line.settle line with
  | case1 line htick => exact ⟨0, rfl⟩
  | case2 line moved htick ih =>
      rcases ih with ⟨moves, hmoves⟩
      refine ⟨moves + 1, ?_⟩
      rw [List.replicate_succ, run_cons]
      simp only [step, htick, Option.getD_some]
      exact hmoves

end Pipe

/-! ## Reactions along a line -/

/-- Controls are told one after the other. -/
theorem Chain.controls_append (cs ds : List Control) (c : Chain) :
    (c.controls (cs ++ ds)).1 = ((c.controls cs).1.controls ds).1 := by
  induction cs generalizing c with
  | nil => rfl
  | cons control cs ih => exact ih (c.control control).1

namespace Line

/-- Nothing but the order of the tasks changes, and nobody is forgotten. -/
theorem prefer_eq (task : Nat) (l : Line) :
    ∃ ready, l.prefer task = { l with ready := ready } ∧ ∀ k ∈ l.ready, k ∈ ready := by
  unfold prefer
  split
  · refine ⟨_, rfl, fun k hk => ?_⟩
    by_cases hk' : k = task
    · rw [hk']
      exact List.mem_cons_self
    · exact List.mem_cons_of_mem _ ((List.mem_erase_of_ne hk').mpr hk)
  · exact ⟨l.ready, rfl, fun _ hk => hk⟩

/-- Whoever is woken is to run, and nobody is forgotten. -/
theorem mem_wake {k : Nat} (tasks : List Nat) (l : Line) :
    k ∈ (l.wake tasks).ready ↔ k ∈ l.ready ∨ k ∈ tasks := by
  have hall : ∀ ready : List Nat,
      k ∈ tasks.foldl (fun ready task => enqueue task ready) ready ↔ k ∈ ready ∨ k ∈ tasks := by
    induction tasks with
    | nil => simp
    | cons task tasks ih =>
        intro ready
        have hone : k ∈ enqueue task ready ↔ k ∈ ready ∨ k = task := by
          unfold enqueue
          by_cases hmem : task ∈ ready
          · rw [if_pos (by simpa using hmem)]
            constructor
            · exact .inl
            · rintro (hk | rfl)
              · exact hk
              · exact hmem
          · rw [if_neg (by simpa using hmem)]
            simp
        rw [List.foldl_cons, ih, hone, List.mem_cons, or_assoc]
  exact hall l.ready

/-- Reactions of the sink reach the chain only, and nobody whom they wake is forgotten. -/
theorem reactAll_parts (rs : List (Reaction Unit)) (l : Line) :
    (l.reactAll rs).chain = (l.chain.controls (Reaction.controls rs)).1 ∧
      (l.reactAll rs).sink = l.sink ∧ (l.reactAll rs).running = l.running ∧
        ∀ k ∈ l.ready ++ (l.chain.controls (Reaction.controls rs)).2.2,
          k ∈ (l.reactAll rs).ready := by
  induction rs generalizing l with
  | nil =>
      refine ⟨rfl, rfl, rfl, fun k hk => ?_⟩
      change k ∈ l.ready
      simpa [Reaction.controls, Chain.controls] using hk
  | cons r rs ih =>
      rcases ih (l.react r) with ⟨hchain, hsink, hrunning, hready⟩
      cases r with
      | note n => exact ⟨hchain, hsink, hrunning, hready⟩
      | interrupt => exact ⟨hchain, hsink, hrunning, hready⟩
      | control handle c =>
          refine ⟨hchain, hsink, hrunning, fun k hk => hready k ?_⟩
          have hwoken : k ∈ (l.react (.control handle c)).ready ↔
              k ∈ l.ready ∨ k ∈ (l.chain.control c).2.2 := mem_wake _ _
          rw [List.mem_append, hwoken]
          change k ∈ l.ready ++ ((l.chain.control c).2.2 ++ _) at hk
          rw [List.mem_append, List.mem_append, ← or_assoc] at hk
          exact hk

/-- Whatever a line does with a change of its chain, the sink has nothing but its controls to
reach the chain with. -/
theorem absorb_chain (change : Chain × Burst) (l : Line) :
    ∃ cs, (l.absorb change).chain = (change.1.controls cs).1 := by
  have hhears : ∀ (es : List Emission) (l : Line),
      ∃ cs, (es.foldl hear l).chain = (l.chain.controls cs).1 := by
    intro es
    induction es with
    | nil => exact fun l => ⟨[], rfl⟩
    | cons e es ih =>
        intro l
        rcases ih (l.hear e) with ⟨cs, hcs⟩
        have hfirst : (l.hear e).chain = _ := (reactAll_parts _ _).1
        rw [hfirst, ← Chain.controls_append] at hcs
        exact ⟨_, hcs⟩
  have hperforms : ∀ (acts : List Act) (l : Line),
      ∃ cs, (acts.foldl perform l).chain = (l.chain.controls cs).1 := by
    intro acts
    induction acts with
    | nil => exact fun l => ⟨[], rfl⟩
    | cons a acts ih =>
        intro l
        rcases ih (l.perform a) with ⟨cs, hcs⟩
        have hfirst : (l.perform a).chain = _ := (reactAll_parts _ _).1
        rw [hfirst, ← Chain.controls_append] at hcs
        exact ⟨_, hcs⟩
  obtain ⟨cs, hcs⟩ := hhears change.2.emissions (({ l with chain := change.1 }).note change.2.notes)
  obtain ⟨cs', hcs'⟩ := hperforms change.2.acts
    (change.2.emissions.foldl hear (({ l with chain := change.1 }).note change.2.notes))
  refine ⟨cs ++ cs', ?_⟩
  change (change.2.acts.foldl perform _).chain = _
  rw [hcs', hcs, ← Chain.controls_append]
  rfl

/-- A reading call at the end of a line. -/
theorem attempt_answer {l : Line} {b : Inlet Unit} (hsink : l.sink = .inlet b) (call : ReadCall) :
    Reader.attempt (Inlet.answer call) l =
      (b.read call.wanted l.interrupted).map fun a => (a.value, l.commit a.after a.reactions) := by
  have hinlet : HasInlet.inlet? l = some b := by
    change l.sink.inlet? = some b
    rw [hsink]
    rfl
  rw [Reader.attempt, hinlet, Option.bind_some, Inlet.answer_eq_read]
  rfl

/-- Nobody reads from a stream. -/
theorem attempt_of_stream {l : Line} {s : PullStream Unit} (hsink : l.sink = .stream s)
    (call : ReadCall) : Reader.attempt (Inlet.answer call) l = none := by
  have hinlet : HasInlet.inlet? l = none := by
    change l.sink.inlet? = none
    rw [hsink]
    rfl
  rw [Reader.attempt, hinlet]
  rfl

/-! ## Operations at the writer -/

/-- What a writer does without signalling anybody, and then something else, at once. -/
def fuse (f : Outlet → Outlet × List Notice) (g : Outlet → Outlet × List Notice × List Emission)
    (o : Outlet) : Outlet × List Notice × List Emission :=
  ((g (f o).1).1, (f o).2 ++ (g (f o).1).2.1, (g (f o).1).2.2)

/-- What signals nobody stays at the writer. -/
theorem chain_quietly (f : Outlet → Outlet × List Notice) (c : Chain) :
    ∃ c' notes, c.atWriter (quietly f) = (c', { notes := notes }) := by
  induction c with
  | writer o => exact ⟨_, _, rfl⟩
  | source s p => exact ⟨_, [], rfl⟩
  | player p => exact ⟨_, [], rfl⟩
  | hop before s p ih =>
      rcases ih with ⟨c', notes, hbefore⟩
      refine ⟨.hop c' s p, notes, ?_⟩
      simp only [Chain.atWriter, hbefore, Chain.absorb, Chain.hear, List.append_nil]

/-- At a writer an operation and one that follows it are one operation, anywhere in a chain. -/
theorem chain_fuse (f : Outlet → Outlet × List Notice)
    (g : Outlet → Outlet × List Notice × List Emission) (c : Chain) :
    let first := c.atWriter (quietly f)
    let second := first.1.atWriter g
    c.atWriter (fuse f g) =
      (second.1, { second.2 with notes := first.2.notes ++ second.2.notes }) := by
  induction c with
  | writer o => rfl
  | source s p => rfl
  | player p => rfl
  | hop before s p ih =>
      rcases chain_quietly f before with ⟨c', notes, hbefore⟩
      simp only [hbefore] at ih
      have hhop : (Chain.hop before s p).atWriter (quietly f) =
          (.hop c' s p, { notes := notes }) := by
        simp only [Chain.atWriter, hbefore, Chain.absorb, Chain.hear, List.append_nil]
      simp only [hhop]
      simp only [Chain.atWriter, ih, Chain.absorb, List.append_assoc]

/-- An operation that reaches nobody behind the chain changes the chain only. -/
theorem atWriter_of_silent {l : Line} {f : Outlet → Outlet × List Notice × List Emission}
    {c : Chain} {notes : List Notice} (hsilent : l.chain.atWriter f = (c, { notes := notes })) :
    l.atWriter f = ({ l with chain := c }).note notes := by
  simp only [atWriter, absorb, hsilent]
  rfl

/-- An operation that signals nobody is one with the next. -/
theorem atWriter_fuse (f : Outlet → Outlet × List Notice)
    (g : Outlet → Outlet × List Notice × List Emission) (l : Line) :
    (l.atWriter (quietly f)).atWriter g = l.atWriter (fuse f g) := by
  rcases chain_quietly f l.chain with ⟨c', notes, hquiet⟩
  have hfirst := atWriter_of_silent hquiet
  have hfused := chain_fuse f g l.chain
  simp only [hquiet] at hfused
  rw [hfirst]
  simp only [atWriter, absorb, hfused, note, List.append_assoc]

/-- An item is handed over; the ledger says afterwards what `ledger` says. -/
def handover (ledger : Ledger) (item : Octets) : Outlet → Outlet × List Notice × List Emission :=
  fuse (fun o => ({ o with ledger := ledger }, [])) fun o => (o, [], [.signal (.next item)])

/-- All that a push can come to. -/
inductive Pushes (item : Octets) (l : Line) : Option (Except Failure Unit × Line) → Prop
  /-- It has to wait, or there is no writer. -/
  | waits : Pushes item l none
  /-- It fails before it has taken any credit. -/
  | refused (f : Failure) : Pushes item l (some (.error f, l))
  /-- It takes credit, but nobody is attached. -/
  | unattached (o : Outlet) (hwriter : l.chain.writer? = some o)
      (hdemand : 0 < o.ledger.demand.items) (hnobody : o.downstream ≠ .attached) (f : Failure) :
      Pushes item l
        (some (.error f, l.atWriter (quietly fun o' => ({ o' with ledger := o.ledger.spent }, []))))
  /-- The item is handed over. -/
  | accepted (o : Outlet) (hwriter : l.chain.writer? = some o) (hopen : o.closed = false)
      (hdemand : 0 < o.ledger.demand.items) (hattached : o.downstream = .attached) :
      Pushes item l
        (some (.ok (), (l.atWriter (handover o.ledger.spent item)).atWriter
          (quietly (Outlet.counted item.length))))

/-- Every push is in the list. -/
theorem pushes_push (item : Octets) (l : Line) : Pushes item l (l.push item) := by
  cases hwriter : l.chain.writer? with
  | none =>
      have hwaits : l.push item = none := by simp [push, hwriter]
      rw [hwaits]
      exact .waits
  | some o =>
      cases hclosed : o.closed with
      | true =>
          have hrefused : l.push item = some (.error (.condition .closed), l) := by
            simp [push, hwriter, hclosed]
          rw [hrefused]
          exact .refused _
      | false =>
          cases htake : o.ledger.take l.interrupted with
          | none =>
              have hwaits : l.push item = none := by simp [push, hwriter, hclosed, htake]
              rw [hwaits]
              exact .waits
          | some taken =>
              cases taken with
              | error f =>
                  have hrefused : l.push item = some (.error f, l) := by
                    simp [push, hwriter, hclosed, htake]
                  rw [hrefused]
                  exact .refused f
              | ok ledger =>
                  rcases Ledger.take_items htake with ⟨-, hitems, rfl⟩
                  have hdemand : 0 < o.ledger.demand.items := by
                    simp only [Demand.spend_items] at hitems
                    omega
                  by_cases hattached : o.downstream = .attached
                  · have haccepted : Pushes item l _ :=
                      .accepted o hwriter hclosed hdemand hattached
                    rw [handover, ← atWriter_fuse] at haccepted
                    simpa [push, hwriter, hclosed, htake, Outlet.deliver, hattached, Ledger.spent]
                      using haccepted
                  · have hnobody : o.deliver item = none := by
                      cases hdown : o.downstream with
                      | attached => exact absurd hdown hattached
                      | waiting => simp [Outlet.deliver, hdown]
                      | done => simp [Outlet.deliver, hdown]
                    have hunattached : Pushes item l _ :=
                      .unattached o hwriter hdemand hattached (.condition .cancelled)
                    simpa [push, hwriter, hclosed, htake, hnobody, Ledger.spent] using hunattached

/-- A subscription that reaches nobody behind the chain changes the chain only. -/
theorem subscribe_of_silent {l : Line} {greeted attached used : Chain} {notes : List Notice}
    (hgreet : l.chain.atWriter Outlet.greet = (greeted, { notes := notes }))
    (hattach : greeted.atWriter (fun o => o.attach o.ledger) = (attached, {}))
    (hdrop : attached.atWriter (quietly fun o => (o.dropBody, [])) = (used, {})) :
    l.subscribe = ({ l with chain := used }).note notes := by
  have hsecond : (({ l with chain := greeted }).note notes).atWriter
        (fun o => o.attach o.ledger) = ({ l with chain := attached }).note notes := by
    rw [atWriter_of_silent hattach]
    simp only [note, List.append_nil]
  have hthird : (({ l with chain := attached }).note notes).atWriter
        (quietly fun o => (o.dropBody, [])) = ({ l with chain := used }).note notes := by
    rw [atWriter_of_silent hdrop]
    simp only [note, List.append_nil]
  rw [subscribe, atWriter_of_silent hgreet, hsecond, hthird]

/-- The writer puts down how it ends the stream, and the end is delivered. -/
def ending (f : Finish) (silent : Bool) : Outlet → Outlet × List Notice × List Emission :=
  fuse (fun o => (o.putDown f, [])) (Outlet.conclude f silent)

/-- To end the stream is to put the end down and to deliver it, in one operation. -/
theorem finish_eq (f : Finish) (o : Outlet) (l : Line) :
    l.finish f o = l.atWriter (ending f o.ledger.cancelled) :=
  atWriter_fuse _ _ l

/-- Closing is one operation, unless the stream is closed already. -/
theorem closeWriter_cases (l : Line) :
    (l.closeWriter.2 = l ∧ ∀ o, l.chain.writer? = some o → o.closed = true) ∨
      ∃ o, l.chain.writer? = some o ∧ o.closed = false ∧
        l.closeWriter.2 =
          l.atWriter (fuse Outlet.shut (ending .complete o.ledger.cancelled)) := by
  unfold closeWriter
  cases hwriter : l.chain.writer? with
  | none => exact .inl ⟨rfl, nofun⟩
  | some o =>
      cases hclosed : o.closed with
      | true =>
          refine .inl ⟨by simp [hclosed], fun o' hsame => ?_⟩
          cases hsame
          exact hclosed
      | false =>
          refine .inr ⟨o, rfl, hclosed, ?_⟩
          simp only [hclosed, Bool.false_eq_true, if_false, finish_eq, atWriter_fuse]
          split <;> rfl

/-- Going away is one operation if the stream is closed, and comes after another, which
abandons it, if it is not. -/
theorem dropWriter_cases (l : Line) :
    (l.dropWriter = l ∧ l.chain.writer? = none) ∨
      ∃ o, l.chain.writer? = some o ∧
        (o.closed = true ∧ l.dropWriter = l.atWriter (quietly fun o => (o.dropWriter, [])) ∨
          o.closed = false ∧
            l.dropWriter =
              (l.atWriter (ending .abandoned o.ledger.cancelled)).atWriter
                (quietly fun o => (o.dropWriter, []))) := by
  unfold dropWriter
  cases hwriter : l.chain.writer? with
  | none => exact .inl ⟨rfl, rfl⟩
  | some o =>
      refine .inr ⟨o, rfl, ?_⟩
      cases hclosed : o.closed with
      | true => exact .inl ⟨rfl, by simp [hclosed]⟩
      | false => exact .inr ⟨rfl, by simp [hclosed, finish_eq]⟩

end Line

/-! ## The beginning of a pipe -/

/-- A writer whose consumer has subscribed, and has asked for nothing yet. -/
def Outlet.greeted (contentLength : Nat) : Outlet :=
  { contentLength := contentLength, downstream := .attached, bodyHeld := false }

/-- What stands at the end of a pipe before it has heard anything. -/
def PipeEnd.sink : PipeEnd → Sink
  | .reader => .inlet {}
  | .stream => .stream {}

namespace Chain

/-- What reaches nobody behind a chain reaches nobody behind any hops that follow. -/
theorem atWriter_extend {c c' : Chain} {f : Outlet → Outlet × List Notice × List Emission}
    {notes : List Notice} (hsilent : c.atWriter f = (c', { notes := notes })) (n : Nat) :
    (extend n c).atWriter f = (extend n c', { notes := notes }) := by
  induction n generalizing c c' with
  | zero => exact hsilent
  | succ n ih =>
      apply ih
      simp only [atWriter, hsilent, absorb, hear, List.append_nil]

/-- The tasks of a chain are those of its hops. -/
theorem tasks_extend {c c' : Chain} (htasks : c.tasks = c'.tasks) (hhops : c.hops = c'.hops)
    (n : Nat) : (extend n c).tasks = (extend n c').tasks := by
  induction n generalizing c c' with
  | zero => exact htasks
  | succ n ih => exact ih (by simp only [tasks, htasks, hhops]) (by simp only [hops, hhops])

end Chain

namespace Pipe

/-- Behind a hop, the greeting of the writer waits in the stream of the first hop. -/
theorem start_succ (contentLength n : Nat) (ending : PipeEnd) (interrupted : Bool) :
    ∃ journal, (start contentLength (n + 1) ending interrupted).line =
      { chain := Chain.extend n
          (.hop (.writer (Outlet.greeted contentLength)) { inbox := [.subscribed ()] } {})
        sink := ending.sink
        interrupted := interrupted
        ready := (Chain.extend n
          (.hop (.writer (Outlet.greeted contentLength)) { inbox := [.subscribed ()] } {})).tasks
        journal := journal } := by
  let fresh : Outlet := { contentLength := contentLength }
  let heard : PullStream Unit := { inbox := [.subscribed ()] }
  have hgreet : (Chain.hop (.writer fresh) {} {}).atWriter Outlet.greet =
      (.hop (.writer fresh) heard {}, { notes := [.writerSubscribed contentLength] }) := rfl
  have hattach : (Chain.hop (.writer fresh) heard {}).atWriter (fun o => o.attach o.ledger) =
      (.hop (.writer { fresh with downstream := .attached }) heard {}, {}) := rfl
  have hdrop : (Chain.hop (.writer { fresh with downstream := .attached }) heard {}).atWriter
        (Line.quietly fun o => (o.dropBody, [])) =
      (.hop (.writer (Outlet.greeted contentLength)) heard {}, {}) := rfl
  have htasks : (Chain.extend n (.hop (.writer fresh) {} {})).tasks =
      (Chain.extend n (.hop (.writer (Outlet.greeted contentLength)) heard {})).tasks := by
    apply Chain.tasks_extend
    · rfl
    · rfl
  refine ⟨[.writerSubscribed contentLength], ?_⟩
  rw [start, Line.subscribe_of_silent (Chain.atWriter_extend hgreet n)
    (Chain.atWriter_extend hattach n) (Chain.atWriter_extend hdrop n), ← htasks]
  cases ending <;> rfl

/-- Without a hop, the reader has asked for its first chunk. -/
theorem start_zero_reader (contentLength : Nat) (interrupted : Bool) :
    ∃ journal, (start contentLength 0 .reader interrupted).line =
      { chain := .writer
          { Outlet.greeted contentLength with ledger := { demand := Demand.zero.grant 1 } }
        sink := .inlet { slot := .installed (), credit := 1 }
        interrupted := interrupted
        journal := journal } :=
  ⟨[.writerSubscribed contentLength, .requestingFirstChunk, .demandGranted 1 1], rfl⟩

/-- Without a hop, the stream has not been looked at. -/
theorem start_zero_stream (contentLength : Nat) (interrupted : Bool) :
    ∃ journal, (start contentLength 0 .stream interrupted).line =
      { chain := .writer (Outlet.greeted contentLength)
        sink := .stream { inbox := [.subscribed ()] }
        interrupted := interrupted
        journal := journal } :=
  ⟨[.writerSubscribed contentLength], rfl⟩

end Pipe

/-! ## Steps of a writer -/

namespace Writer

/-- All that a step of a writer can come to. -/
inductive Steps (s : WriterStep) (l : Line) : Reply × Line → Prop
  /-- Nothing happens, and nothing is pushed; a writer that exists does not end the stream. -/
  | idles (r : Reply) (hnothing : r.isAccepted = true → s.item? = none)
      (hwriting : isHeld l = true → s ≠ .finish ∧ s ≠ .drop) : Steps s l (r, l)
  /-- A push that does not have to wait. -/
  | pushes (item : Octets) (hitem : s.item? = some item) (hheld : isHeld l = true)
      (answer : Except Failure Unit) (after : Line) (hpush : l.push item = some (answer, after))
      (r : Reply) (hreply : r.isAccepted = true ↔ answer = .ok ()) : Steps s l (r, after)
  | closes (hstep : s = .finish) (hheld : isHeld l = true) (r : Reply) :
      Steps s l (r, l.closeWriter.2)
  | leaves (hstep : s = .drop) (hheld : isHeld l = true) (r : Reply) : Steps s l (r, l.dropWriter)

/-- A step that pushes an item does not end the stream. -/
theorem writing_of_item {s : WriterStep} {item : Octets} (hitem : s.item? = some item) :
    s ≠ .finish ∧ s ≠ .drop := by
  constructor <;>
    · rintro rfl
      cases hitem

/-- A step that is not accepted, or pushes nothing, adds nothing to what was accepted. -/
theorem accepted_of_nothing {s : WriterStep} {r : Reply}
    (hnothing : r.isAccepted = true → s.item? = none) (accepted : List Octets) :
    accepted ++ (if r.isAccepted then s.item?.toList else []) = accepted := by
  split
  · rename_i haccepted
    rw [hnothing haccepted]
    exact List.append_nil _
  · exact List.append_nil _

/-- A step that pushes an item is a push, with its answer put into a reply. -/
theorem perform_push {s : WriterStep} {item : Octets} (hitem : s.item? = some item) :
    ∃ reply : Except Failure Unit → Reply,
      perform s = (push item >>= fun answer => pure (reply answer)) ∧
      (∀ answer, (reply answer).isAccepted = true ↔ answer = .ok ()) ∧
      ∀ f, (reply (.error f)).failure? = some f := by
  have hio : ∀ (told : Unit → Option Nat) (answer : Except Failure Unit),
      (Reply.ofIo (fun u => .accepted (told u)) answer).isAccepted = true ↔ answer = .ok () := by
    intro told answer
    cases answer <;> simp [Reply.ofIo, Reply.isAccepted]
  have hcall : ∀ answer : Except Failure Unit,
      (Reply.ofCall (fun _ => .accepted none) answer).isAccepted = true ↔ answer = .ok () := by
    intro answer
    cases answer <;> simp [Reply.ofCall, Reply.isAccepted]
  cases s with
  | write bytes =>
      cases bytes with
      | nil => cases hitem
      | cons b rest =>
          cases hitem
          exact ⟨_, rfl, hio _, fun f => rfl⟩
  | writeAll bytes =>
      cases bytes with
      | nil => cases hitem
      | cons b rest =>
          cases hitem
          exact ⟨_, rfl, hio _, fun f => rfl⟩
  | writeByte b =>
      cases hitem
      exact ⟨_, rfl, hcall, fun f => rfl⟩
  | push item =>
      cases hitem
      exact ⟨_, rfl, hcall, fun f => rfl⟩
  | _ => cases hitem

/-- A step that neither pushes nor ends the stream is answered at once. -/
theorem perform_idle {s : WriterStep} (hitem : s.item? = none) (hfinish : s ≠ .finish)
    (hdrop : s ≠ .drop) (call : Assisted Line) : ∃ reply, perform s call = some (reply, call) := by
  cases s with
  | write bytes =>
      cases bytes with
      | nil => exact ⟨_, rfl⟩
      | cons b rest => cases hitem
  | writeAll bytes =>
      cases bytes with
      | nil => exact ⟨_, rfl⟩
      | cons b rest => cases hitem
  | writeByte b => cases hitem
  | push item => cases hitem
  | finish => exact absurd rfl hfinish
  | drop => exact absurd rfl hdrop
  | flush | written | contentLength | outstanding | isCancelled | debug => exact ⟨_, rfl⟩

/-- A step that pushes tries until the push need not wait, with the help of others. -/
theorem step_push {s : WriterStep} {l : Line} {item : Octets} (hitem : s.item? = some item)
    (hheld : isHeld l = true) :
    ∃ reply : Except Failure Unit → Reply,
      (∀ helpers, step s ⟨l, helpers⟩ =
        (awaitIn (Line.push item) helpers l).map fun r => (reply r.1, r.2)) ∧
      (∀ answer, (reply answer).isAccepted = true ↔ answer = .ok ()) ∧
      ∀ f, (reply (.error f)).failure? = some f := by
  obtain ⟨reply, hperform, haccepted, hfailure⟩ := perform_push hitem
  refine ⟨reply, fun helpers => ?_, haccepted, hfailure⟩
  simp only [step, hheld, if_true, hperform]
  change (awaitIn (Line.push item) helpers l).bind _ = _
  cases awaitIn (Line.push item) helpers l <;> rfl

/-- What a call that pushes comes to when nobody helps it. -/
theorem steps_of_push {s : WriterStep} {l : Line} {item : Octets} (hitem : s.item? = some item)
    (hheld : isHeld l = true) : Steps s l ((step s).carry [] l) := by
  obtain ⟨reply, hstep, hreply, -⟩ := step_push hitem hheld
  unfold Calling.carry
  rw [hstep]
  cases hpush : l.push item with
  | none =>
      simp only [awaitIn, hpush, Option.map_none, List.foldl_nil]
      exact .idles .stuck (fun haccepted => by cases haccepted) fun _ => writing_of_item hitem
  | some answered =>
      simp only [awaitIn, hpush, Option.map_some, List.foldl_nil]
      exact .pushes item hitem hheld answered.1 answered.2 hpush _ (hreply _)

/-- Every step of a writer is in the list. -/
theorem steps_step (s : WriterStep) (l : Line) : Steps s l ((step s).carry [] l) := by
  by_cases hheld : isHeld l = true
  · have hperform : (step s).carry [] l = (perform s).carry [] l := by
      simp only [Calling.carry, step, hheld, if_true]
    cases hitem : s.item? with
    | some item => exact steps_of_push hitem hheld
    | none =>
        rw [hperform]
        by_cases hfinish : s = .finish
        · subst hfinish
          exact .closes rfl hheld _
        · by_cases hdrop : s = .drop
          · subst hdrop
            exact .leaves rfl hheld _
          · obtain ⟨reply, hidle⟩ := perform_idle hitem hfinish hdrop ⟨l, []⟩
            rw [Calling.carry, hidle]
            exact .idles reply (fun _ => hitem) fun _ => ⟨hfinish, hdrop⟩
  · have hgone : isHeld l = false := by simpa using hheld
    by_cases hdrop : s = .drop
    · subst hdrop
      have hstep : (step .drop).carry [] l = (.done, l) := by
        simp [Calling.carry, step, hgone]
      rw [hstep]
      exact .idles .done (fun _ => rfl) fun hthere => absurd hthere hheld
    · have hstep : (step s).carry [] l = (.refused .dropped, l) := by
        simp [Calling.carry, step, hgone, hdrop, Assisted.alone]
      rw [hstep]
      exact .idles (.refused .dropped) (fun haccepted => by cases haccepted)
        fun hthere => absurd hthere hheld

end Writer
end CreditFlow
