import CreditFlow.Line.Chain
import CreditFlow.Line.Sink

/-!
# Line

A chain of publishers, the sink behind it, and the tasks that keep it going.  The
tasks run one at a time: a task that was woken waits in a queue, and a task that has
come to run goes on, move by move, until it sleeps or is over.

Everything that happens along a line is one of three things: a move of the running
task, an operation at the writer, or an operation at the sink.  Each is carried out
at once with all that follows from it, because a control never travels further than
the last publisher and a signal never further than the next stream.

Main results:

- {lit}`Line.tick_eq_none_iff`: a line is idle exactly when no task runs and none
  waits.
- {lit}`Line.enqueue_of_mem`: waking a task twice is waking it once.
-/

namespace CreditFlow

/-- A chain of publishers, the sink behind it, and the tasks that keep it going. -/
structure Line where
  chain : Chain
  sink : Sink := .nobody
  /-- Whether the interrupt token was fired. -/
  interrupted : Bool := false
  /-- The tasks that are to run, the first first. -/
  ready : List Nat := []
  /-- The task that has come to run. -/
  running : Option Nat := none
  /-- Whoever polls the stream at the end was woken since it last tried to poll. -/
  woken : Bool := false
  /-- The calls that reached the sink, in order. -/
  calls : List Call := []
  /-- The notices of all parties, in order. -/
  journal : List Notice := []

namespace Line

/-! ## Bookkeeping -/

/-- Put a task into the queue, unless it is there. -/
def enqueue (task : Nat) (ready : List Nat) : List Nat :=
  if ready.contains task then ready else ready ++ [task]

/-- Wake tasks. -/
def wake (tasks : List Nat) (l : Line) : Line :=
  { l with ready := tasks.foldl (fun ready task => enqueue task ready) l.ready }

/-- Write notices into the journal. -/
def note (notes : List Notice) (l : Line) : Line :=
  { l with journal := l.journal ++ notes }

/-! ## Carrying things out -/

/-- Carry out one reaction of the sink. -/
def react (r : Reaction Unit) (l : Line) : Line :=
  match r with
  | .note n => l.note [n]
  | .interrupt => { l with interrupted := true }
  | .control _ c =>
      let told := l.chain.control c
      (({ l with chain := told.1 }).note told.2.1).wake told.2.2

/-- Carry out several reactions of the sink, in order. -/
def reactAll (rs : List (Reaction Unit)) (l : Line) : Line :=
  rs.foldl (fun l r => l.react r) l

/-- The sink is told something. -/
def hear (l : Line) (e : Emission) : Line :=
  let heard := l.sink.hear e
  { l with
    sink := heard.1
    calls := l.calls ++ heard.2.calls
    woken := l.woken || heard.2.woken }.reactAll heard.2.reactions

/-- The listener is made to do something. -/
def perform (l : Line) (a : Act) : Line :=
  let done := l.sink.perform a
  { l with sink := done.1 }.reactAll done.2

/-- Put a changed chain in place, with all that it gives to the outside. -/
def absorb (change : Chain × Burst) (l : Line) : Line :=
  let noted := ({ l with chain := change.1 }).note change.2.notes
  let told := change.2.emissions.foldl hear noted
  (change.2.acts.foldl perform told).wake change.2.wakes

/-! ## Tasks -/

/-- One move of the running task, or the next task's coming to run.  `none` means that
the line is idle. -/
def tick (l : Line) : Option Line :=
  match l.running with
  | some task =>
      let turned := l.chain.turn task
      some ({ l with running := if turned.2.goesOn then some task else none }.absorb turned)
  | none =>
      match l.ready with
      | [] => none
      | task :: rest => some { l with ready := rest, running := some task }

/-- Whether no task runs and none waits. -/
def isIdle (l : Line) : Bool :=
  l.running.isNone && l.ready.isEmpty

/-! ## Operations at the writer -/

/-- Do something at the writer. -/
def atWriter (f : Outlet → Outlet × List Notice × List Emission) (l : Line) : Line :=
  l.absorb (l.chain.atWriter f)

/-- An operation at the writer that signals nobody. -/
def quietly (f : Outlet → Outlet × List Notice) (o : Outlet) :
    Outlet × List Notice × List Emission :=
  ((f o).1, (f o).2, [])

/-- The consumer that stands behind the writer subscribes, which uses the body up. -/
def subscribe (l : Line) : Line :=
  ((l.atWriter Outlet.greet).atWriter fun o => o.attach o.ledger).atWriter
    (quietly fun o => (o.dropBody, []))

/-- Push an item.  `none` means that the push has to wait for credit. -/
def push (item : Octets) (l : Line) : Option (Except Failure Unit × Line) :=
  l.chain.writer?.bind fun o =>
    if o.closed then some (.error (.condition .closed), l)
    else
      (o.ledger.take l.interrupted).map fun
        | .error f => (.error f, l)
        | .ok ledger =>
            let charged := l.atWriter (quietly fun o => ({ o with ledger := ledger }, []))
            match o.deliver item with
            | none => (.error (.condition .cancelled), charged)
            | some emissions =>
                let delivered := charged.atWriter fun o => (o, [], emissions)
                (.ok (), delivered.atWriter (quietly (Outlet.counted item.length)))

/-- Put down how the writer ends the stream, and deliver the end. -/
def finish (f : Finish) (o : Outlet) (l : Line) : Line :=
  (l.atWriter (quietly fun o => (o.putDown f, []))).atWriter
    (Outlet.conclude f o.ledger.cancelled)

/-- Close the stream at the writer.  The answer says whether the consumer had
cancelled by the time the end was through. -/
def closeWriter (l : Line) : Except Failure Unit × Line :=
  match l.chain.writer? with
  | none => (.ok (), l)
  | some o =>
      if o.closed then (.ok (), l)
      else
        let l := (l.atWriter (quietly Outlet.shut)).finish .complete o
        if (l.chain.writer?.map fun o => o.ledger.cancelled).getD false then
          (.error (.condition .cancelled), l)
        else (.ok (), l)

/-- The writer goes away; an unclosed stream is abandoned. -/
def dropWriter (l : Line) : Line :=
  match l.chain.writer? with
  | none => l
  | some o =>
      let l := if o.closed then l else l.finish .abandoned o
      l.atWriter (quietly fun o => (o.dropWriter, []))

/-! ## Operations at the sink -/

/-- Put a changed inlet in place and carry out its reactions. -/
def commit (b : Inlet Unit) (out : List (Reaction Unit)) (l : Line) : Line :=
  { l with sink := .inlet b }.reactAll out

/-- Whoever polls the stream at the end forgets that it was woken. -/
def unwoken (l : Line) : Line :=
  { l with woken := false }

/-- Poll the stream at the end once. -/
def poll (l : Line) : Pull × Line :=
  match l.sink with
  | .stream s =>
      let first := s.attend
      let l := ({ l.unwoken with sink := .stream first.1 }).note first.2.1
      match first.2.2 with
      | .answer p => (p, l)
      | .asks handle =>
          let l := l.react (.control handle (.request 1))
          match l.sink with
          | .stream s =>
              let second := s.attend
              let l := ({ l with sink := .stream second.1 }).note second.2.1
              match second.2.2 with
              | .answer p => (p, l)
              | .asks _ => (.pending, l)
          | _ => (.pending, l)
  | _ => (.pending, l)

/-- Drop the stream at the end. -/
def dropStream (l : Line) : Line :=
  match l.sink with
  | .stream s =>
      let dropped := s.drop
      (({ l with sink := .stream dropped.1 }).note dropped.2.1).reactAll
        (dropped.2.2.map fun told : Unit × Control => .control told.1 told.2)
  | _ => l

/-- Do something at the source, and wake whoever sleeps for it if need be. -/
def atSource (f : Source → Source) (wakes : Bool) (l : Line) : Line :=
  let changed := l.chain.atSource f wakes
  ({ l with chain := changed.1 }).wake changed.2

/-! ## Basic laws -/

/-- A line is idle exactly when no task runs and none waits. -/
theorem tick_eq_none_iff (l : Line) : l.tick = none ↔ l.isIdle = true := by
  unfold tick isIdle
  cases l.running with
  | some task => simp
  | none => cases l.ready <;> simp

/-- A line is idle when no task runs and none is to run. -/
theorem isIdle_iff (l : Line) : l.isIdle = true ↔ l.running = none ∧ l.ready = [] := by
  simp [isIdle]

/-- Waking a task that waits already changes nothing. -/
theorem enqueue_of_mem {task : Nat} {ready : List Nat} (h : task ∈ ready) :
    enqueue task ready = ready := by
  simp [enqueue, h]

end Line
end CreditFlow
