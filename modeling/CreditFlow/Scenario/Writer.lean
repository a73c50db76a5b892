import CreditFlow.Line.Basic
import CreditFlow.Scenario.Calling

/-!
# A writer in a scenario

The steps of a thread that writes at the beginning of a line.

Main results:

- {lit}`Writer.perform_write_nil`: writing nothing as bytes is done at once, whatever
  the state of the stream; only a push can push an empty item.
- {lit}`Writer.step_of_dropped`: a writer that is gone does nothing, and nobody acts on
  its behalf.
-/

namespace CreditFlow

instance : Chronicle Line where
  calls := Line.calls
  journal := Line.journal
  turnPage l := { l with calls := [], journal := [] }

/-- What a writer does in one step of a scenario. -/
inductive WriterStep where
  /-- Write some of the bytes: all of them, as one item. -/
  | write (o : Octets)
  | writeAll (o : Octets)
  | writeByte (b : UInt8)
  /-- Push one item, which may be empty. -/
  | push (o : Octets)
  | flush
  /-- Close the stream. -/
  | finish
  | drop
  | written
  | contentLength
  /-- The credit that has not been used. -/
  | outstanding
  | isCancelled
  | debug
  deriving DecidableEq, Repr

namespace Writer

/-- Push an item, and wait for the credit to do so. -/
def push (item : Octets) : Calling Line (Except Failure Unit) :=
  await (Line.push item)

/-- What can be read off the writer. -/
def look (f : Outlet → Reply) : Calling Line Reply :=
  atOnce fun l => ((l.chain.writer?.map f).getD .done, l)

/-- What a writer does that exists. -/
def perform : WriterStep → Calling Line Reply
  | .write [] => pure (.accepted (some 0))
  | .write (b :: rest) => do
      let r ← push (b :: rest)
      pure (Reply.ofIo (fun _ => .accepted (some (b :: rest).length)) r)
  | .writeAll [] => pure (.accepted none)
  | .writeAll (b :: rest) => do
      let r ← push (b :: rest)
      pure (Reply.ofIo (fun _ => .accepted none) r)
  | .writeByte b => do
      let r ← push [b]
      pure (Reply.ofCall (fun _ => .accepted none) r)
  | .push o => do
      let r ← push o
      pure (Reply.ofCall (fun _ => .accepted none) r)
  | .flush => pure (.accepted none)
  | .finish => atOnce fun l =>
      (Reply.ofCall (fun _ => .accepted none) l.closeWriter.1, l.closeWriter.2)
  | .drop => atOnce fun l => (.done, l.dropWriter)
  | .written => look fun o => .counter o.written
  | .contentLength => look fun o => .counter o.contentLength
  | .outstanding => look fun o => .counter o.ledger.demand.items
  | .isCancelled => look fun o => .truth o.ledger.cancelled
  | .debug => look fun o => .text o.debug

/-- Whether the line has a writer that exists. -/
def isHeld (l : Line) : Bool :=
  l.chain.writer?.any Outlet.writerHeld

/-- A step of a writer.  Dropping a writer that is gone is nothing; any other step is
refused, and nobody acts while a refused step would have waited. -/
def step (s : WriterStep) : Calling Line Reply := fun l =>
  if isHeld l.world then perform s l
  else if s = .drop then some (.done, l)
  else some (.refused .dropped, l.alone)

/-! ## Basic laws -/

/-- Writing nothing is done at once, whatever the state of the stream. -/
theorem perform_write_nil (l : Assisted Line) :
    perform (.write []) l = some (.accepted (some 0), l) := rfl

/-- A writer that is gone does nothing, and nobody acts on its behalf. -/
theorem step_of_dropped {l : Assisted Line} (hgone : isHeld l.world = false) {s : WriterStep}
    (hstep : s ≠ .drop) : step s l = some (.refused .dropped, l.alone) := by
  simp [step, hgone, hstep]

end Writer
end CreditFlow
