import CreditFlow.Scenario.Writer

/-!
# Writing scenarios

A writer at one side of an outlet and a listener at the other.  The listener arrives
when a step makes it subscribe.

Main results:

- {lit}`Listening.step_of_not_holds`: without a handle a listener is refused every
  control.
-/

namespace CreditFlow

/-! ## The listener's steps -/

namespace Listening

/-- Whether the line has a listener that holds a handle. -/
def holds (l : Line) : Bool :=
  l.sink.listener?.any Listener.holds

/-- The listener does something, or someone else fires the interrupt token. -/
def act (a : Act) (l : Line) : Line :=
  match a with
  | .interrupt => l.react .interrupt
  | .control _ => l.perform a

/-- Whether a listener without a handle is refused. -/
def needsHandle : Act → Bool
  | .control (.request _) => true
  | .control .cancel => true
  | .control .release => false
  | .interrupt => false

/-- A step of the listener. -/
def step (a : Act) (l : Line) : Reply × Line :=
  if needsHandle a && !holds l then (.refused .noHandle, l) else (.done, act a l)

/-- Without a handle a listener is refused every control that uses it. -/
theorem step_of_not_holds {l : Line} (hholds : holds l = false) {a : Act}
    (hneeds : needsHandle a = true) : step a l = (.refused .noHandle, l) := by
  simp [step, hholds, hneeds]

end Listening

/-! ## Scenarios -/

/-- One step of a writing scenario. -/
inductive WriteStep where
  /-- A listener subscribes to the body. -/
  | subscribe (l : Listener)
  | dropBody
  | bodyLength
  | debugBody
  /-- Several granters make `each` grants of one item, and as many bytes are written as
  there are grants. -/
  | grantedWrites (granters each : Nat)
  | listener (a : Act)
  /-- The writer does something; `during` is what the listener does while it waits. -/
  | writer (s : WriterStep) (during : List Act)

/-- A writing scenario. -/
structure WriteScenario where
  contentLength : Nat := 0
  /-- Whether the interrupt token was fired beforehand. -/
  interrupted : Bool := true
  steps : List WriteStep := []

namespace WriteScenario

/-- The writer, if its body exists. -/
def body? (l : Line) : Option Outlet :=
  l.chain.writer?.filter Outlet.bodyHeld

/-- Grant one item, several times. -/
def grantOnes : Nat → Line → Line
  | 0, l => l
  | n + 1, l => grantOnes n (Listening.act (.control (.request 1)) l)

/-- Write that many bytes, counting up, and count the failures. -/
def writeCounting : (left : Nat) → UInt8 → Calling Line Nat
  | 0, _ => pure 0
  | left + 1, b => do
      let r ← Writer.push [b]
      let later ← writeCounting left (b + 1)
      pure (match r with
        | .ok _ => later
        | .error _ => later + 1)

/-- Make grants, and write as many bytes. -/
def grantedWrites (grants : Nat) : Calling Line Reply := fun s =>
  if Writer.isHeld s.world then
    (writeCounting grants 0 { s with world := grantOnes grants s.world }).map fun written =>
      (.tally grants written.1, written.2)
  else some (.refused .dropped, s)

/-- Carry out one step. -/
def carry (s : WriteStep) (l : Line) : Reply × Line :=
  match s with
  | .subscribe listener =>
      match body? l with
      | none => (.refused .bodyGone, l)
      | some _ => (.done, { l with sink := .listener listener }.subscribe)
  | .dropBody => (.done, l.atWriter (Line.quietly fun o => (o.dropBody, [])))
  | .bodyLength => (((body? l).map fun o => .counter o.contentLength).getD .done, l)
  | .debugBody => (((body? l).map fun o => .text o.bodyDebug).getD .done, l)
  | .grantedWrites granters each => (grantedWrites (granters * each)).carry [] l
  | .listener a => Listening.step a l
  | .writer s during => (Writer.step s).carry (during.map fun a l => Listening.act a l) l

/-- The line before the first step. -/
def start (s : WriteScenario) : Line :=
  { chain := .writer { contentLength := s.contentLength }, interrupted := s.interrupted }

/-- The transcript of a scenario. -/
def run (s : WriteScenario) : List Entry :=
  transcript carry s.steps s.start

end WriteScenario
end CreditFlow
