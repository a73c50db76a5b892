import CreditFlow.Rehearsal.Exchange
import CreditFlow.Scenario.Reader

/-!
# Reading scenarios

A reader and hand-driven publishers on the two sides of one inlet.  Publishers act
between the reader's calls, while a call waits, and from inside the calls that reach
them.

Main results:

- {lit}`ReadScenario.carry_cues`: publishers get no reply, and everything that follows
  from what they do has happened when the next step begins.
-/

namespace CreditFlow

instance : Chronicle Exchange where
  calls := Exchange.calls
  journal := Exchange.journal
  turnPage w := { w with calls := [], journal := [] }

instance : HasInlet Exchange Nat where
  inlet? w := some w.inlet
  interrupted := Exchange.interrupted
  commit := Exchange.commit

/-- One step of a reading scenario. -/
inductive ReadStep where
  /-- The publishers do something. -/
  | cues (cs : List InletCue)
  /-- The reader does something; `during` is what the publishers do while it waits. -/
  | reader (s : ReaderStep) (during : List (List InletCue))

/-- A reading scenario. -/
structure ReadScenario where
  /-- Whether the interrupt token was fired beforehand. -/
  interrupted : Bool := true
  steps : List ReadStep := []

namespace ReadScenario

/-- A bound for the chunks that a reader can still come by. -/
def supply (during : List (List InletCue)) (w : Exchange) : Nat :=
  w.inlet.queue.length + Cue.bank w.peers + Cue.scriptsWeight during + 2

/-- Carry out one step. -/
def carry (s : ReadStep) (w : Exchange) : Reply × Exchange :=
  match s with
  | .cues cs => (.done, w.play cs)
  | .reader s during =>
      (Reader.step (supply during w) s).carry (during.map fun cs w => w.play cs) w

/-- Publishers get no reply, and everything that follows from what they do happens at
once. -/
@[simp]
theorem carry_cues (cs : List InletCue) (w : Exchange) :
    carry (.cues cs) w = (.done, w.settle (cs.map .cue)) := rfl

/-- The transcript of a scenario. -/
def run (s : ReadScenario) : List Entry :=
  transcript carry s.steps { interrupted := s.interrupted }

end ReadScenario
end CreditFlow
