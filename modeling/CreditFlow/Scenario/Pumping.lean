import CreditFlow.Line.Running
import CreditFlow.Scenario.Writing

/-!
# Pumping scenarios

A pump over a source, and a listener.  Nothing runs before the first step has been
carried out; after each step the pump runs until it has nothing left to do.

Main results:

- {lit}`PumpScenario.carry_isIdle`: after every step the line is idle.
-/

namespace CreditFlow

/-- Something that is done to a source. -/
inductive SourceAct where
  /-- Nothing is done; the tasks may run. -/
  | run
  /-- Append items to the source, and wake it. -/
  | feed (items : List Item)
  /-- Nothing more will be appended; wake the source. -/
  | finish
  | wake
  deriving DecidableEq, Repr

namespace SourceAct

/-- Do something to the source of a line, without letting the tasks run. -/
def perform (a : SourceAct) (l : Line) : Reply × Line :=
  match a, l.chain.source? with
  | .run, _ => (.done, l)
  | _, none => (.refused .dropped, l)
  | .feed items, some _ => (.done, l.atSource (Source.feed items) true)
  | .finish, some _ => (.done, l.atSource Source.finish true)
  | .wake, some _ => (.done, l.atSource id true)

end SourceAct

/-- Something that is done in a pumping scenario. -/
inductive PumpAct where
  | listener (a : Act)
  | source (a : SourceAct)
  deriving DecidableEq, Repr

/-- One step of a pumping scenario. -/
inductive PumpStep where
  | act (a : PumpAct)
  /-- Several things are done before the pump runs. -/
  | batch (acts : List PumpAct)
  deriving DecidableEq, Repr

/-- A pumping scenario. -/
structure PumpScenario where
  source : List Item := []
  /-- The source stays open at the end of its items. -/
  isOpen : Bool := false
  listener : Listener := {}
  steps : List PumpStep := []

namespace PumpScenario

/-- Do one thing, without letting the pump run. -/
def perform (a : PumpAct) (l : Line) : Reply × Line :=
  match a with
  | .listener a => Listening.step a l
  | .source a => a.perform l

/-- Do several things, without letting the pump run. -/
def performAll : List PumpAct → Line → List Reply × Line
  | [], l => ([], l)
  | a :: rest, l =>
      let first := perform a l
      let later := performAll rest first.2
      (first.1 :: later.1, later.2)

/-- How much the source has yielded. -/
def pulled (l : Line) : Nat :=
  (l.chain.source?.map Source.pulled).getD 0

/-- Let the pump run, and tell how much was pulled so far. -/
def letRun (done : Reply × Line) : Reply × Line :=
  (.pulled done.1 (pulled done.2.settle), done.2.settle)

/-- Carry out one step. -/
def carry (s : PumpStep) (l : Line) : Reply × Line :=
  match s with
  | .act a => letRun (perform a l)
  | .batch acts => letRun (.many (performAll acts l).1, (performAll acts l).2)

/-- The line before the first step: the task of the pump is to run. -/
def start (s : PumpScenario) : Line :=
  { chain := .source { items := s.source, isOpen := s.isOpen } {}
    sink := .listener s.listener
    ready := [0] }

/-- The transcript of a scenario. -/
def run (s : PumpScenario) : List Entry :=
  transcript carry s.steps s.start

/-- After every step the line is idle. -/
theorem carry_isIdle (s : PumpStep) (l : Line) : (carry s l).2.isIdle = true := by
  cases s <;> exact Line.settle_isIdle _

end PumpScenario
end CreditFlow
