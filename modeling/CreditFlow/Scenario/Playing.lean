import CreditFlow.Scenario.Piping
import CreditFlow.Scenario.Recording

/-!
# Playing scenarios

A player on a thread of its own, opposite a reader, a pull stream or a recorder.  The
thread runs by itself: after everything that happens, it plays on as far as it can.

Main results:

- {lit}`Live.commit_isIdle`, {lit}`Live.control_isIdle`: whatever is done to a live
  line, its tasks have run when it is done.
-/

namespace CreditFlow

/-- A line whose tasks run by themselves. -/
structure Live where
  line : Line

namespace Live

/-- Let the tasks of a line run by themselves. -/
def ofLine (l : Line) : Live := ⟨l.settle⟩

/-- Put a changed inlet in place, with all that follows from it. -/
def commit (b : Inlet Unit) (out : List (Reaction Unit)) (w : Live) : Live :=
  ofLine (w.line.commit b out)

/-- Use the handle of the last publisher.  A player may have no room for a request. -/
def control (_ : Unit) (c : Control) (w : Live) : Reply × Live :=
  (if w.line.chain.player?.all (Player.hasRoom c) then .done else .refused .overflow,
    ofLine (w.line.react (.control () c)))

instance : Chronicle Live where
  calls w := w.line.calls
  journal w := w.line.journal
  turnPage w := { w with line := { w.line with calls := [], journal := [] } }

instance : HasInlet Live Unit where
  inlet? w := w.line.sink.inlet?
  interrupted w := w.line.interrupted
  commit := commit

instance : HasRecorder Live Unit where
  recorder? w := w.line.sink.recorder?
  control := control

/-- Whatever the reader does, the player has come to rest afterwards. -/
theorem commit_isIdle (b : Inlet Unit) (out : List (Reaction Unit)) (w : Live) :
    (w.commit b out).line.isIdle = true :=
  Line.settle_isIdle _

/-- Whatever comes through the handle, the player has come to rest afterwards. -/
theorem control_isIdle (c : Control) (w : Live) : (w.control () c).2.line.isIdle = true :=
  Line.settle_isIdle _

end Live

/-- What others do to a live line, also while a reader waits. -/
inductive LiveCue where
  | interrupt
  deriving DecidableEq, Repr

/-- Carry out one cue. -/
def Live.perform (c : LiveCue) (w : Live) : Live :=
  match c with
  | .interrupt => ⟨w.line.react .interrupt⟩

/-- Who listens to a player. -/
inductive Audience where
  | reader
  | stream
  | recorder (initialDemand : Nat)
  deriving DecidableEq, Repr

/-- One step of a playing scenario. -/
inductive PlayStep where
  | cue (c : LiveCue)
  /-- The reader does something; `during` is what others do while it waits. -/
  | reader (s : ReaderStep) (during : List LiveCue)
  | recorder (s : RecorderStep)
  /-- Wait for the next item of the stream. -/
  | next
  | dropStream
  /-- Wait for the player to be done. -/
  | join
  /-- How often the player was cancelled. -/
  | cancels
  /-- What the player was told. -/
  | log
  deriving DecidableEq, Repr

/-- A playing scenario. -/
structure PlayScenario where
  script : List Step := []
  audience : Audience := .reader
  steps : List PlayStep := []

namespace PlayScenario

/-- What the player was told so far. -/
def log (w : Live) : ControlLog :=
  (w.line.chain.player?.map Player.log).getD {}

/-- Wait for the next item of the stream. -/
def next (w : Live) : Reply × Live :=
  if Puller.isHeld w.line then
    let polled := Puller.settlePoll w.line
    (if polled.1 = .pending then .stuck else Reply.ofPull polled.1, Live.ofLine polled.2)
  else (.refused .dropped, w)

/-- Carry out one step. -/
def carry (s : PlayStep) (w : Live) : Reply × Live :=
  match s with
  | .cue c => (.done, w.perform c)
  | .reader s during =>
      (Reader.step (w.line.volume + 2) s).carry (during.map Live.perform) w
  | .recorder s => s.carry w
  | .next => next w
  | .dropStream => (.done, Live.ofLine (Puller.drop w.line))
  | .join => (.done, w)
  | .cancels => (.number (log w).cancels, w)
  | .log => (Reply.ofLog (log w), w)

/-- The sink of a line in which a player has an audience. -/
def seat : Audience → Sink
  | .reader => .inlet {}
  | .stream => .stream {}
  | .recorder initialDemand => .recorder { initialDemand := initialDemand }

/-- The line before the first step: the player has played as far as it can. -/
def start (s : PlayScenario) : Live :=
  Live.ofLine
    { chain := .player { script := s.script }
      sink := seat s.audience
      ready := [0] }

/-- The transcript of a scenario. -/
def run (s : PlayScenario) : List Entry :=
  transcript carry s.steps s.start

end PlayScenario
end CreditFlow
