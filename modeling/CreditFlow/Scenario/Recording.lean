import CreditFlow.Scenario.Reply

/-!
# Recording scenarios

A recorder that is signalled by hand.  Every time it is subscribed it gets a new
handle, and all controls that come through a handle are put down.

Main results:

- {lit}`RecorderStep.carry_control_of_vacant`: before it was subscribed, nothing can be
  asked for through a recorder.
- {lit}`RecordScenario.control_length`: a control never adds or loses a log.
-/

namespace CreditFlow

/-- A world with a recorder in it. -/
class HasRecorder (ω : Type) (ι : outParam Type) where
  recorder? : ω → Option (Recorder ι)
  /-- Use a handle that the recorder was given.  The call may be refused. -/
  control : ι → Control → ω → Reply × ω

/-- What is done with a recorder in one step of a scenario. -/
inductive RecorderStep where
  | view
  /-- Use the handle that arrived last. -/
  | control (c : Control)
  /-- Whether at least `n` signals have been recorded after the greeting. -/
  | hasRecords (n : Nat)
  /-- Whether a handle has arrived. -/
  | hasHandle
  deriving DecidableEq, Repr

namespace RecorderStep

variable {ω ι : Type} [HasRecorder ω ι]

/-- Carry out one step. -/
def carry (s : RecorderStep) (w : ω) : Reply × ω :=
  match HasRecorder.recorder? w with
  | none => (.refused .dropped, w)
  | some r =>
      match s with
      | .view => (.view r.view, w)
      | .control c =>
          match r.subscription with
          | some handle => HasRecorder.control handle c w
          | none => (.refused .notSubscribed, w)
      | .hasRecords n => (.truth (n ≤ r.records.length), w)
      | .hasHandle => (.truth r.subscription.isSome, w)

/-- Before it was subscribed, nothing can be asked for through a recorder. -/
theorem carry_control_of_vacant {w : ω} {r : Recorder ι} (hrecorder : HasRecorder.recorder? w = some r)
    (hvacant : r.subscription = none) (c : Control) :
    (RecorderStep.control c).carry w = (.refused .notSubscribed, w) := by
  simp [carry, hrecorder, hvacant]

end RecorderStep

/-- A recorder, and the logs of all handles it was given, the oldest first. -/
structure Recording where
  recorder : Recorder Nat := {}
  logs : List ControlLog := []

/-- One step of a recording scenario. -/
inductive RecordStep where
  /-- The recorder is subscribed, with a new handle. -/
  | subscribe
  | next (chunk : Octets)
  | error (cause : Cause)
  | complete
  /-- The logs of all handles. -/
  | logs
  | recorder (s : RecorderStep)
  deriving DecidableEq, Repr

/-- A recording scenario. -/
structure RecordScenario where
  initialDemand : Nat := 0
  steps : List RecordStep := []

namespace RecordScenario

/-- A control is put down in the log of its handle. -/
def control (handle : Nat) (c : Control) (w : Recording) : Recording :=
  { w with logs := w.logs.modify handle (ControlLog.hear c) }

instance : HasRecorder Recording Nat where
  recorder? w := some w.recorder
  control handle c w := (.done, control handle c w)

instance : Chronicle Recording where
  calls _ := []
  journal _ := []
  turnPage w := w

/-- Carry out one reaction of the recorder. -/
def react (r : Reaction Nat) (w : Recording) : Recording :=
  match r with
  | .control handle c => control handle c w
  | .note _ => w
  | .interrupt => w

/-- The recorder is signalled. -/
def signal (s : Signal Nat) (w : Recording) : Recording :=
  let heard := w.recorder.hear s
  heard.2.foldl (fun w r => react r w) { w with recorder := heard.1 }

/-- Carry out one step. -/
def carry (s : RecordStep) (w : Recording) : Reply × Recording :=
  match s with
  | .subscribe => (.done, signal (.subscribed w.logs.length) { w with logs := w.logs ++ [{}] })
  | .next chunk => (.done, signal (.next chunk) w)
  | .error cause => (.done, signal (.error cause) w)
  | .complete => (.done, signal .complete w)
  | .logs => (Reply.ofLogs w.logs, w)
  | .recorder s => s.carry w

/-- The transcript of a scenario. -/
def run (s : RecordScenario) : List Entry :=
  transcript carry s.steps { recorder := { initialDemand := s.initialDemand } }

/-- A control never adds or loses a log. -/
@[simp]
theorem control_length (handle : Nat) (c : Control) (w : Recording) :
    (control handle c w).logs.length = w.logs.length := by
  simp [control]

end RecordScenario
end CreditFlow
