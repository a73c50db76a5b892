import CreditFlow.Demand
import CreditFlow.Signal

/-!
# Recorder

A consumer that puts down every signal and asks for items only when told to, and a
log of the controls that came through a handle.

Main results:

- {lit}`Recorder.items_hear_next`: an item that is heard is recorded last.
- {lit}`ControlLog.hear_request`: a request is logged last.
-/

namespace CreditFlow

/-- The controls that came through a handle. -/
structure ControlLog where
  requests : List Nat := []
  cancels : Nat := 0
  deriving DecidableEq, Repr

namespace ControlLog

/-- Put down a control. -/
def hear (c : Control) (log : ControlLog) : ControlLog :=
  match c with
  | .request n => { log with requests := log.requests ++ [n] }
  | .cancel => { log with cancels := log.cancels + 1 }
  | .release => log

/-- The sum of all requests. -/
def total (log : ControlLog) : Nat :=
  log.requests.foldl (· + ·) 0

/-- Whether the sum of all requests fits a counter. -/
def fits (log : ControlLog) : Bool :=
  log.total ≤ Demand.ceiling

/-- What is told to whoever makes a counter go past its ceiling. -/
def overflowed : String := "attempt to add with overflow"

/-- Whether the handle was used to cancel. -/
def isCancelled (log : ControlLog) : Bool :=
  0 < log.cancels

/-- A request is logged last. -/
@[simp]
theorem hear_request (n : Nat) (log : ControlLog) :
    (log.hear (.request n)).requests = log.requests ++ [n] := rfl

end ControlLog

/-- A signal as a recorder puts it down. -/
inductive Record where
  | next (chunk : Octets)
  | error (text : String)
  | complete
  deriving DecidableEq, Repr

/-- The state of a recorder whose subscription handles are named by `ι`. -/
structure Recorder (ι : Type) where
  /-- How many items to ask for when subscribed; zero asks for none. -/
  initialDemand : Nat := 0
  subscription : Option ι := none
  subscribeCalls : Nat := 0
  records : List Record := []

namespace Recorder

/-- What is told to whoever uses a handle that has not arrived. -/
def notSubscribed : String := "subscriber has not been subscribed"

variable {ι : Type}

/-- Put down a signal. -/
def hear (s : Signal ι) (r : Recorder ι) : Recorder ι × List (Reaction ι) :=
  match s with
  | .subscribed handle =>
      ({ r with subscription := some handle, subscribeCalls := r.subscribeCalls + 1 },
        if 0 < r.initialDemand then [.control handle (.request r.initialDemand)] else [])
  | .next chunk => ({ r with records := r.records ++ [.next chunk] }, [])
  | .error cause => ({ r with records := r.records ++ [.error cause.message] }, [])
  | .complete => ({ r with records := r.records ++ [.complete] }, [])

/-- The items that were recorded. -/
def items (r : Recorder ι) : List Octets :=
  r.records.filterMap fun
    | .next chunk => some chunk
    | _ => none

/-- Whether a completion was recorded. -/
def isComplete (r : Recorder ι) : Bool :=
  r.records.contains .complete

/-- The text of the first error that was recorded. -/
def firstError (r : Recorder ι) : Option String :=
  r.records.findSome? fun
    | .error text => some text
    | _ => none

/-- What a recorder shows of itself. -/
structure View where
  records : List Record
  items : List Octets
  subscribeCalls : Nat
  isComplete : Bool
  firstError : Option String
  deriving DecidableEq, Repr

/-- All that was recorded, and what can be read off it. -/
def view (r : Recorder ι) : View :=
  { records := r.records
    items := r.items
    subscribeCalls := r.subscribeCalls
    isComplete := r.isComplete
    firstError := r.firstError }

/-- An item that is heard is recorded last. -/
theorem items_hear_next (chunk : Octets) (r : Recorder ι) :
    (r.hear (.next chunk)).1.items = r.items ++ [chunk] := by
  simp [hear, items]

end Recorder
end CreditFlow
