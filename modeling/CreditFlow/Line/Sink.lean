import CreditFlow.Inlet.Reading
import CreditFlow.PullStream
import CreditFlow.Recorder
import CreditFlow.Rehearsal.Listener

/-!
# Sink

Whoever stands at the end of a line: the inlet of a reader, a pull stream, a
listener, or a recorder.

Main results:

- {lit}`Sink.hear_hangUp`: only a pull stream notices that its publisher is gone.
-/

namespace CreditFlow

/-- The consumer at the end of a line. -/
inductive Sink where
  /-- Nobody has subscribed yet. -/
  | nobody
  | inlet (b : Inlet Unit)
  | stream (s : PullStream Unit)
  | listener (l : Listener)
  | recorder (r : Recorder Unit)

/-- What a sink does when it is told something. -/
structure Echo where
  calls : List Call := []
  reactions : List (Reaction Unit) := []
  /-- Someone who sleeps for the stream was woken. -/
  woken : Bool := false

namespace Sink

/-- Hear what the publisher emits. -/
def hear (e : Emission) (k : Sink) : Sink × Echo :=
  match k, e with
  | nobody, _ => (nobody, {})
  | inlet b, .signal s => (inlet (b.signal s).1, { reactions := (b.signal s).2 })
  | inlet b, .hangUp => (inlet b, {})
  | stream p, .signal s =>
      (stream (p.hear s).1,
        { reactions := (p.hear s).2.2.map fun _ => .control () .release, woken := (p.hear s).2.1 })
  | stream p, .hangUp => (stream p.hangUp.1, { woken := p.hangUp.2 })
  | listener l, .signal s =>
      (listener (l.hear s).1, { calls := [(l.hear s).2.1], reactions := (l.hear s).2.2 })
  | listener l, .hangUp => (listener l, {})
  | recorder r, .signal s => (recorder (r.hear s).1, { reactions := (r.hear s).2 })
  | recorder r, .hangUp => (recorder r, {})

/-- Make the listener do something; nobody else can be made to. -/
def perform (a : Act) (k : Sink) : Sink × List (Reaction Unit) :=
  match k with
  | listener l => (listener (l.perform a).1, (l.perform a).2)
  | _ => (k, [])

/-- The inlet at the end, if there is one. -/
def inlet? : Sink → Option (Inlet Unit)
  | inlet b => some b
  | _ => none

/-- The pull stream at the end, if there is one. -/
def stream? : Sink → Option (PullStream Unit)
  | stream p => some p
  | _ => none

/-- The listener at the end, if there is one. -/
def listener? : Sink → Option Listener
  | listener l => some l
  | _ => none

/-- The recorder at the end, if there is one. -/
def recorder? : Sink → Option (Recorder Unit)
  | recorder r => some r
  | _ => none

/-- Only a pull stream notices that its publisher is gone. -/
theorem hear_hangUp {k : Sink} (hstream : k.stream? = none) : k.hear .hangUp = (k, {}) := by
  cases k with
  | stream p => simp [stream?] at hstream
  | nobody => rfl
  | inlet b => rfl
  | listener l => rfl
  | recorder r => rfl

end Sink
end CreditFlow
