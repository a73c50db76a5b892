import CreditFlow.Rehearsal.PullExchange
import CreditFlow.Scenario.Reply

/-!
# Pulling scenarios

A pull stream is polled, and a hand-driven publisher signals into it.  The poller
forgets that it was woken before it looks for the stream, so also when the stream is
gone.

Main results:

- {lit}`PullScenario.carry_poll_of_dropped`: a stream that was dropped cannot be polled,
  and the attempt changes nothing but the poller's mark.
-/

namespace CreditFlow

instance : Chronicle PullExchange where
  calls := PullExchange.calls
  journal := PullExchange.journal
  turnPage w := { w with calls := [], journal := [] }

/-- One step of a pulling scenario. -/
inductive PullStep where
  /-- The publisher does something. -/
  | cue (c : PullCue)
  | poll
  /-- Whether the poller was woken since it last tried to poll. -/
  | woken
  | drop

/-- A pulling scenario. -/
structure PullScenario where
  /-- What the publisher does when it is subscribed to. -/
  atSubscribe : List PullCue := []
  steps : List PullStep := []

namespace PullScenario

/-- Carry out one step. -/
def carry (s : PullStep) (w : PullExchange) : Reply × PullExchange :=
  match s with
  | .cue c => (.done, w.perform c)
  | .poll =>
      if w.stream.dropped then (.refused .dropped, w.unwoken)
      else (Reply.ofPull w.poll.1, w.poll.2)
  | .woken => (.truth w.woken, w)
  | .drop => (.done, if w.stream.dropped then w else w.dropStream)

/-- The transcript of a scenario. -/
def run (s : PullScenario) : List Entry :=
  transcript carry s.steps (PullExchange.play s.atSubscribe {})

/-- A stream that was dropped cannot be polled, and the attempt changes nothing but the
poller's mark. -/
theorem carry_poll_of_dropped {w : PullExchange} (hdropped : w.stream.dropped = true) :
    carry .poll w = (.refused .dropped, w.unwoken) := by
  simp [carry, hdropped]

end PullScenario
end CreditFlow
