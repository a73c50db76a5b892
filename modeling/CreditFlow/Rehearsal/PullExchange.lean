import CreditFlow.PullStream
import CreditFlow.Rehearsal.Cue

/-!
# A pull stream opposite a hand-driven publisher

A pull stream, the subscriptions that its publisher holds, and the record of what
happened.  The publisher may answer from inside the calls it receives: when it is
asked for an item, in the middle of a poll, and when it is cancelled, while the
stream is being dropped.

A signal never makes a pull stream call a handle, so a script that is carried out
inside a call causes no further calls.

Main results:

- {lit}`PullExchange.perform_calls`: no cue makes the stream call a peer.
- {lit}`PullExchange.poll_of_done`: once its end was yielded, a poll of the stream
  calls nobody.
-/

namespace CreditFlow

/-- What the publisher of a pull stream does beside signalling. -/
inductive PullAside where
  /-- It lets go of the stream's sending end. -/
  | hangUp
  deriving DecidableEq, Repr

/-- What a hand-driven publisher does to a pull stream. -/
abbrev PullCue := Cue PullAside

/-- A pull stream opposite a hand-driven publisher; handles are places in `peers`. -/
structure PullExchange where
  stream : PullStream Nat := {}
  peers : List (Peer PullCue) := []
  /-- Whoever polls the stream was woken since it last tried to poll. -/
  woken : Bool := false
  /-- The calls that reached the peers, in order. -/
  calls : List Call := []
  /-- The notices of the stream, in order. -/
  journal : List Notice := []

namespace PullExchange

/-! ## The publisher's side -/

/-- The stream is told something.  Handles that it lets go of are not heard of. -/
def tell (s : Signal Nat) (w : PullExchange) : PullExchange :=
  let heard := w.stream.hear s
  { w with stream := heard.1, woken := w.woken || heard.2.1 }

/-- What a cue does to the stream. -/
def perform (w : PullExchange) : PullCue → PullExchange
  | .subscribe peer => { w with peers := w.peers ++ [peer] }.tell (.subscribed w.peers.length)
  | .next chunk => w.tell (.next chunk)
  | .error cause => w.tell (.error cause)
  | .complete => w.tell .complete
  | .aside .hangUp =>
      { w with stream := w.stream.hangUp.1, woken := w.woken || w.stream.hangUp.2 }

/-- Carry out cues in order. -/
def play (cues : List PullCue) (w : PullExchange) : PullExchange :=
  cues.foldl perform w

/-- A control reaches a peer, which carries out its script inside the call. -/
def control (handle : Nat) (c : Control) (w : PullExchange) : PullExchange :=
  let answer := Peer.answerAt c handle w.peers
  { w with calls := w.calls ++ answer.1, peers := answer.2.2 }.play answer.2.1

/-- Several controls reach their peers, in order. -/
def controls (told : List (Nat × Control)) (w : PullExchange) : PullExchange :=
  told.foldl (fun w t => w.control t.1 t.2) w

/-! ## The puller's side -/

/-- Look through the inbox of the stream. -/
def attend (w : PullExchange) : PullExchange × Attention Nat :=
  let attended := w.stream.attend
  ({ w with stream := attended.1, journal := w.journal ++ attended.2.1 }, attended.2.2)

/-- The poller forgets that it was woken. -/
def unwoken (w : PullExchange) : PullExchange :=
  { w with woken := false }

/-- Poll the stream once.  If it asks for an item, the publisher is asked, and the
stream looks again. -/
def poll (w : PullExchange) : Pull × PullExchange :=
  let first := w.unwoken.attend
  match first.2 with
  | .answer p => (p, first.1)
  | .asks handle =>
      let second := (first.1.control handle (.request 1)).attend
      match second.2 with
      | .answer p => (p, second.1)
      | .asks _ => (.pending, second.1)

/-- Drop the stream. -/
def dropStream (w : PullExchange) : PullExchange :=
  let left := w.stream.cancelEarly
  let cancelled :=
    { w with stream := left.1, journal := w.journal ++ left.2.1 }.controls left.2.2
  let gone := cancelled.stream.discard
  { cancelled with stream := gone.1 }.controls gone.2

/-! ## Basic laws -/

/-- No cue makes the stream call a peer. -/
@[simp]
theorem perform_calls (w : PullExchange) (c : PullCue) : (w.perform c).calls = w.calls := by
  cases c with
  | aside e => cases e; rfl
  | _ => rfl

@[simp]
theorem play_calls (w : PullExchange) (cues : List PullCue) : (w.play cues).calls = w.calls := by
  induction cues generalizing w with
  | nil => rfl
  | cons c cues ih =>
      have hrest := ih (w.perform c)
      rw [perform_calls] at hrest
      exact hrest

/-- Once its end was yielded, a poll of the stream yields the end and calls nobody. -/
theorem poll_of_done {w : PullExchange} (hdone : w.stream.done = true) :
    w.poll.1 = .ended ∧ w.poll.2.calls = w.calls := by
  simp [poll, unwoken, attend, hdone]

end PullExchange
end CreditFlow
