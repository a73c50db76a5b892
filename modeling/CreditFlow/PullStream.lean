import CreditFlow.Signal

/-!
# Pull stream

A pushed stream that is pulled.  Signals go into an inbox; whoever pulls polls the
stream, and a poll takes what has arrived.  A poll that finds the inbox empty asks
the publisher for one item, once per item, and is pending unless the publisher
answers at once.

A poll is described by {lit}`PullStream.attend`, which looks through the inbox as
far as it can.  It either answers the poll or asks for an item; in the second case
the control is carried out and the stream attends again.

Main results:

- {lit}`PullStream.attendTo_asks`, {lit}`PullStream.attendTo_of_requested`: asking
  marks the stream, and a marked stream does not ask again before an item has been
  yielded.
- {lit}`PullStream.attend_of_done`: after its end a stream yields nothing more.
- {lit}`PullStream.hear_of_dropped`: a stream that was dropped hears nothing.
- {lit}`PullStream.discard_hangUp`: when the publisher leaves after that, nobody is woken.
-/

namespace CreditFlow

/-- The state of a pull stream whose handles are named by `ι`. -/
structure PullStream (ι : Type) where
  /-- Signals that were sent and not yet looked at, the oldest first. -/
  inbox : List (Signal ι) := []
  /-- The publisher still has the sending end. -/
  connected : Bool := true
  subscription : Option ι := none
  /-- An item was asked for and none has been yielded since. -/
  requested : Bool := false
  /-- The end was yielded. -/
  done : Bool := false
  /-- Someone sleeps until the next signal. -/
  parked : Bool := false
  /-- The stream was dropped. -/
  dropped : Bool := false

/-- What a poll of a pull stream can answer. -/
inductive Pull where
  | pending
  | item (chunk : Octets)
  | failed (cause : Cause)
  | ended
  deriving DecidableEq, Repr

/-- Whether a poll yielded an item. -/
def Pull.isItem : Pull → Bool
  | .item _ => true
  | _ => false

/-- What looking through the inbox comes to. -/
inductive Attention (ι : Type) where
  | answer (p : Pull)
  /-- The publisher is to be asked for one item. -/
  | asks (handle : ι)

namespace PullStream

variable {ι : Type}

/-! ## The publisher's side -/

/-- A signal arrives.  The result says whether a sleeper was woken, and lists handles
that were let go. -/
def hear (s : Signal ι) (p : PullStream ι) : PullStream ι × Bool × List ι :=
  if p.dropped then (p, false, s.handles)
  else if p.connected then
    ({ p with inbox := p.inbox ++ [s], parked := false }, p.parked, [])
  else (p, false, [])

/-- The publisher goes away.  The flag says whether a sleeper was woken. -/
def hangUp (p : PullStream ι) : PullStream ι × Bool :=
  if p.connected then ({ p with connected := false, parked := false }, p.parked) else (p, false)

/-! ## The puller's side -/

/-- Look at the signals of an inbox, the oldest first. -/
def attendTo (p : PullStream ι) : List (Signal ι) → PullStream ι × List Notice × Attention ι
  | .subscribed handle :: rest =>
      let later := attendTo { p with subscription := some handle } rest
      (later.1, .pullSubscribed :: later.2.1, later.2.2)
  | .next chunk :: rest =>
      ({ p with inbox := rest, requested := false }, [], .answer (.item chunk))
  | .error cause :: rest =>
      ({ p with inbox := rest, done := true }, [.pullFailed cause], .answer (.failed cause))
  | .complete :: rest =>
      ({ p with inbox := rest, done := true }, [.pullComplete], .answer .ended)
  | [] =>
      if p.connected then
        match p.requested, p.subscription with
        | false, some handle =>
            ({ p with inbox := [], parked := true, requested := true }, [], .asks handle)
        | _, _ => ({ p with inbox := [], parked := true }, [], .answer .pending)
      else ({ p with inbox := [], done := true }, [.pullComplete], .answer .ended)

/-- Look through the inbox as far as possible. -/
def attend (p : PullStream ι) : PullStream ι × List Notice × Attention ι :=
  if p.done then (p, [], .answer .ended) else p.attendTo p.inbox

/-- The puller lets go of the stream: a subscription whose end was not yielded is
cancelled.  Signals can still arrive meanwhile. -/
def cancelEarly (p : PullStream ι) : PullStream ι × List Notice × List (ι × Control) :=
  match p.subscription with
  | some handle =>
      if p.done then (p, [], [])
      else
        ({ p with subscription := none }, [.pullDroppedEarly],
          [(handle, .cancel), (handle, .release)])
  | none => (p, [], [])

/-- The stream is gone, and lets go of every handle that it holds, arrived or still in
the inbox.  Whoever sleeps for it is forgotten, so nothing wakes it any more. -/
def discard (p : PullStream ι) : PullStream ι × List (ι × Control) :=
  ({ p with inbox := [], subscription := none, parked := false, dropped := true },
    (p.inbox.flatMap Signal.handles ++ p.subscription.toList).map fun handle =>
      (handle, .release))

/-- The stream is dropped, and nothing arrives meanwhile. -/
def drop (p : PullStream ι) : PullStream ι × List Notice × List (ι × Control) :=
  let left := p.cancelEarly
  let gone := left.1.discard
  (gone.1, left.2.1, left.2.2 ++ gone.2)

/-! ## Basic laws -/

/-- After its end a stream yields nothing more and asks for nothing more. -/
@[simp]
theorem attend_of_done {p : PullStream ι} (hdone : p.done = true) :
    p.attend = (p, [], .answer .ended) := by
  simp [attend, hdone]

/-- A marked stream does not ask. -/
theorem attendTo_of_requested {p : PullStream ι} (hrequested : p.requested = true)
    (inbox : List (Signal ι)) (handle : ι) : (p.attendTo inbox).2.2 ≠ .asks handle := by
  induction inbox generalizing p with
  | nil =>
      unfold attendTo
      split <;> simp [hrequested]
  | cons s rest ih =>
      cases s with
      | subscribed first => simpa [attendTo] using ih (p := { p with subscription := some first }) hrequested
      | next chunk => simp [attendTo]
      | error cause => simp [attendTo]
      | complete => simp [attendTo]

/-- Asking marks the stream and leaves its inbox empty. -/
theorem attendTo_asks {p : PullStream ι} {inbox : List (Signal ι)} {handle : ι}
    (hasks : (p.attendTo inbox).2.2 = .asks handle) :
    (p.attendTo inbox).1.requested = true ∧ (p.attendTo inbox).1.inbox = [] := by
  induction inbox generalizing p with
  | nil =>
      unfold attendTo at hasks ⊢
      split
      · split <;> simp_all
      · simp_all
  | cons s rest ih =>
      cases s with
      | subscribed first =>
          simp only [attendTo] at hasks ⊢
          exact ih hasks
      | next chunk => simp [attendTo] at hasks
      | error cause => simp [attendTo] at hasks
      | complete => simp [attendTo] at hasks

/-- A stream that was dropped hears nothing. -/
theorem hear_of_dropped {p : PullStream ι} (hdropped : p.dropped = true) (s : Signal ι) :
    (p.hear s).1 = p := by
  simp [hear, hdropped]

/-- When the publisher goes away after the stream is gone, nobody is woken. -/
theorem discard_hangUp (p : PullStream ι) : p.discard.1.hangUp.2 = false := by
  unfold hangUp discard
  split <;> rfl

end PullStream
end CreditFlow
