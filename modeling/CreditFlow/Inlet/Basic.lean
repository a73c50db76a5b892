import CreditFlow.Cell
import CreditFlow.Signal

/-!
# Inlet

An inlet is where pushed chunks become bytes that a thread can read.  A publisher
delivers into it, a reader takes out of it, and anyone may close it.  It keeps one
item of demand outstanding: the next chunk is asked for only when the reader takes
the previous one, so at most one chunk is ever waiting.

This module holds the state of an inlet and what its publisher and its closers do
to it.  Every operation is one or two steps that nothing can interrupt, and every
call on a subscription handle comes after the step that decided it, as a reaction.

Main results:

- {lit}`Inlet.close_slot`: after closing, the inlet takes no subscription.
- {lit}`Inlet.close_close`: closing twice is closing once.
- {lit}`Inlet.subscribed_of_installed`, {lit}`Inlet.subscribed_of_closed`: a second
  or a late subscription is cancelled and changes nothing.
- {lit}`Inlet.next_of_terminated`: nothing is accepted after an end.
-/

namespace CreditFlow

/-- Where an inlet keeps its subscription. -/
inductive Slot (ι : Type) where
  /-- None has arrived yet. -/
  | vacant
  | installed (handle : ι)
  /-- None is wanted any more. -/
  | closed
  deriving DecidableEq, Repr

/-- What waits in an inlet for its reader.  An empty chunk never waits. -/
inductive Element where
  | data (chunk : Octets)
  /-- The stream is complete. -/
  | finish
  | failure (f : Failure)
  deriving DecidableEq, Repr

/-- The state of an inlet whose subscription handles are named by `ι`. -/
structure Inlet (ι : Type) where
  slot : Slot ι := .vacant
  /-- What the reader has not taken yet, the oldest first. -/
  queue : List Element := []
  /-- Items asked for and not delivered. -/
  credit : Nat := 0
  /-- An end has been put into the queue. -/
  terminated : Bool := false
  /-- The reader has taken the end out of the queue. -/
  drained : Bool := false
  /-- The metadata that comes beside the bytes. -/
  metadata : Cell String := .pending
  /-- The rest of the chunk that the reader took last. -/
  current : Octets := []
  /-- The end that the reader has seen, for every later call. -/
  verdict : Option (Except Failure Unit) := none
  /-- The reader exists. -/
  readerHeld : Bool := true

namespace Inlet

variable {ι : Type}

/-! ## Closing -/

/-- Close the inlet.  A subscription whose stream has not ended is cancelled. -/
def close (b : Inlet ι) : Inlet ι × List (Reaction ι) :=
  match b.slot with
  | .vacant => ({ b with slot := .closed }, [.note .closedBeforeSubscription])
  | .installed handle =>
      ({ b with slot := .closed },
        if b.terminated then [] else [.note .closedAndCancelling, .control handle .cancel])
  | .closed => (b, [])

/-- The reader goes away, which closes the inlet. -/
def dropReader (b : Inlet ι) : Inlet ι × List (Reaction ι) :=
  ({ b.close.1 with readerHeld := false }, b.close.2)

/-! ## Signals -/

/-- A subscription arrives.  The first one is installed and asked for one item; one
that comes too late or twice is cancelled. -/
def subscribed (handle : ι) (b : Inlet ι) : Inlet ι × List (Reaction ι) :=
  match b.slot with
  | .vacant =>
      ({ b with slot := .installed handle, credit := 1 },
        [.note .requestingFirstChunk, .control handle (.request 1)])
  | .closed => (b, [.note .subscribedAfterClose, .control handle .cancel])
  | .installed _ => (b, [.note .subscribedTwice, .control handle .cancel])

/-- A chunk arrives.  It is accepted from an installed subscription while the stream
has not ended and there is credit for it.  Without credit the publisher has broken
the protocol: the stream fails and is cancelled.  An empty chunk only gives its
credit back. -/
def next (chunk : Octets) (b : Inlet ι) : Inlet ι × List (Reaction ι) :=
  match b.slot, b.terminated with
  | .installed handle, false =>
      if b.credit = 0 then
        ({ b with
            slot := .closed
            queue := b.queue ++ [.failure (.condition .demandExceeded)]
            terminated := true },
          [.note (.demandExceeded chunk.length), .control handle .cancel])
      else if chunk.isEmpty then
        (b, [.note .emptyChunkSkipped, .control handle (.request 1)])
      else
        ({ b with credit := b.credit - 1, queue := b.queue ++ [.data chunk] },
          [.note (.chunkQueued chunk.length)])
  | _, _ => (b, [.note (.chunkRefused chunk.length)])

/-- Resolve the metadata, and report `note` if it was still pending. -/
def resolveMetadata (outcome : Cell String) (note : Notice) (b : Inlet ι) :
    Inlet ι × List (Reaction ι) :=
  let resolved := b.metadata.resolve outcome
  ({ b with metadata := resolved.1 },
    [.note (if resolved.2 then note else .metadataAlreadyResolved)])

/-- Fail the stream.  A failure takes the place of a completion that the reader has
not seen; it changes nothing once the stream has failed or the reader has seen its
end. -/
def failStream (f : Failure) (b : Inlet ι) : Inlet ι × List (Reaction ι) :=
  if b.drained then (b, [.note (.failureAfterDrain f)])
  else if b.terminated then
    match b.queue.getLast? with
    | some .finish => ({ b with queue := b.queue.dropLast ++ [.failure f] }, [])
    | _ => (b, [.note (.failureAfterFailure f)])
  else ({ b with queue := b.queue ++ [.failure f], terminated := true }, [])

/-- Complete the stream, unless it has ended already. -/
def completeStream (b : Inlet ι) : Inlet ι × List (Reaction ι) :=
  if b.terminated then (b, [.note .completedTwice])
  else ({ b with queue := b.queue ++ [.finish], terminated := true }, [.note .producerComplete])

/-- The publisher reports that the stream has failed. -/
def error (cause : Cause) (b : Inlet ι) : Inlet ι × List (Reaction ι) :=
  let resolved := b.resolveMetadata (.failed cause) .failedBeforeMetadata
  let failed := resolved.1.failStream (.producer cause)
  (failed.1, .note (.producerError cause) :: resolved.2 ++ failed.2)

/-- The publisher reports that the stream is complete. -/
def complete (b : Inlet ι) : Inlet ι × List (Reaction ι) :=
  let resolved := b.resolveMetadata .missing .completedWithoutMetadata
  let completed := resolved.1.completeStream
  (completed.1, resolved.2 ++ completed.2)

/-- Whatever the publisher signals. -/
def signal (s : Signal ι) (b : Inlet ι) : Inlet ι × List (Reaction ι) :=
  match s with
  | .subscribed handle => b.subscribed handle
  | .next chunk => b.next chunk
  | .error cause => b.error cause
  | .complete => b.complete

/-! ## Beside the stream -/

/-- The transfer has failed outside the stream. -/
def failure (cause : Cause) (b : Inlet ι) : Inlet ι × List (Reaction ι) :=
  let resolved := b.resolveMetadata (.failed cause) (.failedBeforeMetadataBy cause)
  let failed := resolved.1.failStream (.producer cause)
  (failed.1, resolved.2 ++ failed.2)

/-- The metadata arrives. -/
def publish (value : String) (b : Inlet ι) : Inlet ι × List (Reaction ι) :=
  b.resolveMetadata (.ready value) .metadataReady

/-! ## Basic laws -/

/-- After closing, the inlet takes no subscription. -/
@[simp]
theorem close_slot (b : Inlet ι) : b.close.1.slot = .closed := by
  unfold close
  split <;> simp_all

/-- Closing touches nothing that the reader can still take. -/
@[simp]
theorem close_queue (b : Inlet ι) : b.close.1.queue = b.queue := by
  unfold close
  split <;> rfl

/-- Closing never resolves the metadata. -/
@[simp]
theorem close_metadata (b : Inlet ι) : b.close.1.metadata = b.metadata := by
  unfold close
  split <;> rfl

/-- Closing twice is closing once. -/
theorem close_close (b : Inlet ι) : b.close.1.close = (b.close.1, []) := by
  have hslot := close_slot b
  generalize b.close.1 = c at hslot
  simp [close, hslot]

/-- A second subscription is cancelled and changes nothing. -/
theorem subscribed_of_installed {b : Inlet ι} {first : ι} (hslot : b.slot = .installed first)
    (handle : ι) :
    b.subscribed handle = (b, [.note .subscribedTwice, .control handle .cancel]) := by
  simp [subscribed, hslot]

/-- A late subscription is cancelled and changes nothing. -/
theorem subscribed_of_closed {b : Inlet ι} (hslot : b.slot = .closed) (handle : ι) :
    b.subscribed handle = (b, [.note .subscribedAfterClose, .control handle .cancel]) := by
  simp [subscribed, hslot]

/-- Nothing is accepted after an end. -/
theorem next_of_terminated {b : Inlet ι} (hend : b.terminated = true) (chunk : Octets) :
    b.next chunk = (b, [.note (.chunkRefused chunk.length)]) := by
  simp [next, hend]

end Inlet
end CreditFlow
