import CreditFlow.Failure

/-!
# Journal

Everything worth telling about a run is a *notice*.  Notices are data with a
meaning; their severity, their text and the values they carry are three
functions on them, used when a journal is written out and nowhere else.

Main results:

- {lit}`Level.atLeast_refl`, {lit}`Level.atLeast_trans`: severities are ordered,
  so a filter by severity keeps what a stricter filter keeps.
-/

namespace CreditFlow

/-- Severities, from the least to the greatest. -/
inductive Level where
  | trace
  | debug
  | warn
  deriving DecidableEq, Repr

namespace Level

/-- The place of a severity in the order. -/
def rank : Level → Nat
  | .trace => 0
  | .debug => 1
  | .warn => 2

/-- Whether a severity is at least as great as a threshold. -/
def atLeast (threshold l : Level) : Bool :=
  threshold.rank ≤ l.rank

/-- The name of a severity in a written journal. -/
def name : Level → String
  | .trace => "TRACE"
  | .debug => "DEBUG"
  | .warn => "WARN"

@[simp]
theorem atLeast_refl (l : Level) : l.atLeast l = true := by
  simp [atLeast]

/-- A level that reaches one that reaches a third reaches the third. -/
theorem atLeast_trans {a b c : Level} (hab : a.atLeast b = true) (hbc : b.atLeast c = true) :
    a.atLeast c = true := by
  simp only [atLeast, decide_eq_true_eq] at *
  omega

end Level

/-- How a writer ended its stream. -/
inductive Finish where
  /-- It closed the stream. -/
  | complete
  /-- It went away without closing. -/
  | abandoned
  deriving DecidableEq, Repr

/-- The name of an ending. -/
def Finish.debug : Finish → String
  | .complete => "Complete"
  | .abandoned => "Abandoned"

/-- What the parties of a stream report. -/
inductive Notice where
  -- The metadata cell.
  | metadataAlreadyResolved
  -- The reading side.
  | closedBeforeSubscription
  | closedAndCancelling
  | failureAfterDrain (f : Failure)
  | failureAfterFailure (f : Failure)
  | requestingNextChunk
  | reachedEnd
  | readFailed (f : Failure)
  | metadataReady
  | failedBeforeMetadata
  | failedBeforeMetadataBy (c : Cause)
  | subscribedAfterClose
  | subscribedTwice
  | requestingFirstChunk
  | chunkRefused (length : Nat)
  | demandExceeded (length : Nat)
  | emptyChunkSkipped
  | chunkQueued (length : Nat)
  | producerError (c : Cause)
  | completedWithoutMetadata
  | completedTwice
  | producerComplete
  -- The writing side.
  | finishedBeforeSubscription (f : Finish)
  | writerComplete
  | writerAbandoned
  | itemPushed (length written : Nat)
  | lengthMismatch (written contentLength : Nat)
  | writerSubscribed (contentLength : Nat)
  | zeroRequestIgnored
  | demandGranted (n demand : Nat)
  | cancelledByConsumer
  -- A pushed stream that is pulled.
  | pullSubscribed
  | pullFailed (c : Cause)
  | pullComplete
  | pullDroppedEarly
  -- A pulled stream that is pushed.
  | pumpStarted
  | pumpCancelledIdle
  | pumpZeroDemand
  | pumpHandleDropped
  | pumpCancelledFetching
  | pumpEmit (length demand : Nat)
  | pumpSourceFailed (c : Cause)
  | pumpSourceExhausted
  -- A played script.
  | playerCancelled

namespace Notice

/-- How severe a notice is. -/
def level : Notice → Level
  | subscribedTwice | demandExceeded _ | writerAbandoned | lengthMismatch _ _
  | zeroRequestIgnored | pumpZeroDemand => .warn
  | metadataAlreadyResolved | closedBeforeSubscription | closedAndCancelling
  | failureAfterDrain _ | failureAfterFailure _ | reachedEnd | readFailed _
  | failedBeforeMetadata | failedBeforeMetadataBy _ | subscribedAfterClose
  | chunkRefused _ | producerError _ | completedWithoutMetadata | completedTwice
  | writerComplete | writerSubscribed _ | cancelledByConsumer | pullFailed _
  | pullDroppedEarly | pumpCancelledIdle | pumpHandleDropped | pumpCancelledFetching
  | pumpSourceFailed _ | pumpSourceExhausted => .debug
  | requestingNextChunk | metadataReady | requestingFirstChunk | emptyChunkSkipped
  | chunkQueued _ | producerComplete | finishedBeforeSubscription _ | itemPushed _ _
  | demandGranted _ _ | pullSubscribed | pullComplete | pumpStarted | pumpEmit _ _
  | playerCancelled => .trace

/-- The text of a notice. -/
def message : Notice → String
  | metadataAlreadyResolved => "metadata already resolved, ignoring"
  | closedBeforeSubscription => "read bridge closed before subscription"
  | closedAndCancelling => "read bridge closed, cancelling subscription"
  | failureAfterDrain _ => "read bridge already drained, dropping failure"
  | failureAfterFailure _ => "read bridge already failed, dropping failure"
  | requestingNextChunk => "read bridge requesting next chunk"
  | reachedEnd => "read bridge reached end of stream"
  | readFailed _ => "read bridge failed"
  | metadataReady => "read bridge metadata ready"
  | failedBeforeMetadata => "read bridge failed before metadata"
  | failedBeforeMetadataBy _ => "read bridge failed before metadata"
  | subscribedAfterClose => "read bridge already closed, cancelling new subscription"
  | subscribedTwice => "read bridge already subscribed, cancelling duplicate subscription"
  | requestingFirstChunk => "read bridge subscribed, requesting first chunk"
  | chunkRefused _ => "read bridge not accepting data, dropping chunk"
  | demandExceeded _ => "publisher exceeded demand, cancelling"
  | emptyChunkSkipped => "read bridge skipping empty chunk"
  | chunkQueued _ => "read bridge queued chunk"
  | producerError _ => "read bridge upstream error"
  | completedWithoutMetadata => "read bridge completed without metadata"
  | completedTwice => "read bridge already terminated, ignoring completion"
  | producerComplete => "read bridge upstream complete"
  | finishedBeforeSubscription _ => "write bridge finished before subscription"
  | writerComplete => "write bridge complete"
  | writerAbandoned => "write bridge dropped before close"
  | itemPushed _ _ => "write bridge pushed item"
  | lengthMismatch _ _ => "write bridge closed with length mismatch"
  | writerSubscribed _ => "write bridge subscribed"
  | zeroRequestIgnored => "write bridge ignoring request for zero items"
  | demandGranted _ _ => "write bridge demand granted"
  | cancelledByConsumer => "write bridge cancelled by subscriber"
  | pullSubscribed => "PublisherStream subscribed"
  | pullFailed _ => "PublisherStream failed"
  | pullComplete => "PublisherStream complete"
  | pullDroppedEarly => "PublisherStream dropped early, cancelling"
  | pumpStarted => "StreamPublisher started"
  | pumpCancelledIdle => "StreamPublisher cancelled while idle"
  | pumpZeroDemand => "StreamPublisher received zero demand"
  | pumpHandleDropped => "StreamPublisher subscription dropped"
  | pumpCancelledFetching => "StreamPublisher cancelled while fetching"
  | pumpEmit _ _ => "StreamPublisher emit"
  | pumpSourceFailed _ => "StreamPublisher source failed"
  | pumpSourceExhausted => "StreamPublisher source exhausted"
  | playerCancelled => "scripted publisher cancelled"

/-- The named values that a notice carries. -/
def fields : Notice → List (String × String)
  | failureAfterDrain f | failureAfterFailure f | readFailed f => [("error", f.message)]
  | failedBeforeMetadataBy c | producerError c | pullFailed c | pumpSourceFailed c =>
      [("error", c.message)]
  | chunkRefused n | demandExceeded n | chunkQueued n => [("len", toString n)]
  | finishedBeforeSubscription f => [("finish", f.debug)]
  | itemPushed n written => [("len", toString n), ("written", toString written)]
  | lengthMismatch written contentLength =>
      [("written", toString written), ("content_length", toString contentLength)]
  | writerSubscribed contentLength => [("content_length", toString contentLength)]
  | demandGranted n demand => [("n", toString n), ("demand", toString demand)]
  | pumpEmit n demand => [("len", toString n), ("demand", toString demand)]
  | _ => []

end Notice

/-- The notices of a journal that are at least as severe as a threshold, in order. -/
def Notice.atLeast (threshold : Level) (journal : List Notice) : List Notice :=
  journal.filter fun n => threshold.atLeast n.level

end CreditFlow
