import CreditFlow.Journal
import CreditFlow.Octets

/-!
# Signals and controls

The two directions of the protocol.  A publisher sends *signals* down to its
consumer: a handle first, then items, then at most one end.  A consumer sends
*controls* up through the handle: it asks for items, cancels, or lets go of the
handle altogether.

A party that is told something answers with *reactions*: entries for the
journal, controls on a handle, and possibly a request that every blocked call be
interrupted.  Reactions are data.  Whoever runs the party carries them out, in
order and before anything else happens to it; that is how a publisher that
answers from inside a call is described without any call stack.
-/

namespace CreditFlow

/-- What a publisher tells its consumer.  `ι` names the handles. -/
inductive Signal (ι : Type) where
  /-- The stream can be controlled through this handle from now on. -/
  | subscribed (handle : ι)
  /-- The next item. -/
  | next (chunk : Octets)
  /-- The stream has failed; nothing follows. -/
  | error (cause : Cause)
  /-- The stream is complete; nothing follows. -/
  | complete

/-- The handles that a signal carries. -/
def Signal.handles {ι : Type} : Signal ι → List ι
  | .subscribed handle => [handle]
  | _ => []

/-- A signal carries at most one handle. -/
theorem Signal.handles_length_le {ι : Type} (s : Signal ι) : s.handles.length ≤ 1 := by
  cases s <;> simp [handles]

/-- What a consumer tells its publisher through a handle. -/
inductive Control where
  /-- Grant this many more items. -/
  | request (n : Nat)
  /-- Stop the stream. -/
  | cancel
  /-- Let go of the handle: no further control will come through it. -/
  | release
  deriving DecidableEq, Repr

/-- What a party does in answer to what it was told. -/
inductive Reaction (ι : Type) where
  | note (n : Notice)
  | control (handle : ι) (c : Control)
  /-- Every blocked call is to be interrupted. -/
  | interrupt

/-- Whether a signal ends the stream. -/
def Signal.isTerminal {ι : Type} : Signal ι → Bool
  | .subscribed _ => false
  | .next _ => false
  | .error _ => true
  | .complete => true

/-- What a publisher does to its consumer: it signals, or it goes away. -/
inductive Emission where
  | signal (s : Signal Unit)
  /-- The publisher has let go of its consumer: no further signal will come. -/
  | hangUp

end CreditFlow
