import CreditFlow.Rehearsal.Listener

/-!
# Source

A stream of chunks whose behaviour is written down beforehand.  It yields chunks
and failures, pauses until it is woken, steps aside once, or makes the listener at
the end of the line do something while it is being polled.

Main results:

- {lit}`Source.poll_used`: whatever a poll comes to, it uses items up and adds none.
- {lit}`Source.poll_pulled`: what is yielded is counted, and nothing else is.
-/

namespace CreditFlow

/-- What comes next in a source. -/
inductive Item where
  | chunk (bytes : Octets)
  | fail (cause : Cause)
  /-- Pending until someone wakes the source. -/
  | pause
  /-- Pending once; the source wakes its poller at once. -/
  | stepAside
  /-- Something that the listener does meanwhile. -/
  | act (a : Act)
  deriving DecidableEq, Repr

/-- The state of a source. -/
structure Source where
  items : List Item := []
  /-- More may be appended later: at the end of the list the source is pending. -/
  isOpen : Bool := false
  /-- Someone sleeps until the source is woken. -/
  parked : Bool := false
  /-- How many chunks and failures were yielded. -/
  pulled : Nat := 0
  deriving DecidableEq, Repr

/-- What one step of a poll of a source comes to. -/
inductive Yield where
  | item (r : Except Cause Octets)
  | exhausted
  | pending (wakesItself : Bool)
  /-- The listener does something; then the poll goes on. -/
  | act (a : Act)

/-- How many items a step of a poll has used up at least. -/
def Yield.used : Yield → Nat
  | .item _ => 1
  | .exhausted => 0
  | .pending wakesItself => if wakesItself then 1 else 0
  | .act _ => 1

namespace Source

/-- One step of a poll. -/
def poll (s : Source) : Source × Yield :=
  match s.items with
  | .chunk bytes :: rest =>
      ({ s with items := rest, pulled := s.pulled + 1 }, .item (.ok bytes))
  | .fail cause :: rest =>
      ({ s with items := rest, pulled := s.pulled + 1 }, .item (.error cause))
  | .pause :: rest => ({ s with items := rest, parked := true }, .pending false)
  | .stepAside :: rest => ({ s with items := rest }, .pending true)
  | .act a :: rest => ({ s with items := rest }, .act a)
  | [] => if s.isOpen then ({ s with parked := true }, .pending false) else (s, .exhausted)

/-- Append items. -/
def feed (items : List Item) (s : Source) : Source :=
  { s with items := s.items ++ items }

/-- Nothing more will be appended. -/
def finish (s : Source) : Source :=
  { s with isOpen := false }

/-- Wake whoever sleeps for the source. -/
def unpark (s : Source) : Source :=
  { s with parked := false }

/-- Whatever a poll comes to, it uses items up and adds none. -/
theorem poll_used (s : Source) : s.poll.1.items.length + s.poll.2.used ≤ s.items.length := by
  unfold poll
  split
  · rename_i hitems
    simp [Yield.used, hitems]
  · rename_i hitems
    simp [Yield.used, hitems]
  · rename_i hitems
    simp [Yield.used, hitems]
  · rename_i hitems
    simp [Yield.used, hitems]
  · rename_i hitems
    simp [Yield.used, hitems]
  · split <;> simp [Yield.used]

/-- What is yielded is counted, and nothing else is. -/
theorem poll_pulled (s : Source) :
    s.poll.1.pulled = s.pulled + (match s.poll.2 with
      | .item _ => 1
      | _ => 0) := by
  unfold poll
  split <;> try rfl
  split <;> rfl

end Source
end CreditFlow
