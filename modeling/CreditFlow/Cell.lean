import CreditFlow.Journal

/-!
# Single-assignment cell

A cell that is resolved once: to a value, to the cause of a failure, or to the
knowledge that nothing will ever arrive.  Later resolutions are ignored.  A
caller may look at the cell, block until it is resolved, or hold a *waiter* and
be woken.

A waiter registers before it looks.  A resolution stores first and notifies
afterwards, and it notifies exactly the waiters that have registered.  In this
order no waiter can be left suspended beside a resolved cell.

Main results:

- {lit}`Cell.resolve_of_resolved`: the first resolution wins.
- {lit}`Cell.result?_resolve_pending`: a pending cell takes what it is given.
- {lit}`Cell.wait_eq_of_result`: a call that need not wait does not look at the
  interrupt token.
-/

namespace CreditFlow

/-- A value that is assigned at most once. -/
inductive Cell (α : Type) where
  | pending
  | ready (value : α)
  | failed (cause : Cause)
  /-- The stream ended and nothing was ever published. -/
  | missing

namespace Cell

variable {α : Type}

/-- Whether a cell still waits for its resolution. -/
def isPending : Cell α → Bool
  | pending => true
  | _ => false

/-- What a resolved cell answers. -/
def result? : Cell α → Option (Except Failure α)
  | pending => none
  | ready value => some (.ok value)
  | failed cause => some (.error (.producer cause))
  | missing => some (.error (.condition .missingMetadata))

/-- Resolve a pending cell to `outcome`; a resolved cell stays as it is.  The flag
says whether the cell took the resolution. -/
def resolve (cell outcome : Cell α) : Cell α × Bool :=
  if cell.isPending then (outcome, true) else (cell, false)

/-- Block until the cell is resolved.  `none` means that the call has to wait. -/
def wait (interrupted : Bool) (cell : Cell α) : Option (Except Failure α) :=
  match cell.result? with
  | some r => some r
  | none => if interrupted then some (.error (.condition (.interrupted .metadata))) else none

@[simp]
theorem result?_eq_none_iff (cell : Cell α) : cell.result? = none ↔ cell.isPending = true := by
  cases cell <;> simp [result?, isPending]

/-- The first resolution wins. -/
theorem resolve_of_resolved {cell : Cell α} (h : cell.isPending = false) (outcome : Cell α) :
    cell.resolve outcome = (cell, false) := by
  simp [resolve, h]

/-- A pending cell takes what it is given. -/
theorem result?_resolve_pending (outcome : Cell α) :
    (pending.resolve outcome).1.result? = outcome.result? := rfl

/-- A call that need not wait does not look at the interrupt token. -/
theorem wait_eq_of_result {cell : Cell α} {r : Except Failure α} (h : cell.result? = some r)
    (interrupted : Bool) : cell.wait interrupted = some r := by
  simp [wait, h]

end Cell

/-! ## Waiters -/

/-- Someone who wants to be woken when a cell is resolved. -/
inductive Waiter where
  /-- Not looking: not registered. -/
  | idle
  /-- Registered, and about to look at the cell. -/
  | registered (notified : Bool)
  /-- Registered, has looked in vain, and sleeps unless notified. -/
  | suspended (notified : Bool)
  deriving DecidableEq, Repr

namespace Waiter

/-- Register with the cell's notifier.  A sleeper that was not notified sleeps on. -/
def register : Waiter → Waiter
  | .suspended false => .suspended false
  | _ => .registered false

/-- Look at the cell after registering: take its result, or go to sleep. -/
def look {α : Type} (cell : Cell α) : Waiter → Waiter × Option (Except Failure α)
  | .registered notified =>
      match cell.result? with
      | some r => (.idle, some r)
      | none => (.suspended notified, none)
  | w => (w, none)

/-- The notification that follows a resolution reaches whoever has registered. -/
def notify : Waiter → Waiter
  | .idle => .idle
  | .registered _ => .registered true
  | .suspended _ => .suspended true

/-- Poll once: register, then look. -/
def poll {α : Type} (cell : Cell α) (w : Waiter) : Waiter × Option (Except Failure α) :=
  w.register.look cell

/-- Whether a sleeper has been woken. -/
def isWoken : Waiter → Bool
  | .suspended notified => notified
  | _ => false

end Waiter
end CreditFlow
