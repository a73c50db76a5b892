import CreditFlow.Demand
import CreditFlow.Signal

/-!
# Pump

A pump drives a pulled stream as a pushed one.  It runs as a task: it greets its
consumer with a handle, waits for grants, pulls an item from its stream for each
item that was granted, and signals it.  The handle of a pump only leaves messages
for the task, a queue of grants and a cancellation mark, which the task looks at
when it comes round.

The task is cut into moves.  {lit}`Pump.advance` says what the task does next
from where it stands, and {lit}`Pump.receive` what it does with what its stream
yielded.  Between two moves anything may happen to the pump through its handle.

The order in which a pump looks at things is part of its contract: it looks for a
cancellation before it takes a grant and before it pulls, and once more when its
stream has yielded.  A grant of nothing ends the stream with an error as soon as it
is taken out of the queue.

Main results:

- {lit}`Pump.advance_fetch`: a pump pulls only with demand.
- {lit}`Pump.receive_cancelled`: what a cancelled pump has pulled is not signalled.
- {lit}`Pump.fold_items`: folding grants in never lowers the demand.
- {lit}`Pump.control_cancelled`: only a cancellation cancels.
-/

namespace CreditFlow

/-- Where the task of a pump stands. -/
inductive Stage where
  /-- Not yet run. -/
  | fresh
  /-- The consumer has been greeted. -/
  | greeted
  /-- Between items. -/
  | between
  /-- In the middle of a poll of the stream. -/
  | polling
  /-- An item has been signalled; grants that came meanwhile are still to be taken. -/
  | signalled
  /-- The end has been signalled, or there is nobody to signal to. -/
  | leaving
  /-- The task is over. -/
  | over
  deriving DecidableEq, Repr

/-- What the task of a pump sleeps for. -/
inductive Sleep where
  /-- A grant, the loss of the handle, or a cancellation. -/
  | forGrant
  /-- The stream, or a cancellation. -/
  | forStream
  deriving DecidableEq, Repr

/-- The state of a pump. -/
structure Pump where
  stage : Stage := .fresh
  /-- Items granted and not yet signalled. -/
  demand : Demand := .zero
  /-- Grants that the task has not taken yet, the oldest first. -/
  grants : List Nat := []
  /-- The consumer has cancelled. -/
  cancelled : Bool := false
  /-- Someone holds the handle. -/
  held : Bool := true
  sleep : Option Sleep := none
  deriving DecidableEq, Repr

/-- What the task of a pump does next. -/
inductive Move where
  /-- Signal the consumer. -/
  | deliver (s : Signal Unit)
  /-- Poll the stream. -/
  | fetch
  /-- Go on at once. -/
  | again
  /-- Sleep until something happens. -/
  | park
  /-- Let go of the stream and of the consumer. -/
  | leave

namespace Pump

/-! ## The handle -/

/-- A control that comes through the handle.  The flag says whether the task was woken. -/
def control (c : Control) (p : Pump) : Pump × Bool :=
  if p.stage = .over then (p, false)
  else
    match c with
    | .request n =>
        if p.sleep = some .forGrant then ({ p with grants := p.grants ++ [n], sleep := none }, true)
        else ({ p with grants := p.grants ++ [n] }, false)
    | .cancel =>
        if p.cancelled then (p, false)
        else ({ p with cancelled := true, sleep := none }, p.sleep.isSome)
    | .release =>
        if p.sleep = some .forGrant then ({ p with held := false, sleep := none }, true)
        else ({ p with held := false }, false)

/-- The stream of the pump has something new.  The flag says whether the task was woken. -/
def streamReady (p : Pump) : Pump × Bool :=
  if p.sleep = some .forStream then ({ p with sleep := none }, true) else (p, false)

/-! ## The task -/

/-- Take grants into the demand until none is left or one is for nothing.  The flag
says whether the latter happened. -/
def fold : List Nat → Demand → Demand × List Nat × Bool
  | [], demand => (demand, [], false)
  | 0 :: rest, demand => (demand, rest, true)
  | (n + 1) :: rest, demand => fold rest (demand.grant (n + 1))

/-- A grant of nothing has been taken: the stream ends with an error. -/
def refuseZero (p : Pump) : Pump × List Notice × Move :=
  ({ p with stage := .leaving }, [.pumpZeroDemand], .deliver (.error .zeroDemand))

/-- Between items and without demand: look for a cancellation, then for a grant. -/
def idle (p : Pump) : Pump × List Notice × Move :=
  if p.cancelled then ({ p with stage := .leaving }, [.pumpCancelledIdle], .again)
  else
    match p.grants with
    | 0 :: rest => refuseZero { p with grants := rest }
    | (n + 1) :: rest => ({ p with grants := rest, demand := p.demand.grant (n + 1) }, [], .again)
    | [] =>
        if p.held then ({ p with sleep := some .forGrant }, [], .park)
        else ({ p with stage := .leaving }, [.pumpHandleDropped], .again)

/-- What the task does next. -/
def advance (p : Pump) : Pump × List Notice × Move :=
  match p.stage with
  | .fresh => ({ p with stage := .greeted }, [], .deliver (.subscribed ()))
  | .greeted => ({ p with stage := .between }, [.pumpStarted], .again)
  | .between =>
      if p.demand.items = 0 then p.idle
      else if p.cancelled then ({ p with stage := .leaving }, [.pumpCancelledFetching], .again)
      else ({ p with stage := .polling, sleep := some .forStream }, [], .fetch)
  | .polling => (p, [], .fetch)
  | .signalled =>
      let folded := fold p.grants p.demand
      let p := { p with demand := folded.1, grants := folded.2.1 }
      if folded.2.2 then p.refuseZero else ({ p with stage := .between }, [], .again)
  | .leaving => ({ p with stage := .over, sleep := none }, [], .leave)
  | .over => (p, [], .park)

/-- The poll of the stream is pending: the task sleeps, and will look for a
cancellation before it polls again. -/
def pending (p : Pump) : Pump :=
  { p with stage := .between }

/-- What the task does with what its stream yielded: an item, a failure, or the end.
Once cancelled, it does nothing with it. -/
def receive (yielded : Option (Except Cause Octets)) (p : Pump) :
    Pump × List Notice × Option (Signal Unit) :=
  if p.cancelled then ({ p with stage := .leaving, sleep := none }, [], none)
  else
    match yielded with
    | some (.ok chunk) =>
        let demand := p.demand.spend
        ({ p with stage := .signalled, sleep := none, demand := demand },
          [.pumpEmit chunk.length demand.items], some (.next chunk))
    | some (.error cause) =>
        ({ p with stage := .leaving, sleep := none }, [.pumpSourceFailed cause],
          some (.error cause))
    | none =>
        ({ p with stage := .leaving, sleep := none }, [.pumpSourceExhausted], some .complete)

/-! ## Basic laws -/

/-- A pump pulls only with demand. -/
theorem advance_fetch {p : Pump} (hstage : p.stage = .between) (hfetch : p.advance.2.2 = .fetch) :
    0 < p.demand.items ∧ p.cancelled = false := by
  simp only [advance, hstage] at hfetch
  split at hfetch
  · rename_i hzero
    simp only [idle] at hfetch
    split at hfetch
    · simp at hfetch
    · split at hfetch
      · simp [refuseZero] at hfetch
      · simp at hfetch
      · split at hfetch <;> simp at hfetch
  · split at hfetch
    · simp at hfetch
    · rename_i hpos hopen
      exact ⟨Nat.pos_of_ne_zero hpos, by simpa using hopen⟩

/-- What a cancelled pump has pulled is not signalled. -/
theorem receive_cancelled {p : Pump} (hcancelled : p.cancelled = true)
    (yielded : Option (Except Cause Octets)) : (p.receive yielded).2 = ([], none) := by
  simp [receive, hcancelled]

/-- Folding grants in never lowers the demand. -/
theorem fold_items (grants : List Nat) (demand : Demand) :
    demand.items ≤ (fold grants demand).1.items := by
  induction grants generalizing demand with
  | nil => exact Nat.le_refl _
  | cons n rest ih =>
      cases n with
      | zero => exact Nat.le_refl _
      | succ n => exact Nat.le_trans (Demand.le_grant _ _) (ih _)

/-- Only a cancellation cancels. -/
theorem control_cancelled (c : Control) (p : Pump) :
    (p.control c).1.cancelled = true → p.cancelled = true ∨ c = .cancel := by
  intro h
  unfold control at h
  split at h
  · exact .inl h
  · cases c with
    | request n =>
        dsimp only at h
        split at h <;> exact .inl h
    | cancel => exact .inr rfl
    | release =>
        dsimp only at h
        split at h <;> exact .inl h

end Pump
end CreditFlow
