import CreditFlow.Pump
import Mathlib.Tactic.Common

/-!
# A move of a pump

All that the task of a pump can do next, with what must hold for it.  Whether the pump drives
a source or a stream makes no difference before it polls, so what is to be shown of every
move of every pump is shown by going through this list, and the definition of a move is not
looked into again.

Main results:

- {lit}`Pump.advances_advance`: every move of a pump is in the list.
- {lit}`Pump.fold_refuses_iff`: folding grants in comes upon a grant of nothing exactly when
  there is one.
- {lit}`Pump.control_stage`: what comes through the handle moves no task.
- {lit}`Pump.cancel_abandoned`, {lit}`Pump.Abandoned.control`: a pump that is cancelled knows
  of it for good.
-/

namespace CreditFlow.Pump

/-! ## Polls -/

/-- A pump is in the middle of a poll, one that it begins or one that goes on. -/
inductive Polls (p : Pump) : Pump → Prop
  /-- With demand, and not cancelled, it begins a poll. -/
  | begins (hstage : p.stage = .between) (hdemand : 0 < p.demand.items)
      (hopen : p.cancelled = false) :
      Polls p { p with stage := .polling, sleep := some .forStream }
  | goesOn (hstage : p.stage = .polling) : Polls p p

theorem Polls.stage {p p' : Pump} (h : p.Polls p') : p'.stage = .polling := by
  cases h with
  | begins hstage hdemand hopen => rfl
  | goesOn hstage => exact hstage

theorem Polls.demand {p p' : Pump} (h : p.Polls p') : p'.demand = p.demand := by
  cases h with
  | begins hstage hdemand hopen => rfl
  | goesOn hstage => rfl

theorem Polls.grants {p p' : Pump} (h : p.Polls p') : p'.grants = p.grants := by
  cases h with
  | begins hstage hdemand hopen => rfl
  | goesOn hstage => rfl

theorem Polls.cancelled {p p' : Pump} (h : p.Polls p') : p'.cancelled = p.cancelled := by
  cases h with
  | begins hstage hdemand hopen => rfl
  | goesOn hstage => rfl

/-! ## Grants that are folded in -/

/-- Folding grants in comes upon a grant of nothing exactly when there is one. -/
theorem fold_refuses_iff (grants : List Nat) (demand : Demand) :
    (fold grants demand).2.2 = true ↔ 0 ∈ grants := by
  induction grants generalizing demand with
  | nil => simp [fold]
  | cons n rest ih =>
      cases n with
      | zero => simp [fold]
      | succ n => simpa [fold] using ih (demand.grant (n + 1))

/-- Unless there is one, it takes them all. -/
theorem fold_grants {grants : List Nat} (hsome : 0 ∉ grants) (demand : Demand) :
    (fold grants demand).2 = ([], false) := by
  induction grants generalizing demand with
  | nil => rfl
  | cons n rest ih =>
      rw [List.mem_cons, not_or] at hsome
      cases n with
      | zero => exact absurd rfl hsome.1
      | succ n => exact ih hsome.2 (demand.grant (n + 1))

/-! ## Moves -/

/-- All that a pump can do next. -/
inductive Advances (p : Pump) : Pump × List Notice × Move → Prop
  /-- The consumer is greeted. -/
  | greets (hstage : p.stage = .fresh) :
      Advances p ({ p with stage := .greeted }, [], .deliver (.subscribed ()))
  | starts (hstage : p.stage = .greeted) :
      Advances p ({ p with stage := .between }, [.pumpStarted], .again)
  /-- A cancellation is noticed. -/
  | cancels (note : Notice) (hstage : p.stage = .between) (hcancelled : p.cancelled = true) :
      Advances p ({ p with stage := .leaving }, [note], .again)
  /-- The loss of the handle is noticed. -/
  | orphaned (hstage : p.stage = .between) (hdemand : p.demand.items = 0)
      (hopen : p.cancelled = false) (hgrants : p.grants = []) (hheld : p.held = false) :
      Advances p ({ p with stage := .leaving }, [.pumpHandleDropped], .again)
  /-- A grant is taken. -/
  | takes (n : Nat) (rest : List Nat) (hstage : p.stage = .between)
      (hdemand : p.demand.items = 0) (hopen : p.cancelled = false)
      (hgrants : p.grants = (n + 1) :: rest) :
      Advances p ({ p with grants := rest, demand := p.demand.grant (n + 1) }, [], .again)
  /-- A grant of nothing is taken. -/
  | refuses (rest : List Nat) (hstage : p.stage = .between) (hdemand : p.demand.items = 0)
      (hopen : p.cancelled = false) (hgrants : p.grants = 0 :: rest) :
      Advances p
        ({ p with stage := .leaving, grants := rest }, [.pumpZeroDemand],
          .deliver (.error .zeroDemand))
  /-- There is nothing to do before a grant comes. -/
  | waits (hstage : p.stage = .between) (hdemand : p.demand.items = 0)
      (hopen : p.cancelled = false) (hgrants : p.grants = []) (hheld : p.held = true) :
      Advances p ({ p with sleep := some .forGrant }, [], .park)
  /-- The grants that came while an item was signalled are taken. -/
  | folds (demand : Demand) (hstage : p.stage = .signalled) (hsome : 0 ∉ p.grants)
      (hfold : fold p.grants p.demand = (demand, [], false)) :
      Advances p ({ p with stage := .between, grants := [], demand := demand }, [], .again)
  /-- One of them is for nothing.  Nobody looks for a cancellation here. -/
  | balks (grants : List Nat) (demand : Demand) (hstage : p.stage = .signalled)
      (hzero : 0 ∈ p.grants) (hfold : fold p.grants p.demand = (demand, grants, true)) :
      Advances p
        ({ p with stage := .leaving, grants := grants, demand := demand }, [.pumpZeroDemand],
          .deliver (.error .zeroDemand))
  /-- The stream is polled. -/
  | polls (p' : Pump) (hpolls : p.Polls p') : Advances p (p', [], .fetch)
  /-- The stream and the consumer are let go. -/
  | leaves (hstage : p.stage = .leaving) :
      Advances p ({ p with stage := .over, sleep := none }, [], .leave)
  | rests (hstage : p.stage = .over) : Advances p (p, [], .park)

/-- A pump between two polls takes a grant, waits for one, polls, or leaves. -/
theorem advances_of_between {p : Pump} (hstage : p.stage = .between) : p.Advances p.advance := by
  by_cases hdemand : p.demand.items = 0
  · have hidle : p.advance = p.idle := by simp only [advance, hstage, hdemand, if_true]
    rw [hidle, idle]
    by_cases hcancelled : p.cancelled = true
    · rw [if_pos hcancelled]
      exact .cancels _ hstage hcancelled
    · have hopen : p.cancelled = false := by simpa using hcancelled
      rw [if_neg hcancelled]
      split
      · rename_i rest hgrants
        exact .refuses rest hstage hdemand hopen hgrants
      · rename_i n rest hgrants
        exact .takes n rest hstage hdemand hopen hgrants
      · rename_i hgrants
        split
        · rename_i hheld
          exact .waits hstage hdemand hopen hgrants hheld
        · rename_i hlost
          exact .orphaned hstage hdemand hopen hgrants (by simpa using hlost)
  · by_cases hcancelled : p.cancelled = true
    · have hadvance : p.advance =
          ({ p with stage := .leaving }, [.pumpCancelledFetching], .again) := by
        simp only [advance, hstage, hdemand, hcancelled, if_true, if_false]
      rw [hadvance]
      exact .cancels _ hstage hcancelled
    · have hopen : p.cancelled = false := by simpa using hcancelled
      have hadvance : p.advance =
          ({ p with stage := .polling, sleep := some .forStream }, [], .fetch) := by
        simp [advance, hstage, hdemand, hopen]
      rw [hadvance]
      exact .polls _ (.begins hstage (Nat.pos_of_ne_zero hdemand) hopen)

/-- A pump that has handed an item on folds the grants in that have come meanwhile. -/
theorem advances_of_signalled {p : Pump} (hstage : p.stage = .signalled) :
    p.Advances p.advance := by
  rcases hfold : fold p.grants p.demand with ⟨demand, grants, refused⟩
  by_cases hzero : 0 ∈ p.grants
  · have hrefused := (fold_refuses_iff p.grants p.demand).mpr hzero
    rw [hfold] at hrefused
    have htrue : refused = true := hrefused
    subst htrue
    have hadvance : p.advance =
        ({ p with stage := .leaving, grants := grants, demand := demand },
          [.pumpZeroDemand], .deliver (.error .zeroDemand)) := by
      simp [advance, hstage, hfold, refuseZero]
    rw [hadvance]
    exact .balks grants demand hstage hzero hfold
  · have hall := fold_grants hzero p.demand
    rw [hfold] at hall
    cases hall
    have hadvance : p.advance =
        ({ p with stage := .between, grants := [], demand := demand }, [], .again) := by
      simp [advance, hstage, hfold]
    rw [hadvance]
    exact .folds demand hstage hzero hfold

/-- Every move of a pump is in the list. -/
theorem advances_advance (p : Pump) : p.Advances p.advance := by
  cases hstage : p.stage with
  | between => exact advances_of_between hstage
  | signalled => exact advances_of_signalled hstage
  | fresh =>
      have hadvance : p.advance =
          ({ p with stage := .greeted }, [], .deliver (.subscribed ())) := by
        simp only [advance, hstage]
      rw [hadvance]
      exact .greets hstage
  | greeted =>
      have hadvance : p.advance = ({ p with stage := .between }, [.pumpStarted], .again) := by
        simp only [advance, hstage]
      rw [hadvance]
      exact .starts hstage
  | polling =>
      have hadvance : p.advance = (p, [], .fetch) := by simp only [advance, hstage]
      rw [hadvance]
      exact .polls p (.goesOn hstage)
  | leaving =>
      have hadvance : p.advance = ({ p with stage := .over, sleep := none }, [], .leave) := by
        simp only [advance, hstage]
      rw [hadvance]
      exact .leaves hstage
  | «over» =>
      have hadvance : p.advance = (p, [], .park) := by simp only [advance, hstage]
      rw [hadvance]
      exact .rests hstage

/-! ## What the stream yields -/

section Receive

variable {p : Pump} (hopen : p.cancelled = false)
include hopen

/-- An item is handed on, and takes one grant. -/
theorem receive_chunk (chunk : Octets) :
    p.receive (some (.ok chunk)) =
      ({ p with stage := .signalled, sleep := none, demand := p.demand.spend },
        [.pumpEmit chunk.length p.demand.spend.items], some (.next chunk)) := by
  simp [receive, hopen]

/-- A failure is handed on, and is the last. -/
theorem receive_failure (cause : Cause) :
    p.receive (some (.error cause)) =
      ({ p with stage := .leaving, sleep := none }, [.pumpSourceFailed cause],
        some (.error cause)) := by
  simp [receive, hopen]

/-- So is the end. -/
theorem receive_end :
    p.receive none =
      ({ p with stage := .leaving, sleep := none }, [.pumpSourceExhausted], some .complete) := by
  simp [receive, hopen]

end Receive

/-- Whatever the stream has yielded, its poll is over. -/
theorem receive_stage (p : Pump) (r : Option (Except Cause Octets)) :
    (p.receive r).1.stage ≠ .polling := by
  unfold receive
  split
  · simp
  · split <;> simp

/-! ## The handle -/

/-- What comes through the handle moves no task. -/
@[simp]
theorem control_stage (c : Control) (p : Pump) : (p.control c).1.stage = p.stage := by
  unfold control
  split
  · rfl
  · cases c with
    | request n =>
        dsimp only
        split <;> rfl
    | cancel =>
        dsimp only
        split <;> rfl
    | release =>
        dsimp only
        split <;> rfl

/-! ## Cancellations -/

/-- A pump that knows that it has no consumer any more, or that is over. -/
def Abandoned (p : Pump) : Prop :=
  p.cancelled = true ∨ p.stage = .over

/-- Nothing that comes later takes a cancellation back. -/
theorem Abandoned.control {p : Pump} (h : p.Abandoned) (c : Control) :
    (p.control c).1.Abandoned := by
  unfold Pump.control
  split
  · exact h
  · cases c with
    | request n =>
        dsimp only
        split <;> exact h
    | cancel =>
        dsimp only
        split
        · exact h
        · exact .inl rfl
    | release =>
        dsimp only
        split <;> exact h

/-- A pump that is cancelled knows of it. -/
theorem cancel_abandoned (p : Pump) : (p.control .cancel).1.Abandoned := by
  unfold Pump.control
  split
  · rename_i hover
    exact .inr hover
  · dsimp only
    split
    · rename_i hcancelled
      exact .inl hcancelled
    · exact .inl rfl

end CreditFlow.Pump
