import CreditFlow.Proofs.Insertion
import CreditFlow.Proofs.OutletTraffic
import CreditFlow.Proofs.Pipe

/-!
# Interrupting the pushes of a writer

A push that finds no credit has to wait, and while it waits it looks at the interrupt token.
Once it has taken some credit it does not look at the token any more.  So a push that was
interrupted has taken no credit, has counted no byte and has called nobody: it is a push that
was not made, but for its answer.

What was answered is written down in the traffic, and nothing that happens later looks at it.
Two runs that differ by interrupted pushes differ in these answers only.

Main results:

- {lit}`OutletTraffic.push_waiting`, {lit}`OutletTraffic.push_ready`: the token decides nothing
  but whether a push that would have to wait fails.
- {lit}`OutletTraffic.logged_step`: nobody looks at the answers.
- {lit}`OutletTraffic.run_edited`: interrupted pushes among any traffic.
-/

namespace CreditFlow

/-- A push that finds the token fired is a push, unless it would have to wait. -/
theorem Ledger.take_fired (l : Ledger) :
    l.take true = some ((l.take false).getD (.error (.condition (.interrupted .demand)))) := by
  unfold take
  split
  · rfl
  · split <;> rfl

namespace OutletTraffic

variable {t : OutletTraffic}

/-! ## The token -/

/-- A writer that sets about a push now has to wait for credit. -/
def Waits (t : OutletTraffic) : Prop :=
  t.ready = true ∧ t.outlet.closed = false ∧ t.outlet.ledger.take false = none

/-- A push that would have to wait does nothing when it waits.  When it is interrupted it says
so, and leaves everything else as it was. -/
theorem push_waiting (hwaits : t.Waits) (item : Octets) :
    t.step (.push item false) = t ∧
      t.step (.push item true) =
        { t with pushes := t.pushes ++ [(item, .error (.condition (.interrupted .demand)))] } := by
  obtain ⟨hready, hopen, htake⟩ := hwaits
  have hidle : t.stage = .idle := (ready_iff.mp hready).2
  have hfired : t.outlet.ledger.take true = some (.error (.condition (.interrupted .demand))) := by
    rw [Ledger.take_fired, htake]
    rfl
  constructor
  · simp [step, hready, pushStep, hopen, htake]
  · simp [step, hready, pushStep, hopen, hfired, answerPush, hidle]

/-- A push that need not wait comes to the same whether or not the token was fired. -/
theorem push_ready (hready : ¬t.Waits) (item : Octets) (fired fired' : Bool) :
    t.step (.push item fired) = t.step (.push item fired') := by
  have hsame : ∀ fired, t.step (.push item fired) = t.step (.push item false) := by
    intro fired
    by_cases hbusy : t.ready = true
    · by_cases hclosed : t.outlet.closed = true
      · simp [step, hbusy, pushStep, hclosed]
      · obtain ⟨taken, htake⟩ : ∃ taken, t.outlet.ledger.take false = some taken := by
          apply Option.ne_none_iff_exists'.mp
          exact fun hnone => hready ⟨hbusy, by simpa using hclosed, hnone⟩
        have hfired : t.outlet.ledger.take fired = some taken := by
          cases fired with
          | false => exact htake
          | true =>
              rw [Ledger.take_fired, htake]
              rfl
        simp only [step, pushStep, htake, hfired]
    · simp [step, hbusy]
  rw [hsame fired, hsame fired']

/-- The writer sets about the push that a step of its own makes, or tries it again after it had
to wait.  A step that pushes nothing has nothing to wait for. -/
def attempt (s : WriterStep) (fired : Bool) (t : OutletTraffic) : OutletTraffic :=
  (s.item?.map fun item => t.step (.push item fired)).getD t

/-- A step that has nothing to wait for does not look at the token. -/
theorem attempt_ready {s : WriterStep} (hready : s.item? = none ∨ ¬t.Waits) (fired fired' : Bool) :
    t.attempt s fired = t.attempt s fired' := by
  cases hitem : s.item? with
  | none => simp [attempt, hitem]
  | some item =>
      have hwaits : ¬t.Waits := hready.resolve_left (by simp [hitem])
      simpa [attempt, hitem] using push_ready hwaits item fired fired'

/-- A push that has to wait does nothing, and says so if the token was fired. -/
theorem attempt_waiting {s : WriterStep} {item : Octets} (hitem : s.item? = some item)
    (hwaits : t.Waits) :
    t.attempt s false = t ∧
      t.attempt s true =
        { t with pushes := t.pushes ++ [(item, .error (.condition (.interrupted .demand)))] } := by
  simpa [attempt, hitem] using push_waiting hwaits item

/-! ## What was answered -/

/-- Answers that were written down before. -/
def logged (pushes : List (Octets × Except Failure Unit)) (closings : List (Except Failure Unit))
    (t : OutletTraffic) : OutletTraffic :=
  { t with pushes := pushes ++ t.pushes, closings := closings ++ t.closings }

section Logged

variable (pushes : List (Octets × Except Failure Unit)) (closings : List (Except Failure Unit))

@[simp]
theorem logged_outlet (t : OutletTraffic) : (t.logged pushes closings).outlet = t.outlet := rfl

@[simp]
theorem logged_stage (t : OutletTraffic) : (t.logged pushes closings).stage = t.stage := rfl

@[simp]
theorem logged_arrival (t : OutletTraffic) : (t.logged pushes closings).arrival = t.arrival := rfl

@[simp]
theorem logged_unlocked (t : OutletTraffic) :
    (t.logged pushes closings).unlocked = t.unlocked := rfl

@[simp]
theorem logged_ready (t : OutletTraffic) : (t.logged pushes closings).ready = t.ready := rfl

@[simp]
theorem logged_answerPush (item : Octets) (answer : Except Failure Unit) (t : OutletTraffic) :
    (t.logged pushes closings).answerPush item answer =
      (t.answerPush item answer).logged pushes closings := by
  simp [answerPush, logged]

theorem logged_arriveStep (t : OutletTraffic) :
    (t.logged pushes closings).arriveStep = t.arriveStep.logged pushes closings := by
  simp only [arriveStep, logged_arrival]
  cases t.arrival <;> rfl

theorem logged_pushStep (item : Octets) (interrupted : Bool) (t : OutletTraffic) :
    (t.logged pushes closings).pushStep item interrupted =
      (t.pushStep item interrupted).logged pushes closings := by
  by_cases hclosed : t.outlet.closed = true
  · simp only [pushStep, logged_outlet, hclosed, ↓reduceIte, logged_answerPush]
  · simp only [pushStep, logged_outlet, hclosed, Bool.false_eq_true, ↓reduceIte]
    cases t.outlet.ledger.take interrupted with
    | none => rfl
    | some taken =>
        cases taken with
        | error f => exact logged_answerPush pushes closings item _ t
        | ok ledger => rfl

theorem logged_proceedStep (t : OutletTraffic) :
    (t.logged pushes closings).proceedStep = t.proceedStep.logged pushes closings := by
  cases hstage : t.stage with
  | idle => simp only [proceedStep, logged_stage, hstage]
  | holding item =>
      by_cases hunlocked : t.unlocked = true
      · simp only [proceedStep, logged_stage, hstage, logged_unlocked, hunlocked, ↓reduceIte,
          logged_outlet]
        cases t.outlet.deliver item with
        | none => exact logged_answerPush pushes closings item _ t
        | some out => rfl
      · simp [proceedStep, hstage, hunlocked]
  | handing item =>
      simp only [proceedStep, logged_stage, hstage]
      simp only [answerPush, logged, List.append_assoc]
  | ending f silent =>
      by_cases hunlocked : t.unlocked = true
      · simp only [proceedStep, logged_stage, hstage, logged_unlocked, hunlocked, ↓reduceIte]
        rfl
      · simp [proceedStep, hstage, hunlocked]
  | departing f =>
      cases f with
      | complete => simp only [proceedStep, hstage, logged, List.append_assoc]
      | abandoned =>
          simp only [proceedStep, logged_stage, hstage]
          rfl

/-- Nobody looks at the answers. -/
theorem logged_step (e : OutletEvent) (t : OutletTraffic) :
    (t.logged pushes closings).step e = (t.step e).logged pushes closings := by
  cases e with
  | request granter n =>
      rw [step, step, apply_ite (logged pushes closings)]
      rfl
  | cancel =>
      rw [step, step, apply_ite (logged pushes closings)]
      rfl
  | subscribe =>
      rw [step, step, apply_ite (logged pushes closings)]
      rfl
  | arrive => exact logged_arriveStep pushes closings t
  | dropBody =>
      rw [step, step, apply_ite (logged pushes closings)]
      rfl
  | push item interrupted =>
      rw [step, step, apply_ite (logged pushes closings), logged_pushStep]
      rfl
  | close =>
      by_cases hready : t.ready = true
      · by_cases hclosed : t.outlet.closed = true
        · simp only [step, logged_ready, hready, logged_outlet, hclosed, ↓reduceIte]
          simp only [logged, List.append_assoc]
        · simp only [step, logged_ready, hready, logged_outlet, hclosed, ↓reduceIte]
          rfl
      · simp [step, hready]
  | leave =>
      rw [step, step, apply_ite (logged pushes closings), apply_ite (logged pushes closings)]
      rfl
  | proceed => exact logged_proceedStep pushes closings t

end Logged

/-- Traffic whose answers are not written down. -/
def unlogged (t : OutletTraffic) : OutletTraffic :=
  { t with pushes := [], closings := [] }

/-- What is answered when an event happens: by pushes, and by closings. -/
def reply (t : OutletTraffic) (e : OutletEvent) :
    List (Octets × Except Failure Unit) × List (Except Failure Unit) :=
  ((t.unlogged.step e).pushes, (t.unlogged.step e).closings)

theorem unlogged_logged (t : OutletTraffic) : t.unlogged.logged t.pushes t.closings = t := by
  simp [unlogged, logged]

/-- An event writes down what it answers, and does the rest without looking at what was
written down before. -/
theorem step_eq_logged (e : OutletEvent) (t : OutletTraffic) :
    t.step e = (t.unlogged.step e).logged t.pushes t.closings := by
  rw [← logged_step, unlogged_logged]

/-- Leaving out what was written down commutes with what happens. -/
theorem step_unlogged (e : OutletEvent) (t : OutletTraffic) :
    (t.step e).unlogged = (t.unlogged.step e).unlogged := by
  rw [step_eq_logged]
  rfl

/-! ## Interrupted pushes among traffic -/

/-- Traffic at an outlet, with what its calls answer. -/
def party : Party OutletTraffic OutletEvent
    (List (Octets × Except Failure Unit) × List (Except Failure Unit)) where
  step := step
  reply := reply

/-- A push that is interrupted. -/
def Interrupts (t : OutletTraffic) (e : OutletEvent) : Prop :=
  ∃ item, e = .push item true ∧ t.Waits

/-- A push that need not wait, while the token was fired or not. -/
def Heedless (t : OutletTraffic) (e e' : OutletEvent) : Prop :=
  ∃ item fired fired', e = .push item fired ∧ e' = .push item fired' ∧ ¬t.Waits

/-- Pushes that are interrupted can be put in anywhere, and the token can be fired for any push
that need not wait: everything ends as it would have but for what was written down, and every
other call is answered the same. -/
theorem run_edited (edits : List (Edit OutletEvent)) (t : OutletTraffic)
    (hallowed : Edit.Allowed party Interrupts Heedless edits t) :
    (party.run (Edit.before edits) t).unlogged = (party.run (Edit.after edits) t).unlogged ∧
      party.replies (Edit.before edits) t = Edit.kept party edits t := by
  refine Edit.run_alike (R := fun t u => t.unlogged = u.unlogged) ?_ ?_ ?_ rfl hallowed
  · intro t u e halike
    constructor
    · change t.reply e = u.reply e
      rw [reply, reply, halike]
    · change (t.step e).unlogged = (u.step e).unlogged
      rw [step_unlogged e t, step_unlogged e u, halike]
  · rintro t u e halike ⟨item, rfl, hwaits⟩
    exact halike.trans (congrArg unlogged (push_waiting hwaits item).2).symm
  · rintro u e e' ⟨item, fired, fired', rfl, rfl, hready⟩
    constructor
    · -- whether a push has to wait does not depend on the answers so far
      have hunlogged : ¬u.unlogged.Waits := hready
      change u.reply _ = u.reply _
      rw [reply, reply, push_ready hunlogged item fired fired']
    · exact push_ready hready item fired fired'

end OutletTraffic
end CreditFlow
