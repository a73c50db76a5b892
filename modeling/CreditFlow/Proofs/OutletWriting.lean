import CreditFlow.Proofs.Insertion
import CreditFlow.Proofs.OutletSignals
import Mathlib.Data.List.Induction

/-!
# What a writer is answered

A push goes through when its item was handed over, and then its bytes are counted.  A push
that fails has handed nothing over.  Almost every failure comes before any credit is taken;
the only one that comes later is that nobody is attached to take the item, and then the
consumer has cancelled and all credit is gone with it.

So the reason that a push is given can be read off the outlet at the moment of the answer: a
writer that has closed is told so first, then that the consumer has cancelled, and only a push
that waits for credit is told that it was interrupted.

Main results:

- {lit}`Ledger.take_eq_none_iff`: what a push waits for.
- {lit}`OutletTraffic.run_flag`: what is put down once and for ever was put down by one event.
- {lit}`OutletTraffic.run_written`: the bytes that are counted are those of the pushes that
  went through.
- {lit}`OutletTraffic.Sound.refused_step`: what a push that fails changes, and what it says.
- {lit}`OutletTraffic.run_truthful`: pushes and their answers in every run.
-/

namespace CreditFlow

/-- What a push is told that is refused at an outlet. -/
def Outlet.verdict (o : Outlet) : Failure :=
  if o.closed then .condition .closed
  else if o.ledger.cancelled then .condition .cancelled
  else .condition (.interrupted .demand)

/-- A push is refused at an outlet: the writer has closed, or the consumer has cancelled, or
there is no credit to wait for since the token was fired. -/
def Outlet.Refuses (interrupted : Bool) (o : Outlet) : Prop :=
  o.closed = true ∨ o.ledger.cancelled = true ∨ o.ledger.demand.items = 0 ∧ interrupted = true

/-- A push has to wait at an outlet: the stream is open, nobody has cancelled it or fired the
token, and there is no credit. -/
def Outlet.Starves (interrupted : Bool) (o : Outlet) : Prop :=
  o.closed = false ∧ o.ledger.cancelled = false ∧ o.ledger.demand.items = 0 ∧ interrupted = false

/-- A push waits for a ledger that is not cancelled and has no credit, until the token is
fired. -/
theorem Ledger.take_eq_none_iff {interrupted : Bool} {l : Ledger} :
    l.take interrupted = none ↔
      l.cancelled = false ∧ l.demand.items = 0 ∧ interrupted = false := by
  unfold take
  split
  · rename_i hcancelled
    simp [hcancelled]
  · rename_i hlistening
    split
    · rename_i hcredit
      simp [Nat.ne_of_gt hcredit]
    · rename_i hnothing
      simp [hlistening, Nat.eq_zero_of_not_pos hnothing]

/-- A ledger fails a push if it was cancelled, or else has no credit while the token is fired. -/
theorem Ledger.take_error_cases {interrupted : Bool} {l : Ledger} {f : Failure}
    (htake : l.take interrupted = some (.error f)) :
    (l.cancelled = true ∧ f = .condition .cancelled) ∨
      (l.cancelled = false ∧ l.demand.items = 0 ∧ interrupted = true ∧
        f = .condition (.interrupted .demand)) := by
  unfold take at htake
  split at htake
  · rename_i hcancelled
    cases htake
    exact .inl ⟨hcancelled, rfl⟩
  · rename_i hlistening
    split at htake
    · cases htake
    · rename_i hnothing
      split at htake
      · rename_i hfired
        cases htake
        exact .inr ⟨by simpa using hlistening, Nat.eq_zero_of_not_pos hnothing, hfired, rfl⟩
      · cases htake

/-- A ledger that refuses a push was cancelled, or has no credit for a push that was
interrupted. -/
theorem Ledger.take_error {interrupted : Bool} {l : Ledger} {f : Failure}
    (htake : l.take interrupted = some (.error f)) :
    f = if l.cancelled then .condition .cancelled else .condition (.interrupted .demand) := by
  rcases take_error_cases htake with ⟨hcancelled, rfl⟩ | ⟨hlistening, -, -, rfl⟩
  · rw [if_pos hcancelled]
  · rw [if_neg (by simp [hlistening])]

namespace OutletTraffic

variable {t t' : OutletTraffic}

/-! ## What is put down for ever -/

/-- What stays once it is put down, and is put down by certain events only, was put down by
one of them. -/
theorem run_flag (flag : OutletTraffic → Bool) {sets : OutletTraffic → OutletEvent → Prop}
    (hstep : ∀ t e, flag (t.step e) = true ↔ flag t = true ∨ sets t e)
    (hclear : flag t = false) (events : List OutletEvent) :
    flag (t.run events) = true ↔
      ∃ before e later, events = before ++ e :: later ∧ sets (t.run before) e := by
  induction events using List.reverseRecOn with
  | nil => simp [hclear]
  | append_singleton events e ih =>
      rw [run_append, run_cons, run_nil, hstep, ih]
      exact exists_split_append_singleton.symm

/-- A control leaves the writer's side as it was. -/
theorem control_closed (c : Control) (o : Outlet) : (o.control c).1.closed = o.closed := by
  obtain ⟨ledger, hcontrol, -⟩ := o.control_eq c
  rw [hcontrol]

/-- Nothing but a closing closes, and nothing opens again. -/
theorem step_closed_of_ne {e : OutletEvent} (hne : e ≠ .close) :
    (t.step e).outlet.closed = t.outlet.closed := by
  cases e with
  | request granter n =>
      simp only [step]
      split
      · exact control_closed _ _
      · rfl
  | cancel =>
      simp only [step]
      split
      · exact control_closed _ _
      · rfl
  | arrive =>
      simp only [step, arriveStep, Outlet.attach]
      split
      · rfl
      · split
        · rfl
        · split <;> rfl
      · rfl
  | push item interrupted =>
      simp only [step, pushStep]
      split
      · split
        · rfl
        · split <;> rfl
      · rfl
  | close => exact absurd rfl hne
  | proceed =>
      simp only [step, proceedStep]
      split
      · rfl
      · split
        · split <;> rfl
        · rfl
      · rfl
      · split
        · exact (conclude_ledger _ _ _).2.1
        · rfl
      · rfl
      · rfl
  | leave =>
      simp only [step]
      split
      · split <;> rfl
      · rfl
  | subscribe | dropBody =>
      simp only [step]
      split <;> rfl

/-- The writer closes when it sets about closing, and that is all that closes. -/
theorem closed_step_iff (t : OutletTraffic) (e : OutletEvent) :
    (t.step e).outlet.closed = true ↔
      t.outlet.closed = true ∨ e = .close ∧ t.ready = true := by
  by_cases hclose : e = .close
  · subst hclose
    by_cases hready : t.ready = true
    · by_cases hclosed : t.outlet.closed = true
      · simp [step, hready, hclosed]
      · simp [step, hready, hclosed, endStep, Outlet.shut, Outlet.putDown]
    · simp [step, hready]
  · rw [step_closed_of_ne hclose]
    simp [hclose]

/-- Nothing but a cancellation cancels. -/
theorem step_cancelled_of_ne {e : OutletEvent} (hne : e ≠ .cancel) :
    (t.step e).cancelled = t.cancelled := by
  cases e with
  | request granter n =>
      simp only [step]
      split
      · exact control_request_cancelled n t.outlet
      · rfl
  | cancel => exact absurd rfl hne
  | arrive => exact congrArg Ledger.cancelled (arrive_parts t).1
  | push item interrupted =>
      simp only [step, pushStep]
      split
      · split
        · rfl
        · split
          · rfl
          · rfl
          · rename_i ledger htake
            obtain ⟨-, -, rfl⟩ := Ledger.take_items htake
            rfl
      · rfl
  | close =>
      simp only [step]
      split
      · split <;> rfl
      · rfl
  | proceed => exact congrArg Ledger.cancelled (proceed_parts t).1
  | leave =>
      simp only [step]
      split
      · split <;> rfl
      · rfl
  | subscribe | dropBody =>
      simp only [step]
      split <;> rfl

/-- The consumer cancels through its handle while somebody keeps the outlet alive, and that is
all that cancels. -/
theorem cancelled_step_iff (t : OutletTraffic) (e : OutletEvent) :
    (t.step e).cancelled = true ↔
      t.cancelled = true ∨ e = .cancel ∧ t.hasHandle = true ∧ t.alive = true := by
  by_cases hcancel : e = .cancel
  · subst hcancel
    by_cases hhandle : t.hasHandle = true
    · by_cases halive : t.alive = true
      · have hlive : (t.outlet.writerHeld || t.outlet.bodyHeld) = true := halive
        simp [step, hhandle, halive, cancelled, Outlet.control, hlive]
      · have hdead : (t.outlet.writerHeld || t.outlet.bodyHeld) = false := by
          simpa [alive] using halive
        simp [step, hhandle, halive, cancelled, Outlet.control, hdead]
    · simp [step, hhandle]
  · rw [step_cancelled_of_ne hcancel]
    simp [hcancel]

/-! ## Answers -/

/-- The bytes that are counted are those of the pushes that went through. -/
theorem written_turn (hturn : Turn t t') (h : t.outlet.written = t.accepted.flatten.length) :
    t'.outlet.written = t'.accepted.flatten.length := by
  cases hturn with
  | refuses item f hstage =>
      rw [accepted_of_refused]
      exact h
  | counts item hstage =>
      rw [accepted_of_pushed, List.flatten_append, List.length_append, List.flatten_singleton]
      exact congrArg (· + item.length) h
  | _ => exact h

/-- The bytes that are counted in a run are those of the pushes that went through. -/
theorem run_written (contentLength : Nat) (events : List OutletEvent) :
    ((start contentLength).run events).outlet.written =
      ((start contentLength).run events).accepted.flatten.length :=
  run_keeps (fun t => t.outlet.written = t.accepted.flatten.length)
    (fun e h => written_turn (turn_step e) h) rfl events

/-- An answer belongs to a push, which is set about or goes on. -/
theorem pushes_of_ne {e : OutletEvent} (hpush : ∀ item interrupted, e ≠ .push item interrupted)
    (hproceed : e ≠ .proceed) : (t.step e).pushes = t.pushes := by
  cases e with
  | push item interrupted => exact absurd rfl (hpush item interrupted)
  | proceed => exact absurd rfl hproceed
  | arrive =>
      simp only [step, arriveStep]
      split <;> rfl
  | close | leave =>
      simp only [step]
      split
      · split <;> rfl
      · rfl
  | request | cancel | subscribe | dropBody =>
      simp only [step]
      split <;> rfl

/-- The answer that was written down last is the last answer. -/
theorem answer_of_pushes {item item' : Octets} {answer answer' : Except Failure Unit}
    (hpushes : (t.answerPush item answer).pushes = t.pushes ++ [(item', answer')]) :
    item = item' ∧ answer = answer' := by
  have hpair := List.append_cancel_left hpushes
  simpa using hpair

/-- Nothing was answered if nothing more is written down. -/
theorem not_answered {item : Octets} {answer : Except Failure Unit} {holds : Prop}
    (hpushes : t.pushes = t.pushes ++ [(item, answer)]) : holds := by
  have hlength := congrArg List.length hpushes
  simp at hlength

/-- A push that fails when it is set about was refused at the outlet. -/
theorem refused_push {item item' : Octets} {interrupted : Bool} {f : Failure}
    (hpushes : (t.step (.push item interrupted)).pushes = t.pushes ++ [(item', .error f)]) :
    t.step (.push item interrupted) = t.answerPush item' (.error f) ∧ f = t.outlet.verdict := by
  by_cases hready : t.ready = true
  · have hstep : t.step (.push item interrupted) = t.pushStep item interrupted := by
      simp [step, hready]
    rw [hstep] at hpushes ⊢
    unfold pushStep at hpushes ⊢
    by_cases hclosed : t.outlet.closed = true
    · rw [if_pos hclosed] at hpushes ⊢
      obtain ⟨rfl, hanswer⟩ := answer_of_pushes hpushes
      cases hanswer
      exact ⟨rfl, by rw [Outlet.verdict, if_pos hclosed]⟩
    · rw [if_neg hclosed] at hpushes ⊢
      cases htake : t.outlet.ledger.take interrupted with
      | none =>
          rw [htake] at hpushes
          exact not_answered hpushes
      | some taken =>
          cases taken with
          | error g =>
              rw [htake] at hpushes
              obtain ⟨rfl, hanswer⟩ := answer_of_pushes hpushes
              cases hanswer
              exact ⟨rfl, by rw [Outlet.verdict, if_neg hclosed, Ledger.take_error htake]⟩
          | ok ledger =>
              rw [htake] at hpushes
              exact not_answered hpushes
  · have hstep : t.step (.push item interrupted) = t := by simp [step, hready]
    rw [hstep] at hpushes
    exact not_answered hpushes

/-- A push that fails when it goes on found nobody attached, and the consumer had cancelled. -/
theorem Sound.refused_proceed (h : t.Sound) {item : Octets} {f : Failure}
    (hpushes : (t.step .proceed).pushes = t.pushes ++ [(item, .error f)]) :
    t.step .proceed = t.answerPush item (.error f) ∧ f = t.outlet.verdict := by
  simp only [OutletTraffic.step, proceedStep] at hpushes ⊢
  cases hstage : t.stage with
  | idle =>
      rw [hstage] at hpushes
      exact not_answered hpushes
  | holding held =>
      rw [hstage] at hpushes
      by_cases hunlocked : t.unlocked = true
      · simp only [hunlocked, if_true] at hpushes ⊢
        cases hdeliver : t.outlet.deliver held with
        | none =>
            rw [hdeliver] at hpushes
            obtain ⟨rfl, hanswer⟩ := answer_of_pushes hpushes
            cases hanswer
            have hnobody : t.outlet.downstream ≠ .attached := by
              intro hattached
              simp [Outlet.deliver, hattached] at hdeliver
            have hcancelled : t.outlet.ledger.cancelled = true :=
              h.cancelled_of_unattached hstage hunlocked hnobody
            have hopen : t.outlet.closed = false := (h.pushing (by rw [hstage]; rfl)).2
            exact ⟨rfl, by simp [Outlet.verdict, hopen, hcancelled]⟩
        | some out =>
            rw [hdeliver] at hpushes
            exact not_answered hpushes
      · simp only [hunlocked] at hpushes
        exact not_answered hpushes
  | handing held =>
      rw [hstage] at hpushes
      have hanswer := (answer_of_pushes (t := { t with
        outlet := (t.outlet.counted held.length).1 }) hpushes).2
      cases hanswer
  | ending g silent =>
      rw [hstage] at hpushes
      by_cases hunlocked : t.unlocked = true
      · simp only [hunlocked, if_true] at hpushes
        exact not_answered hpushes
      · simp only [hunlocked] at hpushes
        exact not_answered hpushes
  | departing g =>
      rw [hstage] at hpushes
      cases g with
      | complete => exact not_answered hpushes
      | abandoned => exact not_answered hpushes

/-- A push that fails changes nothing at the outlet and hands nothing over, and it says what
the outlet is like. -/
theorem Sound.refused_step (h : t.Sound) {e : OutletEvent} {item : Octets} {f : Failure}
    (hpushes : (t.step e).pushes = t.pushes ++ [(item, .error f)]) :
    t.step e = t.answerPush item (.error f) ∧ f = t.outlet.verdict := by
  by_cases hproceed : e = .proceed
  · subst hproceed
    exact h.refused_proceed hpushes
  · by_cases hpush : ∀ item interrupted, e ≠ .push item interrupted
    · rw [pushes_of_ne hpush hproceed] at hpushes
      exact not_answered hpushes
    · simp only [not_forall, not_not] at hpush
      obtain ⟨pushed, interrupted, rfl⟩ := hpush
      exact refused_push hpushes

/-- What is true of the pushes of a run, however writer, subscription and consumer meet, and
wherever their calls are cut. -/
structure Truthful (first : OutletTraffic) (events : List OutletEvent) (t : OutletTraffic) :
    Prop where
  /-- The consumer has heard the items of the pushes that went through, in order, and the one
  that is being handed over, if there is one. -/
  heard : t.delivered = t.accepted ++ t.stage.handed?.toList
  /-- The bytes that are counted are those of the pushes that went through. -/
  written : t.outlet.written = t.accepted.flatten.length
  /-- A push that fails changes nothing at the outlet and nothing for the consumer, and what
  it says is told by the outlet: closed, or else cancelled, or else interrupted. -/
  refused : ∀ e item f, (t.step e).pushes = t.pushes ++ [(item, .error f)] →
    t.step e = t.answerPush item (.error f) ∧ f = t.outlet.verdict
  /-- The writer has closed if and only if it set about closing. -/
  closed : t.outlet.closed = true ↔ ∃ before e later, events = before ++ e :: later ∧
    e = .close ∧ (first.run before).ready = true
  /-- The stream is cancelled if and only if somebody has cancelled through the handle. -/
  cancelled : t.cancelled = true ↔ ∃ before e later, events = before ++ e :: later ∧
    e = .cancel ∧ (first.run before).hasHandle = true ∧ (first.run before).alive = true
  /-- A push that has taken its credit finds nobody attached only if the consumer has
  cancelled, and then there is no credit that could be given back. -/
  unattached : ∀ item, t.stage = .holding item → t.unlocked = true →
    t.outlet.downstream ≠ .attached → t.cancelled = true ∧ t.demand = 0
  /-- As long as nobody has cancelled, the credit that is left is what was granted less one for
  each item that was handed over or is about to be, however many pushes have failed. -/
  credit : t.alive = true → t.cancelled = false → t.granted ≤ Demand.ceiling →
    t.demand = t.granted - (t.delivered.length + t.inHand)

/-- Pushes and their answers in every run. -/
theorem run_truthful (contentLength : Nat) (events : List OutletEvent) :
    Truthful (start contentLength) events ((start contentLength).run events) := by
  have hsound := run_sound contentLength events
  constructor
  · exact (run_voiced contentLength events).answered
  · exact run_written contentLength events
  · exact fun e item f hpushes => hsound.refused_step hpushes
  · exact run_flag (fun t => t.outlet.closed) closed_step_iff rfl events
  · exact run_flag OutletTraffic.cancelled cancelled_step_iff rfl events
  · intro item hstage hunlocked hnobody
    have hcancelled := hsound.cancelled_of_unattached hstage hunlocked hnobody
    exact ⟨hcancelled, hsound.muted hcancelled⟩
  · intro halive hopen hbelow
    have hkept := hsound.kept halive hopen hbelow
    simp only [balance] at hkept
    omega

end OutletTraffic
end CreditFlow
