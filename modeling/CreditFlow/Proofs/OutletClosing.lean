import CreditFlow.Proofs.OutletSignals

/-!
# What a closing answers

A writer that closes puts its end down, tells the consumer of it, and then looks at the
ledger once more to see what to answer.  Whether the consumer is told was decided by the
first look; what is answered is decided by the second.  In between the consumer can cancel,
also from inside the call in which it is told, and then it has heard a completion that the
writer is told was cancelled.

Such a cancellation is the only thing by which the two come apart.  A closing during which
nobody cancels tells the truth: it succeeds if the completion was told, and reports a
cancellation if no signal is ever given any more.

Main results:

- {lit}`OutletTraffic.Closing.turn`: where a closing goes from where it stands.
- {lit}`OutletTraffic.run_answers_closing`: what the consumer hears of a closing, and what the
  closing answers.
-/

namespace CreditFlow
namespace OutletTraffic

variable {t u u' : OutletTraffic}

/-! ## Before the first closing -/

/-- No closing has answered as long as the writer has not closed. -/
structure Unanswered (t : OutletTraffic) : Prop extends Placed t where
  closings : t.outlet.closed = false → t.closings = []

theorem start_unanswered (contentLength : Nat) : (start contentLength).Unanswered :=
  ⟨start_placed contentLength, fun _ => rfl⟩

/-- No turn answers a closing while the writer has not closed. -/
theorem Unanswered.turn (h : t.Unanswered) (hplaced : u.Placed) (hturn : Turn t u) :
    u.Unanswered := by
  refine ⟨hplaced, ?_⟩
  have hclosings := h.closings
  cases hturn with
  | ends f hready hopen => exact fun _ => hclosings hopen
  | closes answer hstage =>
      intro hopen
      have hclosed : t.outlet.closed = true := by
        rcases hstage with hdeparts | ⟨-, hclosed⟩
        · exact (h.ending .complete (by rw [hdeparts]; rfl)).2 rfl
        · exact hclosed
      rw [hclosed] at hopen
      cases hopen
  | _ => exact hclosings

/-- No closing answers in a run in which the writer does not close. -/
theorem run_unanswered (contentLength : Nat) (events : List OutletEvent) :
    ((start contentLength).run events).Unanswered :=
  run_keeps Unanswered (fun e h => h.turn (h.toPlaced.step e) (turn_step e))
    (start_unanswered contentLength) events

/-! ## While a closing is under way -/

/-- What a consumer in place is told of a closing that begins now. -/
def closingWord (t : OutletTraffic) : List (Signal Unit) :=
  if t.cancelled then [] else [.complete]

/-- A writer is about to close for the first time, and the subscription is through. -/
structure Closable (t : OutletTraffic) : Prop extends Voiced t where
  ready : t.ready = true
  opened : t.outlet.closed = false
  through : t.arrival = .settled
  unanswered : t.closings = []

/-- Once the subscription is through, a consumer that is not in place was let go. -/
theorem Closable.done_of_ne (h : t.Closable) (hdown : t.outlet.downstream ≠ .attached) :
    t.outlet.downstream = .done := by
  cases hplace : t.outlet.downstream with
  | waiting => exact absurd hplace (h.settled h.through)
  | attached => exact absurd hplace hdown
  | done => rfl

/-- A consumer that was let go before the writer has ended the stream had cancelled. -/
theorem Closable.cancelled_of_done (h : t.Closable) (hdone : t.outlet.downstream = .done) :
    t.cancelled = true := by
  rcases h.finished hdone with ⟨hcancelled, -⟩ | ⟨f, hended, -⟩
  · exact hcancelled
  · rw [h.unfinished_of_ready h.ready h.opened] at hended
    cases hended

/-- Where a closing that began at `t` has come to. -/
inductive Closing (t u : OutletTraffic) : Prop where
  /-- The end is put down, and nobody has been told. -/
  | puts (hstage : u.stage = .ending .complete t.cancelled) (hthrough : u.arrival = .settled)
      (hdown : u.outlet.downstream = t.outlet.downstream) (hsignals : u.signals = t.signals)
      (hclosings : u.closings = [])
  /-- The consumer was told unless it had cancelled, and was let go. -/
  | tells (hstage : u.stage = .departing .complete) (hthrough : u.arrival = .settled)
      (hdone : u.outlet.downstream = .done) (hsignals : u.signals = t.signals ++ t.closingWord)
      (hclosings : u.closings = [])
  /-- The closing has answered. -/
  | answered (hstage : u.stage = .idle) (hclosed : u.outlet.closed = true)
      (hclosings : u.closings ≠ [])

/-- A closing that begins has put its end down and not told of it yet. -/
theorem Closable.closing (h : t.Closable) : Closing t (t.step .close) := by
  have hstep : t.step .close = { t with outlet := t.outlet.shut.1 }.endStep .complete := by
    simp only [step, h.ready, h.opened]
    rfl
  rw [hstep]
  exact .puts rfl h.through rfl rfl h.unanswered

/-- A writer in the middle of a closing is in no other call. -/
theorem not_ready (hbusy : u.stage ≠ .idle) : ¬u.ready = true :=
  fun hready => hbusy (ready_iff.mp hready).2

/-- A closing goes on, one step at a time: the consumer is told, then it answers. -/
theorem Closing.turn (h : t.Closable) (hclosing : Closing t u) (hplaced : u.Placed)
    (hturn : Turn u u') : Closing t u' := by
  cases hclosing with
  | puts hstage hthrough hdown hsignals hclosings =>
      have hbusy : ¬u.ready = true := not_ready (by simp [hstage])
      cases hturn with
      | stays => exact .puts hstage hthrough hdown hsignals hclosings
      | controls ledger grants => exact .puts hstage hthrough hdown hsignals hclosings
      | dropsBody hunlocked => exact .puts hstage hthrough hdown hsignals hclosings
      | greets harrival => cases hthrough.symm.trans harrival
      | looks harrival => cases hthrough.symm.trans harrival
      | declines seen harrival => cases hthrough.symm.trans harrival
      | overtaken seen f harrival => cases hthrough.symm.trans harrival
      | attaches seen harrival => cases hthrough.symm.trans harrival
      | refuses item f hother => simp [hstage] at hother
      | takes item hready => exact absurd hready hbusy
      | hands item hother => simp [hstage] at hother
      | counts item hother => simp [hstage] at hother
      | ends f hready => exact absurd hready hbusy
      | closes answer hother => simp [hstage, hbusy] at hother
      | leaves hother => simp [hstage, hbusy] at hother
      | defers f silent hending hunlocked hnobody =>
          obtain ⟨rfl, rfl⟩ : Finish.complete = f ∧ t.cancelled = silent := by
            simpa [hstage] using hending
          rw [hdown] at hnobody
          have hdone := h.done_of_ne hnobody
          have hword : t.closingWord = [] := if_pos (h.cancelled_of_done hdone)
          exact .tells rfl hthrough (hdown.trans hdone)
            (by rw [hword, List.append_nil]; exact hsignals) hclosings
      | concludes f silent hending hunlocked hattached =>
          obtain ⟨rfl, rfl⟩ : Finish.complete = f ∧ t.cancelled = silent := by
            simpa [hstage] using hending
          refine .tells rfl hthrough rfl ?_ hclosings
          rw [signals_of_heard rfl, hsignals, closingWord]
          cases t.cancelled <;> rfl
  | tells hstage hthrough hdone hsignals hclosings =>
      have hbusy : ¬u.ready = true := not_ready (by simp [hstage])
      obtain ⟨hthrough', hdone', hsame⟩ := signals_turn_of_done hthrough hdone hturn
      have hkept := hsame.trans hsignals
      cases hturn with
      | refuses item f hother => simp [hstage] at hother
      | takes item hready => exact absurd hready hbusy
      | hands item hother => simp [hstage] at hother
      | counts item hother => simp [hstage] at hother
      | ends f hready => exact absurd hready hbusy
      | defers f silent hother => simp [hstage] at hother
      | concludes f silent hother => simp [hstage] at hother
      | leaves hother => simp [hstage, hbusy] at hother
      | closes answer hother =>
          have hclosed := (hplaced.ending .complete (by rw [hstage]; rfl)).2 rfl
          exact .answered rfl hclosed (by simp)
      | _ => exact .tells hstage hthrough' hdone' hkept hclosings
  | answered hstage hclosed hclosings =>
      cases hturn with
      | takes item hready hopen => simp [hclosed] at hopen
      | ends f hready hopen => simp [hclosed] at hopen
      | hands item hother => simp [hstage] at hother
      | counts item hother => simp [hstage] at hother
      | defers f silent hother => simp [hstage] at hother
      | concludes f silent hother => simp [hstage] at hother
      | refuses item f hother => exact .answered rfl hclosed hclosings
      | closes answer hother => exact .answered rfl hclosed (by simp)
      | leaves hother => exact .answered rfl hclosed hclosings
      | _ => exact .answered hstage hclosed hclosings

/-- A closing that has begun goes through its stations in every run. -/
theorem Closing.run (h : t.Closable) (hclosing : Closing t u) (hplaced : u.Placed)
    (events : List OutletEvent) : Closing t (u.run events) ∧ (u.run events).Placed := by
  induction events generalizing u with
  | nil => exact ⟨hclosing, hplaced⟩
  | cons e events ih => exact ih (hclosing.turn h hplaced (turn_step e)) (hplaced.step e)

/-- A closing that has told the consumer answers next, as the ledger is then. -/
theorem answer_of_departing (hstage : u.stage = .departing .complete) :
    u.step .proceed = { u with
      stage := .idle
      closings := u.closings ++
        [if u.cancelled then .error (.condition .cancelled) else .ok ()] } := by
  simp only [step, proceedStep, hstage]
  rfl

/-- What the consumer hears of the first closing, and what the closing answers, when the
subscription was through before.  Let `u` be the moment at which it is about to answer, and
`v` the next one:

- a closing that has not answered yet does so after going on twice;
- the consumer is told the completion during the call exactly if it had not cancelled before,
  and no signal follows;
- the answer is that the consumer has cancelled exactly if it has done so by `u`;
- so a closing during which nobody cancels succeeds exactly if the completion was told, and
  reports a cancellation exactly if it is told neither then nor later;
- a consumer that cancels during the call has been told the completion all the same.
-/
theorem run_answers_closing (contentLength : Nat) (events during : List OutletEvent)
    (hready : ((start contentLength).run events).ready = true)
    (hopen : ((start contentLength).run events).outlet.closed = false)
    (hthrough : ((start contentLength).run events).arrival = .settled) :
    let t := (start contentLength).run events
    let u := (t.step .close).run during
    let v := u.step .proceed
    t.closings = [] ∧
    (u.closings = [] → (u.run [.proceed, .proceed]).closings ≠ []) ∧
    (u.stage = .departing .complete →
      (v.signals = t.signals ++ if t.cancelled then [] else [.complete]) ∧
      (∀ later, (v.run later).signals = v.signals) ∧
      (v.closings = [if u.cancelled then .error (.condition .cancelled) else .ok ()]) ∧
      (u.cancelled = t.cancelled →
        (v.closings = [.ok ()] ↔ v.signals = t.signals ++ [.complete]) ∧
        (v.closings = [.error (.condition .cancelled)] ↔
          ∀ later, (v.run later).signals = t.signals)) ∧
      (t.cancelled = false → u.cancelled = true →
        v.signals = t.signals ++ [.complete] ∧
          v.closings = [.error (.condition .cancelled)])) := by
  intro t u v
  have hclosable : t.Closable := ⟨run_voiced contentLength events, hready, hopen, hthrough,
    (run_unanswered contentLength events).closings hopen⟩
  obtain ⟨hclosing, hplaced⟩ :=
    hclosable.closing.run hclosable (hclosable.toPlaced.step .close) during
  refine ⟨hclosable.unanswered, fun hnone => ?_, fun hdeparts => ?_⟩
  · have hsettled : u.arrival = .settled := by
      cases hclosing with
      | puts hstage hsettled => exact hsettled
      | tells hstage hsettled => exact hsettled
      | answered hstage hclosed hclosings => exact absurd hnone hclosings
    have hidle := run_proceeds hsettled
    cases (hclosing.run hclosable hplaced [.proceed, .proceed]).1 with
    | puts hstage => cases hidle.symm.trans hstage
    | tells hstage => cases hidle.symm.trans hstage
    | answered hstage hclosed hclosings => exact hclosings
  · have hv : v = { u with
        stage := .idle
        closings := u.closings ++
          [if u.cancelled then .error (.condition .cancelled) else .ok ()] } :=
      answer_of_departing hdeparts
    obtain ⟨hsettled, hdone, hsignals, hclosings⟩ : u.arrival = .settled ∧
        u.outlet.downstream = .done ∧ u.signals = t.signals ++ t.closingWord ∧
          u.closings = [] := by
      cases hclosing with
      | puts hstage => cases hdeparts.symm.trans hstage
      | tells hstage hsettled hdone hsignals hclosings =>
          exact ⟨hsettled, hdone, hsignals, hclosings⟩
      | answered hstage => cases hdeparts.symm.trans hstage
    have hheard : v.signals = t.signals ++ t.closingWord := by
      rw [hv]
      exact hsignals
    have hgone : v.arrival = .settled ∧ v.outlet.downstream = .done := by
      rw [hv]
      exact ⟨hsettled, hdone⟩
    have hlater : ∀ later, (v.run later).signals = v.signals := run_silent hgone.1 hgone.2
    have hanswer : v.closings =
        [if u.cancelled then .error (.condition .cancelled) else .ok ()] := by
      rw [hv, hclosings]
      rfl
    refine ⟨hheard, hlater, hanswer, fun hsame => ?_, fun hbefore hafter => ?_⟩
    · rw [hanswer, hsame]
      simp only [hlater, hheard, closingWord]
      cases t.cancelled <;> simp
    · rw [hheard, hanswer, closingWord, hbefore, hafter]
      exact ⟨rfl, rfl⟩

/-- A closing that succeeds, and one that begins after a cancellation. -/
theorem closings_answer_truly :
    let t := (start 1).run [.subscribe, .request 0 1, .arrive, .arrive]
    let u := (t.step .close).run [.proceed]
    let t' := t.step .cancel
    let u' := (t'.step .close).run [.proceed]
    (u.step .proceed).closings = [.ok ()] ∧
      (u.step .proceed).signals = t.signals ++ [.complete] ∧
      (u'.step .proceed).closings = [.error (.condition .cancelled)] ∧
      ∀ later, ((u'.step .proceed).run later).signals = t'.signals := by
  intro t u t' u'
  obtain ⟨-, -, htold⟩ := run_answers_closing 1
    [.subscribe, .request 0 1, .arrive, .arrive] [.proceed] rfl rfl rfl
  obtain ⟨hsignals, -, hanswer, -, -⟩ := htold rfl
  obtain ⟨-, -, hsilent⟩ := run_answers_closing 1
    [.subscribe, .request 0 1, .arrive, .arrive, .cancel] [.proceed] rfl rfl rfl
  obtain ⟨-, -, hrefused, htruth, -⟩ := hsilent rfl
  exact ⟨hanswer, hsignals, hrefused, (htruth rfl).2.mp hrefused⟩

/-- A consumer that cancels from inside the call in which it is told the completion: it has
heard the completion, and the closing answers that it was cancelled. -/
theorem completion_told_though_cancelled :
    let t := (start 0).run [.subscribe, .arrive, .arrive]
    let v := t.run [.close, .proceed, .cancel, .proceed]
    t.ready = true ∧ t.arrival = .settled ∧ t.outlet.downstream = .attached ∧
      t.signals = [.subscribed ()] ∧ v.signals = [.subscribed (), .complete] ∧
      v.closings = [.error (.condition .cancelled)] := by
  exact ⟨rfl, rfl, rfl, rfl, rfl, rfl⟩

end OutletTraffic
end CreditFlow
