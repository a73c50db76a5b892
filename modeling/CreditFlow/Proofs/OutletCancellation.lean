import CreditFlow.Proofs.OutletSignals

/-!
# Cancelling an outlet

A consumer may cancel at any time, also from inside a call that it receives.  A call of the
other side that has looked at the ledger before does not learn of it, and may still signal
once: a push hands over the item for which it has taken credit, a writer or a subscription
tells of the end that it has found.  The signals that calls under way may still give are
*pledged*.  A cancellation keeps any further signal from being pledged, and of what is pledged
one at most is given.

Main results:

- {lit}`OutletTraffic.hushed_turn`: after a cancellation nothing is pledged any more.
- {lit}`OutletTraffic.run_hushed`: at most one signal follows, and it was pledged.
- {lit}`OutletTraffic.run_heeds_cancellation`: what the consumer hears in any run, and after
  it has cancelled.
-/

namespace CreditFlow

/-! ## Signals on their way -/

/-- The signal of a call of the writer that has looked at the ledger. -/
def WriterStage.pledge : WriterStage → List (Signal Unit)
  | .holding item => [.next item]
  | .ending f false => [f.signal]
  | _ => []

/-- The signal of a subscription that has looked at the ledger. -/
def Arrival.pledge : Arrival → List (Signal Unit)
  | .looked seen => if seen.cancelled then [] else seen.finish.toList.map Finish.signal
  | _ => []

/-- Whether an event lets a call under way go on. -/
def OutletEvent.goesOn : OutletEvent → Bool
  | .arrive => true
  | .proceed => true
  | _ => false

namespace OutletTraffic

/-- The signals that calls under way may still give without another look at the ledger. -/
def pledged (t : OutletTraffic) : List (Signal Unit) :=
  if t.outlet.downstream = .done then [] else t.stage.pledge ++ t.arrival.pledge

/-- A call under way has looked at the ledger, and has not come to the downstream. -/
def between (t : OutletTraffic) : Bool :=
  (match t.stage with
    | .holding _ => true
    | .ending _ _ => true
    | _ => false) ||
  match t.arrival with
    | .looked _ => true
    | _ => false

/-- No call is interrupted between its look at the ledger and the downstream. -/
def Atomic : List OutletEvent → OutletTraffic → Prop
  | [], _ => True
  | e :: events, t => (t.between = true → e.goesOn = true) ∧ Atomic events (t.step e)

instance Atomic.decidable : (events : List OutletEvent) → (t : OutletTraffic) →
    Decidable (Atomic events t)
  | [], _ => .isTrue trivial
  | e :: events, t =>
      have := Atomic.decidable events (t.step e)
      inferInstanceAs (Decidable ((_ → _) ∧ _))

/-- The consumer has used its handle to cancel.  This has no effect when writer and body are
gone, but then there is nobody left who could signal. -/
structure Hushed (t : OutletTraffic) : Prop where
  greeted : t.hasHandle = true
  muted : t.cancelled = true ∨ t.alive = false

section Hushed

variable {t t' : OutletTraffic}

/-- Outside the calls that have looked at the ledger nothing is pledged. -/
theorem pledged_of_not_between (hwhole : t.between = false) : t.pledged = [] := by
  obtain ⟨hstage, harrival⟩ := Bool.or_eq_false_iff.mp hwhole
  have hwriter : t.stage.pledge = [] := by
    cases hs : t.stage <;> simp_all [WriterStage.pledge]
  have hsubscription : t.arrival.pledge = [] := by
    cases ha : t.arrival <;> simp_all [Arrival.pledge]
  simp [pledged, hwriter, hsubscription]

/-- As long as a consumer can be told, each call keeps its own pledge. -/
theorem pledged_of_open (hopen : t.outlet.downstream ≠ .done) :
    t.pledged = t.stage.pledge ++ t.arrival.pledge :=
  if_neg hopen

theorem pledged_of_done (hdone : t.outlet.downstream = .done) : t.pledged = [] :=
  if_pos hdone

/-- A subscription that locks nothing has nothing to tell. -/
theorem pledge_of_unlocked (hunlocked : t.unlocked = true) : t.arrival.pledge = [] := by
  cases harrival : t.arrival with
  | looked seen => simp [unlocked, harrival] at hunlocked
  | _ => rfl

/-- A writer that has no signal to give leaves what the subscription may give. -/
theorem pledged_subset (hdown : t'.outlet.downstream = t.outlet.downstream)
    (harrival : t'.arrival = t.arrival) (hstage : t'.stage.pledge = []) :
    t'.pledged ⊆ t.pledged := by
  rw [pledged, pledged, hdown, harrival, hstage]
  split
  · exact List.Subset.refl _
  · exact List.subset_append_right _ _

/-! ## Nothing more is pledged -/

/-- A consumer that cancels hushes the outlet. -/
theorem cancel_hushed (hhandle : t.hasHandle = true) : (t.step .cancel).Hushed := by
  have hstep : t.step .cancel = { t with outlet := (t.outlet.control .cancel).1 } := by
    simp only [step, hhandle, if_true]
  rw [hstep]
  refine ⟨hhandle, ?_⟩
  by_cases halive : (t.outlet.writerHeld || t.outlet.bodyHeld) = true
  · left
    simp [cancelled, Outlet.control, halive]
  · right
    simpa only [alive, Outlet.control, if_neg halive, Bool.not_eq_true] using halive

/-- Whoever has cancelled stays unheard. -/
theorem Hushed.turn (h : t.Hushed) (hturn : Turn t t') : t'.Hushed := by
  obtain ⟨hgreeted, hmuted⟩ := h
  cases hturn with
  | controls ledger grants hhandle hfinish hcancelled =>
      exact ⟨hgreeted, hmuted.imp_left hcancelled⟩
  | greets harrival hbody => exact ⟨rfl, hmuted⟩
  | looks harrival => exact ⟨rfl, hmuted⟩
  | declines seen harrival hcancelled => exact ⟨rfl, hmuted⟩
  | overtaken seen f harrival hlistening hfinish => exact ⟨rfl, hmuted⟩
  | attaches seen harrival hlistening hfinish => exact ⟨rfl, hmuted⟩
  | dropsBody hunlocked =>
      refine ⟨hgreeted, hmuted.imp_right fun hdead => ?_⟩
      have hboth := Bool.or_eq_false_iff.mp hdead
      exact Bool.or_eq_false_iff.mpr ⟨hboth.1, rfl⟩
  | leaves hstage =>
      refine ⟨hgreeted, hmuted.imp_right fun hdead => ?_⟩
      have hboth := Bool.or_eq_false_iff.mp hdead
      exact Bool.or_eq_false_iff.mpr ⟨rfl, hboth.2⟩
  | _ => exact ⟨hgreeted, hmuted⟩

/-- A writer that may begin a call has not been left alone, so the consumer has cancelled. -/
theorem Hushed.cancelled_of_ready (h : t.Hushed) (hready : t.ready = true) :
    t.cancelled = true := by
  refine h.muted.resolve_right fun hdead => ?_
  simp [alive, (ready_iff.mp hready).1] at hdead

/-- After a cancellation no signal is pledged any more, and when one is given none is left. -/
theorem hushed_turn (hagreed : t.Agreed) (h : t.Hushed) (hturn : Turn t t') :
    t'.signals = t.signals ∧ t'.pledged ⊆ t.pledged ∨
      ∃ s ∈ t.pledged, t'.signals = t.signals ++ [s] ∧ t'.pledged = [] := by
  cases hturn with
  | stays => exact .inl ⟨rfl, List.Subset.refl _⟩
  | controls ledger grants hhandle hfinish hcancelled => exact .inl ⟨rfl, List.Subset.refl _⟩
  | greets harrival hbody =>
      have hgreeted := h.greeted
      simp [hasHandle, harrival] at hgreeted
  | looks harrival =>
      have hcancelled : t.outlet.ledger.cancelled = true := by
        refine h.muted.resolve_right fun hdead => ?_
        have hunlocked := hagreed.kept (Bool.or_eq_false_iff.mp hdead).2
        simp [unlocked, harrival] at hunlocked
      have hnothing : (Arrival.looked t.outlet.ledger).pledge = t.arrival.pledge := by
        simp [Arrival.pledge, hcancelled, harrival]
      refine .inl ⟨rfl, ?_⟩
      simp only [pledged, hnothing]
      exact List.Subset.refl _
  | declines seen harrival hcancelled =>
      refine .inl ⟨?_, ?_⟩
      · rw [signals_of_heard rfl, Emission.hangUp_signals, List.append_nil]
      · rw [pledged_of_done rfl]
        exact List.nil_subset _
  | overtaken seen f harrival hlistening hfinish =>
      have hwaiting := hagreed.early (by simp [harrival])
      have hpledge : f.signal ∈ t.arrival.pledge := by
        simp [harrival, Arrival.pledge, hlistening, hfinish]
      refine .inr ⟨f.signal, ?_, ?_, pledged_of_done rfl⟩
      · rw [pledged_of_open (by simp [hwaiting])]
        exact List.mem_append_right _ hpledge
      · rw [signals_of_heard rfl, Outlet.farewell_signals]
  | attaches seen harrival hlistening hfinish =>
      have hwaiting := hagreed.early (by simp [harrival])
      refine .inl ⟨rfl, ?_⟩
      rw [pledged_of_open (by simp), pledged_of_open (by simp [hwaiting])]
      simp [Arrival.pledge]
  | dropsBody hunlocked => exact .inl ⟨rfl, List.Subset.refl _⟩
  | refuses item f hstage => exact .inl ⟨rfl, pledged_subset rfl rfl rfl⟩
  | takes item hready hopen hlistening =>
      have hcancelled := h.cancelled_of_ready hready
      rw [hlistening] at hcancelled
      cases hcancelled
  | hands item hstage hunlocked hattached =>
      refine .inr ⟨.next item, ?_, ?_, ?_⟩
      · rw [pledged_of_open (by simp [hattached]), hstage]
        exact List.mem_append_left _ (List.mem_singleton_self _)
      · rw [signals_of_heard rfl]
        rfl
      · rw [pledged_of_open (by simp [hattached]), pledge_of_unlocked hunlocked]
        rfl
  | counts item hstage => exact .inl ⟨rfl, pledged_subset rfl rfl rfl⟩
  | ends f hready hopen =>
      have hcancelled : t.outlet.ledger.cancelled = true := h.cancelled_of_ready hready
      refine .inl ⟨rfl, pledged_subset rfl rfl ?_⟩
      simp only [endStep, hcancelled]
      rfl
  | defers f silent hstage hunlocked hdown => exact .inl ⟨rfl, pledged_subset rfl rfl rfl⟩
  | concludes f silent hstage hunlocked hattached =>
      cases silent with
      | true =>
          refine .inl ⟨?_, ?_⟩
          · rw [signals_of_heard rfl, if_pos rfl, Emission.hangUp_signals, List.append_nil]
          · rw [pledged_of_done rfl]
            exact List.nil_subset _
      | false =>
          refine .inr ⟨f.signal, ?_, ?_, pledged_of_done rfl⟩
          · rw [pledged_of_open (by simp [hattached]), hstage]
            exact List.mem_append_left _ (List.mem_singleton_self _)
          · rw [signals_of_heard rfl, if_neg Bool.false_ne_true, Outlet.farewell_signals]
  | closes answer hstage => exact .inl ⟨rfl, pledged_subset rfl rfl rfl⟩
  | leaves hstage => exact .inl ⟨rfl, pledged_subset rfl rfl rfl⟩

/-- Whatever happens after a cancellation, at most one signal follows, and it was pledged. -/
theorem run_hushed (hvoiced : t.Voiced) (h : t.Hushed) (events : List OutletEvent) :
    (t.run events).Hushed ∧ ((t.run events).signals = t.signals ∨
      ∃ s ∈ t.pledged, (t.run events).signals = t.signals ++ [s]) := by
  induction events generalizing t with
  | nil => exact ⟨h, .inl rfl⟩
  | cons e events ih =>
      obtain ⟨hstays, hrun⟩ := ih (hvoiced.step e) (h.turn (turn_step e))
      refine ⟨hstays, ?_⟩
      rw [run_cons]
      rcases hushed_turn hvoiced.toAgreed h (turn_step e) with
        ⟨hsame, hsubset⟩ | ⟨s, hs, hsaid, hnone⟩
      · rw [hsame] at hrun
        exact hrun.imp_right fun ⟨s, hs, hsaid⟩ => ⟨s, hsubset hs, hsaid⟩
      · refine .inr ⟨s, hs, ?_⟩
        rcases hrun with hnothing | ⟨r, hr, -⟩
        · rw [hnothing, hsaid]
        · rw [hnone] at hr
          cases hr

/-- A push that begins after a cancellation fails, and delivers nothing. -/
theorem Hushed.push_refused (h : t.Hushed) (hready : t.ready = true) (item : Octets)
    (interrupted : Bool) :
    t.step (.push item interrupted) =
      t.answerPush item
        (.error (.condition (if t.outlet.closed then .closed else .cancelled))) := by
  have hcancelled : t.outlet.ledger.cancelled = true := h.cancelled_of_ready hready
  simp only [step, hready, if_true, pushStep]
  by_cases hclosed : t.outlet.closed = true
  · rw [if_pos hclosed, if_pos hclosed]
  · rw [if_neg hclosed, if_neg hclosed]
    simp [Ledger.take, hcancelled]

/-- In a run without interruptions nobody cancels while a call is under way to the
downstream. -/
theorem Atomic.not_between {events later : List OutletEvent}
    (hatomic : Atomic (events ++ .cancel :: later) t) : (t.run events).between = false := by
  induction events generalizing t with
  | nil =>
      by_contra hbetween
      have hgoes := hatomic.1 (by simpa using hbetween)
      cases hgoes
  | cons e events ih => exact ih hatomic.2

end Hushed

/-- However writer, subscription and consumer meet, the consumer is greeted once and first;
items follow, then at most one end, and nothing after it.  Once it has cancelled, at most one
signal follows, and only one that a call gives which had looked at the ledger before; none
does if no call is interrupted there.  A push that begins after a cancellation fails, and
delivers nothing. -/
theorem run_heeds_cancellation (contentLength : Nat) (events : List OutletEvent) :
    let t := (start contentLength).run events
    (t.signals = (if t.hasHandle then .subscribed () :: t.delivered.map .next ++ t.endings
        else []) ∧ t.endings.length ≤ 1) ∧
    (t.hasHandle = true → ∀ later,
      let after := (t.step .cancel).run later
      (after.signals = t.signals ∨ ∃ s ∈ t.pledged, after.signals = t.signals ++ [s]) ∧
      (Atomic (events ++ .cancel :: later) (start contentLength) → after.signals = t.signals) ∧
      (after.ready = true → ∀ item interrupted,
        after.step (.push item interrupted) = after.answerPush item
          (.error (.condition (if after.outlet.closed then .closed else .cancelled))))) := by
  intro t
  have h : t.Voiced := run_voiced contentLength events
  refine ⟨⟨?_, ?_⟩, fun hhandle later => ?_⟩
  · rw [h.spoken, greetings]
    by_cases hhandle : t.hasHandle = true
    · rw [if_pos hhandle, if_pos hhandle]
      rfl
    · have habsent : t.arrival = .absent := by simpa [hasHandle] using hhandle
      obtain ⟨hdelivered, hendings⟩ := h.unheard_of_arrival (by simp [habsent])
      rw [if_neg hhandle, if_neg hhandle, hdelivered, hendings]
      rfl
  · cases hdown : t.outlet.downstream with
    | waiting => simp [(h.unheard hdown).2]
    | attached => simp [h.unended hdown]
    | done =>
        rcases h.finished hdown with ⟨-, hendings⟩ | ⟨f, -, hendings⟩
        · simp [hendings]
        · simp [hendings]
  · intro after
    have hcancel : t.step .cancel = { t with outlet := (t.outlet.control .cancel).1 } := by
      simp only [step, hhandle, if_true]
    have hsignals : (t.step .cancel).signals = t.signals := by
      rw [hcancel]
      rfl
    have hpledged : (t.step .cancel).pledged = t.pledged := by
      obtain ⟨ledger, hcontrol, -, -⟩ := t.outlet.control_eq .cancel
      rw [hcancel, hcontrol]
      rfl
    obtain ⟨hhushed, hafter⟩ := run_hushed (h.step .cancel) (cancel_hushed hhandle) later
    rw [hsignals, hpledged] at hafter
    refine ⟨hafter, fun hatomic => ?_, hhushed.push_refused⟩
    rcases hafter with hsame | ⟨s, hs, -⟩
    · exact hsame
    · rw [pledged_of_not_between hatomic.not_between] at hs
      cases hs

/-- A consumer cancels while an item is on its way to it, and from inside the call that hands
it an item. -/
theorem cancellation_is_heeded :
    let sent : List OutletEvent :=
      [.subscribe, .request 0 2, .arrive, .arrive, .push [7] false]
    let t := (start 4).run sent
    let late := (t.step .cancel).run [.request 0 3, .proceed, .proceed]
    let handed := t.step .proceed
    let later : List OutletEvent := [.proceed, .push [8] false, .close, .proceed, .proceed]
    t.pledged = [.next [7]] ∧ late.signals = t.signals ++ [.next [7]] ∧
      (late.step (.push [8] true)).signals = late.signals ∧
      late.step (.push [8] true) = late.answerPush [8] (.error (.condition .cancelled)) ∧
      ((handed.step .cancel).run later).signals = [.subscribed (), .next [7]] := by
  intro sent t late handed later
  obtain ⟨-, hcancel⟩ := run_heeds_cancellation 4 sent
  obtain ⟨hlate, -, hrefused⟩ := hcancel (by decide) [.request 0 3, .proceed, .proceed]
  have hpush := hrefused (by decide) [8] true
  obtain ⟨-, hwhole, -⟩ := (run_heeds_cancellation 4 (sent ++ [.proceed])).2 (by decide) later
  have hmore : ¬late.signals = t.signals := by
    intro hsame
    have hlength := congrArg List.length hsame
    revert hlength
    decide
  refine ⟨rfl, ?_, ?_, hpush, hwhole (by decide)⟩
  · obtain ⟨s, hs, hsaid⟩ := hlate.resolve_left hmore
    have hone : s = .next [7] := List.mem_singleton.mp hs
    rwa [hone] at hsaid
  · rw [hpush]
    rfl

end OutletTraffic
end CreditFlow
