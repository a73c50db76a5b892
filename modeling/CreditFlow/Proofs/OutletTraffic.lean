import CreditFlow.Outlet
import Mathlib.Algebra.Ring.Nat
import Mathlib.Data.List.Basic
import Mathlib.Tactic.Common

/-!
# An outlet under traffic

A writer pushes into an outlet, a body is subscribed to, and any number of granters use
the consumer's handle, all at the same time and also from inside the calls that the
consumer receives.  What one of them does to the ledger, and what one of them does to the
downstream, is a step that nothing can interrupt; between two such steps of one call
anything may happen.  *Traffic* is an outlet together with the places where the calls
under way have come to, and with what has been granted, heard and answered so far.

A subscription keeps the downstream locked from its greeting until the consumer is in
place.  Whoever has to signal waits for that.

Main results:

- {lit}`OutletTraffic.run_sound`: no credit is made up, and none is lost while somebody can
  still use it.
- {lit}`OutletTraffic.run_cancelled`: a stream that was cancelled has no credit ever after.
- {lit}`OutletTraffic.run_pushing`: as many pushes go through as there is credit for.
-/

namespace CreditFlow

/-! ## Calls under way -/

/-- Where the writer stands in the call that it is making. -/
inductive WriterStage where
  /-- No call is under way. -/
  | idle
  /-- A push has taken its credit and has not handed its item over. -/
  | holding (item : Octets)
  /-- A push is handing its item over. -/
  | handing (item : Octets)
  /-- The end is put down, and nobody has been told.  `silent` means that the consumer had
  cancelled by then. -/
  | ending (f : Finish) (silent : Bool)
  /-- Whoever was to be told of the end is being told. -/
  | departing (f : Finish)
  deriving DecidableEq

/-- Where the subscription to the body stands. -/
inductive Arrival where
  | absent
  /-- The consumer is being greeted: it has its handle. -/
  | greeting
  /-- The ledger has been looked at. -/
  | looked (seen : Ledger)
  /-- The consumer is in place. -/
  | settled
  deriving DecidableEq

/-- One thing that happens at an outlet under traffic. -/
inductive OutletEvent where
  /-- Somebody grants `n` items through the consumer's handle. -/
  | request (granter : Nat) (n : Nat)
  /-- Somebody cancels through the consumer's handle. -/
  | cancel
  /-- A consumer subscribes to the body. -/
  | subscribe
  /-- The subscription goes on. -/
  | arrive
  /-- The body goes away, unused or used up. -/
  | dropBody
  /-- The writer sets about a push, or tries again after it had to wait.  `interrupted`
  tells whether the interrupt token was fired. -/
  | push (item : Octets) (interrupted : Bool)
  /-- The writer sets about closing. -/
  | close
  /-- The writer goes away. -/
  | leave
  /-- The call of the writer goes on. -/
  | proceed

/-- An outlet, the calls under way, and what has come of the calls so far. -/
structure OutletTraffic where
  outlet : Outlet
  stage : WriterStage := .idle
  arrival : Arrival := .absent
  /-- What was granted and by whom, in order. -/
  grants : List (Nat × Nat) := []
  /-- What the consumer has heard, in order. -/
  heard : List Emission := []
  /-- What the pushes have answered, in order. -/
  pushes : List (Octets × Except Failure Unit) := []
  /-- What the closings have answered, in order. -/
  closings : List (Except Failure Unit) := []

/-- The item that is handed over by an emission, if any. -/
def Emission.item? : Emission → Option Octets
  | .signal (.next item) => some item
  | _ => none

namespace OutletTraffic

/-- Nothing has happened yet. -/
def start (contentLength : Nat) : OutletTraffic :=
  { outlet := { contentLength := contentLength } }

/-- Somebody has the consumer's handle. -/
def hasHandle (t : OutletTraffic) : Bool :=
  t.arrival ≠ .absent

/-- Nobody keeps the downstream locked. -/
def unlocked (t : OutletTraffic) : Bool :=
  t.arrival = .absent || t.arrival = .settled

/-- The writer exists and no call of its own is under way. -/
def ready (t : OutletTraffic) : Bool :=
  t.outlet.writerHeld && t.stage = .idle

/-- A push answers. -/
def answerPush (item : Octets) (answer : Except Failure Unit) (t : OutletTraffic) :
    OutletTraffic :=
  { t with stage := .idle, pushes := t.pushes ++ [(item, answer)] }

/-- The subscription goes on. -/
def arriveStep (t : OutletTraffic) : OutletTraffic :=
  match t.arrival with
  | .greeting => { t with arrival := .looked t.outlet.ledger }
  | .looked seen =>
      { t with
        outlet := (t.outlet.attach seen).1
        arrival := .settled
        heard := t.heard ++ (t.outlet.attach seen).2.2 }
  | _ => t

/-- The writer sets about a push. -/
def pushStep (item : Octets) (interrupted : Bool) (t : OutletTraffic) : OutletTraffic :=
  if t.outlet.closed then t.answerPush item (.error (.condition .closed))
  else
    match t.outlet.ledger.take interrupted with
    | none => t
    | some (.error f) => t.answerPush item (.error f)
    | some (.ok ledger) =>
        { t with outlet := { t.outlet with ledger := ledger }, stage := .holding item }

/-- The end is put down. -/
def endStep (f : Finish) (t : OutletTraffic) : OutletTraffic :=
  { t with
    outlet := t.outlet.putDown f
    stage := .ending f t.outlet.ledger.cancelled }

/-- The call of the writer goes on. -/
def proceedStep (t : OutletTraffic) : OutletTraffic :=
  match t.stage with
  | .idle => t
  | .holding item =>
      if t.unlocked then
        match t.outlet.deliver item with
        | none => t.answerPush item (.error (.condition .cancelled))
        | some out => { t with stage := .handing item, heard := t.heard ++ out }
      else t
  | .handing item =>
      { t with outlet := (t.outlet.counted item.length).1 }.answerPush item (.ok ())
  | .ending f silent =>
      if t.unlocked then
        { t with
          outlet := (t.outlet.conclude f silent).1
          stage := .departing f
          heard := t.heard ++ (t.outlet.conclude f silent).2.2 }
      else t
  | .departing .complete =>
      { t with
        stage := .idle
        closings := t.closings ++
          [if t.outlet.ledger.cancelled then .error (.condition .cancelled) else .ok ()] }
  | .departing .abandoned => { t with outlet := t.outlet.dropWriter, stage := .idle }

/-- What an event does.  What cannot happen at the moment does nothing. -/
def step (t : OutletTraffic) : OutletEvent → OutletTraffic
  | .request granter n =>
      if t.hasHandle then
        { t with
          outlet := (t.outlet.control (.request n)).1
          grants := t.grants ++ [(granter, n)] }
      else t
  | .cancel => if t.hasHandle then { t with outlet := (t.outlet.control .cancel).1 } else t
  | .subscribe =>
      if t.arrival = .absent ∧ t.outlet.bodyHeld = true then
        { t with
          outlet := t.outlet.greet.1
          arrival := .greeting
          heard := t.heard ++ t.outlet.greet.2.2 }
      else t
  | .arrive => t.arriveStep
  | .dropBody => if t.unlocked then { t with outlet := t.outlet.dropBody } else t
  | .push item interrupted => if t.ready then t.pushStep item interrupted else t
  | .close =>
      if t.ready then
        if t.outlet.closed then { t with closings := t.closings ++ [.ok ()] }
        else { t with outlet := t.outlet.shut.1 }.endStep .complete
      else t
  | .leave =>
      if t.ready then
        if t.outlet.closed then { t with outlet := t.outlet.dropWriter }
        else t.endStep .abandoned
      else t
  | .proceed => t.proceedStep

/-- What a list of events comes to. -/
def run (events : List OutletEvent) (t : OutletTraffic) : OutletTraffic :=
  events.foldl step t

/-- The items that were handed to the consumer, in order. -/
def delivered (t : OutletTraffic) : List Octets :=
  t.heard.filterMap Emission.item?

/-- How many pushes have taken credit that they have not spent. -/
def inHand (t : OutletTraffic) : Nat :=
  match t.stage with
  | .holding _ => 1
  | _ => 0

/-- The credit that was granted and has not been taken. -/
def demand (t : OutletTraffic) : Nat :=
  t.outlet.ledger.demand.items

/-- All that was ever granted. -/
def granted (t : OutletTraffic) : Nat :=
  (t.grants.map Prod.snd).sum

/-- Someone keeps the outlet alive. -/
def alive (t : OutletTraffic) : Bool :=
  t.outlet.writerHeld || t.outlet.bodyHeld

/-- The consumer has cancelled. -/
def cancelled (t : OutletTraffic) : Bool :=
  t.outlet.ledger.cancelled

@[simp]
theorem run_nil (t : OutletTraffic) : t.run [] = t := rfl

theorem run_cons (e : OutletEvent) (events : List OutletEvent) (t : OutletTraffic) :
    t.run (e :: events) = (t.step e).run events := rfl

theorem run_append (first second : List OutletEvent) (t : OutletTraffic) :
    t.run (first ++ second) = (t.run first).run second :=
  List.foldl_append

/-- What every event keeps is kept by every run. -/
theorem run_keeps (holds : OutletTraffic → Prop)
    (hstep : ∀ {t : OutletTraffic} (e : OutletEvent), holds t → holds (t.step e))
    {t : OutletTraffic} (ht : holds t) (events : List OutletEvent) : holds (t.run events) := by
  induction events generalizing t with
  | nil => exact ht
  | cons e events ih => exact ih (hstep e ht)

/-! ## Where calls and parts may be -/

end OutletTraffic

/-- Whether a stage belongs to a push. -/
def WriterStage.isPush : WriterStage → Bool
  | .holding _ => true
  | .handing _ => true
  | _ => false

/-- The end that a stage belongs to, if any. -/
def WriterStage.finish? : WriterStage → Option Finish
  | .ending f _ => some f
  | .departing f => some f
  | _ => none

namespace OutletTraffic

/-- The downstream, the ledger and the calls under way agree. -/
structure Placed (t : OutletTraffic) : Prop where
  /-- After a subscription nobody waits for a consumer. -/
  settled : t.arrival = .settled → t.outlet.downstream ≠ .waiting
  /-- What was looked at is not taken back. -/
  looked : ∀ seen, t.arrival = .looked seen →
    (seen.cancelled = true → t.cancelled = true) ∧
      (seen.finish ≠ none → t.outlet.ledger.finish ≠ none)
  /-- A consumer is let go only after a cancellation or an end. -/
  done : t.outlet.downstream = .done → t.cancelled = true ∨ t.outlet.ledger.finish ≠ none
  /-- Only a writer that has not closed pushes. -/
  pushing : t.stage.isPush = true → t.outlet.writerHeld = true ∧ t.outlet.closed = false
  /-- Only an end of the writer's own puts an end down. -/
  unfinished : t.outlet.writerHeld = true → t.outlet.closed = false → t.stage.finish? = none →
    t.outlet.ledger.finish = none
  /-- The end that is being signalled is the one that was put down. -/
  ending : ∀ f, t.stage.finish? = some f →
    t.outlet.ledger.finish = some f ∧ (f = .complete → t.outlet.closed = true)

theorem start_placed (contentLength : Nat) : (start contentLength).Placed := by
  constructor <;> simp [start, WriterStage.isPush, WriterStage.finish?]

section Placed

variable {t : OutletTraffic}

/-- A writer is ready when it exists and makes no call. -/
theorem ready_iff : t.ready = true ↔ t.outlet.writerHeld = true ∧ t.stage = .idle := by
  simp [ready]

/-- The ledger may change as long as cancellations and ends stay. -/
theorem Placed.of_ledger (h : t.Placed) {ledger : Ledger} {stage : WriterStage}
    (hcancelled : t.cancelled = true → ledger.cancelled = true)
    (hfinish : ledger.finish = t.outlet.ledger.finish)
    (hpushing : stage.isPush = true → t.outlet.writerHeld = true ∧ t.outlet.closed = false)
    (hstage : stage.finish? = t.stage.finish?) :
    { t with outlet := { t.outlet with ledger := ledger }, stage := stage }.Placed := by
  refine ⟨h.settled, ?_, ?_, hpushing, ?_, ?_⟩
  · intro seen harrival
    rcases h.looked seen harrival with ⟨hseen, hend⟩
    exact ⟨fun hc => hcancelled (hseen hc), by rw [hfinish]; exact hend⟩
  · intro hdone
    change ledger.cancelled = true ∨ ledger.finish ≠ none
    rw [hfinish]
    exact (h.done hdone).imp_left hcancelled
  · intro hheld hopen hnone
    change ledger.finish = none
    rw [hfinish]
    exact h.unfinished hheld hopen (hstage ▸ hnone)
  · intro f hf
    rw [hstage] at hf
    change ledger.finish = some f ∧ (f = .complete → t.outlet.closed = true)
    rw [hfinish]
    exact h.ending f hf

/-- A push may answer at any time. -/
theorem Placed.answerPush (h : t.Placed) (hidle : t.stage.finish? = none) (item : Octets)
    (answer : Except Failure Unit) : (t.answerPush item answer).Placed := by
  refine ⟨h.settled, h.looked, h.done, ?_, fun hheld hopen _ => h.unfinished hheld hopen hidle,
    ?_⟩
  · simp [OutletTraffic.answerPush, WriterStage.isPush]
  · simp [OutletTraffic.answerPush, WriterStage.finish?]

/-- A control leaves the calls under way in their places. -/
theorem Placed.control (h : t.Placed) (c : Control) (grants : List (Nat × Nat)) :
    { t with outlet := (t.outlet.control c).1, grants := grants }.Placed := by
  have hsame : { t with grants := grants }.Placed :=
    ⟨h.settled, h.looked, h.done, h.pushing, h.unfinished, h.ending⟩
  unfold Outlet.control
  by_cases halive : (t.outlet.writerHeld || t.outlet.bodyHeld) = true
  · rw [if_pos halive]
    cases c with
    | request n =>
        rcases Ledger.request_parts n t.outlet.ledger with ⟨hcancelled, hfinish⟩
        exact hsame.of_ledger (fun hc => hcancelled.trans hc) hfinish h.pushing rfl
    | cancel =>
        exact hsame.of_ledger (fun _ => Ledger.cancel_cancelled _) (Ledger.cancel_finish _)
          h.pushing rfl
    | release => exact hsame
  · rw [if_neg halive]
    exact hsame

/-- A subscription goes on. -/
theorem Placed.arriveStep (h : t.Placed) : t.arriveStep.Placed := by
  unfold OutletTraffic.arriveStep
  split
  · refine ⟨?_, ?_, h.done, h.pushing, h.unfinished, h.ending⟩
    · simp
    · rintro seen hseen
      cases hseen
      exact ⟨id, id⟩
  · rename_i seen hlooked
    rcases h.looked seen hlooked with ⟨hcancelled, hfinish⟩
    unfold Outlet.attach
    by_cases hc : seen.cancelled = true
    · rw [if_pos hc]
      refine ⟨?_, ?_, fun _ => .inl (hcancelled hc), h.pushing, h.unfinished, h.ending⟩
      · simp
      · simp
    · rw [if_neg hc]
      cases hf : seen.finish with
      | none =>
          refine ⟨?_, ?_, ?_, h.pushing, h.unfinished, h.ending⟩
          · simp
          · simp
          · simp
      | some f =>
          have hended : t.outlet.ledger.finish ≠ none := hfinish (by simp [hf])
          refine ⟨?_, ?_, fun _ => .inr hended, h.pushing, h.unfinished, h.ending⟩
          · simp
          · simp
  · exact h

/-- Putting an end down agrees with the call that does so. -/
theorem Placed.endStep (h : t.Placed) {f : Finish}
    (hclosed : f = .complete → t.outlet.closed = true) : (t.endStep f).Placed := by
  refine ⟨h.settled, ?_, ?_, ?_, ?_, ?_⟩
  · intro seen harrival
    exact ⟨(h.looked seen harrival).1, fun _ => by simp [OutletTraffic.endStep, Outlet.putDown]⟩
  · intro _
    exact .inr (by simp [OutletTraffic.endStep, Outlet.putDown])
  · simp [OutletTraffic.endStep, WriterStage.isPush]
  · simp [OutletTraffic.endStep, WriterStage.finish?]
  · intro g hg
    have hsame : f = g := by simpa [OutletTraffic.endStep, WriterStage.finish?] using hg
    exact ⟨by rw [← hsame]; rfl, fun hcomplete => hclosed (hsame.trans hcomplete)⟩

/-- Setting about a push agrees with the ledger and the downstream. -/
theorem Placed.pushStep (h : t.Placed) (hready : t.ready = true) (item : Octets)
    (interrupted : Bool) : (t.pushStep item interrupted).Placed := by
  rcases ready_iff.mp hready with ⟨hheld, hidle⟩
  have hnone : t.stage.finish? = none := by rw [hidle]; rfl
  unfold OutletTraffic.pushStep
  by_cases hclosed : t.outlet.closed = true
  · rw [if_pos hclosed]
    exact h.answerPush hnone item _
  · rw [if_neg hclosed]
    split
    · exact h
    · exact h.answerPush hnone item _
    · rename_i ledger htake
      rcases Ledger.take_items htake with ⟨-, -, hledger⟩
      refine h.of_ledger ?_ ?_ (fun _ => ⟨hheld, by simpa using hclosed⟩) (by rw [hidle]; rfl)
      · rw [hledger]
        exact id
      · rw [hledger]

/-- Delivering an end takes place downstream. -/
theorem conclude_ledger (f : Finish) (silent : Bool) (o : Outlet) :
    (o.conclude f silent).1.ledger = o.ledger ∧ (o.conclude f silent).1.closed = o.closed ∧
      ((o.conclude f silent).1.downstream = .waiting → o.downstream = .waiting) := by
  unfold Outlet.conclude
  cases hd : o.downstream with
  | waiting => exact ⟨rfl, rfl, fun _ => rfl⟩
  | attached => exact ⟨rfl, rfl, fun hw => by cases hw⟩
  | done => exact ⟨rfl, rfl, fun hw => by rw [hd] at hw; exact hw⟩

/-- A call of the writer goes on. -/
theorem Placed.proceedStep (h : t.Placed) : t.proceedStep.Placed := by
  unfold OutletTraffic.proceedStep
  split
  · exact h
  · rename_i item hstage
    have hnone : t.stage.finish? = none := by rw [hstage]; rfl
    have hwriting := h.pushing (by rw [hstage]; rfl)
    split
    · split
      · exact h.answerPush hnone item _
      · refine ⟨h.settled, h.looked, h.done, fun _ => hwriting,
          fun hheld hopen _ => h.unfinished hheld hopen hnone, ?_⟩
        simp [WriterStage.finish?]
    · exact h
  · rename_i item hstage
    have hnone : t.stage.finish? = none := by rw [hstage]; rfl
    have hcounted : { t with outlet := (t.outlet.counted item.length).1 }.Placed :=
      ⟨h.settled, h.looked, h.done, h.pushing, h.unfinished, h.ending⟩
    exact hcounted.answerPush hnone item _
  · rename_i f silent hstage
    have hnone : ∀ f', t.stage.finish? = some f' ↔ f = f' := by simp [hstage, WriterStage.finish?]
    rcases h.ending f ((hnone f).mpr rfl) with ⟨hended, hclosed⟩
    split
    · rcases conclude_ledger f silent t.outlet with ⟨hledger, hkept, hwaiting⟩
      refine ⟨fun hsettled hw => h.settled hsettled (hwaiting hw), ?_, fun _ => .inr ?_, ?_, ?_, ?_⟩
      · intro seen harrival
        rcases h.looked seen harrival with ⟨hseen, hend⟩
        simp only [OutletTraffic.cancelled, hledger]
        exact ⟨hseen, hend⟩
      · simp [hledger, hended]
      · simp [WriterStage.isPush]
      · simp [WriterStage.finish?]
      · intro g hg
        cases hg
        simp only [hledger, hkept]
        exact ⟨hended, hclosed⟩
    · exact h
  · rename_i hstage
    rcases h.ending .complete (by rw [hstage]; rfl) with ⟨-, hcomplete⟩
    have hclosed := hcomplete rfl
    refine ⟨h.settled, h.looked, h.done, ?_, ?_, ?_⟩
    · simp [WriterStage.isPush]
    · intro _ hopen
      rw [hclosed] at hopen
      cases hopen
    · simp [WriterStage.finish?]
  · refine ⟨h.settled, h.looked, h.done, ?_, ?_, ?_⟩
    · simp [WriterStage.isPush]
    · simp [Outlet.dropWriter]
    · simp [WriterStage.finish?]

/-- Every event keeps parts and calls where they may be. -/
theorem Placed.step (h : t.Placed) (e : OutletEvent) : (t.step e).Placed := by
  cases e with
  | request granter n =>
      simp only [OutletTraffic.step]
      split
      · exact h.control (.request n) _
      · exact h
  | cancel =>
      simp only [OutletTraffic.step]
      split
      · exact h.control .cancel t.grants
      · exact h
  | subscribe =>
      simp only [OutletTraffic.step]
      split
      · refine ⟨?_, ?_, h.done, h.pushing, h.unfinished, h.ending⟩
        · simp
        · simp
      · exact h
  | arrive => exact h.arriveStep
  | dropBody =>
      simp only [OutletTraffic.step]
      split
      · exact ⟨h.settled, h.looked, h.done, h.pushing, h.unfinished, h.ending⟩
      · exact h
  | push item interrupted =>
      simp only [OutletTraffic.step]
      split
      · rename_i hready
        exact h.pushStep hready item interrupted
      · exact h
  | close =>
      simp only [OutletTraffic.step]
      split
      · split
        · exact ⟨h.settled, h.looked, h.done, h.pushing, h.unfinished, h.ending⟩
        · rename_i hready hopen
          rcases ready_iff.mp hready with ⟨-, hidle⟩
          have hshut : { t with outlet := t.outlet.shut.1 }.Placed := by
            refine ⟨h.settled, h.looked, h.done, ?_, ?_, ?_⟩
            · simp [hidle, WriterStage.isPush]
            · simp [Outlet.shut]
            · simp [hidle, WriterStage.finish?]
          exact hshut.endStep fun _ => rfl
      · exact h
  | leave =>
      simp only [OutletTraffic.step]
      split
      · split
        · rename_i hready hclosed
          rcases ready_iff.mp hready with ⟨-, hidle⟩
          refine ⟨h.settled, h.looked, h.done, ?_, ?_, h.ending⟩
          · simp [hidle, WriterStage.isPush]
          · simp [Outlet.dropWriter]
        · exact h.endStep fun hcomplete => by cases hcomplete
      · exact h
  | proceed => exact h.proceedStep

end Placed

/-! ## Where the credit is -/

/-- The credit that was spent, that is held, and that can still be taken. -/
def balance (t : OutletTraffic) : Nat :=
  t.delivered.length + t.inHand + t.demand

/-- What holds of traffic at any time: no credit is made up, and none is lost as long as
somebody can still use it. -/
structure Sound (t : OutletTraffic) : Prop extends Placed t where
  spent : t.balance ≤ t.granted
  kept : t.alive = true → t.cancelled = false → t.granted ≤ Demand.ceiling →
    t.balance = t.granted
  /-- A cancelled stream has no credit. -/
  muted : t.cancelled = true → t.demand = 0
  /-- Nobody grants anything without a handle. -/
  untouched : t.hasHandle = false → t.granted = 0

theorem start_sound (contentLength : Nat) : (start contentLength).Sound := by
  refine ⟨start_placed contentLength, ?_, ?_, ?_, ?_⟩
  · exact Nat.le_refl 0
  · exact fun _ _ _ => rfl
  · exact fun _ => rfl
  · exact fun _ => rfl

section Sound

variable {t t' : OutletTraffic}

/-- Credit may move from one place to another. -/
theorem Sound.of_balance (h : t.Sound) (hplaced : t'.Placed) (hbalance : t'.balance = t.balance)
    (hgranted : t'.grants = t.grants) (hcancelled : t'.cancelled = t.cancelled)
    (hdemand : t'.demand ≤ t.demand) (halive : t'.alive = true → t.alive = true)
    (hhandle : t'.hasHandle = false → t.hasHandle = false) : t'.Sound := by
  have hsame : t'.granted = t.granted := by simp only [granted, hgranted]
  refine ⟨hplaced, ?_, ?_, ?_, ?_⟩
  · rw [hbalance, hsame]
    exact h.spent
  · intro hlive hopen hbelow
    rw [hcancelled] at hopen
    rw [hsame] at hbelow
    rw [hbalance, hsame]
    exact h.kept (halive hlive) hopen hbelow
  · intro hc
    rw [hcancelled] at hc
    have hzero := h.muted hc
    omega
  · intro hnone
    rw [hsame]
    exact h.untouched (hhandle hnone)

@[simp]
theorem delivered_heard (out : List Emission) (t : OutletTraffic) :
    { t with heard := t.heard ++ out }.delivered = t.delivered ++ out.filterMap Emission.item? :=
  List.filterMap_append

/-- An end brings no item. -/
theorem farewell_items (f : Finish) : (Outlet.farewell f).2.filterMap Emission.item? = [] := by
  cases f <;> rfl

/-- Being put in place brings no item. -/
theorem attach_items (seen : Ledger) (o : Outlet) :
    (o.attach seen).2.2.filterMap Emission.item? = [] := by
  unfold Outlet.attach
  split
  · rfl
  · split
    · exact farewell_items _
    · rfl

/-- Nor does an end. -/
theorem conclude_items (f : Finish) (silent : Bool) (o : Outlet) :
    (o.conclude f silent).2.2.filterMap Emission.item? = [] := by
  unfold Outlet.conclude
  split
  · rfl
  · split
    · rfl
    · exact farewell_items f
  · rfl

/-- A consumer that is put in place changes neither the ledger nor who holds the outlet. -/
theorem attach_parts (seen : Ledger) (o : Outlet) :
    (o.attach seen).1.ledger = o.ledger ∧ (o.attach seen).1.writerHeld = o.writerHeld ∧
      (o.attach seen).1.bodyHeld = o.bodyHeld := by
  unfold Outlet.attach
  split
  · exact ⟨rfl, rfl, rfl⟩
  · split <;> exact ⟨rfl, rfl, rfl⟩

theorem conclude_parts (f : Finish) (silent : Bool) (o : Outlet) :
    (o.conclude f silent).1.writerHeld = o.writerHeld ∧
      (o.conclude f silent).1.bodyHeld = o.bodyHeld := by
  unfold Outlet.conclude
  split <;> exact ⟨rfl, rfl⟩

/-- A grant reaches the counter of a stream that is alive and was not cancelled.  The counter
stops at its ceiling. -/
theorem request_demand (hhandle : t.hasHandle = true) (halive : t.alive = true)
    (hopen : t.cancelled = false) (granter n : Nat) :
    (t.step (.request granter n)).demand = min (t.demand + n) Demand.ceiling := by
  have hceiling := t.outlet.ledger.demand.le_ceiling
  have hlive : (t.outlet.writerHeld || t.outlet.bodyHeld) = true := halive
  have hlisten : t.outlet.ledger.cancelled = false := hopen
  simp only [step, hhandle, if_true, demand, Outlet.control, hlive, Ledger.request, hlisten]
  by_cases hn : n = 0
  · subst hn
    simp only [if_true, Nat.add_zero]
    omega
  · simp [hn]

/-- It has no effect on any other. -/
theorem request_demand_of_not (granter n : Nat) (hmuted : t.alive = false ∨ t.cancelled = true) :
    (t.step (.request granter n)).demand = t.demand := by
  simp only [step]
  split
  · rcases hmuted with hdead | hcancelled
    · have hlive : (t.outlet.writerHeld || t.outlet.bodyHeld) = false := hdead
      simp [demand, Outlet.control, hlive]
    · simp only [demand, Outlet.control]
      split
      · rw [Ledger.request_cancelled hcancelled]
      · rfl
  · rfl

/-- A control leaves everything but the ledger as it was, and takes no cancellation back. -/
theorem control_parts (c : Control) (o : Outlet) :
    (o.control c).1.writerHeld = o.writerHeld ∧ (o.control c).1.bodyHeld = o.bodyHeld ∧
      (o.ledger.cancelled = true → (o.control c).1.ledger.cancelled = true) := by
  rcases o.control_eq c with ⟨ledger, hcontrol, -, hcancelled⟩
  rw [hcontrol]
  exact ⟨rfl, rfl, hcancelled⟩

/-- A grant neither cancels nor takes a cancellation back. -/
theorem control_request_cancelled (n : Nat) (o : Outlet) :
    (o.control (.request n)).1.ledger.cancelled = o.ledger.cancelled := by
  unfold Outlet.control
  split
  · exact (Ledger.request_parts n o.ledger).1
  · rfl

/-- A grant is counted in full below the ceiling, and never more than in full. -/
theorem Sound.request (h : t.Sound) (granter n : Nat) : (t.step (.request granter n)).Sound := by
  by_cases hhandle : t.hasHandle = true
  · have hstep : t.step (.request granter n) = { t with
        outlet := (t.outlet.control (.request n)).1
        grants := t.grants ++ [(granter, n)] } := by
      simp only [OutletTraffic.step, hhandle, if_true]
    rcases control_parts (.request n) t.outlet with ⟨hwriter, hbody, -⟩
    have hgranted : (t.step (.request granter n)).granted = t.granted + n := by
      simp [hstep, granted]
    have hused : (t.step (.request granter n)).delivered.length +
        (t.step (.request granter n)).inHand = t.delivered.length + t.inHand := by
      rw [hstep]
      rfl
    have halive : (t.step (.request granter n)).alive = t.alive := by
      simp only [hstep, alive, hwriter, hbody]
    have hcancelled : (t.step (.request granter n)).cancelled = t.cancelled := by
      simp only [hstep, cancelled, control_request_cancelled]
    have hnever : (t.step (.request granter n)).hasHandle ≠ false := by
      rw [hstep]
      change t.hasHandle ≠ false
      simp [hhandle]
    have hspent := h.spent
    have hkept := h.kept
    have hmuted := h.muted
    simp only [balance] at hspent hkept
    by_cases heffect : t.alive = true ∧ t.cancelled = false
    · have hdemand := request_demand hhandle heffect.1 heffect.2 granter n
      refine ⟨h.toPlaced.step _, ?_, ?_, ?_, fun hnone => absurd hnone hnever⟩
      · simp only [balance]
        omega
      · intro _ _ hbelow
        have hbefore := hkept heffect.1 heffect.2 (by omega)
        simp only [balance]
        omega
      · intro hc
        rw [hcancelled, heffect.2] at hc
        cases hc
    · have hdemand := request_demand_of_not granter n (t := t) (by
        by_cases halive : t.alive = true
        · exact .inr (by simpa [halive] using heffect)
        · exact .inl (by simpa using halive))
      refine ⟨h.toPlaced.step _, ?_, ?_, ?_, fun hnone => absurd hnone hnever⟩
      · simp only [balance]
        omega
      · intro hlive hopen _
        rw [halive] at hlive
        rw [hcancelled] at hopen
        exact absurd ⟨hlive, hopen⟩ heffect
      · intro hc
        rw [hcancelled] at hc
        rw [hdemand]
        exact hmuted hc
  · have hkept : t.step (.request granter n) = t := by
      simp only [OutletTraffic.step, hhandle, if_false, Bool.false_eq_true]
    rwa [hkept]

/-- A cancellation takes all credit that was not taken. -/
theorem cancel_parts (hhandle : t.hasHandle = true) (halive : t.alive = true)
    (h : t.Sound) :
    (t.step .cancel).cancelled = true ∧ (t.step .cancel).demand = 0 := by
  have hlive : (t.outlet.writerHeld || t.outlet.bodyHeld) = true := halive
  simp only [step, hhandle, if_true, Outlet.control, hlive, cancelled, demand, Ledger.cancel]
  by_cases hc : t.outlet.ledger.cancelled = true
  · have hmuted := h.muted hc
    rw [if_pos hc]
    exact ⟨hc, hmuted⟩
  · rw [if_neg hc]
    exact ⟨rfl, rfl⟩

/-- A cancellation takes all credit away, and so makes none up. -/
theorem Sound.cancel (h : t.Sound) : (t.step .cancel).Sound := by
  by_cases heffect : t.hasHandle = true ∧ t.alive = true
  · rcases cancel_parts heffect.1 heffect.2 h with ⟨hcancelled, hdemand⟩
    have hstep : t.step .cancel = { t with outlet := (t.outlet.control .cancel).1 } := by
      simp only [OutletTraffic.step, heffect.1, if_true]
    have hused : (t.step .cancel).delivered.length + (t.step .cancel).inHand =
        t.delivered.length + t.inHand := by
      rw [hstep]
      rfl
    have hgranted : (t.step .cancel).granted = t.granted := by
      rw [hstep]
      rfl
    have hspent := h.spent
    refine ⟨h.toPlaced.step _, ?_, ?_, fun _ => hdemand, ?_⟩
    · simp only [balance] at hspent ⊢
      omega
    · intro _ hopen
      rw [hcancelled] at hopen
      cases hopen
    · intro hnone
      rw [hstep] at hnone
      have hsame : t.hasHandle = false := hnone
      simp [heffect.1] at hsame
  · have hkept : t.step .cancel = t := by
      simp only [OutletTraffic.step]
      by_cases hhandle : t.hasHandle = true
      · have hgone : t.alive = false := by simpa [hhandle] using heffect
        have hdead : (t.outlet.writerHeld || t.outlet.bodyHeld) = false := hgone
        simp only [hhandle, if_true, Outlet.control, hdead]
        rfl
      · rw [if_neg hhandle]
    rwa [hkept]

/-- A push moves one item of credit into the writer's hand, or moves nothing. -/
theorem Sound.push (h : t.Sound) (item : Octets) (interrupted : Bool) :
    (t.step (.push item interrupted)).Sound := by
  have hplaced := h.toPlaced.step (.push item interrupted)
  simp only [OutletTraffic.step] at hplaced ⊢
  by_cases hready : t.ready = true
  · rcases ready_iff.mp hready with ⟨-, hidle⟩
    have hnobody : t.inHand = 0 := by simp [inHand, hidle]
    have hanswered : ∀ answer, (t.answerPush item answer).Placed →
        (t.answerPush item answer).Sound := fun answer hanswer =>
      h.of_balance hanswer (by
        simp only [balance, hnobody]
        rfl) rfl rfl (Nat.le_refl _) id id
    rw [if_pos hready] at hplaced ⊢
    unfold pushStep at hplaced ⊢
    by_cases hclosed : t.outlet.closed = true
    · rw [if_pos hclosed] at hplaced ⊢
      exact hanswered _ hplaced
    · rw [if_neg hclosed] at hplaced ⊢
      cases htake : t.outlet.ledger.take interrupted with
      | none => exact h
      | some taken =>
          rw [htake] at hplaced
          cases taken with
          | error f => exact hanswered _ hplaced
          | ok ledger =>
              rcases Ledger.take_items htake with ⟨-, hitems, hledger⟩
              refine h.of_balance hplaced ?_ rfl ?_ ?_ id id
              · have hdemand : ledger.demand.items + 1 = t.demand := hitems
                change t.delivered.length + 1 + ledger.demand.items = t.balance
                simp only [balance, hnobody]
                omega
              · change ledger.cancelled = t.outlet.ledger.cancelled
                rw [hledger]
              · change ledger.demand.items ≤ t.outlet.ledger.demand.items
                omega
  · rw [if_neg hready]
    exact h

/-- A push that has taken its credit finds nobody attached only if the consumer has
cancelled. -/
theorem Sound.cancelled_of_unattached (h : t.Sound) {item : Octets}
    (hstage : t.stage = .holding item) (hunlocked : t.unlocked = true)
    (hnobody : t.outlet.downstream ≠ .attached) : t.cancelled = true := by
  have hspent := h.spent
  have hinHand : t.inHand = 1 := by simp [inHand, hstage]
  have hsettled : t.arrival = .settled := by
    -- Whoever holds credit was granted it, and so was greeted.
    rcases (by simpa [unlocked] using hunlocked : t.arrival = .absent ∨ _) with habsent | hs
    · have hnone := h.untouched (by simp [hasHandle, habsent])
      simp only [balance] at hspent
      omega
    · exact hs
  cases hdown : t.outlet.downstream with
  | waiting => exact absurd hdown (h.settled hsettled)
  | attached => exact absurd hdown hnobody
  | done =>
      rcases h.pushing (by rw [hstage]; rfl) with ⟨hheld, hopen⟩
      have hnone := h.unfinished hheld hopen (by rw [hstage]; rfl)
      exact (h.done hdown).resolve_right fun hended => hended hnone

/-- An item that is handed over spends what was held.  Nobody to hand it to means that the
consumer has cancelled. -/
theorem Sound.proceed_holding (h : t.Sound) {item : Octets} (hstage : t.stage = .holding item) :
    (t.step .proceed).Sound := by
  have hplaced := h.toPlaced.step .proceed
  have hunattached := h.cancelled_of_unattached hstage
  simp only [OutletTraffic.step, proceedStep, hstage] at hplaced ⊢
  have hinHand : t.inHand = 1 := by simp [inHand, hstage]
  have hspent := h.spent
  by_cases hunlocked : t.unlocked = true
  · simp only [hunlocked, if_true] at hplaced ⊢
    have hrefused : t.outlet.downstream ≠ .attached →
        (t.answerPush item (.error (.condition .cancelled))).Placed →
          (t.answerPush item (.error (.condition .cancelled))).Sound := by
      intro hnobody hanswered
      have hcancelled := hunattached hunlocked hnobody
      refine ⟨hanswered, ?_, ?_, h.muted, h.untouched⟩
      · simp only [balance, hinHand] at hspent
        change t.delivered.length + 0 + t.demand ≤ t.granted
        omega
      · intro _ hopen
        have hsame : t.cancelled = false := hopen
        rw [hcancelled] at hsame
        cases hsame
    cases hdown : t.outlet.downstream with
    | waiting =>
        simp only [Outlet.deliver, hdown] at hplaced ⊢
        exact hrefused (by simp [hdown]) hplaced
    | attached =>
        simp only [Outlet.deliver, hdown] at hplaced ⊢
        refine h.of_balance hplaced ?_ rfl rfl (Nat.le_refl _) id id
        have hone : t.delivered ++ [item] =
            t.delivered ++ [Emission.signal (.next item)].filterMap Emission.item? := rfl
        have hlength : (t.delivered ++ [item]).length + 0 + t.demand = t.balance := by
          simp only [balance, hinHand, List.length_append, List.length_singleton]
        rw [← hlength, hone, ← delivered_heard]
        rfl
    | done =>
        simp only [Outlet.deliver, hdown] at hplaced ⊢
        exact hrefused (by simp [hdown]) hplaced
  · simp only [hunlocked] at hplaced ⊢
    exact h

/-- The writer goes on with the call that it is making. -/
theorem Sound.proceed (h : t.Sound) : (t.step .proceed).Sound := by
  have hplaced := h.toPlaced.step .proceed
  simp only [OutletTraffic.step, proceedStep] at hplaced ⊢
  cases hstage : t.stage with
  | idle => exact h
  | holding item =>
      have hheld := h.proceed_holding hstage
      simpa only [OutletTraffic.step, proceedStep, hstage] using hheld
  | handing item =>
      rw [hstage] at hplaced
      refine h.of_balance hplaced ?_ rfl rfl (Nat.le_refl _) id id
      simp only [balance, inHand, hstage]
      rfl
  | ending f silent =>
      rw [hstage] at hplaced
      by_cases hunlocked : t.unlocked = true
      · simp only [hunlocked, if_true] at hplaced ⊢
        rcases conclude_ledger f silent t.outlet with ⟨hledger, -, -⟩
        rcases conclude_parts f silent t.outlet with ⟨hwriter, hbody⟩
        refine h.of_balance hplaced ?_ rfl ?_ ?_ ?_ id
        · simp only [balance, delivered, demand, inHand, hstage, hledger, List.filterMap_append,
            conclude_items, List.append_nil]
        · simp only [cancelled, hledger]
        · simp only [demand, hledger]
          exact Nat.le_refl _
        · simp only [alive, hwriter, hbody]
          exact id
      · simp only [hunlocked] at hplaced ⊢
        exact h
  | departing f =>
      rw [hstage] at hplaced
      cases f with
      | complete =>
          refine h.of_balance hplaced ?_ rfl rfl (Nat.le_refl _) id id
          simp only [balance, inHand, hstage]
          rfl
      | abandoned =>
          refine h.of_balance hplaced ?_ rfl rfl (Nat.le_refl _) ?_ id
          · simp only [balance, inHand, hstage]
            rfl
          · intro hbody
            have hheld : t.outlet.bodyHeld = true := hbody
            simp [alive, hheld]

/-- A subscription brings a handle, and neither credit nor an item. -/
theorem Sound.subscribe (h : t.Sound) : (t.step .subscribe).Sound := by
  have hplaced := h.toPlaced.step .subscribe
  simp only [OutletTraffic.step] at hplaced ⊢
  split at hplaced
  · rename_i hfresh
    rw [if_pos hfresh]
    refine h.of_balance hplaced ?_ rfl rfl (Nat.le_refl _) id fun hnone => ?_
    · have hitems : t.delivered = t.delivered ++ t.outlet.greet.2.2.filterMap Emission.item? := by
        simp [Outlet.greet, Emission.item?]
      simp only [balance]
      rw [hitems, ← delivered_heard]
      rfl
    · simp [hasHandle] at hnone
  · rename_i hfresh
    rw [if_neg hfresh]
    exact h

/-- A subscription that goes on touches no credit. -/
theorem Sound.arrive (h : t.Sound) : (t.step .arrive).Sound := by
  have hplaced := h.toPlaced.step .arrive
  simp only [OutletTraffic.step, arriveStep] at hplaced ⊢
  cases harrival : t.arrival with
  | absent => exact h
  | greeting =>
      rw [harrival] at hplaced
      refine h.of_balance hplaced rfl rfl rfl (Nat.le_refl _) id fun hnone => ?_
      simp [hasHandle] at hnone
  | looked seen =>
      rw [harrival] at hplaced
      rcases attach_parts seen t.outlet with ⟨hledger, hwriter, hbody⟩
      refine h.of_balance hplaced ?_ rfl ?_ ?_ ?_ fun hnone => ?_
      · simp only [balance, delivered, demand, inHand, hledger, List.filterMap_append,
          attach_items, List.append_nil]
      · simp only [cancelled, hledger]
      · simp only [demand, hledger]
        exact Nat.le_refl _
      · simp only [alive, hwriter, hbody]
        exact id
      · simp [hasHandle] at hnone
  | settled => exact h

theorem Sound.dropBody (h : t.Sound) : (t.step .dropBody).Sound := by
  have hplaced := h.toPlaced.step .dropBody
  simp only [OutletTraffic.step] at hplaced ⊢
  split at hplaced
  · rename_i hunlocked
    rw [if_pos hunlocked]
    refine h.of_balance hplaced rfl rfl rfl (Nat.le_refl _) (fun hlive => ?_) id
    have hheld : t.outlet.writerHeld = true := by simpa [alive, Outlet.dropBody] using hlive
    simp [alive, hheld]
  · rename_i hlocked
    rw [if_neg hlocked]
    exact h

/-- A closing that begins touches no credit. -/
theorem Sound.close (h : t.Sound) : (t.step .close).Sound := by
  have hplaced := h.toPlaced.step .close
  simp only [OutletTraffic.step] at hplaced ⊢
  by_cases hready : t.ready = true
  · rcases ready_iff.mp hready with ⟨-, hidle⟩
    rw [if_pos hready] at hplaced ⊢
    by_cases hclosed : t.outlet.closed = true
    · rw [if_pos hclosed] at hplaced ⊢
      exact h.of_balance hplaced rfl rfl rfl (Nat.le_refl _) id id
    · rw [if_neg hclosed] at hplaced ⊢
      refine h.of_balance hplaced ?_ rfl rfl (Nat.le_refl _) id id
      simp only [balance, inHand, hidle]
      rfl
  · rw [if_neg hready]
    exact h

theorem Sound.leave (h : t.Sound) : (t.step .leave).Sound := by
  have hplaced := h.toPlaced.step .leave
  simp only [OutletTraffic.step] at hplaced ⊢
  by_cases hready : t.ready = true
  · rcases ready_iff.mp hready with ⟨-, hidle⟩
    rw [if_pos hready] at hplaced ⊢
    by_cases hclosed : t.outlet.closed = true
    · rw [if_pos hclosed] at hplaced ⊢
      refine h.of_balance hplaced rfl rfl rfl (Nat.le_refl _) (fun hlive => ?_) id
      have hbody : t.outlet.bodyHeld = true := by simpa [alive, Outlet.dropWriter] using hlive
      simp [alive, hbody]
    · rw [if_neg hclosed] at hplaced ⊢
      refine h.of_balance hplaced ?_ rfl rfl (Nat.le_refl _) id id
      simp only [balance, inHand, hidle]
      rfl
  · rw [if_neg hready]
    exact h

/-- Every event keeps the invariant. -/
theorem Sound.step (h : t.Sound) (e : OutletEvent) : (t.step e).Sound := by
  cases e with
  | request granter n => exact h.request granter n
  | cancel => exact h.cancel
  | subscribe => exact h.subscribe
  | arrive => exact h.arrive
  | dropBody => exact h.dropBody
  | push item interrupted => exact h.push item interrupted
  | close => exact h.close
  | leave => exact h.leave
  | proceed => exact h.proceed

/-- Whatever happens and in whatever order, no credit is made up, and none is lost as long
as somebody can still use it. -/
theorem run_sound (contentLength : Nat) (events : List OutletEvent) :
    ((start contentLength).run events).Sound :=
  run_keeps Sound (fun e h => h.step e) (start_sound contentLength) events

/-! ## Cancellation is for good -/

/-- Nothing takes a cancellation back. -/
theorem cancelled_step (hcancelled : t.cancelled = true) (e : OutletEvent) :
    (t.step e).cancelled = true := by
  have hledger : t.outlet.ledger.cancelled = true := hcancelled
  cases e with
  | request granter n =>
      simp only [step]
      split
      · exact (control_parts (.request n) t.outlet).2.2 hcancelled
      · exact hcancelled
  | cancel =>
      simp only [step]
      split
      · exact (control_parts .cancel t.outlet).2.2 hcancelled
      · exact hcancelled
  | subscribe =>
      simp only [step]
      split <;> exact hcancelled
  | arrive =>
      simp only [step, arriveStep]
      split
      · exact hcancelled
      · rename_i seen _
        simp only [cancelled, (attach_parts seen t.outlet).1]
        exact hcancelled
      · exact hcancelled
  | dropBody =>
      simp only [step]
      split <;> exact hcancelled
  | push item interrupted =>
      have hrefused : t.outlet.ledger.take interrupted = some (.error (.condition .cancelled)) := by
        simp [Ledger.take, hledger]
      simp only [step, pushStep, hrefused]
      split
      · split <;> exact hcancelled
      · exact hcancelled
  | close =>
      simp only [step]
      split
      · split <;> exact hcancelled
      · exact hcancelled
  | leave =>
      simp only [step]
      split
      · split <;> exact hcancelled
      · exact hcancelled
  | proceed =>
      simp only [step, proceedStep]
      split
      · exact hcancelled
      · split
        · split <;> exact hcancelled
        · exact hcancelled
      · exact hcancelled
      · rename_i f silent _
        split
        · simp only [cancelled, (conclude_ledger f silent t.outlet).1]
          exact hcancelled
        · exact hcancelled
      · exact hcancelled
      · exact hcancelled

/-- Nothing brings a writer back. -/
theorem writerHeld_of_step (e : OutletEvent) (hheld : (t.step e).outlet.writerHeld = true) :
    t.outlet.writerHeld = true := by
  cases e with
  | request granter n =>
      simp only [step] at hheld
      split at hheld
      · rwa [(control_parts (.request n) t.outlet).1] at hheld
      · exact hheld
  | cancel =>
      simp only [step] at hheld
      split at hheld
      · rwa [(control_parts .cancel t.outlet).1] at hheld
      · exact hheld
  | subscribe =>
      simp only [step] at hheld
      split at hheld <;> exact hheld
  | arrive =>
      simp only [step, arriveStep] at hheld
      split at hheld
      · exact hheld
      · rename_i seen _
        rwa [(attach_parts seen t.outlet).2.1] at hheld
      · exact hheld
  | dropBody =>
      simp only [step] at hheld
      split at hheld <;> exact hheld
  | push item interrupted =>
      simp only [step] at hheld
      split at hheld
      · rename_i hready
        exact (ready_iff.mp hready).1
      · exact hheld
  | close =>
      simp only [step] at hheld
      split at hheld
      · rename_i hready
        exact (ready_iff.mp hready).1
      · exact hheld
  | leave =>
      simp only [step] at hheld
      split at hheld
      · rename_i hready
        exact (ready_iff.mp hready).1
      · exact hheld
  | proceed =>
      simp only [step, proceedStep] at hheld
      split at hheld
      · exact hheld
      · split at hheld
        · split at hheld <;> exact hheld
        · exact hheld
      · exact hheld
      · rename_i f silent _
        split at hheld
        · rwa [(conclude_parts f silent t.outlet).1] at hheld
        · exact hheld
      · exact hheld
      · simp [Outlet.dropWriter] at hheld

/-- A writer that is there now was there before. -/
theorem writerHeld_of_run {events : List OutletEvent}
    (hheld : (t.run events).outlet.writerHeld = true) : t.outlet.writerHeld = true := by
  induction events generalizing t with
  | nil => exact hheld
  | cons e events ih => exact writerHeld_of_step e (ih hheld)

/-- A stream that was cancelled has no credit ever after. -/
theorem run_cancelled (h : t.Sound) (hcancelled : t.cancelled = true)
    (events : List OutletEvent) : (t.run events).demand = 0 := by
  obtain ⟨hsound, hstays⟩ := run_keeps (fun t => t.Sound ∧ t.cancelled = true)
    (fun e hboth => ⟨hboth.1.step e, cancelled_step hboth.2 e⟩) ⟨h, hcancelled⟩ events
  exact hsound.muted hstays

end Sound

/-! ## As many pushes as there is credit -/

/-- A push that nothing comes in between of. -/
def pushing (item : Octets) : List OutletEvent :=
  [.push item false, .proceed, .proceed]

/-- A push is not refused, and its consumer is in place. -/
structure Flowing (t : OutletTraffic) : Prop where
  ready : t.ready = true
  opened : t.outlet.closed = false
  listening : t.cancelled = false
  settled : t.arrival = .settled

section Flowing

variable {t : OutletTraffic}

/-- The consumer of a stream that flows can be signalled. -/
theorem Sound.attached_of_flowing (h : t.Sound) (hflowing : t.Flowing) :
    t.outlet.downstream = .attached := by
  rcases ready_iff.mp hflowing.ready with ⟨hheld, hidle⟩
  cases hdown : t.outlet.downstream with
  | waiting => exact absurd hdown (h.settled hflowing.settled)
  | attached => rfl
  | done =>
      have hnone := h.unfinished hheld hflowing.opened (by rw [hidle]; rfl)
      rcases h.done hdown with hcancelled | hended
      · rw [hflowing.listening] at hcancelled
        cases hcancelled
      · exact absurd hnone hended

/-- Where there is credit, a push delivers its item and takes one item of credit. -/
theorem Sound.push_delivers (h : t.Sound) (hflowing : t.Flowing) (hcredit : 0 < t.demand)
    (item : Octets) :
    (t.run (pushing item)).Flowing ∧
      (t.run (pushing item)).delivered = t.delivered ++ [item] ∧
      (t.run (pushing item)).demand + 1 = t.demand ∧
      (t.run (pushing item)).pushes = t.pushes ++ [(item, .ok ())] := by
  have hattached := h.attached_of_flowing hflowing
  rcases hflowing with ⟨hready, hopen, hlistening, hsettled⟩
  rcases ready_iff.mp hready with ⟨hheld, hidle⟩
  have hlisten : t.outlet.ledger.cancelled = false := hlistening
  have hpos : 0 < t.outlet.ledger.demand.items := hcredit
  have htaken : t.step (.push item false) =
      { t with
        outlet := { t.outlet with
          ledger := { t.outlet.ledger with demand := t.outlet.ledger.demand.spend } }
        stage := .holding item } := by
    simp [OutletTraffic.step, hready, pushStep, hopen, Ledger.take, hlisten, hpos]
  have hrun : t.run (pushing item) =
      { t with
        outlet := { t.outlet with
          ledger := { t.outlet.ledger with demand := t.outlet.ledger.demand.spend }
          written := t.outlet.written + item.length }
        stage := .idle
        heard := t.heard ++ [.signal (.next item)]
        pushes := t.pushes ++ [(item, .ok ())] } := by
    rw [pushing, run_cons, htaken]
    simp [run, OutletTraffic.step, proceedStep, unlocked, hsettled, Outlet.deliver, hattached,
      OutletTraffic.answerPush, Outlet.counted]
  rw [hrun]
  refine ⟨⟨ready_iff.mpr ⟨hheld, rfl⟩, hopen, hlistening, hsettled⟩, ?_, ?_, rfl⟩
  · simp [delivered, Emission.item?]
  · change t.outlet.ledger.demand.items - 1 + 1 = t.outlet.ledger.demand.items
    omega

/-- As many pushes go through as there is credit for. -/
theorem run_pushing (h : t.Sound) (hflowing : t.Flowing) (items : List Octets)
    (hcredit : items.length ≤ t.demand) :
    (t.run (items.flatMap pushing)).Flowing ∧
      (t.run (items.flatMap pushing)).delivered = t.delivered ++ items ∧
      (t.run (items.flatMap pushing)).demand + items.length = t.demand ∧
      (t.run (items.flatMap pushing)).pushes =
        t.pushes ++ items.map fun item => (item, .ok ()) := by
  induction items generalizing t with
  | nil => exact ⟨hflowing, by simp, by simp, by simp⟩
  | cons item items ih =>
      rw [List.length_cons] at hcredit
      obtain ⟨hnext, hdelivered, hdemand, hpushes⟩ :=
        h.push_delivers hflowing (by omega) item
      have hsound : (t.run (pushing item)).Sound := run_keeps Sound (fun e h => h.step e) h _
      rcases ih hsound hnext (by omega) with ⟨hlast, hall, hleft, hanswers⟩
      rw [List.flatMap_cons, run_append]
      refine ⟨hlast, ?_, ?_, ?_⟩
      · rw [hall, hdelivered, List.append_assoc, List.singleton_append]
      · rw [List.length_cons]
        omega
      · rw [hanswers, hpushes, List.map_cons, List.append_assoc, List.singleton_append]

/-- Without credit a push has to wait. -/
theorem push_waits (hflowing : t.Flowing) (hcredit : t.demand = 0) (item : Octets) :
    t.step (.push item false) = t := by
  have hlisten : t.outlet.ledger.cancelled = false := hflowing.listening
  have hnothing : t.outlet.ledger.demand.items = 0 := hcredit
  simp [step, hflowing.ready, pushStep, hflowing.opened, Ledger.take, hlisten, hnothing]

end Flowing

/-! ## Conservation of credit -/

/-- What `granters` granters grant who grant one item `times` times each. -/
def unitGrants (granters times : Nat) : List (Nat × Nat) :=
  (List.range granters).flatMap fun granter => List.replicate times (granter, 1)

/-- All granters together grant so many items. -/
theorem unitGrants_sum (granters times : Nat) :
    ((unitGrants granters times).map Prod.snd).sum = granters * times := by
  induction granters with
  | zero => simp [unitGrants]
  | succ granters ih =>
      simp only [unitGrants] at ih ⊢
      rw [List.range_succ, List.flatMap_append, List.map_append, List.sum_append, ih,
        Nat.succ_mul]
      simp

/-- Whatever happens and in whatever order: credit that is spent, held or left never exceeds
what was granted, and comes to exactly that as long as nobody has cancelled, someone keeps the
outlet alive, and the counter has not reached its ceiling.  The counter stops there, and a
cancellation leaves nothing of it.  So granters of single items let as many pushes through as
they have granted items, and the next one waits. -/
theorem run_conserves_credit (contentLength : Nat) (events : List OutletEvent) :
    let t := (start contentLength).run events
    t.delivered.length + t.inHand + t.demand ≤ t.granted ∧
      (t.alive = true → t.cancelled = false → t.granted < 2 ^ 64 →
        t.delivered.length + t.inHand + t.demand = t.granted) ∧
      (t.demand ≤ 2 ^ 64 - 1 ∧
        ∀ granter n, t.hasHandle = true → t.alive = true → t.cancelled = false →
          (t.step (.request granter n)).demand = min (t.demand + n) (2 ^ 64 - 1)) ∧
      (t.hasHandle = true → ∀ later,
        ((t.step .cancel).run later).outlet.writerHeld = true →
          ((t.step .cancel).run later).demand = 0) ∧
      ∀ granters times, granters * times < 2 ^ 64 →
        t.grants.Perm (unitGrants granters times) → t.alive = true → t.cancelled = false →
          t.delivered.length + t.inHand + t.demand = granters * times ∧
            ∀ items : List Octets, t.Flowing →
              t.delivered.length + items.length = granters * times →
                let after := t.run (items.flatMap pushing)
                after.delivered = t.delivered ++ items ∧
                  after.pushes = t.pushes ++ items.map (fun item => (item, .ok ())) ∧
                  after.demand = 0 ∧ ∀ item, after.step (.push item false) = after := by
  intro t
  have hsound : t.Sound := run_sound contentLength events
  have hceiling : Demand.ceiling = 2 ^ 64 - 1 := rfl
  have hexact : t.alive = true → t.cancelled = false → t.granted < 2 ^ 64 →
      t.delivered.length + t.inHand + t.demand = t.granted := fun halive hopen hbelow =>
    hsound.kept halive hopen (by omega)
  refine ⟨hsound.spent, hexact, ⟨t.outlet.ledger.demand.le_ceiling, ?_⟩, ?_, ?_⟩
  · intro granter n hhandle halive hopen
    exact request_demand hhandle halive hopen granter n
  · intro hhandle later hheld
    have hwriter := writerHeld_of_step .cancel (writerHeld_of_run hheld)
    rcases cancel_parts hhandle (by simp [alive, hwriter]) hsound with ⟨hcancelled, -⟩
    exact run_cancelled (hsound.step .cancel) hcancelled later
  · intro granters times hbelow hgrants halive hopen
    have hgranted : t.granted = granters * times := by
      rw [granted, (hgrants.map Prod.snd).sum_nat, unitGrants_sum]
    have hbalance := hexact halive hopen (by omega)
    rw [hgranted] at hbalance
    refine ⟨hbalance, fun items hflowing hitems => ?_⟩
    rcases ready_iff.mp hflowing.ready with ⟨-, hidle⟩
    have hnobody : t.inHand = 0 := by simp [inHand, hidle]
    obtain ⟨hstill, hdelivered, hleft, hanswers⟩ :=
      run_pushing hsound hflowing items (by omega)
    have hnothing : (t.run (items.flatMap pushing)).demand = 0 := by omega
    exact ⟨hdelivered, hanswers, hnothing, push_waits hstill hnothing⟩

/-- Two granters of two items each, one of them from inside the greeting, with a grant in
between the parts of a push. -/
theorem two_granters_conserve_credit :
    let t := (start 4).run
      [.subscribe, .request 0 1, .arrive, .arrive, .push [7] false, .request 1 1, .proceed,
        .request 0 1, .proceed, .request 1 1]
    let after := t.run ([[8, 9], [], [5]].flatMap pushing)
    t.delivered.length + t.inHand + t.demand = t.granted ∧
      (t.step (.request 2 (2 ^ 64 - 1))).demand = 2 ^ 64 - 1 ∧
      ((t.step .cancel).run [.request 0 3, .push [8] false]).demand = 0 ∧
      after.delivered = [[7], [8, 9], [], [5]] ∧ after.demand = 0 ∧
      after.step (.push [6] false) = after := by
  intro t after
  have hrun := run_conserves_credit 4
    [.subscribe, .request 0 1, .arrive, .arrive, .push [7] false, .request 1 1, .proceed,
      .request 0 1, .proceed, .request 1 1]
  rcases hrun with ⟨-, hexact, ⟨-, hrequest⟩, hcancel, hunits⟩
  have hflowing : t.Flowing := ⟨by decide, by decide, by decide, by decide⟩
  rcases hunits 2 2 (by decide) (by decide) (by decide) (by decide) with ⟨-, hpushes⟩
  rcases hpushes [[8, 9], [], [5]] hflowing (by decide) with ⟨hdelivered, -, hnothing, hwaits⟩
  refine ⟨hexact (by decide) (by decide) (by decide), ?_, ?_, hdelivered, hnothing, hwaits [6]⟩
  · have hstops := hrequest 2 (2 ^ 64 - 1) (by decide) (by decide) (by decide)
    exact hstops.trans (Nat.min_eq_right (Nat.le_add_left _ _))
  · exact hcancel (by decide) [.request 0 3, .push [8] false] (by decide)

end OutletTraffic
end CreditFlow
