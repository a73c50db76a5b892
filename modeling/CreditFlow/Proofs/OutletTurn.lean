import CreditFlow.Proofs.OutletTraffic

/-!
# What can happen at an outlet

Every step of a call, and every control, is one of a few things that can happen to the
ledger, the downstream and the calls under way.  They are listed once, with what must hold
for each; whatever is shown of an outlet under traffic is shown by going through the list.

Main results:

- {lit}`OutletTraffic.turn_step`: the list is complete.
-/

namespace CreditFlow
namespace OutletTraffic

/-! ## The list -/

/-- All that can happen in one step. -/
inductive Turn (t : OutletTraffic) : OutletTraffic → Prop where
  /-- The event cannot happen at the moment, or has to wait. -/
  | stays : Turn t t
  /-- A control comes through the handle and reaches the ledger. -/
  | controls (ledger : Ledger) (grants : List (Nat × Nat))
      (hhandle : t.hasHandle = true)
      (hfinish : ledger.finish = t.outlet.ledger.finish)
      (hcancelled : t.cancelled = true → ledger.cancelled = true) :
      Turn t { t with outlet := { t.outlet with ledger := ledger }, grants := grants }
  /-- A consumer is greeted. -/
  | greets (harrival : t.arrival = .absent) (hbody : t.outlet.bodyHeld = true) :
      Turn t { t with arrival := .greeting, heard := t.heard ++ [.signal (.subscribed ())] }
  /-- The subscription looks at the ledger. -/
  | looks (harrival : t.arrival = .greeting) :
      Turn t { t with arrival := .looked t.outlet.ledger }
  /-- A consumer that was seen to have cancelled is let go. -/
  | declines (seen : Ledger) (harrival : t.arrival = .looked seen)
      (hcancelled : seen.cancelled = true) :
      Turn t { t with
        outlet := { t.outlet with downstream := .done }
        arrival := .settled
        heard := t.heard ++ [.hangUp] }
  /-- A consumer that comes after the end is told of it by the subscription. -/
  | overtaken (seen : Ledger) (f : Finish) (harrival : t.arrival = .looked seen)
      (hlistening : seen.cancelled = false) (hfinish : seen.finish = some f) :
      Turn t { t with
        outlet := { t.outlet with downstream := .done }
        arrival := .settled
        heard := t.heard ++ (Outlet.farewell f).2 }
  /-- The consumer is put in place. -/
  | attaches (seen : Ledger) (harrival : t.arrival = .looked seen)
      (hlistening : seen.cancelled = false) (hfinish : seen.finish = none) :
      Turn t { t with
        outlet := { t.outlet with downstream := .attached }
        arrival := .settled }
  /-- The body goes away. -/
  | dropsBody (hunlocked : t.unlocked = true) : Turn t { t with outlet := t.outlet.dropBody }
  /-- A push fails. -/
  | refuses (item : Octets) (f : Failure) (hstage : t.stage = .idle ∨ t.stage = .holding item) :
      Turn t (t.answerPush item (.error f))
  /-- A push takes its credit. -/
  | takes (item : Octets) (hready : t.ready = true) (hopen : t.outlet.closed = false)
      (hlistening : t.cancelled = false) :
      Turn t { t with
        outlet := { t.outlet with
          ledger := { t.outlet.ledger with demand := t.outlet.ledger.demand.spend } }
        stage := .holding item }
  /-- A push hands its item over. -/
  | hands (item : Octets) (hstage : t.stage = .holding item) (hunlocked : t.unlocked = true)
      (hattached : t.outlet.downstream = .attached) :
      Turn t { t with
        stage := .handing item
        heard := t.heard ++ [.signal (.next item)] }
  /-- A push has gone through. -/
  | counts (item : Octets) (hstage : t.stage = .handing item) :
      Turn t ({ t with outlet := (t.outlet.counted item.length).1 }.answerPush item (.ok ()))
  /-- The writer puts an end down. -/
  | ends (f : Finish) (hready : t.ready = true) (hopen : t.outlet.closed = false) :
      Turn t
        ({ t with outlet := { t.outlet with closed := decide (f = Finish.complete) } }.endStep f)
  /-- Nobody is attached whom the writer could tell of the end. -/
  | defers (f : Finish) (silent : Bool) (hstage : t.stage = .ending f silent)
      (hunlocked : t.unlocked = true) (hdown : t.outlet.downstream ≠ .attached) :
      Turn t { t with stage := .departing f }
  /-- The attached consumer is let go, and told of the end unless it had cancelled. -/
  | concludes (f : Finish) (silent : Bool) (hstage : t.stage = .ending f silent)
      (hunlocked : t.unlocked = true) (hattached : t.outlet.downstream = .attached) :
      Turn t { t with
        outlet := { t.outlet with downstream := .done }
        stage := .departing f
        heard := t.heard ++ if silent then [.hangUp] else (Outlet.farewell f).2 }
  /-- A closing answers. -/
  | closes (answer : Except Failure Unit)
      (hstage : t.stage = .departing .complete ∨ t.ready = true ∧ t.outlet.closed = true) :
      Turn t { t with stage := .idle, closings := t.closings ++ [answer] }
  /-- The writer goes away. -/
  | leaves (hstage : t.stage = .departing .abandoned ∨ t.ready = true ∧ t.outlet.closed = true) :
      Turn t { t with outlet := t.outlet.dropWriter, stage := .idle }

section Turn

variable {t t' : OutletTraffic}

/-- A control through the handle is in the list. -/
theorem turn_control (c : Control) (grants : List (Nat × Nat)) (hhandle : t.hasHandle = true) :
    Turn t { t with outlet := (t.outlet.control c).1, grants := grants } := by
  obtain ⟨ledger, hcontrol, hfinish, hcancelled⟩ := t.outlet.control_eq c
  rw [hcontrol]
  exact .controls ledger grants hhandle hfinish hcancelled

/-- The steps of a subscription are in the list. -/
theorem turn_arriveStep : Turn t t.arriveStep := by
  unfold arriveStep
  split
  · rename_i harrival
    exact .looks harrival
  · rename_i seen harrival
    unfold Outlet.attach
    by_cases hcancelled : seen.cancelled = true
    · rw [if_pos hcancelled]
      exact .declines seen harrival hcancelled
    · have hlistening : seen.cancelled = false := by simpa using hcancelled
      rw [if_neg hcancelled]
      cases hfinish : seen.finish with
      | some f => exact .overtaken seen f harrival hlistening hfinish
      | none =>
          have hattaches := Turn.attaches seen harrival hlistening hfinish
          simpa using hattaches
  · exact .stays

/-- Setting about a push is in the list. -/
theorem turn_pushStep (hready : t.ready = true) (item : Octets) (interrupted : Bool) :
    Turn t (t.pushStep item interrupted) := by
  have hidle := (ready_iff.mp hready).2
  unfold pushStep
  by_cases hclosed : t.outlet.closed = true
  · rw [if_pos hclosed]
    exact .refuses item _ (.inl hidle)
  · rw [if_neg hclosed]
    cases htake : t.outlet.ledger.take interrupted with
    | none => exact .stays
    | some taken =>
        cases taken with
        | error f => exact .refuses item f (.inl hidle)
        | ok ledger =>
            obtain ⟨hlistening, -, rfl⟩ := Ledger.take_items htake
            exact .takes item hready (by simpa using hclosed) hlistening

/-- The later steps of a call of the writer are in the list. -/
theorem turn_proceedStep : Turn t t.proceedStep := by
  unfold proceedStep
  split
  · exact .stays
  · rename_i item hstage
    split
    · rename_i hunlocked
      cases hdown : t.outlet.downstream with
      | attached =>
          simp only [Outlet.deliver, hdown]
          exact .hands item hstage hunlocked hdown
      | waiting =>
          simp only [Outlet.deliver, hdown]
          exact .refuses item _ (.inr hstage)
      | done =>
          simp only [Outlet.deliver, hdown]
          exact .refuses item _ (.inr hstage)
    · exact .stays
  · rename_i item hstage
    exact .counts item hstage
  · rename_i f silent hstage
    split
    · rename_i hunlocked
      have hdefers := Turn.defers f silent hstage hunlocked
      cases hdown : t.outlet.downstream with
      | attached =>
          simp only [Outlet.conclude, hdown]
          have hconcludes := Turn.concludes f silent hstage hunlocked hdown
          cases silent <;> exact hconcludes
      | waiting =>
          simp only [Outlet.conclude, hdown, List.append_nil]
          exact hdefers (by simp [hdown])
      | done =>
          simp only [Outlet.conclude, hdown, List.append_nil]
          exact hdefers (by simp [hdown])
    · exact .stays
  · rename_i hstage
    exact .closes _ (.inl hstage)
  · rename_i hstage
    exact .leaves (.inl hstage)

/-- The list is complete. -/
theorem turn_step (e : OutletEvent) : Turn t (t.step e) := by
  cases e with
  | request granter n =>
      simp only [step]
      split
      · rename_i hhandle
        exact turn_control (.request n) _ hhandle
      · exact .stays
  | cancel =>
      simp only [step]
      split
      · rename_i hhandle
        exact turn_control .cancel t.grants hhandle
      · exact .stays
  | subscribe =>
      simp only [step]
      split
      · rename_i hfresh
        exact .greets hfresh.1 hfresh.2
      · exact .stays
  | arrive => exact turn_arriveStep
  | dropBody =>
      simp only [step]
      split
      · rename_i hunlocked
        exact .dropsBody hunlocked
      · exact .stays
  | push item interrupted =>
      simp only [step]
      split
      · rename_i hready
        exact turn_pushStep hready item interrupted
      · exact .stays
  | close =>
      simp only [step]
      split
      · rename_i hready
        split
        · rename_i hclosed
          have hidle := (ready_iff.mp hready).2
          have hcloses := Turn.closes (.ok ()) (.inr ⟨hready, hclosed⟩)
          rwa [← hidle] at hcloses
        · rename_i hopen
          exact .ends .complete hready (by simpa using hopen)
      · exact .stays
  | leave =>
      simp only [step]
      split
      · rename_i hready
        have hidle := (ready_iff.mp hready).2
        split
        · rename_i hclosed
          have hleaves := Turn.leaves (.inr ⟨hready, hclosed⟩)
          rwa [← hidle] at hleaves
        · rename_i hopen
          have hclosed : t.outlet.closed = false := by simpa using hopen
          have hends := Turn.ends .abandoned hready hclosed
          simpa [← hclosed] using hends
      · exact .stays
  | proceed => exact turn_proceedStep

end Turn

end OutletTraffic
end CreditFlow
