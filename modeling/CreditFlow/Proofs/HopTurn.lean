import CreditFlow.Line.Chain
import CreditFlow.Proofs.PumpMove

/-!
# A turn of a hop

All that one move of the task of a hop can come to, with what must hold for it.  What is
to be shown of every turn of every hop is shown by going through this list, and the moves
of a pump are not looked into again.

Main results:

- {lit}`Chain.hopTurns_hopTurn`: every turn of a hop is in the list.
- {lit}`Chain.turn_last`, {lit}`Chain.turn_before`: a turn of a chain is a turn of its
  last hop, or a turn of the chain before it whose emissions that hop hears.
-/

namespace CreditFlow

namespace Chain

/-- All that a turn of a hop can come to. -/
inductive HopTurns (before : Chain) (s : PullStream Unit) (p : Pump) : Chain × Burst → Prop
  /-- The consumer is greeted. -/
  | greets (hstage : p.stage = .fresh) :
      HopTurns before s p
        (hop before s { p with stage := .greeted }, signalling [] (some (.subscribed ())))
  | starts (hstage : p.stage = .greeted) :
      HopTurns before s p
        (hop before s { p with stage := .between }, { notes := [.pumpStarted], goesOn := true })
  /-- A cancellation is noticed. -/
  | cancels (note : Notice) (hstage : p.stage = .between) (hcancelled : p.cancelled = true) :
      HopTurns before s p
        (hop before s { p with stage := .leaving }, { notes := [note], goesOn := true })
  /-- The loss of the handle is noticed. -/
  | orphaned (hstage : p.stage = .between) (hheld : p.held = false) :
      HopTurns before s p
        (hop before s { p with stage := .leaving },
          { notes := [.pumpHandleDropped], goesOn := true })
  /-- A grant is taken. -/
  | takes (n : Nat) (rest : List Nat) (hstage : p.stage = .between)
      (hdemand : p.demand.items = 0) (hgrants : p.grants = (n + 1) :: rest) :
      HopTurns before s p
        (hop before s { p with grants := rest, demand := p.demand.grant (n + 1) },
          { goesOn := true })
  /-- A grant of nothing is refused. -/
  | refuses (grants : List Nat) (demand : Demand)
      (hstage : p.stage = .between ∨ p.stage = .signalled) (hzero : 0 ∈ p.grants) :
      HopTurns before s p
        (hop before s { p with stage := .leaving, grants := grants, demand := demand },
          signalling [.pumpZeroDemand] (some (.error .zeroDemand)))
  /-- There is nothing to do before a grant comes. -/
  | waits (hstage : p.stage = .between) (hdemand : p.demand.items = 0) (hgrants : p.grants = [])
      (hheld : p.held = true) (hopen : p.cancelled = false) :
      HopTurns before s p (hop before s { p with sleep := some .forGrant }, {})
  /-- The grants that came while an item was signalled are taken. -/
  | folds (demand : Demand) (hstage : p.stage = .signalled)
      (hfold : Pump.fold p.grants p.demand = (demand, [], false)) :
      HopTurns before s p
        (hop before s { p with stage := .between, grants := [], demand := demand },
          { goesOn := true })
  /-- The chain before is asked for an item. -/
  | asks (s' : PullStream Unit) (p' : Pump) (notes : List Notice) (hpolls : p.Polls p')
      (hattend : s.attend = (s', notes, .asks ())) :
      HopTurns before s p
        (hop (before.control (.request 1)).1 s' p',
          { notes := notes ++ (before.control (.request 1)).2.1
            wakes := (before.control (.request 1)).2.2
            goesOn := true })
  /-- There is nothing to do before the stream has something. -/
  | sleeps (s' : PullStream Unit) (p' : Pump) (notes : List Notice) (hpolls : p.Polls p')
      (hattend : s.attend = (s', notes, .answer .pending)) :
      HopTurns before s p (hop before s' p'.pending, { notes := notes })
  /-- The stream yields. -/
  | yields (s' : PullStream Unit) (p' : Pump) (notes : List Notice) (answer : Pull)
      (r : Option (Except Cause Octets)) (hpolls : p.Polls p')
      (hattend : s.attend = (s', notes, .answer answer)) (hpulled : pulled answer = some r) :
      HopTurns before s p
        (hop before s' (p'.receive r).1,
          signalling (notes ++ (p'.receive r).2.1) (p'.receive r).2.2)
  /-- The stream is let go. -/
  | leaves (hstage : p.stage = .leaving) :
      HopTurns before s p (dropStream before s { p with stage := .over, sleep := none } [])
  | rests (hstage : p.stage = .over) : HopTurns before s p (hop before s p, {})

/-- What a poll comes to. -/
theorem hopTurns_of_polls {before : Chain} {s : PullStream Unit} {p p' : Pump}
    (hpolls : p.Polls p') (hadvance : p.advance = (p', [], .fetch)) :
    HopTurns before s p (hopTurn before s p) := by
  unfold hopTurn
  rw [hadvance]
  rcases hattend : s.attend with ⟨s', notes, attention⟩
  cases attention with
  | asks handle => exact .asks s' p' notes hpolls hattend
  | answer answer =>
      cases hpulled : pulled answer with
      | none =>
          have hpending : answer = .pending := by
            cases answer <;> simp [pulled] at hpulled
            rfl
          subst hpending
          exact .sleeps s' p' notes hpolls hattend
      | some r =>
          simp only [hpulled]
          exact .yields s' p' notes answer r hpolls hattend hpulled

/-- Every turn of a hop is in the list. -/
theorem hopTurns_hopTurn (before : Chain) (s : PullStream Unit) (p : Pump) :
    HopTurns before s p (hopTurn before s p) := by
  have hmove := p.advances_advance
  rcases hadvance : p.advance with ⟨p', notes, move⟩
  rw [hadvance] at hmove
  cases hmove with
  | polls _ hpolls => exact hopTurns_of_polls hpolls hadvance
  | greets hstage =>
      unfold hopTurn
      rw [hadvance]
      exact .greets hstage
  | starts hstage =>
      unfold hopTurn
      rw [hadvance]
      exact .starts hstage
  | cancels note hstage hcancelled =>
      unfold hopTurn
      rw [hadvance]
      exact .cancels note hstage hcancelled
  | orphaned hstage hdemand hopen hgrants hheld =>
      unfold hopTurn
      rw [hadvance]
      exact .orphaned hstage hheld
  | takes n rest hstage hdemand hopen hgrants =>
      unfold hopTurn
      rw [hadvance]
      exact .takes n rest hstage hdemand hgrants
  | refuses rest hstage hdemand hopen hgrants =>
      unfold hopTurn
      rw [hadvance]
      exact .refuses rest p.demand (.inl hstage) (by simp [hgrants])
  | waits hstage hdemand hopen hgrants hheld =>
      unfold hopTurn
      rw [hadvance]
      exact .waits hstage hdemand hgrants hheld hopen
  | folds demand hstage hsome hfold =>
      unfold hopTurn
      rw [hadvance]
      exact .folds demand hstage hfold
  | balks grants demand hstage hzero hfold =>
      unfold hopTurn
      rw [hadvance]
      exact .refuses grants demand (.inr hstage) hzero
  | leaves hstage =>
      unfold hopTurn
      rw [hadvance]
      exact .leaves hstage
  | rests hstage =>
      unfold hopTurn
      rw [hadvance]
      exact .rests hstage

/-! ## Turns along a chain -/

/-- The last task of a chain is that of its last hop. -/
theorem turn_last (before : Chain) (s : PullStream Unit) (p : Pump) :
    turn (before.hops + 1) (hop before s p) = hopTurn before s p := by
  rw [turn, if_pos rfl]

/-- Any other turn takes place in the chain before. -/
theorem turn_before {before : Chain} {k : Nat} (hk : k ≠ before.hops + 1) (s : PullStream Unit)
    (p : Pump) : turn k (hop before s p) = absorb s p (turn k before) := by
  rw [turn, if_neg hk]

end Chain
end CreditFlow
