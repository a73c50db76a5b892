import CreditFlow.Proofs.PumpLine

/-!
# A pump after its cancellation

A pump looks for a cancellation before it takes a grant, before it polls its source, and when
the source has yielded.  There is one place where it does not look: when an item has been
handed on, the grants that came meanwhile are folded in first, and a grant of nothing among
them ends the stream with an error.  So a listener that cancels from inside the delivery of an
item hears once more exactly if a grant of nothing waits behind that item; in every other case
a pump that was cancelled is silent.

Main results:

- {lit}`Pump.Advances.silent`: what a cancelled pump still signals in a move.
- {lit}`Chain.SourceTurns.silent`: what it still signals in a turn over a source.
- {lit}`Line.Reached.turn`: what is still to come is told from where the pump stands.
- {lit}`Line.run_after_cancellation`: everything that a listener hears after its cancellation.
-/

namespace CreditFlow

/-- What a cancelled pump is still going to signal.  It has handed an item on, and has not
looked at the grants that came meanwhile. -/
def Pump.pledge (p : Pump) : List Call :=
  if p.stage = .signalled ∧ 0 ∈ p.grants then [.error .zeroDemand] else []

/-- Only a pump that comes back from a signal has something pledged. -/
theorem Pump.pledge_of_stage {p : Pump} (hstage : p.stage ≠ .signalled) : p.pledge = [] :=
  if_neg fun h => hstage h.1

/-- What the consumer hears in a move. -/
def Move.call? : Move → Option Call
  | .deliver sig => some sig.call
  | _ => none

namespace Pump

variable {p p' : Pump}

/-! ## Moves -/

/-- Nobody who polls is over, and nothing is pledged in a poll. -/
theorem Polls.silent (h : p.Polls p') (habandoned : p.Abandoned) :
    p'.cancelled = true ∧ p.pledge = [] := by
  have hstage : p.stage ≠ .over ∧ p.stage ≠ .signalled := by
    cases h with
    | begins hstage hdemand hopen => simp [hstage]
    | goesOn hstage => simp [hstage]
  refine ⟨?_, pledge_of_stage hstage.2⟩
  rw [h.cancelled]
  exact habandoned.resolve_right hstage.1

/-- In a move of a cancelled pump the consumer hears what was pledged, and nothing is pledged
after it. -/
theorem Advances.silent {notes : List Notice} {move : Move} (h : p.Advances (p', notes, move))
    (habandoned : p.Abandoned) (hgreeted : p.stage = .fresh → p.cancelled = false) :
    p'.Abandoned ∧ move.call?.toList = p.pledge ∧ p'.stage ≠ .signalled := by
  have hnever : p.cancelled = false → p.stage ≠ .over → False := by
    intro hopen hrunning
    rw [habandoned.resolve_right hrunning] at hopen
    cases hopen
  cases h with
  | greets hstage => exact (hnever (hgreeted hstage) (by simp [hstage])).elim
  | starts hstage =>
      refine ⟨.inl (habandoned.resolve_right (by simp [hstage])), ?_, by simp⟩
      exact (pledge_of_stage (by simp [hstage])).symm
  | cancels note hstage hcancelled =>
      exact ⟨.inl hcancelled, (pledge_of_stage (by simp [hstage])).symm, by simp⟩
  | orphaned hstage hdemand hopen hgrants hheld => exact (hnever hopen (by simp [hstage])).elim
  | takes n rest hstage hdemand hopen hgrants => exact (hnever hopen (by simp [hstage])).elim
  | refuses rest hstage hdemand hopen hgrants => exact (hnever hopen (by simp [hstage])).elim
  | waits hstage hdemand hopen hgrants hheld => exact (hnever hopen (by simp [hstage])).elim
  | folds demand hstage hsome hfold =>
      refine ⟨.inl (habandoned.resolve_right (by simp [hstage])), ?_, by simp⟩
      rw [pledge, if_neg fun h => hsome h.2]
      rfl
  | balks grants demand hstage hzero hfold =>
      refine ⟨.inl (habandoned.resolve_right (by simp [hstage])), ?_, by simp⟩
      rw [pledge, if_pos ⟨hstage, hzero⟩]
      rfl
  | polls _ hpolls =>
      obtain ⟨hcancelled, hnone⟩ := hpolls.silent habandoned
      exact ⟨.inl hcancelled, hnone.symm, by simp [hpolls.stage]⟩
  | leaves hstage => exact ⟨.inr rfl, (pledge_of_stage (by simp [hstage])).symm, by simp⟩
  | rests hstage =>
      exact ⟨.inr hstage, (pledge_of_stage (by simp [hstage])).symm, by simp [hstage]⟩

end Pump

/-! ## Turns -/

namespace Chain

variable {s s' : Source} {p p' : Pump} {burst : Burst}

/-- A pump that has taken a turn has greeted its consumer, and goes on if it has handed an
item on. -/
theorem SourceTurns.stage (h : SourceTurns s p (.source s' p', burst)) :
    p'.stage ≠ .fresh ∧ (p'.stage = .signalled → burst.goesOn = true) := by
  cases h with
  | delivers _ notes sig hmove => cases hmove <;> simp
  | goesOn _ notes hmove => cases hmove <;> simp_all
  | parks _ notes hmove => cases hmove <;> simp_all
  | leaves _ notes hmove =>
      cases hmove
      simp
  | yields _ q y r hpolls hpoll hyield =>
      refine ⟨?_, fun _ => rfl⟩
      unfold Pump.receive
      split
      · simp
      · split <;> simp
  | sleeps _ q wakesItself hpolls hpoll => simp [q.stepAside_parts wakesItself]
  | acts _ _ a hpolls hpoll => simp [hpolls.stage]

/-- In a turn of a cancelled pump the consumer hears what was pledged, and nothing is pledged
after it. -/
theorem SourceTurns.silent (h : SourceTurns s p (.source s' p', burst))
    (habandoned : p.Abandoned) (hgreeted : p.stage = .fresh → p.cancelled = false) :
    p'.Abandoned ∧ burst.emissions.filterMap Emission.call? = p.pledge ∧
      p'.stage ≠ .signalled := by
  cases h with
  | delivers _ notes sig hmove => exact hmove.silent habandoned hgreeted
  | goesOn _ notes hmove => exact hmove.silent habandoned hgreeted
  | parks _ notes hmove => exact hmove.silent habandoned hgreeted
  | leaves _ notes hmove => exact hmove.silent habandoned hgreeted
  | yields _ q y r hpolls hpoll hyield =>
      obtain ⟨hcancelled, hnone⟩ := hpolls.silent habandoned
      have hreceive : q.receive r = ({ q with stage := .leaving, sleep := none }, [], none) := by
        simp [Pump.receive, hcancelled]
      rw [hreceive, hnone]
      exact ⟨.inl hcancelled, rfl, by simp⟩
  | sleeps _ q wakesItself hpolls hpoll =>
      obtain ⟨hcancelled, hnone⟩ := hpolls.silent habandoned
      have hafter := q.stepAside_parts wakesItself
      exact ⟨.inl (hafter.2.trans hcancelled), hnone.symm, by simp [hafter.1]⟩
  | acts _ _ a hpolls hpoll =>
      obtain ⟨hcancelled, hnone⟩ := hpolls.silent habandoned
      exact ⟨.inl hcancelled, hnone.symm, by simp [hpolls.stage]⟩

end Chain

/-! ## Events -/

namespace Line

variable {l : Line} {s : Source} {p : Pump} {k : Listener}

/-- What holds of a line that has come about: before the greeting nobody has a handle, and
when an item has been handed on the turn is not over. -/
structure Reached (l : Line) (s : Source) (p : Pump) (k : Listener) : Prop
    extends Pumped l s p k where
  fresh : p.stage = .fresh → p.cancelled = false ∧ k.holds = false
  turning : p.stage = .signalled → l.running = some 0

/-- Without a handle a listener changes neither its pump nor itself. -/
theorem Reached.listens_fresh (h : l.Reached s p k) (hstage : p.stage = .fresh) (a : Act) :
    p.controls (Reaction.controls (k.perform a).2) = p ∧ (k.perform a).1 = k := by
  cases a with
  | interrupt => exact ⟨rfl, rfl⟩
  | control c =>
      rw [Listener.perform_of_not_holds (h.fresh hstage).2]
      exact ⟨rfl, rfl⟩

/-- Between two turns a listener does not hear anything, and what is done keeps a
cancellation. -/
theorem Reached.does (h : l.Reached s p k) (a : PumpAct) :
    ∃ s' p' k', (l.happen (.does a)).Reached s' p' k' ∧ (l.happen (.does a)).calls = l.calls ∧
      (p.Abandoned → p'.Abandoned) ∧ p'.pledge = p.pledge := by
  cases hrunning : l.running with
  | some task =>
      rw [happen_does_of_running hrunning]
      exact ⟨s, p, k, h, rfl, id, rfl⟩
  | none =>
      have hstage : p.stage ≠ .signalled := by
        intro hsignalled
        rw [h.turning hsignalled] at hrunning
        cases hrunning
      obtain ⟨s', p', k', hdoes, hafter, hcalls, hstill⟩ := h.toPumped.does hrunning a
      have hkept : p'.stage = p.stage ∧ (p.Abandoned → p'.Abandoned) ∧
          (p'.stage = .fresh → p'.cancelled = false ∧ k'.holds = false) := by
        cases hdoes with
        | listens a =>
            refine ⟨Pump.controls_stage _ p, fun hp => ?_, fun hfresh => ?_⟩
            · exact Pump.controls_keeps (fun c hq => hq.control c) hp _
            · rw [Pump.controls_stage] at hfresh
              obtain ⟨hpump, hlistener⟩ := h.listens_fresh hfresh a
              rw [hpump, hlistener]
              exact h.fresh hfresh
        | sources b woken =>
            have hready := p.streamReady_parts
            cases woken with
            | false => exact ⟨rfl, id, h.fresh⟩
            | true =>
                simp only [if_true, Pump.Abandoned, hready.1, hready.2]
                exact ⟨trivial, id, h.fresh⟩
      refine ⟨s', p', k', ⟨hafter, hkept.2.2, fun hsignalled => ?_⟩, hcalls, hkept.2.1, ?_⟩
      · rw [hkept.1] at hsignalled
        exact absurd hsignalled hstage
      · rw [Pump.pledge_of_stage hstage, Pump.pledge_of_stage (hkept.1 ▸ hstage)]

/-- In a move of a cancelled pump its listener hears what was pledged. -/
theorem Reached.move (h : l.Reached s p k) :
    ∃ s' p' k', (l.happen .moves).Reached s' p' k' ∧
      (p.Abandoned →
        (l.happen .moves).calls = l.calls ++ p.pledge ∧ p'.Abandoned ∧ p'.pledge = []) := by
  rcases h.toPumped.move with ⟨hrunning, hafter, hcalls⟩ |
    ⟨hrunning, s', p', burst, hturn, hafter, hcalls, hgoes⟩
  · have hstage : p.stage ≠ .signalled := by
      intro hsignalled
      rw [h.turning hsignalled] at hrunning
      cases hrunning
    have hnone := Pump.pledge_of_stage hstage
    refine ⟨s, p, k, ⟨hafter, h.fresh, fun hsignalled => absurd hsignalled hstage⟩, fun hp => ?_⟩
    exact ⟨by rw [hcalls, hnone, List.append_nil], hp, hnone⟩
  · have hturns := Chain.sourceTurns_of_sourceTurn hturn
    have hstage := hturns.stage
    refine ⟨s', _, _, ⟨hafter, ?_, ?_⟩, fun hp => ?_⟩
    · intro hfresh
      rw [Pump.controls_stage] at hfresh
      exact absurd hfresh hstage.1
    · intro hsignalled
      rw [Pump.controls_stage] at hsignalled
      rw [hgoes, if_pos (hstage.2 hsignalled)]
    · obtain ⟨habandoned, hheard, hover⟩ := hturns.silent hp fun hfresh => (h.fresh hfresh).1
      refine ⟨hheard ▸ hcalls, Pump.controls_keeps (fun c hq => hq.control c) habandoned _, ?_⟩
      exact Pump.pledge_of_stage (by rwa [Pump.controls_stage])

/-- What is still to come is told from where the pump stands. -/
theorem Reached.turn (h : l.Reached s p k) (e : PumpEvent) :
    ∃ s' p' k', (l.happen e).Reached s' p' k' ∧
      (p.Abandoned →
        (l.happen e).calls = l.calls ++ (if e.isMove then p.pledge else []) ∧ p'.Abandoned ∧
          p'.pledge = if e.isMove then [] else p.pledge) := by
  cases e with
  | moves => exact h.move
  | does a =>
      obtain ⟨s', p', k', hafter, hcalls, habandoned, hpledge⟩ := h.does a
      exact ⟨s', p', k', hafter, fun hp =>
        ⟨by simpa [PumpEvent.isMove] using hcalls, habandoned hp, hpledge⟩⟩

/-! ## Runs -/

/-- A cancellation that has reached the pump has reached it for ever. -/
theorem Reached.run (h : l.Reached s p k) (events : List PumpEvent) :
    ∃ s' p' k', (l.run events).Reached s' p' k' := by
  induction events generalizing l s p k with
  | nil => exact ⟨s, p, k, h⟩
  | cons e events ih =>
      obtain ⟨s', p', k', hafter, -⟩ := h.turn e
      exact ih hafter

/-- A cancelled pump signals what it has pledged with its next move, and nothing else. -/
theorem Reached.run_abandoned (h : l.Reached s p k) (hp : p.Abandoned)
    (events : List PumpEvent) :
    (∃ p', (l.run events).chain.pump? = some p' ∧ p'.Abandoned) ∧
      (l.run events).calls =
        l.calls ++ if events.any PumpEvent.isMove then p.pledge else [] := by
  induction events generalizing l s p k with
  | nil =>
      refine ⟨⟨p, ?_, hp⟩, (List.append_nil _).symm⟩
      change l.chain.pump? = some p
      rw [h.chain]
      rfl
  | cons e events ih =>
      obtain ⟨s', p', k', hafter, hsilent⟩ := h.turn e
      obtain ⟨hcalls, habandoned, hpledge⟩ := hsilent hp
      obtain ⟨hlater, hrest⟩ := ih hafter habandoned
      refine ⟨hlater, ?_⟩
      rw [hcalls, hpledge] at hrest
      change ((l.happen e).run events).calls = _
      rw [hrest, List.any_cons]
      cases e with
      | moves => simp [PumpEvent.isMove]
      | does a => simp [PumpEvent.isMove]

/-- However a pumping scenario goes, and whenever its listener cancels: the pump knows of the
cancellation from then on, and the listener hears nothing after it, but for one error if the
pump has handed an item on and has not yet looked at the grants that came meanwhile, and a
grant of nothing is among them. -/
theorem run_after_cancellation (scenario : PumpScenario) (hfresh : scenario.listener.holds = false)
    (before later : List PumpEvent) {p : Pump}
    (hpump : (scenario.start.run before).chain.pump? = some p) :
    (p.control .cancel).1.Abandoned ∧
      (p.Abandoned →
        let t := scenario.start.run before
        let u := t.run later
        (∃ p', u.chain.pump? = some p' ∧ p'.Abandoned) ∧
          u.calls =
            t.calls ++
              if p.stage = .signalled ∧ 0 ∈ p.grants ∧ later.any PumpEvent.isMove then
                [.error .zeroDemand]
              else []) := by
  refine ⟨p.cancel_abandoned, fun hp => ?_⟩
  have hstart : scenario.start.Reached { items := scenario.source, isOpen := scenario.isOpen } {}
      scenario.listener :=
    ⟨scenario.start_pumped, fun _ => ⟨rfl, hfresh⟩, fun hsignalled => by cases hsignalled⟩
  obtain ⟨s', p', k', hreached⟩ := hstart.run before
  rw [hreached.chain] at hpump
  cases hpump
  obtain ⟨hlater, hcalls⟩ := hreached.run_abandoned hp later
  refine ⟨hlater, ?_⟩
  rw [hcalls, Pump.pledge]
  by_cases hmoves : later.any PumpEvent.isMove = true
  · simp [hmoves]
  · simp [hmoves]

/-- A listener asks for several items at once, and cancels while the source is polled for the
second one; that item is fetched, and is not handed on.  A grant of nothing that comes after
that is not answered. -/
theorem polled_run_after_cancellation :
    let scenario : PumpScenario :=
      { source := [.chunk [1], .act (.control .cancel), .chunk [2], .chunk [3]]
        listener := { onSubscribe := [.control (.request 3)] } }
    let before := List.replicate 7 PumpEvent.moves
    let later := List.replicate 6 PumpEvent.moves ++
      [.does (.listener (.control (.request 0))), .does (.source .wake), .moves, .moves]
    let t := scenario.start.run before
    let u := t.run later
    t.calls = [.subscribed, .next [1]] ∧ PumpScenario.pulled t = 1 ∧
      u.calls = [.subscribed, .next [1]] ∧ PumpScenario.pulled u = 2 := by
  intro scenario before later t u
  have hpump : t.chain.pump? = some
      { stage := .polling, demand := ⟨2, by decide⟩, cancelled := true } := by
    decide +kernel
  have hheard : t.calls = [.subscribed, .next [1]] := by decide +kernel
  have hsilent := ((run_after_cancellation scenario rfl before later hpump).2 (.inl rfl)).2
  refine ⟨hheard, by decide +kernel, ?_, by decide +kernel⟩
  rw [hheard] at hsilent
  exact hsilent

/-- A listener that cancels inside the delivery of an item, with a grant of nothing behind,
hears an error after its cancellation. -/
theorem zero_grant_after_cancel_is_heard :
    let scenario : PumpScenario :=
      { source := [.chunk [1]]
        listener :=
          { onSubscribe := [.control (.request 1)]
            onNext := [[.control .cancel, .control (.request 0)]] } }
    let t := scenario.start.run (List.replicate 5 .moves)
    let u := t.run [.moves]
    t.calls = [.subscribed, .next [1]] ∧ t.chain.pump?.map Pump.cancelled = some true ∧
      u.calls = [.subscribed, .next [1], .error .zeroDemand] := by
  intro scenario t u
  refine ⟨?_, ?_, ?_⟩
  · decide +kernel
  · decide +kernel
  · decide +kernel

end Line
end CreditFlow
