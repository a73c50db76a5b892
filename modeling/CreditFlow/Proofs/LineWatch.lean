import CreditFlow.Proofs.ChainSource
import CreditFlow.Proofs.Pipe
import Mathlib.Tactic.Common

/-!
# Who is awake along a line

Whatever reaches the chain of a line from its end may wake a task, and the line puts every
task that was woken where it will run.  So a line whose chain is tended stays one, whoever
stands at its end and whatever comes from there.

Main results:

- {lit}`Line.reactAll_tended`: what the end does leaves the chain tended.
- {lit}`Line.absorb_tended`: so does a move of the chain, with all that comes back.
- {lit}`Line.performs_of_no_listener`: nobody but a listener can be made to do something.
-/

namespace CreditFlow

/-- What stands at the end of a pipe, if it can. -/
def Sink.ending? : Sink → Option PipeEnd
  | inlet _ => some .reader
  | stream _ => some .stream
  | _ => none

namespace Line

variable {woken : List Nat} {l : Line} {ending : PipeEnd}

/-- Reactions of the end leave the chain tended; the tasks in `woken` are still to be
woken. -/
theorem reactAll_tended (h : l.chain.Tended (l.ready ++ woken) l.running)
    (rs : List (Reaction Unit)) :
    (l.reactAll rs).chain.Tended ((l.reactAll rs).ready ++ woken) (l.reactAll rs).running := by
  rcases reactAll_parts rs l with ⟨hchain, -, hrunning, hready⟩
  rw [hchain, hrunning]
  refine (h.controls (Reaction.controls rs)).mono fun k hk => ?_
  rw [List.append_assoc, List.mem_append, List.mem_append] at hk
  rcases hk with hk | hk | hk
  · exact List.mem_append_left _ (hready k (List.mem_append_left _ hk))
  · exact List.mem_append_right _ hk
  · exact List.mem_append_left _ (hready k (List.mem_append_right _ hk))

/-- What the sink hears leaves no task forgotten. -/
theorem hears_tended (h : l.chain.Tended (l.ready ++ woken) l.running) (es : List Emission) :
    (es.foldl hear l).chain.Tended ((es.foldl hear l).ready ++ woken)
      (es.foldl hear l).running := by
  induction es generalizing l with
  | nil => exact h
  | cons e es ih =>
      let heard : Line :=
        { l with
          sink := (l.sink.hear e).1
          calls := l.calls ++ (l.sink.hear e).2.calls
          woken := l.woken || (l.sink.hear e).2.woken }
      have hheard : heard.chain.Tended (heard.ready ++ woken) heard.running := h
      exact ih (reactAll_tended hheard (l.sink.hear e).2.reactions)

/-- What a listener does leaves no task forgotten. -/
theorem performs_tended (h : l.chain.Tended (l.ready ++ woken) l.running) (acts : List Act) :
    (acts.foldl perform l).chain.Tended ((acts.foldl perform l).ready ++ woken)
      (acts.foldl perform l).running := by
  induction acts generalizing l with
  | nil => exact h
  | cons a acts ih =>
      let done : Line := { l with sink := (l.sink.perform a).1 }
      have hdone : done.chain.Tended (done.ready ++ woken) done.running := h
      exact ih (reactAll_tended hdone (l.sink.perform a).2)

/-- A move of the chain leaves it tended, whatever comes back from the end. -/
theorem absorb_tended {r : Chain × Burst} {running : Option Nat}
    (h : r.1.Tended (l.ready ++ r.2.wakes) running) :
    let after := { l with running := running }.absorb r
    after.chain.Tended after.ready after.running := by
  let placed : Line := { l with running := running, chain := r.1 }.note r.2.notes
  have hplaced : placed.chain.Tended (placed.ready ++ r.2.wakes) placed.running := h
  refine (performs_tended (hears_tended hplaced r.2.emissions) r.2.acts).mono fun k hk => ?_
  change k ∈ (wake r.2.wakes _).ready
  rw [mem_wake]
  exact List.mem_append.mp hk

/-- A line whose turns leave its chain tended stays one when its tasks move. -/
theorem tick_tended (h : l.chain.Tended l.ready l.running)
    (hturn : ∀ k, l.running = some k →
      (l.chain.turn k).1.Tended (l.ready ++ (l.chain.turn k).2.wakes)
        (Chain.runningAfter k (l.chain.turn k).2)) {l' : Line} (htick : l.tick = some l') :
    l'.chain.Tended l'.ready l'.running := by
  unfold tick at htick
  cases hrunning : l.running with
  | some k =>
      rw [hrunning] at htick
      cases htick
      exact absorb_tended (hturn k hrunning)
  | none =>
      rw [hrunning] at htick h
      cases hready : l.ready with
      | nil =>
          rw [hready] at htick
          cases htick
      | cons k rest =>
          rw [hready] at htick h
          cases htick
          exact h.starts

/-- When the line is idle and nobody is still to be woken, nobody is awake. -/
theorem tended_of_idle (h : l.chain.Tended (l.ready ++ []) l.running)
    (hidle : l.isIdle = true) : l.chain.Tended [] none := by
  obtain ⟨hrunning, hready⟩ := (isIdle_iff l).mp hidle
  rwa [hrunning, hready] at h

/-- Whatever is done to the source, whoever sleeps for it is woken. -/
theorem atSource_tended (h : l.chain.Tended l.ready l.running) (f : Source → Source)
    (hparked : ∀ s, (f s).parked = s.parked) :
    (l.atSource f true).chain.Tended (l.atSource f true).ready (l.atSource f true).running := by
  refine (h.wakes f hparked).mono fun k hk => ?_
  change k ∈ (wake (l.chain.atSource f true).2 _).ready
  rw [mem_wake]
  exact List.mem_append.mp hk

/-- Nobody but a listener can be made to do something. -/
theorem performs_of_no_listener (acts : List Act) (hnone : l.sink.listener? = none) :
    acts.foldl perform l = l := by
  induction acts with
  | nil => rfl
  | cons a acts ih =>
      have hsame : l.sink.perform a = (l.sink, []) := by
        cases hsink : l.sink with
        | listener listener => simp [hsink, Sink.listener?] at hnone
        | _ => rfl
      have hnothing : l.perform a = l := by
        simp only [perform, hsame]
        rfl
      rw [List.foldl_cons, hnothing]
      exact ih

/-- Where a pipe ends there is no listener that acts. -/
theorem performs_of_ending (acts : List Act) (hending : l.sink.ending? = some ending) :
    acts.foldl perform l = l := by
  refine performs_of_no_listener acts ?_
  cases hsink : l.sink with
  | listener listener => simp [hsink, Sink.ending?] at hending
  | _ => rfl

end Line
end CreditFlow
