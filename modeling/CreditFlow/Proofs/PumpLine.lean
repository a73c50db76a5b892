import CreditFlow.Proofs.Pipe
import CreditFlow.Proofs.SourceTurn
import CreditFlow.Scenario.Pumping

/-!
# A pump between a source and a listener

A line with one pump in it.  The task of the pump makes its moves, and between its turns
anything may be done to the listener and to the source.  What the listener does when it is
told something, and what it does while the source is polled, it does in the middle of a move;
so every moment at which a control can reach the pump is a moment of some list of events.

Main results:

- {lit}`Line.Pumped.move`, {lit}`Line.Pumped.does`: all that an event can come to.
- {lit}`PumpScenario.carry_eq_run`: a step of a pumping scenario is one of the runs.
-/

namespace CreditFlow

/-! ## The pump -/

/-- The pump at the end of a chain, if there is one. -/
def Chain.pump? : Chain → Option Pump
  | source _ p => some p
  | hop _ _ p => some p
  | _ => none

/-! ## What reaches the pump -/

namespace Pump

/-- The pump is told several things through its handle. -/
def controls (cs : List Control) (p : Pump) : Pump :=
  cs.foldl (fun p c => (p.control c).1) p

@[simp]
theorem controls_stage (cs : List Control) (p : Pump) : (p.controls cs).stage = p.stage := by
  induction cs generalizing p with
  | nil => rfl
  | cons c cs ih => exact (ih (p.control c).1).trans (control_stage c p)

theorem controls_append (cs ds : List Control) (p : Pump) :
    p.controls (cs ++ ds) = (p.controls cs).controls ds :=
  List.foldl_append

/-- What every control keeps is kept by several. -/
theorem controls_keeps {holds : Pump → Prop}
    (hcontrol : ∀ {p : Pump} (c : Control), holds p → holds (p.control c).1) {p : Pump}
    (h : holds p) (cs : List Control) : holds (p.controls cs) := by
  induction cs generalizing p with
  | nil => exact h
  | cons c cs ih => exact ih (hcontrol c h)

end Pump

theorem Chain.eq_of_mem_wakeIf {woken : Bool} {k task : Nat} (hmem : task ∈ wakeIf woken k) :
    task = k := by
  unfold wakeIf at hmem
  split at hmem
  · exact List.mem_singleton.mp hmem
  · cases hmem

/-- A turn wakes no other task than that of the pump. -/
theorem Chain.SourceTurns.wakes {s : Source} {p : Pump} {r : Chain × Burst}
    (h : SourceTurns s p r) : ∀ task ∈ r.2.wakes, task = 0 := by
  cases h with
  | sleeps s' p' wakesItself hpolls hpoll => exact fun task htask => eq_of_mem_wakeIf htask
  | _ => simp [signalling]

/-- A control wakes no other task than that of the pump. -/
theorem Chain.controls_source_wakes (cs : List Control) (s : Source) (p : Pump) :
    ∀ task ∈ ((source s p).controls cs).2.2, task = 0 := by
  induction cs generalizing p with
  | nil => simp [controls]
  | cons c cs ih =>
      intro task htask
      rcases List.mem_append.mp htask with hfirst | hrest
      · exact eq_of_mem_wakeIf hfirst
      · exact ih (p.control c).1 task hrest

/-! ## The line -/

/-- How a signal is put down by a listener. -/
def Signal.call : Signal Unit → Call
  | .subscribed _ => .subscribed
  | .next chunk => .next chunk
  | .error cause => .error cause
  | .complete => .complete

/-- How an emission is put down by a listener, which does not notice that a publisher is
gone. -/
def Emission.call? : Emission → Option Call
  | .signal s => some s.call
  | .hangUp => none

namespace Listener

/-- What a listener does when its publisher emits something. -/
def answer (e : Emission) (k : Listener) : Listener × List (Reaction Unit) :=
  match e with
  | .signal s => ((k.hear s).1, (k.hear s).2.2)
  | .hangUp => (k, [])

/-- What it does when its publisher emits several things. -/
def answers : List Emission → Listener → Listener × List (Reaction Unit)
  | [], k => (k, [])
  | e :: es, k =>
      let first := k.answer e
      let later := answers es first.1
      (later.1, first.2 ++ later.2)

/-- What it does in the middle of a move: it answers what is emitted, and then does what it
is made to do. -/
def respond (burst : Burst) (k : Listener) : Listener × List (Reaction Unit) :=
  let answered := k.answers burst.emissions
  let done := performAll burst.acts answered.1
  (done.1, answered.2 ++ done.2)

end Listener

namespace Line

/-- A pump over a source stands before a listener, and its task is the only one. -/
structure Pumped (l : Line) (s : Source) (p : Pump) (k : Listener) : Prop where
  chain : l.chain = .source s p
  sink : l.sink = .listener k
  running : ∀ task, l.running = some task → task = 0
  ready : ∀ task ∈ l.ready, task = 0

variable {l : Line} {s : Source} {p : Pump} {k : Listener}

/-- Reactions of the sink reach the pump in order. -/
theorem Pumped.reactAll (h : l.Pumped s p k) (rs : List (Reaction Unit)) :
    (l.reactAll rs).Pumped s (p.controls (Reaction.controls rs)) k ∧
      (l.reactAll rs).calls = l.calls ∧ (l.reactAll rs).running = l.running := by
  induction rs generalizing l p with
  | nil => exact ⟨h, rfl, rfl⟩
  | cons r rs ih =>
      cases r with
      | note n => exact ih (l := l.note [n]) ⟨h.chain, h.sink, h.running, h.ready⟩
      | interrupt =>
          exact ih (l := { l with interrupted := true }) ⟨h.chain, h.sink, h.running, h.ready⟩
      | control handle c =>
          have hfirst : (l.react (.control handle c)).Pumped s (p.control c).1 k := by
            refine ⟨?_, h.sink, h.running, ?_⟩
            · change (l.chain.control c).1 = _
              rw [h.chain]
              rfl
            · intro task htask
              rcases (mem_wake _ _).mp htask with hold | hnew
              · exact h.ready task hold
              · rw [h.chain] at hnew
                exact Chain.controls_source_wakes [c] s p task (List.mem_append_left _ hnew)
          exact ih hfirst

/-- The listener hears of every signal, and does what it does then. -/
theorem Pumped.hear (h : l.Pumped s p k) (e : Emission) :
    (l.hear e).Pumped s (p.controls (Reaction.controls (k.answer e).2)) (k.answer e).1 ∧
      (l.hear e).calls = l.calls ++ e.call?.toList ∧ (l.hear e).running = l.running := by
  have hsink : l.sink.hear e = (.listener (k.answer e).1,
      { calls := e.call?.toList, reactions := (k.answer e).2 }) := by
    rw [h.sink]
    cases e with
    | hangUp => rfl
    | signal sig => cases sig <;> rfl
  have hline : l.hear e =
      ({ l with
          sink := .listener (k.answer e).1
          calls := l.calls ++ e.call?.toList
          woken := l.woken || false } : Line).reactAll (k.answer e).2 := by
    simp only [Line.hear, hsink]
  have hstart : ({ l with
      sink := .listener (k.answer e).1
      calls := l.calls ++ e.call?.toList
      woken := l.woken || false } : Line).Pumped s p (k.answer e).1 :=
    ⟨h.chain, rfl, h.running, h.ready⟩
  rw [hline]
  exact hstart.reactAll _

/-- The listener is made to do something. -/
theorem Pumped.perform (h : l.Pumped s p k) (a : Act) :
    (l.perform a).Pumped s (p.controls (Reaction.controls (k.perform a).2)) (k.perform a).1 ∧
      (l.perform a).calls = l.calls ∧ (l.perform a).running = l.running := by
  have hline : l.perform a =
      ({ l with sink := .listener (k.perform a).1 } : Line).reactAll (k.perform a).2 := by
    simp only [Line.perform, h.sink, Sink.perform]
  rw [hline]
  have hstart : ({ l with sink := .listener (k.perform a).1 } : Line).Pumped s p
      (k.perform a).1 := ⟨h.chain, rfl, h.running, h.ready⟩
  exact hstart.reactAll _

/-- The listener hears what the pump emits, and what it answers reaches the pump. -/
theorem Pumped.hears (h : l.Pumped s p k) (es : List Emission) :
    (es.foldl Line.hear l).Pumped s (p.controls (Reaction.controls (k.answers es).2))
        (k.answers es).1 ∧
      (es.foldl Line.hear l).calls = l.calls ++ es.filterMap Emission.call? ∧
      (es.foldl Line.hear l).running = l.running := by
  induction es generalizing l p k with
  | nil => exact ⟨h, (List.append_nil _).symm, rfl⟩
  | cons e es ih =>
      obtain ⟨hfirst, hcalls, hrunning⟩ := h.hear e
      obtain ⟨hrest, hcalls', hrunning'⟩ := ih hfirst
      refine ⟨?_, ?_, hrunning'.trans hrunning⟩
      · simp only [Listener.answers, Reaction.controls_append, Pump.controls_append]
        exact hrest
      · rw [List.foldl_cons, hcalls', hcalls, List.append_assoc, List.filterMap_cons]
        cases e.call? <;> rfl

/-- What the listener does by itself reaches the pump. -/
theorem Pumped.performs (h : l.Pumped s p k) (acts : List Act) :
    (acts.foldl Line.perform l).Pumped s
        (p.controls (Reaction.controls (Listener.performAll acts k).2))
        (Listener.performAll acts k).1 ∧
      (acts.foldl Line.perform l).calls = l.calls ∧
      (acts.foldl Line.perform l).running = l.running := by
  induction acts generalizing l p k with
  | nil => exact ⟨h, rfl, rfl⟩
  | cons a acts ih =>
      obtain ⟨hfirst, hcalls, hrunning⟩ := h.perform a
      obtain ⟨hrest, hcalls', hrunning'⟩ := ih hfirst
      refine ⟨?_, hcalls'.trans hcalls, hrunning'.trans hrunning⟩
      simp only [Listener.performAll, Reaction.controls_append, Pump.controls_append]
      exact hrest

/-- What a turn gives to the outside reaches the listener, who may answer. -/
theorem Pumped.absorb (h : l.Pumped s p k) (s' : Source) (p' : Pump) {burst : Burst}
    (hwakes : ∀ task ∈ burst.wakes, task = 0) :
    (l.absorb (.source s' p', burst)).Pumped s'
        (p'.controls (Reaction.controls (k.respond burst).2)) (k.respond burst).1 ∧
      (l.absorb (.source s' p', burst)).calls =
        l.calls ++ burst.emissions.filterMap Emission.call? ∧
      (l.absorb (.source s' p', burst)).running = l.running := by
  have hchanged : (({ l with chain := .source s' p' } : Line).note burst.notes).Pumped s' p' k :=
    ⟨rfl, h.sink, h.running, h.ready⟩
  obtain ⟨hheard, hcalls, hrunning⟩ := hchanged.hears burst.emissions
  obtain ⟨hdone, hcalls', hrunning'⟩ := hheard.performs burst.acts
  refine ⟨⟨?_, hdone.sink, hdone.running, ?_⟩, hcalls'.trans hcalls, hrunning'.trans hrunning⟩
  · simp only [Listener.respond, Reaction.controls_append, Pump.controls_append]
    exact hdone.chain
  · intro task htask
    rcases (mem_wake _ _).mp htask with hold | hnew
    · exact hdone.ready task hold
    · exact hwakes task hnew

end Line

/-! ## Events -/

/-- One thing that happens in a line with a pump. -/
inductive PumpEvent where
  /-- The pump makes a move, or its task comes to run. -/
  | moves
  /-- Something is done between two turns. -/
  | does (a : PumpAct)
  deriving DecidableEq

/-- What becomes of a source to which something is done; whoever sleeps for it is woken. -/
def SourceAct.change : SourceAct → Source → Source
  | .run, s => s
  | .feed items, s => (s.feed items).unpark
  | .finish, s => s.finish.unpark
  | .wake, s => s.unpark

/-- Whether an event is a move of the pump. -/
def PumpEvent.isMove : PumpEvent → Bool
  | .moves => true
  | .does _ => false

namespace Line

variable {l : Line} {s : Source} {p : Pump} {k : Listener}

/-- What an event does.  Nothing can be done in the middle of a turn. -/
def happen (l : Line) : PumpEvent → Line
  | .moves => l.tick.getD l
  | .does a => if l.running.isNone then (PumpScenario.perform a l).2 else l

/-- What a list of events comes to. -/
def run (events : List PumpEvent) (l : Line) : Line :=
  events.foldl happen l

/-- When nobody runs, a task that is ready comes to run. -/
theorem Pumped.rouse (h : l.Pumped s p k) (hrunning : l.running = none) :
    (l.happen .moves).Pumped s p k ∧ (l.happen .moves).calls = l.calls := by
  cases hready : l.ready with
  | nil =>
      have hidle : l.happen .moves = l := by simp [happen, tick, hrunning, hready]
      rw [hidle]
      exact ⟨h, rfl⟩
  | cons task rest =>
      have hcomes : l.happen .moves = { l with ready := rest, running := some task } := by
        simp [happen, tick, hrunning, hready]
      rw [hcomes]
      refine ⟨⟨h.chain, h.sink, ?_, ?_⟩, rfl⟩
      · rintro _ ⟨⟩
        exact h.ready task (by simp [hready])
      · intro other hother
        exact h.ready other (by simp [hready, hother])

/-- A pump that runs takes a turn, whose emissions reach the listener. -/
theorem Pumped.turn (h : l.Pumped s p k) (hrunning : l.running = some 0) :
    ∃ s' p' burst,
      Chain.sourceTurn s p = (.source s' p', burst) ∧
      (l.happen .moves).Pumped s' (p'.controls (Reaction.controls (k.respond burst).2))
        (k.respond burst).1 ∧
      (l.happen .moves).calls = l.calls ++ burst.emissions.filterMap Emission.call? ∧
      (l.happen .moves).running = if burst.goesOn then some 0 else none := by
  have hturns := Chain.sourceTurns_sourceTurn s p
  obtain ⟨s', p', hchain⟩ := hturns.source
  rcases hturn : Chain.sourceTurn s p with ⟨c, burst⟩
  rw [hturn] at hturns hchain
  cases hchain
  have hmoves : l.happen .moves =
      ({ l with running := if burst.goesOn then some 0 else none } : Line).absorb
        (.source s' p', burst) := by
    have hchainTurn : l.chain.turn 0 = (.source s' p', burst) := by
      rw [h.chain, Chain.turn, if_pos rfl, hturn]
    simp only [happen, tick, hrunning, hchainTurn, Option.getD_some]
  have hturning : ({ l with running := if burst.goesOn then some 0 else none } :
      Line).Pumped s p k := by
    refine ⟨h.chain, h.sink, ?_, h.ready⟩
    intro task htask
    dsimp only at htask
    split at htask
    · cases htask
      rfl
    · cases htask
  obtain ⟨hafter, hcalls, hgoes⟩ := hturning.absorb s' p' hturns.wakes
  rw [hmoves]
  exact ⟨s', p', burst, rfl, hafter, hcalls, hgoes⟩

/-- The pump moves: its task comes to run, or it takes one move of its turn. -/
theorem Pumped.move (h : l.Pumped s p k) :
    (l.running = none ∧ (l.happen .moves).Pumped s p k ∧
        (l.happen .moves).calls = l.calls) ∨
      (l.running = some 0 ∧ ∃ s' p' burst,
        Chain.sourceTurn s p = (.source s' p', burst) ∧
        (l.happen .moves).Pumped s' (p'.controls (Reaction.controls (k.respond burst).2))
          (k.respond burst).1 ∧
        (l.happen .moves).calls = l.calls ++ burst.emissions.filterMap Emission.call? ∧
        (l.happen .moves).running = if burst.goesOn then some 0 else none) := by
  cases hrunning : l.running with
  | none => exact .inl ⟨rfl, h.rouse hrunning⟩
  | some task =>
      have hzero := h.running task hrunning
      subst hzero
      exact .inr ⟨rfl, h.turn hrunning⟩

/-- All that can be done between two turns. -/
inductive Does (s : Source) (p : Pump) (k : Listener) :
    PumpAct → Source → Pump → Listener → Prop
  /-- The listener does something; without a handle it controls nothing. -/
  | listens (a : Act) :
      Does s p k (.listener a) s (p.controls (Reaction.controls (k.perform a).2)) (k.perform a).1
  /-- Something is done to the source, which may wake the pump. -/
  | sources (b : SourceAct) (woken : Bool) :
      Does s p k (.source b) (b.change s) (if woken then p.streamReady.1 else p) k

/-- So does a step of the listener between two turns. -/
theorem Pumped.listens (h : l.Pumped s p k) (a : Act) :
    let l' := (Listening.step a l).2
    l'.Pumped s (p.controls (Reaction.controls (k.perform a).2)) (k.perform a).1 ∧
      l'.calls = l.calls ∧ l'.running = l.running := by
  have hholds : Listening.holds l = k.holds := by
    rw [Listening.holds, h.sink]
    exact Option.any_some
  cases a with
  | interrupt => exact h.reactAll [.interrupt]
  | control c =>
      simp only [Listening.step, hholds]
      split
      · rename_i hrefused
        have hnone : k.perform (.control c) = (k, []) := by
          apply Listener.perform_of_not_holds
          simpa using (Bool.and_eq_true_iff.mp hrefused).2
        rw [hnone]
        exact ⟨h, rfl, rfl⟩
      · exact h.perform (.control c)

/-- What is done to the source wakes the pump if it sleeps for it. -/
theorem Pumped.sources (h : l.Pumped s p k) (b : SourceAct) :
    ∃ woken : Bool,
      (b.perform l).2.Pumped (b.change s) (if woken then p.streamReady.1 else p) k ∧
        (b.perform l).2.calls = l.calls ∧ (b.perform l).2.running = l.running := by
  have hsource : l.chain.source? = some s := by
    rw [h.chain]
    rfl
  have hchanges : ∀ f : Source → Source, ∃ woken : Bool,
      (l.atSource f true).Pumped (f s).unpark (if woken then p.streamReady.1 else p) k := by
    intro f
    refine ⟨(f s).parked, ⟨?_, h.sink, h.running, ?_⟩⟩
    · change (l.chain.atSource f true).1 = _
      rw [h.chain]
      simp only [Chain.atSource, Bool.true_and, if_true]
      split <;> rfl
    · intro task htask
      rcases (mem_wake _ _).mp htask with hold | hnew
      · exact h.ready task hold
      · rw [h.chain] at hnew
        exact Chain.eq_of_mem_wakeIf hnew
  cases b with
  | run => exact ⟨false, h, rfl, rfl⟩
  | feed items =>
      obtain ⟨woken, hafter⟩ := hchanges (Source.feed items)
      simp only [SourceAct.perform, hsource]
      exact ⟨woken, hafter, rfl, rfl⟩
  | finish =>
      obtain ⟨woken, hafter⟩ := hchanges Source.finish
      simp only [SourceAct.perform, hsource]
      exact ⟨woken, hafter, rfl, rfl⟩
  | wake =>
      obtain ⟨woken, hafter⟩ := hchanges id
      simp only [SourceAct.perform, hsource]
      exact ⟨woken, hafter, rfl, rfl⟩

/-- Something is done between two turns. -/
theorem Pumped.does (h : l.Pumped s p k) (hrunning : l.running = none) (a : PumpAct) :
    ∃ s' p' k', Does s p k a s' p' k' ∧ (l.happen (.does a)).Pumped s' p' k' ∧
      (l.happen (.does a)).calls = l.calls ∧ (l.happen (.does a)).running = none := by
  have hhappens : l.happen (.does a) = (PumpScenario.perform a l).2 := by
    simp [happen, hrunning]
  rw [hhappens, ← hrunning]
  cases a with
  | listener a => exact ⟨s, _, _, .listens a, h.listens a⟩
  | source b =>
      obtain ⟨woken, hafter⟩ := h.sources b
      exact ⟨_, _, k, .sources b woken, hafter⟩

/-- In the middle of a turn nothing is done. -/
theorem happen_does_of_running {task : Nat} (hrunning : l.running = some task) (a : PumpAct) :
    l.happen (.does a) = l := by
  simp [happen, hrunning]

theorem run_append (first second : List PumpEvent) (l : Line) :
    l.run (first ++ second) = (l.run first).run second :=
  List.foldl_append

/-- Letting the pump run until the line is idle is a run. -/
theorem settle_eq_run (l : Line) : ∃ moves, l.run (List.replicate moves .moves) = l.settle := by
  fun_induction settle l with
  | case1 l htick => exact ⟨0, rfl⟩
  | case2 l moved htick ih =>
      obtain ⟨moves, hmoves⟩ := ih
      refine ⟨moves + 1, ?_⟩
      have hfirst : l.happen .moves = moved := by simp [happen, htick]
      rw [List.replicate_succ]
      change (l.happen .moves).run (List.replicate moves .moves) = moved.settle
      rw [hfirst, hmoves]

end Line

/-! ## Scenarios -/

namespace PumpScenario

variable {l : Line} {s : Source} {p : Pump} {k : Listener}

/-- At the beginning nothing has happened. -/
theorem start_pumped (scenario : PumpScenario) :
    scenario.start.Pumped { items := scenario.source, isOpen := scenario.isOpen } {}
      scenario.listener := by
  refine ⟨rfl, rfl, ?_, ?_⟩
  · intro task htask
    cases htask
  · intro task htask
    simpa [start] using htask

/-- Doing several things is a run. -/
theorem performAll_eq_run (h : l.Pumped s p k) (hrunning : l.running = none)
    (acts : List PumpAct) : (performAll acts l).2 = l.run (acts.map .does) := by
  induction acts generalizing l s p k with
  | nil => rfl
  | cons a acts ih =>
      obtain ⟨s', p', k', -, hafter, -, hstill⟩ := h.does hrunning a
      have hfirst : l.happen (.does a) = (perform a l).2 := by simp [Line.happen, hrunning]
      rw [hfirst] at hafter hstill
      change (performAll acts (perform a l).2).2 = (l.happen (.does a)).run (acts.map .does)
      rw [hfirst]
      exact ih hafter hstill

/-- A step of a pumping scenario is one of the runs. -/
theorem carry_eq_run (h : l.Pumped s p k) (hrunning : l.running = none) (step : PumpStep) :
    ∃ events, (carry step l).2 = l.run events := by
  have hlets : ∀ (acts : List PumpAct) (reply : Reply),
      ∃ events, (letRun (reply, (performAll acts l).2)).2 = l.run events := by
    intro acts reply
    obtain ⟨moves, hmoves⟩ := Line.settle_eq_run (l.run (acts.map .does))
    refine ⟨acts.map .does ++ List.replicate moves .moves, ?_⟩
    rw [Line.run_append, hmoves, ← performAll_eq_run h hrunning]
    rfl
  cases step with
  | act a => exact hlets [a] (perform a l).1
  | batch acts => exact hlets acts _

end PumpScenario
end CreditFlow
