import CreditFlow.Proofs.LineWatch
import CreditFlow.Proofs.PumpTraffic

/-!
# What a pump comes to

What a listener has been told when nothing more happens depends on how much it has asked for,
and on nothing else: not on how that was split, and not on when it was asked.  A grant may
come inside the greeting or inside an item, while the source is polled, between two moves of
a turn, together with others, or long after; a pump that has gone to sleep has looked at every
one of them, because its books balance, and has used them up or has nothing more to hand on.

Main results:

- {lit}`Pumping.Watched.step`: the pump is always awake, or asleep for a reason.
- {lit}`Pump.Books.settled`: what the books of a sleeping pump come to.
- {lit}`Pumping.run_settles`: what its listener has been told.
-/

namespace CreditFlow

/-- How a script ends: with its first failure, or with its completion if it is closed. -/
def Item.ending (isOpen : Bool) (script : List Item) : Option Call :=
  match failure? script with
  | some cause => some (.error cause)
  | none => if isOpen then none else some .complete

/-- Whether an event adds to the source or closes it. -/
def PumpEvent.alters : PumpEvent → Bool
  | .does (.source (.feed _)) => true
  | .does (.source .finish) => true
  | _ => false

/-! ## Sleepers -/

namespace Pumping

/-- The task of the pump runs, is to run, or sleeps for a reason. -/
def Watched (t : Pumping) : Prop :=
  t.line.chain.Tended t.line.ready t.line.running

variable {origin : List Item} {t : Pumping} {s : Source} {p : Pump} {k : Listener}

/-- No move forgets a sleeper. -/
theorem Watched.moves (h : t.Watched) (hpumped : t.line.Pumped s p k) :
    (t.step .moves).Watched := by
  have hturn : ∀ task, t.line.running = some task →
      (t.line.chain.turn task).1.Tended (t.line.ready ++ (t.line.chain.turn task).2.wakes)
        (Chain.runningAfter task (t.line.chain.turn task).2) := by
    intro task hrunning
    have hzero := hpumped.running task hrunning
    subst hzero
    have hturns := Chain.sourceTurns_sourceTurn s p
    obtain ⟨s', p', hafter⟩ := hturns.source
    rcases hturned : Chain.sourceTurn s p with ⟨c, burst⟩
    rw [hturned] at hturns hafter
    cases hafter
    have hminds : p.Minds t.line.ready (some 0) 0 (s.parked = true) := by
      rw [Watched, hpumped.chain, hrunning] at h
      exact h
    rw [hpumped.chain, Chain.turn, if_pos rfl, hturned]
    exact Chain.minds_sourceTurn hminds hturns
  simp only [Watched, step, Line.happen]
  cases htick : t.line.tick with
  | none => exact h
  | some l' => exact Line.tick_tended h hturn htick

/-- Neither does anything that is done from outside. -/
theorem Watched.does (h : t.Watched) (hpumped : t.line.Pumped s p k) (a : PumpAct) :
    (t.step (.does a)).Watched := by
  have hopen : t.line.chain.Tended (t.line.ready ++ []) t.line.running := by
    rwa [List.append_nil]
  cases a with
  | listener a =>
      have hdone : ∀ rs, (t.line.reactAll rs).chain.Tended (t.line.reactAll rs).ready
          (t.line.reactAll rs).running := by
        intro rs
        have hafter := Line.reactAll_tended hopen rs
        rwa [List.append_nil] at hafter
      cases a with
      | interrupt => exact hdone [.interrupt]
      | control c =>
          have hperformed := Line.performs_tended hopen [.control c]
          rw [List.append_nil] at hperformed
          simp only [Watched, step, PumpScenario.perform, Listening.step]
          split
          · exact h
          · exact hperformed
  | source b =>
      have hsource : t.line.chain.source? = some s := by
        rw [hpumped.chain]
        rfl
      cases b with
      | run => exact h
      | feed items =>
          simp only [Watched, step, PumpScenario.perform, SourceAct.perform, hsource]
          exact Line.atSource_tended h _ fun _ => rfl
      | finish =>
          simp only [Watched, step, PumpScenario.perform, SourceAct.perform, hsource]
          exact Line.atSource_tended h _ fun _ => rfl
      | wake =>
          simp only [Watched, step, PumpScenario.perform, SourceAct.perform, hsource]
          exact Line.atSource_tended h _ fun _ => rfl

/-- Whatever happens, the task of the pump does not sleep without a reason. -/
theorem Watched.step (h : t.Watched) (hpumped : t.line.Pumped s p k) (e : PumpEvent) :
    (t.step e).Watched := by
  cases e with
  | moves => exact h.moves hpumped
  | does a => exact h.does hpumped a

end Pumping

/-! ## A pump that sleeps -/

namespace Pump

variable {origin : List Item} {calls : List Call} {given : List Control} {s : Source} {p : Pump}

/-- A pump that sleeps although it goes on has handed on what was asked for, or all that
there is. -/
theorem Flows.settled {emitted : List Octets}
    (h : Flows calls given origin emitted s p) (hrests : p.Rests (s.parked = true))
    (hceiling : Control.total given ≤ Demand.ceiling)
    (hwoken : s.parked = true → s.items = [] ∧ s.isOpen = true) :
    calls = .subscribed :: ((Item.chunks origin).take (Control.total given)).map .next ++
      if (Item.chunks origin).length < Control.total given then
        (Item.ending s.isOpen origin).toList
      else [] := by
  have hexact := h.exact hceiling
  have hchunks := h.past.chunks
  cases hrests with
  | finished hstage => exact absurd hstage h.live.2
  | forGrant hstage hsleep hdemand hgrants =>
      have hall : emitted.length = Control.total given := by
        rw [← hexact, hdemand, hgrants]
        rfl
      have htake : (Item.chunks origin).take (Control.total given) = emitted := by
        rw [hchunks, ← hall, List.take_left]
      have hlong : ¬(Item.chunks origin).length < Control.total given := by
        rw [hchunks, List.length_append]
        omega
      rw [htake, if_neg hlong, List.append_nil]
      exact h.said_of (by simp [hstage])
  | forStream hstage hsleep hdry =>
      rcases hwoken hdry with ⟨hitems, hopen⟩
      have hdemand := h.sleeping hsleep
      have hfailure := h.past.failure
      rw [hitems] at hchunks hfailure
      have hall : Item.chunks origin = emitted := hchunks.trans (List.append_nil _)
      have hending : Item.ending s.isOpen origin = none := by
        simp [Item.ending, hfailure, hopen, Item.failure?]
      have htake : (Item.chunks origin).take (Control.total given) = emitted := by
        rw [hall]
        exact List.take_of_length_le (by omega)
      rw [htake, hending]
      simpa using h.said_of (by simp [hstage])

/-- A pump that has ended although its listener kept asking has handed on all that there
is. -/
theorem Closes.settled {emitted : List Octets} {last : Option Call}
    (h : Closes origin calls given origin emitted last s p)
    (hgiven : ∀ c ∈ given, ∃ n, c = .request (n + 1)) {isOpen : Bool} (hopen : s.isOpen = isOpen) :
    calls = .subscribed :: ((Item.chunks origin).take (Control.total given)).map .next ++
      if (Item.chunks origin).length < Control.total given then
        (Item.ending isOpen origin).toList
      else [] := by
  have hsaid := h.said
  have hshort : ∀ {call : Call}, last = some call → Item.chunks origin = emitted →
      Item.ending isOpen origin = some call → emitted.length < Control.total given →
      calls = .subscribed :: ((Item.chunks origin).take (Control.total given)).map .next ++
        if (Item.chunks origin).length < Control.total given then
          (Item.ending isOpen origin).toList
        else [] := by
    intro call hlast hall hending hcredit
    have htake : (Item.chunks origin).take (Control.total given) = emitted := by
      rw [hall]
      exact List.take_of_length_le (Nat.le_of_lt hcredit)
    rw [htake, hall, if_pos hcredit, hending, hsaid, hlast]
  have hreason := h.reason
  cases hreason with
  | silent hgone =>
      rcases hgone with hcancel | hrelease
      · rcases hgiven _ hcancel with ⟨n, hn⟩
        cases hn
      · rcases hgiven _ hrelease with ⟨n, hn⟩
        cases hn
  | refused hzero =>
      rcases hgiven _ hzero with ⟨n, hn⟩
      cases hn
  | failed cause front rest hscript hchunks hfront hcredit =>
      refine hshort rfl ?_ ?_ hcredit
      · rw [hscript, Item.chunks_append hfront, hchunks]
        exact List.append_nil _
      · simp [Item.ending, hscript, Item.failure?_append hfront, Item.failure?]
  | finished front rest hscript horigin hchunks hfront hclosed hcredit =>
      -- Nothing was fed, so nothing came too late.
      have hfull : front = origin := (hscript ▸ List.prefix_append front rest).eq_of_length
        (Nat.le_antisymm (by rw [hscript]; simp) horigin.length_le)
      rw [hfull] at hchunks hfront
      refine hshort rfl hchunks ?_ hcredit
      simp [Item.ending, hfront, ← hopen, hclosed]

/-- What the books of a pump that sleeps come to, if its listener has asked for something each
time and has kept its handle, and its source was woken wherever it has paused. -/
theorem Books.settled (h : Books origin calls given origin s p)
    (hrests : p.Rests (s.parked = true)) (hceiling : Control.total given ≤ Demand.ceiling)
    (hgiven : ∀ c ∈ given, ∃ n, c = .request (n + 1))
    (hwoken : s.parked = true → s.items = [] ∧ s.isOpen = true) :
    calls = .subscribed :: ((Item.chunks origin).take (Control.total given)).map .next ++
      if (Item.chunks origin).length < Control.total given then
        (Item.ending s.isOpen origin).toList
      else [] := by
  rcases h with ⟨emitted, hflows⟩ | ⟨emitted, last, hcloses⟩
  · exact hflows.settled hrests hceiling hwoken
  · exact hcloses.settled hgiven rfl

end Pump

/-! ## Runs -/

namespace Pumping

/-- What holds in every run that leaves the source as it was put down. -/
structure Steady (scenario : PumpScenario) (t : Pumping) (s : Source) (p : Pump) (k : Listener) :
    Prop extends Keeps scenario.source t s p k where
  watched : t.Watched
  script : t.script = scenario.source
  isOpen : s.isOpen = scenario.isOpen

variable {scenario : PumpScenario} {t : Pumping} {s : Source} {p : Pump} {k : Listener}

/-- What leaves the source as it was put down leaves the run steady. -/
theorem Steady.step (h : t.Steady scenario s p k) {e : PumpEvent} (halters : e.alters = false) :
    ∃ s' p' k', (t.step e).Steady scenario s' p' k' := by
  obtain ⟨s', p', k', hkeeps, hopen, -⟩ := h.toKeeps.step e
  refine ⟨s', p', k', hkeeps, h.watched.step h.toPumped e, ?_, ?_⟩
  · cases e with
    | moves => exact h.script
    | does a =>
        have hfed : a.fed = [] := by
          cases a with
          | listener a => rfl
          | source b => cases b <;> first | rfl | cases halters
        simp only [Pumping.step, hfed, List.append_nil]
        exact h.script
  · refine (hopen ?_).trans h.isOpen
    rintro rfl
    cases halters

/-- A run that leaves the source as it was put down is steady. -/
theorem Steady.run (h : t.Steady scenario s p k) {events : List PumpEvent}
    (halters : ∀ e ∈ events, e.alters = false) :
    ∃ s' p' k', (t.run events).Steady scenario s' p' k' := by
  induction events generalizing t s p k with
  | nil => exact ⟨s, p, k, h⟩
  | cons e events ih =>
      obtain ⟨s', p', k', hafter⟩ := h.step (halters e List.mem_cons_self)
      exact ih hafter fun e' he' => halters e' (List.mem_cons_of_mem e he')

theorem start_steady (scenario : PumpScenario) :
    (start scenario).Steady scenario { items := scenario.source, isOpen := scenario.isOpen } {}
      scenario.listener := by
  refine ⟨start_keeps scenario, ⟨.inr (.inl ?_), fun _ => .inl rfl, fun hpolling => ?_⟩, rfl, rfl⟩
  · exact List.mem_singleton_self 0
  · cases hpolling

/-- A source is given, and is woken at each pause that it comes to.  Its listener asks for
something each time, and neither cancels nor lets go of its handle; together it has asked for
no more than the demand can hold.  Then, however that was split and whenever it was asked, as
soon as the line is idle the listener has been greeted, has been given as many chunks as it has
asked for or as there are, and after them has been told of the end of the source if it has
asked for more than there are. -/
theorem run_settles (scenario : PumpScenario) (events : List PumpEvent)
    (hgivenSource : ∀ e ∈ events, e.alters = false) :
    let t := (start scenario).run events
    (∀ c ∈ t.given, ∃ n, c = .request (n + 1)) → t.granted ≤ Demand.ceiling →
      t.line.isIdle = true →
      (∀ s, t.line.chain.source? = some s → s.parked = true → s.items = [] ∧ s.isOpen = true) →
      t.line.calls =
        .subscribed :: ((Item.chunks scenario.source).take t.granted).map .next ++
          if (Item.chunks scenario.source).length < t.granted then
            (Item.ending scenario.isOpen scenario.source).toList
          else [] := by
  intro t hgiven hceiling hidle hwoken
  obtain ⟨s, p, k, h⟩ := (start_steady scenario).run hgivenSource
  have hsource : t.line.chain.source? = some s := by
    rw [h.chain]
    rfl
  have hrests : p.Rests (s.parked = true) := by
    have hwatched := h.watched
    obtain ⟨hrunning, hready⟩ := t.line.isIdle_iff.mp hidle
    rw [Watched, h.chain, hrunning, hready] at hwatched
    exact Chain.rests_of_idle hwatched
  have hbooks : Pump.Books scenario.source t.line.calls t.given scenario.source s p := by
    have hkept := h.books
    rwa [h.script] at hkept
  have hsettled := hbooks.settled hrests hceiling hgiven (hwoken s hsource)
  rw [h.isOpen] at hsettled
  exact hsettled

/-- Grants from inside the greeting, inside an item, and during a poll, several at once, and
one in the middle of a turn; the source pauses, steps aside, and fails. -/
theorem scattered_grants_settle :
    let scenario : PumpScenario :=
      { source := [.chunk [1], .pause, .act (.control (.request 1)), .chunk [2], .stepAside,
          .chunk [], .fail (.test "lost")]
        listener :=
          { onSubscribe := [.control (.request 1)], onNext := [[.control (.request 1)]] } }
    let events := List.replicate 9 PumpEvent.moves ++
      [.does (.listener (.control (.request 1))), .does (.source .wake), .moves,
        .does (.listener (.control (.request 2)))] ++ List.replicate 20 .moves
    let t := (start scenario).run events
    t.granted = 6 ∧
      t.line.calls = [.subscribed, .next [1], .next [2], .next [], .error (.test "lost")] := by
  intro scenario events t
  have hgranted : t.granted = 6 := by decide +kernel
  have hgiven : t.given = [.request 1, .request 1, .request 1, .request 2, .request 1] := by
    decide +kernel
  have hsettled := run_settles scenario events (by decide +kernel)
  refine ⟨hgranted, (hsettled ?_ ?_ (by decide +kernel) ?_).trans ?_⟩
  · rw [hgiven]
    intro c hc
    simp only [List.mem_cons, List.not_mem_nil, or_false] at hc
    rcases hc with rfl | rfl | rfl | rfl | rfl <;> exact ⟨_, rfl⟩
  · rw [hgranted]
    decide
  · have hawake : (t.line.chain.source?.map Source.parked) = some false := by decide +kernel
    intro s hs hparked
    rw [hs, Option.map_some, Option.some.injEq] at hawake
    rw [hawake] at hparked
    cases hparked
  · rw [hgranted]
    rfl

end Pumping
end CreditFlow
