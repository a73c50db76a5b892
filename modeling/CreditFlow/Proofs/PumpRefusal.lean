import CreditFlow.Proofs.PumpOutcome
import CreditFlow.Proofs.PumpQueue

/-!
# A listener that asks for nothing

A listener may ask for nothing at any moment: inside a signal that it hears, while the source is
polled, behind other grants, or when the pump has long gone to sleep.  Wherever the pump stands
then, it hands one more item on at most, and ends.

Main results:

- {lit}`Pumping.Stepped.of_step`: all that an event can come to.
- {lit}`Pumping.Heeding.step`, {lit}`Pumping.Since.step`, {lit}`Pumping.Tells.step`: what every
  event keeps.
- {lit}`Pumping.run_after_refusal`: what a listener hears after it has asked for nothing.
-/

namespace CreditFlow

/-! ## Events -/

/-- A line with a pump shows which source, pump and listener there are. -/
theorem Line.Pumped.unique {l : Line} {s s' : Source} {p p' : Pump} {k k' : Listener}
    (h : l.Pumped s p k) (h' : l.Pumped s' p' k') : s = s' ∧ p = p' ∧ k = k' := by
  have hchain := h.chain.symm.trans h'.chain
  have hsink := h.sink.symm.trans h'.sink
  cases hchain
  cases hsink
  exact ⟨rfl, rfl, rfl⟩

namespace Pumping

/-- All that an event can come to. -/
inductive Stepped (t : Pumping) (s : Source) (p : Pump) (t' : Pumping) : Source → Pump → Prop
  /-- The task of the pump comes to run, or nothing happens. -/
  | rouses (hcalls : t'.line.calls = t.line.calls) (hgiven : t'.given = t.given) :
      Stepped t s p t' s p
  /-- The pump takes a turn, in the middle of which its listener may answer. -/
  | turns (s' : Source) (p' : Pump) (burst : Burst) (cs : List Control)
      (hturn : Chain.SourceTurns s p (.source s' p', burst))
      (hcalls : t'.line.calls = t.line.calls ++ burst.calls) (hgiven : t'.given = t.given ++ cs) :
      Stepped t s p t' s' (p'.controls cs)
  /-- The listener does something of its own accord. -/
  | listens (cs : List Control) (hcalls : t'.line.calls = t.line.calls)
      (hgiven : t'.given = t.given ++ cs) : Stepped t s p t' s (p.controls cs)
  /-- Something is done to the source. -/
  | sources (b : SourceAct) (woken : Bool) (hcalls : t'.line.calls = t.line.calls)
      (hgiven : t'.given = t.given) :
      Stepped t s p t' (b.change s) (if woken then p.streamReady.1 else p)

variable {t u : Pumping} {s s' : Source} {p p' : Pump} {k : Listener}

/-- Every event is in the list. -/
theorem Stepped.of_step (h : t.line.Pumped s p k) (e : PumpEvent) :
    ∃ s' p' k', (t.step e).line.Pumped s' p' k' ∧ t.Stepped s p (t.step e) s' p' := by
  cases e with
  | moves =>
      rcases h.move with ⟨hrunning, hafter, hcalls⟩ |
        ⟨hrunning, s', p', burst, hturn, hafter, hcalls, -⟩
      · refine ⟨s, p, k, hafter, .rouses hcalls ?_⟩
        simp [step, Line.controlsOfMove, hrunning]
      · have hchain : t.line.chain.turn 0 = (.source s' p', burst) := by
          rw [h.chain, Chain.turn, if_pos rfl, hturn]
        have hgiven : t.line.controlsOfMove = Reaction.controls (k.respond burst).2 := by
          simp [Line.controlsOfMove, hrunning, h.sink, hchain]
        exact ⟨s', _, _, hafter, .turns s' p' burst _ (Chain.sourceTurns_of_sourceTurn hturn)
          hcalls (congrArg (t.given ++ ·) hgiven)⟩
  | does a =>
      cases a with
      | listener a =>
          obtain ⟨hafter, hcalls, -⟩ := h.listens a
          have hgiven : t.line.controlsOf (.listener a) = Reaction.controls (k.perform a).2 := by
            simp [Line.controlsOf, h.sink]
          exact ⟨s, _, _, hafter, .listens _ hcalls (congrArg (t.given ++ ·) hgiven)⟩
      | source b =>
          obtain ⟨woken, hafter, hcalls, -⟩ := h.sources b
          exact ⟨_, _, k, hafter, .sources b woken hcalls (List.append_nil _)⟩

/-- What holds in every run: the books are right, nobody sleeps without a reason, and nothing
was used that was granted after a grant of nothing. -/
structure Heeding (scenario : PumpScenario) (t : Pumping) (s : Source) (p : Pump) (k : Listener) :
    Prop extends Keeps scenario.source t s p k where
  watched : t.Watched
  heeds : Pump.Heeds (Control.grants t.given) t.emitted.length s p

variable {scenario : PumpScenario}

/-- What holds of a pump and its grants holds after every event. -/
theorem Heeding.step (h : t.Heeding scenario s p k) (e : PumpEvent) :
    ∃ s' p' k', (t.step e).Heeding scenario s' p' k' ∧ t.Stepped s p (t.step e) s' p' := by
  obtain ⟨s', p', k', hkeeps, -⟩ := h.toKeeps.step e
  obtain ⟨s'', p'', k'', hpumped, hstepped⟩ := Stepped.of_step h.toPumped e
  obtain ⟨rfl, rfl, rfl⟩ := hpumped.unique hkeeps.toPumped
  refine ⟨s'', p'', k'', ⟨hkeeps, h.watched.step h.toPumped e, ?_⟩, hstepped⟩
  generalize t.step e = t' at hstepped
  have hquiet : t'.line.calls = t.line.calls → t'.emitted = t.emitted := fun hcalls => by
    rw [emitted, hcalls, emitted]
  cases hstepped with
  | rouses hcalls hgiven =>
      rw [hgiven, hquiet hcalls]
      exact h.heeds
  | turns s' p' burst cs hturn hcalls hgiven =>
      have hemitted : t'.emitted.length =
          t.emitted.length + (burst.calls.filterMap Call.chunk?).length := by
        rw [emitted, hcalls, List.filterMap_append, List.length_append, emitted]
      rw [hgiven, hemitted]
      exact (h.heeds.turn hturn).controls cs
  | listens cs hcalls hgiven =>
      rw [hgiven, hquiet hcalls]
      exact h.heeds.controls cs
  | sources b woken hcalls hgiven =>
      rw [hgiven, hquiet hcalls]
      exact h.heeds.sources b woken

theorem start_heeding (scenario : PumpScenario) :
    (start scenario).Heeding scenario { items := scenario.source, isOpen := scenario.isOpen } {}
      scenario.listener := by
  refine ⟨start_keeps scenario, (start_steady scenario).watched, ?_⟩
  exact ⟨Nat.le_refl _, Nat.le_refl _, fun _ _ => .rfl, fun _ _ => ⟨rfl, Nat.le_refl _⟩, by simp⟩

/-- It holds in every run. -/
theorem Heeding.run (h : t.Heeding scenario s p k) (events : List PumpEvent) :
    ∃ s' p' k', (t.run events).Heeding scenario s' p' k' := by
  induction events generalizing t s p k with
  | nil => exact ⟨s, p, k, h⟩
  | cons e events ih =>
      obtain ⟨s', p', k', hafter, -⟩ := h.step e
      exact ih hafter

theorem Heeding.pulled_eq (h : t.Heeding scenario s p k) : t.pulled = s.pulled := by
  simp [pulled, PumpScenario.pulled, h.chain, Chain.source?]

/-! ## After a grant of nothing -/

/-- What has come of a pump since `u`, where its listener had asked for nothing. -/
structure Since (u t : Pumping) (s : Source) (p : Pump) : Prop where
  refusing : p.Refusing
  pulled : s.pulled + p.remaining ≤ u.pulled + 1
  said : ∃ said, t.line.calls = u.line.calls ++ said ∧
    (said.filterMap Call.chunk?).length + p.remaining ≤ 1 ∧
    ∀ call ∈ said, call.isEnd = true → p.remaining = 0 ∧
      (call = .error .zeroDemand ∨ said.filterMap Call.chunk? = [])

/-- Controls, and what is done to the source, say nothing and hand nothing on. -/
theorem Since.quietly {t' : Pumping} (h : Since u t s p) (hcalls : t'.line.calls = t.line.calls)
    (hrefusing : p'.Refusing) (hstage : p'.stage = p.stage) (hpulled : s'.pulled = s.pulled) :
    Since u t' s' p' := by
  have hremaining : p'.remaining = p.remaining := by rw [Pump.remaining, hstage, Pump.remaining]
  obtain ⟨said, hsaid, hitems, hends⟩ := h.said
  exact ⟨hrefusing, by rw [hpulled, hremaining]; exact h.pulled, said, hcalls.trans hsaid,
    by rw [hremaining]; exact hitems, by rw [hremaining]; exact hends⟩

/-- A turn hands on what was still to come, or less. -/
theorem Since.turns {t' : Pumping} {burst : Burst} (h : Since u t s p)
    (hturn : Chain.SourceTurns s p (.source s' p', burst))
    (hcalls : t'.line.calls = t.line.calls ++ burst.calls) : Since u t' s' p' := by
  obtain ⟨hrefusing, hhanded, hpulled, htold⟩ := hturn.refusing h.refusing
  obtain ⟨said, hsaid, hitems, hends⟩ := h.said
  have hbound := h.pulled
  refine ⟨hrefusing, by omega, said ++ burst.calls, ?_, ?_, ?_⟩
  · rw [hcalls, hsaid, List.append_assoc]
  · rw [List.filterMap_append, List.length_append]
    omega
  · intro call hcall hend
    rw [List.filterMap_append]
    rcases List.mem_append.mp hcall with hold | hnew
    · -- Behind an end nothing is handed on.
      obtain ⟨hover, hreason⟩ := hends call hold hend
      have hnothing : burst.calls.filterMap Call.chunk? = [] :=
        List.eq_nil_of_length_eq_zero (by omega)
      exact ⟨by omega, hreason.imp_right fun hnone => by rw [hnone, hnothing]; rfl⟩
    · -- An end that its source comes to stands in place of an item.
      obtain ⟨hover, hreason⟩ := htold call hnew hend
      refine ⟨hover, hreason.imp_right fun ⟨hone, hnothing⟩ => ?_⟩
      have hnone : said.filterMap Call.chunk? = [] :=
        List.eq_nil_of_length_eq_zero (by omega)
      rw [hnone, hnothing]
      rfl

/-- Whatever happens since a grant of nothing uses up what the pump may still hand on. -/
theorem Since.step {t' : Pumping} (h : Since u t s p) (hstepped : t.Stepped s p t' s' p') :
    Since u t' s' p' := by
  have hcontrols : ∀ {q : Pump} (cs : List Control), q.Refusing → (q.controls cs).Refusing :=
    fun cs hq => Pump.controls_keeps (fun c hq => hq.control c) hq cs
  cases hstepped with
  | rouses hcalls hgiven => exact h.quietly hcalls h.refusing rfl rfl
  | turns s' q burst cs hturn hcalls hgiven =>
      have hturned := h.turns hturn hcalls
      exact hturned.quietly rfl (hcontrols cs hturned.refusing) (Pump.controls_stage cs q) rfl
  | listens cs hcalls hgiven =>
      exact h.quietly hcalls (hcontrols cs h.refusing) (Pump.controls_stage cs p) rfl
  | sources b woken hcalls hgiven =>
      have hpulled := (Pump.change_parts b s).1
      have hready : p.streamReady.1.Refusing := by
        unfold Pump.streamReady
        split
        · exact h.refusing
        · exact h.refusing
      split
      · exact h.quietly hcalls hready p.streamReady_parts.1 hpulled
      · exact h.quietly hcalls h.refusing rfl hpulled

/-- A pump that has ended has told its listener of an end, or was cancelled. -/
def Tells (t : Pumping) (p : Pump) : Prop :=
  p.Ended → (∃ call ∈ t.line.calls, call.isEnd = true) ∨ .cancel ∈ t.given

/-- An end is told, unless the pump was cancelled or lost its handle while nothing was asked. -/
theorem Tells.step {t' : Pumping} (h : t.Tells p) (hheeding : t.Heeding scenario s p k)
    (hstepped : t.Stepped s p t' s' p') (hasked : p.Refusing ∨ .release ∉ t.given) :
    t'.Tells p' := by
  have hmono : ∀ (q : Pump) (said : List Call) (cs : List Control),
      t'.line.calls = t.line.calls ++ said → t'.given = t.given ++ cs → (q.Ended → p.Ended) →
      t'.Tells q := by
    intro q said cs hcalls hgiven hended hq
    rw [hcalls, hgiven]
    rcases h (hended hq) with ⟨call, hcall, hend⟩ | hcancel
    · exact .inl ⟨call, List.mem_append_left _ hcall, hend⟩
    · exact .inr (List.mem_append_left _ hcancel)
  have hsame : ∀ q : Pump, t'.line.calls = t.line.calls → ∀ cs, t'.given = t.given ++ cs →
      q.stage = p.stage → t'.Tells q := fun q hcalls cs hgiven hstage =>
    hmono q [] cs (hcalls.trans (List.append_nil _).symm) hgiven
      fun hended => by rwa [Pump.Ended, hstage] at hended
  cases hstepped with
  | rouses hcalls hgiven =>
      exact hsame _ hcalls [] (hgiven.trans (List.append_nil _).symm) rfl
  | listens cs hcalls hgiven => exact hsame _ hcalls cs hgiven (Pump.controls_stage cs p)
  | sources b woken hcalls hgiven =>
      refine hsame _ hcalls [] (hgiven.trans (List.append_nil _).symm) ?_
      split
      · exact p.streamReady_parts.1
      · rfl
  | turns s' q burst cs hturn hcalls hgiven =>
      by_cases hgoing : p.Ended
      · exact hmono _ burst.calls cs hcalls hgiven fun _ => hgoing
      · intro hended
        rw [Pump.Ended, Pump.controls_stage] at hended
        obtain ⟨emitted, hflows⟩ :
            ∃ emitted, Pump.Flows t.line.calls t.given t.script emitted s p := by
          rcases hheeding.books with hflows | ⟨_, _, hcloses⟩
          · exact hflows
          · exact absurd hcloses.stage hgoing
        rcases hturn.says_end hgoing hended with hcancelled | ⟨hgrants, hheld⟩ | ⟨call, hcall, hend⟩
        · refine .inr ?_
          rw [hgiven]
          exact List.mem_append_left _ (hflows.cancelled hcancelled)
        · rcases hasked with (hover | hzero) | hkept
          · exact absurd hover hgoing
          · rw [hgrants] at hzero
            cases hzero
          · exact absurd (hflows.released hheld) hkept
        · refine .inl ⟨call, ?_, hend⟩
          rw [hcalls]
          exact List.mem_append_right _ hcall

/-- An end that was told is the last thing that was said, and there was a reason for it. -/
theorem Heeding.reason (h : t.Heeding scenario s p k) {call : Call} (hcall : call ∈ t.line.calls)
    (hend : call.isEnd = true) :
    Pump.Reason scenario.source t.given t.script t.emitted s (some call) := by
  have hitems : ∀ emitted : List Octets, call ∈ Call.subscribed :: emitted.map .next → False := by
    intro emitted hmem
    rcases List.mem_cons.mp hmem with rfl | hmem
    · cases hend
    · obtain ⟨bytes, -, rfl⟩ := List.mem_map.mp hmem
      cases hend
  rcases h.books with ⟨emitted, hflows⟩ | ⟨emitted, last, hcloses⟩
  · rw [hflows.said] at hcall
    split at hcall
    · cases hcall
    · exact (hitems emitted hcall).elim
  · rw [hcloses.said] at hcall
    have hlast : last = some call := by
      rcases List.mem_append.mp hcall with hmem | hmem
      · exact (hitems emitted hmem).elim
      · exact Option.mem_toList.mp hmem
    subst hlast
    have hemitted : t.emitted = emitted := hcloses.emitted_eq
    rw [hemitted]
    exact hcloses.reason

/-! ## Runs -/

/-- Controls that were given stay given. -/
theorem given_prefix_step (t : Pumping) (e : PumpEvent) : t.given <+: (t.step e).given := by
  cases e <;> exact List.prefix_append _ _

/-- What the listener has given is not taken back. -/
theorem given_prefix_run (t : Pumping) (events : List PumpEvent) :
    t.given <+: (t.run events).given := by
  induction events generalizing t with
  | nil => exact List.prefix_refl _
  | cons e events ih => exact (t.given_prefix_step e).trans (ih (t.step e))

/-- A whole run uses up no more than that, either. -/
theorem Since.run (h : Since u t s p) (hheeding : t.Heeding scenario s p k)
    (later : List PumpEvent) :
    ∃ s' p' k', (t.run later).Heeding scenario s' p' k' ∧ Since u (t.run later) s' p' := by
  induction later generalizing t s p k with
  | nil => exact ⟨s, p, k, hheeding, h⟩
  | cons e later ih =>
      obtain ⟨s', p', k', hnext, hstepped⟩ := hheeding.step e
      exact ih (h.step hstepped) hnext

/-- If the handle was not let go before the grant of nothing, the end is told. -/
theorem Tells.run (h : t.Tells p) (hheeding : t.Heeding scenario s p k)
    {events : List PumpEvent}
    (hkept : .release ∉ (t.run events).given.takeWhile (· ≠ .request 0)) :
    ∃ s' p' k', (t.run events).Heeding scenario s' p' k' ∧ (t.run events).Tells p' := by
  induction events generalizing t s p k with
  | nil => exact ⟨s, p, k, hheeding, h⟩
  | cons e events ih =>
      obtain ⟨s', p', k', hnext, hstepped⟩ := hheeding.step e
      refine ih (h.step hheeding hstepped ?_) hnext hkept
      by_cases hzero : .request 0 ∈ t.given
      · exact .inl (hheeding.heeds.refusing ((Control.zero_mem_grants_iff _).mpr hzero))
      · refine .inr fun hrelease => hkept ?_
        obtain ⟨later, hlater⟩ := t.given_prefix_run (e :: events)
        have hall : ∀ c ∈ t.given, decide (c ≠ .request 0) = true := fun c hc => by
          rw [decide_eq_true_iff]
          exact fun hsame => hzero (hsame ▸ hc)
        rw [← hlater, List.takeWhile_append_of_pos hall]
        exact List.mem_append_left _ hrelease

/-- A listener has asked for nothing at some time, wherever the pump was then, and whatever was
granted before and after.  From then on

- the listener is given one more item at most, and one more is pulled for it at most;
- it is told of no other end than that of a stream that was asked for nothing, unless its source
  fails or ends in place of that item;
- what was pulled, and what was handed on together with the demand that is left, is within what
  was granted before it asked for nothing;
- and when the line is idle it has been told of an end, unless it has cancelled, has let go of
  its handle before, or the source sleeps. -/
theorem run_after_refusal (scenario : PumpScenario) (before later : List PumpEvent) :
    let u := (start scenario).run before
    let v := u.run later
    .request 0 ∈ u.given →
      (∃ said, v.line.calls = u.line.calls ++ said ∧ (said.filterMap Call.chunk?).length ≤ 1 ∧
        ∀ call ∈ said, call.isEnd = true →
          (call = .error .zeroDemand ∨ said.filterMap Call.chunk? = []) ∧
            ∃ s, v.line.chain.source? = some s ∧
              Pump.Reason scenario.source v.given v.script v.emitted s (some call)) ∧
      v.pulled ≤ u.pulled + 1 ∧
      v.pulled ≤ Pump.heeded (Control.grants u.given) ∧
      (∀ p, v.line.chain.pump? = some p →
        v.emitted.length + p.demand.items ≤ Pump.heeded (Control.grants u.given)) ∧
      (v.line.isIdle = true → .cancel ∉ v.given →
        .release ∉ v.given.takeWhile (· ≠ .request 0) →
        (∀ s, v.line.chain.source? = some s → s.parked = false) →
        ∃ call ∈ v.line.calls, call.isEnd = true) := by
  intro u v hzero
  have hstart := start_heeding scenario
  obtain ⟨s, p, k, hu⟩ : ∃ s p k, u.Heeding scenario s p k := hstart.run before
  have hgiven : 0 ∈ Control.grants u.given := (Control.zero_mem_grants_iff _).mpr hzero
  have hsince : Since u u s p := by
    refine ⟨hu.heeds.refusing hgiven, ?_, [], (List.append_nil _).symm, ?_, ?_⟩
    · have hone := p.remaining_le
      have hpulled := hu.pulled_eq
      omega
    · simpa using p.remaining_le
    · intro call hcall
      cases hcall
  obtain ⟨s', p', k', hv, hafter⟩ : ∃ s' p' k', v.Heeding scenario s' p' k' ∧ Since u v s' p' :=
    hsince.run hu later
  have hheeded : Pump.heeded (Control.grants v.given) = Pump.heeded (Control.grants u.given) := by
    obtain ⟨cs, hcs⟩ := u.given_prefix_run later
    have hgrants : Control.grants v.given = Control.grants u.given ++ Control.grants cs := by
      rw [← Control.grants_append, hcs]
    rw [hgrants, Pump.heeded_append_of_zero hgiven]
  have hpulled : v.pulled = s'.pulled := hv.pulled_eq
  have hsource : v.line.chain.source? = some s' := by
    rw [hv.chain]
    rfl
  refine ⟨?_, ?_, ?_, fun q hq => ?_, fun hidle hopen hkept hawake => ?_⟩
  · obtain ⟨said, hsaid, hitems, hends⟩ := hafter.said
    refine ⟨said, hsaid, by omega, fun call hcall hend => ⟨(hends call hcall hend).2, s', hsource, ?_⟩⟩
    exact hv.reason (by rw [hsaid]; exact List.mem_append_right _ hcall) hend
  · have hbound := hafter.pulled
    omega
  · rw [hpulled, ← hheeded]
    exact hv.heeds.pulled
  · rw [hv.chain] at hq
    cases hq
    rw [← hheeded]
    exact hv.heeds.spent
  · have hrests : p'.Rests (s'.parked = true) := by
      have hwatched := hv.watched
      obtain ⟨hrunning, hready⟩ := v.line.isIdle_iff.mp hidle
      rw [Watched, hv.chain, hrunning, hready] at hwatched
      exact Chain.rests_of_idle hwatched
    have hended : p'.Ended := by
      cases hrests with
      | finished hstage => exact .inr hstage
      | forGrant hstage hsleep hdemand hgrants =>
          have hwaits := hafter.refusing.going hstage (by simp) (by simp)
          rw [hgrants] at hwaits
          cases hwaits
      | forStream hstage hsleep hdry =>
          rw [hawake s' hsource] at hdry
          cases hdry
    have hall : (start scenario).run (before ++ later) = v := List.foldl_append
    have hfresh : (start scenario).Tells {} := fun hended => by
      rcases hended with hstage | hstage <;> cases hstage
    obtain ⟨s'', p'', k'', hv', htells⟩ := hfresh.run hstart (hall ▸ hkept)
    rw [hall] at hv' htells
    obtain ⟨-, rfl, -⟩ := hv.unique hv'.toPumped
    exact (htells hended).resolve_right hopen

/-- A listener has asked for five items, is given one, and asks for nothing while the source is
polled for the second one, and for seven more later.  It is given that second item, and then an
error; of its grants two were used. -/
theorem polled_refusal_ends :
    let scenario : PumpScenario :=
      { source := [.chunk [1], .act (.control (.request 0)), .pause, .chunk [2], .chunk [3]]
        listener := { onSubscribe := [.control (.request 2), .control (.request 3)] } }
    let u := (start scenario).run (List.replicate 9 .moves)
    let v := u.run (.does (.listener (.control (.request 7))) :: .does (.source .wake) ::
      List.replicate 9 .moves)
    u.line.calls = [.subscribed, .next [1]] ∧
      v.line.calls = [.subscribed, .next [1], .next [2], .error .zeroDemand] ∧
      v.given = [.request 2, .request 3, .request 0, .request 7] ∧
      v.pulled = 2 ∧ v.pulled ≤ 5 ∧ ∃ call ∈ v.line.calls, call.isEnd = true := by
  intro scenario u v
  have hgiven : v.given = [.request 2, .request 3, .request 0, .request 7] := by decide +kernel
  have hasked : u.given = [.request 2, .request 3, .request 0] := by decide +kernel
  have hawake : (v.line.chain.source?.map Source.parked) = some false := by decide +kernel
  obtain ⟨-, -, hpulled, -, hends⟩ := run_after_refusal scenario (List.replicate 9 .moves)
    (.does (.listener (.control (.request 7))) :: .does (.source .wake) ::
      List.replicate 9 .moves) (by rw [hasked]; decide)
  refine ⟨by decide +kernel, by decide +kernel, hgiven, by decide +kernel, ?_,
    hends (by decide +kernel) ?_ ?_ ?_⟩
  · rw [hasked] at hpulled
    exact hpulled
  · rw [hgiven]
    decide
  · rw [hgiven]
    decide
  · intro s hs
    rw [hs, Option.map_some, Option.some.injEq] at hawake
    exact hawake

end Pumping
end CreditFlow
