import CreditFlow.Proofs.ChainPort
import Mathlib.Tactic.Common

/-!
# Who is awake in a chain

The task of a pump sleeps for one of three reasons: it is over, it waits for a grant that
did not come, or it waits for its stream or its source, which is dry and will wake it.  A
chain is *tended* when each of its tasks runs, is to run, or sleeps for such a reason.  No
wakeup is ever lost: whatever reaches a task that sleeps either leaves it its reason or
wakes it.

When nothing runs and nothing is to run, every task has a reason, and then the reasons
chain up: the last hop waits for its stream, because the hop before waits for its own, and
so on up to a writer that has not been given anything to signal, or to a source that was
not woken.

Main results:

- {lit}`Chain.Tended.control`, {lit}`Chain.Tended.hear`: no wakeup is lost.
- {lit}`Chain.Tended.turn`: a turn leaves a chain tended.
- {lit}`Chain.idle_backlog`: in an idle chain whose consumer waits, nothing is on its way
  from a writer.
- {lit}`Chain.idle_source`: and a source has not been woken.
-/

namespace CreditFlow

/-- A stream has nothing for whoever sleeps for it, and has asked if it could. -/
structure PullStream.Dry (s : PullStream Unit) : Prop where
  parked : s.parked = true
  inbox : s.inbox = []
  connected : s.connected = true
  asked : s.requested = true ∨ s.subscription = none

/-- The task of a pump sleeps, and for a reason.  `dry` says that what it pulls has nothing
for it, and will wake it. -/
inductive Pump.Rests (dry : Prop) (p : Pump) : Prop
  | finished (hstage : p.stage = .over)
  /-- Nothing was granted. -/
  | forGrant (hstage : p.stage = .between) (hsleep : p.sleep = some .forGrant)
      (hdemand : p.demand.items = 0) (hgrants : p.grants = [])
  | forStream (hstage : p.stage = .between) (hsleep : p.sleep = some .forStream) (hdry : dry)

/-- Task `k` runs, is to run, or sleeps for a reason. -/
structure Pump.Minds (awake : List Nat) (running : Option Nat) (k : Nat) (dry : Prop)
    (p : Pump) : Prop where
  minded : running = some k ∨ k ∈ awake ∨ p.Rests dry
  /-- Only the running task is in the middle of something. -/
  stage : running ≠ some k → p.stage = .fresh ∨ p.stage = .between ∨ p.stage = .over
  /-- A poll that is under way will be told of what arrives meanwhile. -/
  polling : p.stage = .polling → p.sleep = some .forStream ∨ k ∈ awake

namespace Chain

/-- Every task of a chain runs, is to run, or sleeps for a reason. -/
def Tended (awake : List Nat) (running : Option Nat) : Chain → Prop
  | source s p => p.Minds awake running 0 (s.parked = true)
  | hop before s p =>
      before.Tended awake running ∧ p.Minds awake running (before.hops + 1) s.Dry
  | _ => True

variable {awake awake' : List Nat} {running running' : Option Nat} {dry : Prop}

/-- It does no harm to wake more tasks. -/
theorem minds_mono {k : Nat} {p : Pump} (h : p.Minds awake running k dry)
    (hsub : ∀ j ∈ awake, j ∈ awake') : p.Minds awake' running k dry :=
  ⟨h.minded.imp_right (Or.imp_left (hsub k)), h.stage,
    fun hpolling => (h.polling hpolling).imp_right (hsub k)⟩

/-- Nobody is forgotten when more tasks are to run. -/
theorem Tended.mono {c : Chain} (h : c.Tended awake running)
    (hsub : ∀ j ∈ awake, j ∈ awake') : c.Tended awake' running := by
  induction c with
  | source s p => exact minds_mono h hsub
  | hop before s p ih => exact ⟨ih h.1, minds_mono h.2 hsub⟩
  | _ => trivial

/-- What runs matters to a task only if it is the task itself. -/
theorem minds_of_running {k : Nat} {p : Pump}
    (h : p.Minds awake running k dry) (hrunning : running = some k ↔ running' = some k) :
    p.Minds awake running' k dry :=
  ⟨h.minded.imp_left hrunning.mp, fun hother => h.stage fun hsame => hother (hrunning.mp hsame),
    h.polling⟩

/-- Which task runs outside a chain does not matter to the tasks of the chain. -/
theorem Tended.of_running {c : Chain} (h : c.Tended awake running) (running' : Option Nat)
    (hrunning : ∀ k ≤ c.hops, running = some k ↔ running' = some k) :
    c.Tended awake running' := by
  induction c with
  | source s p => exact minds_of_running h (hrunning 0 (Nat.le_refl _))
  | hop before s p ih =>
      refine ⟨ih h.1 fun k hk => hrunning k (Nat.le_succ_of_le hk), ?_⟩
      exact minds_of_running h.2 (hrunning _ (Nat.le_refl _))
  | _ => trivial

/-! ## Controls -/

/-- A control either leaves a sleeper its reason or wakes it. -/
theorem minds_control {k : Nat} {p : Pump} (h : p.Minds awake running k dry)
    (c : Control) : (p.control c).1.Minds (awake ++ wakeIf (p.control c).2 k) running k dry := by
  have hkept : p.Minds (awake ++ wakeIf false k) running k dry := by
    simpa [wakeIf] using h
  -- Whoever is woken is to run, whatever else the control has changed.
  have hwoken : ∀ p' : Pump, p'.stage = p.stage →
      p'.Minds (awake ++ wakeIf true k) running k dry := by
    intro p' hstage
    have hmem : k ∈ awake ++ wakeIf true k := by simp [wakeIf]
    refine ⟨.inr (.inl hmem), fun hother => ?_, fun _ => .inr hmem⟩
    rw [hstage]
    exact h.stage hother
  unfold Pump.control
  by_cases hover : p.stage = .over
  · rw [if_pos hover]
    exact hkept
  · rw [if_neg hover]
    have hquiet : ∀ p' : Pump, p'.stage = p.stage → p'.sleep = p.sleep →
        p.sleep ≠ some .forGrant → p'.Minds (awake ++ wakeIf false k) running k dry := by
      intro p' hstage hsleep hnot
      refine ⟨hkept.minded.imp_right (Or.imp_right fun hrests => ?_), ?_, ?_⟩
      · cases hrests with
        | finished hs => exact absurd hs hover
        | forGrant hs hgrant hdemand hgrants => exact absurd hgrant hnot
        | forStream hs hstream hdry =>
            exact .forStream (hstage.trans hs) (hsleep.trans hstream) hdry
      · rw [hstage]
        exact h.stage
      · rw [hstage, hsleep]
        exact hkept.polling
    cases c with
    | request n =>
        by_cases hsleep : p.sleep = some .forGrant
        · simp only [hsleep, if_true]
          exact hwoken _ rfl
        · simp only [hsleep, if_false]
          exact hquiet _ rfl rfl hsleep
    | release =>
        by_cases hsleep : p.sleep = some .forGrant
        · simp only [hsleep, if_true]
          exact hwoken _ rfl
        · simp only [hsleep, if_false]
          exact hquiet _ rfl rfl hsleep
    | cancel =>
        by_cases hcancelled : p.cancelled = true
        · simp only [hcancelled, if_true]
          exact hkept
        · simp only [hcancelled]
          cases hsleep : p.sleep with
          | none =>
              refine hquiet _ rfl ?_ ?_
              · simp [hsleep]
              · simp [hsleep]
          | some reason => exact hwoken _ rfl

/-- A control at the end of a chain leaves nobody forgotten, with the tasks that it wakes. -/
theorem Tended.control {c : Chain} (h : c.Tended awake running) (ctl : Control) :
    (c.control ctl).1.Tended (awake ++ (c.control ctl).2.2) running := by
  cases c with
  | source s p => exact minds_control h ctl
  | hop before s p =>
      exact ⟨h.1.mono fun j hj => List.mem_append_left _ hj, minds_control h.2 ctl⟩
  | _ => trivial

theorem Tended.controls {c : Chain} (h : c.Tended awake running) (cs : List Control) :
    (c.controls cs).1.Tended (awake ++ (c.controls cs).2.2) running := by
  induction cs generalizing c awake with
  | nil => simpa [Chain.controls] using h
  | cons ctl cs ih =>
      have hrest := ih (h.control ctl)
      rw [List.append_assoc] at hrest
      exact hrest

/-! ## Hearing -/

/-- Whoever sleeps for a stream is woken as soon as the stream is no longer dry. -/
theorem minds_rouse {dry' : Prop} {k : Nat} {p : Pump} {woken : Bool}
    (h : p.Minds awake running k dry) (hwoken : p.stage ≠ .over → dry → woken = true) :
    (p.rouse woken).1.Minds (awake ++ wakeIf (p.rouse woken).2 k) running k dry' := by
  have hsame : p.sleep ≠ some .forStream ∨ woken = false → p.rouse woken = (p, false) := by
    rintro (hsleep | hnot)
    · simp [Pump.rouse, Pump.streamReady, hsleep]
    · rw [hnot]
      rfl
  by_cases hstream : p.sleep = some .forStream ∧ woken = true
  · have hrouse : p.rouse woken = ({ p with sleep := none }, true) := by
      simp [Pump.rouse, Pump.streamReady, hstream.1, hstream.2]
    have hmem : k ∈ awake ++ wakeIf true k := by simp [wakeIf]
    rw [hrouse]
    exact ⟨.inr (.inl hmem), h.stage, fun _ => .inr hmem⟩
  · have hrouse : p.rouse woken = (p, false) := by
      apply hsame
      by_cases hsleep : p.sleep = some .forStream
      · exact .inr (by simpa [hsleep] using hstream)
      · exact .inl hsleep
    rw [hrouse]
    simp only [wakeIf, Bool.false_eq_true, if_false, List.append_nil]
    refine ⟨h.minded.imp_right (Or.imp_right fun hrests => ?_), h.stage, h.polling⟩
    cases hrests with
    | finished hs => exact .finished hs
    | forGrant hs hgrant hdemand hgrants => exact .forGrant hs hgrant hdemand hgrants
    | forStream hs hsleep hdry =>
        have hnotover : p.stage ≠ .over := by simp [hs]
        exact absurd ⟨hsleep, hwoken hnotover hdry⟩ hstream

/-- A hop hears what its port allows, and nobody who sleeps for it is forgotten. -/
theorem Tended.hear {before : Chain} {s : PullStream Unit} {p : Pump} {q : Port}
    (h : (hop before s p).Tended awake running) (htuned : s.Tuned q) (hfits : p.Fits s)
    {es : List Emission} (hemits : q.emits es = some before.port) :
    (hear es (hop before s p)).1.Tended (awake ++ (Chain.hear es (hop before s p)).2.wakes)
      running := by
  induction es generalizing s p q awake with
  | nil => simpa [Chain.hear] using h
  | cons e es ih =>
      rw [Port.emits_cons] at hemits
      rcases Option.bind_eq_some_iff.mp hemits with ⟨q', hemit, hrest⟩
      obtain ⟨s₁, woken, hfirst, htuned₁, -, hdone, hdropped, -, hwoken⟩ :=
        hopHear_tuned before htuned hemit p
      have hminds : (p.rouse woken).1.Minds (awake ++ wakeIf (p.rouse woken).2 (before.hops + 1))
          running (before.hops + 1) s₁.Dry := by
        refine minds_rouse h.2 fun hnotover hdry => (hwoken ?_).trans hdry.parked
        by_contra hgone
        exact hnotover (hfits.dropped_iff.mp (by simpa using hgone))
      have hfirst' : (hop before s₁ (p.rouse woken).1).Tended
          (awake ++ wakeIf (p.rouse woken).2 (before.hops + 1)) running :=
        ⟨h.1.mono fun j hj => List.mem_append_left _ hj, hminds⟩
      have hothers := ih hfirst' htuned₁ (hfits.rouse hdone hdropped woken) hrest
      rw [List.append_assoc] at hothers
      simp only [Chain.hear, hfirst]
      exact hothers

/-- A hop is tended with the chain before it. -/
theorem Tended.absorb {new : List (Signal Unit)} {before : Chain} {r : Chain × Burst}
    {s : PullStream Unit} {p : Pump} (h : (hop before s p).Sound)
    (hmoves : Moves new before r) (hbefore : r.1.Tended (awake ++ r.2.wakes) running)
    (hminds : p.Minds awake running (r.1.hops + 1) s.Dry) :
    (Chain.absorb s p r).1.Tended (awake ++ (Chain.absorb s p r).2.wakes) running := by
  have hstart : (hop r.1 s p).Tended (awake ++ r.2.wakes) running :=
    ⟨hbefore, minds_mono hminds fun j hj => List.mem_append_left _ hj⟩
  have hheard := hstart.hear h.2.1 h.2.2 hmoves.emits
  rw [List.append_assoc] at hheard
  exact hheard

/-- So is every hop with what the writer signals. -/
theorem Tended.atWriter {c : Chain} (hsound : c.Sound) (h : c.Tended awake running) {o : Outlet}
    (hwriter : c.writer? = some o) {f : Outlet → Outlet × List Notice × List Emission}
    (hserving : (f o).1.Serving) (hemits : o.port.emits (f o).2.2 = some (f o).1.port) :
    (c.atWriter f).1.Tended (awake ++ (c.atWriter f).2.wakes) running := by
  induction c with
  | writer o' => trivial
  | source s p => cases hwriter
  | player p => exact hsound.elim
  | hop before s p ih =>
      refine Tended.absorb hsound (hsound.1.atWriter hwriter hserving hemits)
        (ih hsound.1 h.1 hwriter) ?_
      rw [atWriter_hops]
      exact h.2

/-! ## Turns -/

/-- Whoever goes on runs. -/
def runningAfter (k : Nat) (burst : Burst) : Option Nat :=
  if burst.goesOn then some k else none

/-- A task that goes on is minded, if a poll that it is in will be told of what arrives. -/
theorem minds_of_goesOn {k : Nat} {p : Pump}
    (hpolling : p.stage = .polling → p.sleep = some .forStream ∨ k ∈ awake) :
    p.Minds awake (some k) k dry :=
  ⟨.inl rfl, fun hother => absurd rfl hother, hpolling⟩

/-- A task that goes to sleep is minded, if it has a reason or was woken meanwhile. -/
theorem minds_of_rests {k : Nat} {p : Pump}
    (hstage : p.stage = .between ∨ p.stage = .over) (hrests : k ∈ awake ∨ p.Rests dry) :
    p.Minds awake none k dry := by
  refine ⟨.inr hrests, fun _ => .inr hstage, fun hpolling => ?_⟩
  rcases hstage with hs | hs
  · rw [hpolling] at hs
    cases hs
  · rw [hpolling] at hs
    cases hs

/-- What a turn of a hop does to the task of the hop itself. -/
theorem minds_hopTurn {before : Chain} {s : PullStream Unit} {p : Pump} {r : Chain × Burst}
    (h : (hop before s p).Sound) {k : Nat} (hminds : p.Minds awake (some k) k s.Dry)
    (hturn : HopTurns before s p r) :
    ∃ before' s' p' controls, r.1 = hop before' s' p' ∧ before' = (before.controls controls).1 ∧
      r.2.wakes = (before.controls controls).2.2 ∧
        p'.Minds awake (runningAfter k r.2) k s'.Dry := by
  rcases h with ⟨-, htuned, hfits⟩
  have hidle : ∀ (s' : PullStream Unit) (p' : Pump) (burst : Burst), burst.wakes = [] →
      p'.Minds awake (runningAfter k burst) k s'.Dry →
      ∃ before' s'' p'' controls, hop before s' p' = hop before' s'' p'' ∧
        before' = (before.controls controls).1 ∧
          burst.wakes = (before.controls controls).2.2 ∧
            p''.Minds awake (runningAfter k burst) k s''.Dry :=
    fun s' p' burst hwakes hminds' => ⟨before, s', p', [], rfl, rfl, hwakes, hminds'⟩
  cases hturn with
  | greets hstage => exact hidle _ _ _ rfl (minds_of_goesOn (by simp))
  | starts hstage => exact hidle _ _ _ rfl (minds_of_goesOn (by simp))
  | cancels note hstage hcancelled => exact hidle _ _ _ rfl (minds_of_goesOn (by simp))
  | orphaned hstage hheld => exact hidle _ _ _ rfl (minds_of_goesOn (by simp))
  | takes n rest hstage hdemand hgrants =>
      exact hidle _ _ _ rfl (minds_of_goesOn (by simp [hstage]))
  | refuses grants demand hstage hzero => exact hidle _ _ _ rfl (minds_of_goesOn (by simp))
  | waits hstage hdemand hgrants hheld =>
      exact hidle _ _ _ rfl
        (minds_of_rests (.inl hstage) (.inr (.forGrant hstage rfl hdemand hgrants)))
  | folds demand hstage hfold => exact hidle _ _ _ rfl (minds_of_goesOn (by simp))
  | asks s' p' notes hpolls hattend =>
      refine ⟨_, s', p', [.request 1], rfl, rfl, ?_, minds_of_goesOn fun _ => ?_⟩
      · simp [Chain.controls]
      · cases hpolls with
        | begins hstage hdemand hopen => exact .inl rfl
        | goesOn hstage => exact hminds.polling hstage
  | sleeps s' p' notes hpolls hattend =>
      rcases hfits.polls hpolls with ⟨-, -, hdone, hdropped⟩
      have hlisten := htuned.attends ⟨hdone, hdropped⟩ hattend
      cases hlisten with
      | sleeps hcargo hopen hinbox hconnected hparked hasked htuned' =>
          refine hidle _ _ _ rfl (minds_of_rests (.inl rfl) ?_)
          have hasleep : p'.sleep = some .forStream ∨ k ∈ awake := by
            cases hpolls with
            | begins hstage hdemand hopen' => exact .inl rfl
            | goesOn hstage => exact hminds.polling hstage
          rcases hasleep with hstream | hmem
          · exact .inr (.forStream rfl hstream ⟨hparked, hinbox, hconnected, hasked⟩)
          · exact .inl hmem
  | yields s' p' notes answer r hpolls hattend hpulled =>
      refine hidle _ _ _ rfl (minds_of_goesOn fun hpolling => ?_)
      exact absurd hpolling (p'.receive_stage r)
  | leaves hstage =>
      exact ⟨_, _, _, _, rfl, rfl, rfl, minds_of_rests (.inr rfl) (.inr (.finished rfl))⟩
  | rests hstage =>
      exact hidle _ _ _ rfl (minds_of_rests (.inr hstage) (.inr (.finished hstage)))

/-- What a turn of a pump over a source does to its task, whatever its consumer does. -/
theorem minds_sourceTurn {s s' : Source} {p p' : Pump} {burst : Burst}
    (hminds : p.Minds awake (some 0) 0 (s.parked = true))
    (hturn : SourceTurns s p (source s' p', burst)) :
    p'.Minds (awake ++ burst.wakes) (runningAfter 0 burst) 0 (s'.parked = true) := by
  have hasleep : ∀ {q : Pump}, p.Polls q → q.sleep = some .forStream ∨ 0 ∈ awake := by
    intro q hpolls
    cases hpolls with
    | begins hstage hdemand hopen => exact .inl rfl
    | goesOn hstage => exact hminds.polling hstage
  cases hturn with
  | delivers _ notes sig hmove =>
      cases hmove with
      | greets hstage | refuses rest hstage hdemand hopen hgrants
      | balks grants demand hstage hzero hfold => exact minds_of_goesOn (by simp)
  | goesOn _ notes hmove =>
      cases hmove with
      | starts hstage | cancels note hstage hcancelled
      | orphaned hstage hdemand hopen hgrants hheld
      | folds demand hstage hsome hfold => exact minds_of_goesOn (by simp)
      | takes n rest hstage hdemand hopen hgrants => exact minds_of_goesOn (by simp [hstage])
  | parks _ notes hmove =>
      cases hmove with
      | waits hstage hdemand hopen hgrants hheld =>
          exact minds_of_rests (.inl hstage) (.inr (.forGrant hstage rfl hdemand hgrants))
      | rests hstage => exact minds_of_rests (.inr hstage) (.inr (.finished hstage))
  | leaves _ notes hmove =>
      cases hmove with
      | leaves hstage => exact minds_of_rests (.inr rfl) (.inr (.finished rfl))
  | yields _ q y r hpolls hpoll hyield =>
      exact minds_of_goesOn fun hpolling => absurd hpolling (q.receive_stage r)
  | sleeps _ q wakesItself hpolls hpoll =>
      rcases hasleep hpolls with hstream | hmem
      · cases wakesItself with
        | true =>
            have haside : q.stepAside true = ({ q.pending with sleep := none }, true) := by
              simp [Pump.stepAside, Pump.streamReady, Pump.pending, hstream]
            rw [haside]
            exact minds_of_rests (.inl rfl) (.inl (by simp [wakeIf]))
        | false =>
            have hparked : s'.parked = true := by
              cases Source.polled_of_poll hpoll with
              | pauses rest hitems => rfl
              | waits hitems hopen => rfl
            exact minds_of_rests (.inl rfl) (.inr (.forStream rfl hstream hparked))
      · exact minds_of_rests (.inl (q.stepAside_parts wakesItself).1)
          (.inl (List.mem_append_left _ hmem))
  | acts _ _ a hpolls hpoll =>
      refine minds_of_goesOn fun _ => ?_
      rw [List.append_nil]
      exact hasleep hpolls

/-- A turn leaves a chain tended. -/
theorem Tended.turn {c : Chain} {k : Nat} (hsound : c.Sound) (h : c.Tended awake (some k)) :
    (c.turn k).1.Tended (awake ++ (c.turn k).2.wakes) (runningAfter k (c.turn k).2) := by
  induction c with
  | writer o => trivial
  | source s p =>
      by_cases hk : k = 0
      · subst hk
        have hturn := sourceTurns_sourceTurn s p
        obtain ⟨s', p', hafter⟩ := hturn.source
        have hsame : sourceTurn s p = (source s' p', (sourceTurn s p).2) :=
          Prod.ext hafter rfl
        rw [hsame] at hturn
        rw [Chain.turn, if_pos rfl, hafter]
        exact minds_sourceTurn h hturn
      · rw [Chain.turn, if_neg hk]
        have hother : (some k = some 0) ↔ runningAfter k {} = some 0 := by
          simp [runningAfter, hk]
        exact minds_of_running (minds_mono h fun j hj => List.mem_append_left _ hj) hother
  | player p => exact hsound.elim
  | hop before s p ih =>
      by_cases hk : k = before.hops + 1
      · have hturn := hopTurns_hopTurn before s p
        rw [hk] at h ⊢
        rw [turn_last]
        obtain ⟨before', s', p', controls, hafter, hbefore, hwakes, hminds⟩ :=
          minds_hopTurn hsound h.2 hturn
        rw [hafter, hwakes]
        have hothers := (h.1.controls controls).of_running
          (runningAfter (before.hops + 1) (hopTurn before s p).2) fun j hj => by
            rw [controls_hops] at hj
            unfold runningAfter
            split
            · exact Iff.rfl
            · constructor
              · intro hsame
                cases hsame
                omega
              · intro hnone
                cases hnone
        rw [← hbefore] at hothers
        refine ⟨hothers, ?_⟩
        rw [hbefore, controls_hops]
        exact minds_mono hminds fun j hj => List.mem_append_left _ hj
      · rw [turn_before hk]
        have hfirst := ih hsound.1 h.1
        have hmoves := hsound.1.turn k
        have hminds : p.Minds awake (runningAfter k (before.turn k).2)
            ((before.turn k).1.hops + 1) s.Dry := by
          rw [turn_hops]
          apply minds_of_running h.2
          unfold runningAfter
          split
          · exact Iff.rfl
          · constructor
            · intro hsame
              exact absurd (Option.some.inj hsame) hk
            · intro hnone
              cases hnone
        exact Tended.absorb hsound (hsound.1.turn k) hfirst hminds

/-- The next task comes to run. -/
theorem minds_starts {j k : Nat} {rest : List Nat} {p : Pump}
    (h : p.Minds (k :: rest) none j dry) : p.Minds rest (some k) j dry := by
  refine ⟨?_, fun _ => h.stage (by simp), fun hpolling => ?_⟩
  · rcases h.minded with hnone | hmem | hrests
    · cases hnone
    · rcases List.mem_cons.mp hmem with hsame | hmem
      · exact .inl (congrArg some hsame.symm)
      · exact .inr (.inl hmem)
    · exact .inr (.inr hrests)
  · have hstage := h.stage (by simp)
    rw [hpolling] at hstage
    simp at hstage

theorem Tended.starts {c : Chain} {k : Nat} {rest : List Nat}
    (h : c.Tended (k :: rest) none) : c.Tended rest (some k) := by
  induction c with
  | source s p => exact minds_starts h
  | hop before s p ih => exact ⟨ih h.1, minds_starts h.2⟩
  | _ => trivial

/-! ## Idle chains -/

/-- Where nobody is awake a pump has a reason to sleep. -/
theorem rests_of_idle {k : Nat} {p : Pump} (h : p.Minds [] none k dry) : p.Rests dry := by
  rcases h.minded with hnone | hmem | hrests
  · cases hnone
  · cases hmem
  · exact hrests

/-- A pump that sleeps has greeted its consumer. -/
theorem port_of_rests {p : Pump} (h : p.Rests dry) : p.port ≠ .vacant := by
  cases h with
  | finished hstage => simp [Pump.port, hstage]
  | forGrant hstage hsleep hdemand hgrants => simp [Pump.port, hstage]
  | forStream hstage hsleep hdry => simp [Pump.port, hstage]

/-- If its consumer waits for an item, it sleeps because what it pulls is dry. -/
theorem dry_of_rests {p : Pump} (h : p.Rests dry) (hwaits : p.port = .live 1) :
    p.stage = .between ∧ dry := by
  cases h with
  | finished hstage => simp [Pump.port, hstage] at hwaits
  | forGrant hstage hsleep hdemand hgrants =>
      simp [Pump.port, hstage, hdemand, hgrants] at hwaits
  | forStream hstage hsleep hdry => exact ⟨hstage, hdry⟩

/-- In an idle chain everybody has been greeted. -/
theorem idle_greeted {c : Chain} (hsound : c.Sound) (h : c.Tended [] none) :
    c.port ≠ .vacant := by
  cases c with
  | writer o =>
      cases hdown : o.downstream with
      | waiting => exact absurd hdown hsound.subscribed
      | attached => simp [port, Outlet.port, hdown]
      | done => simp [port, Outlet.port, hdown]
  | source s p => exact port_of_rests (rests_of_idle h)
  | player p => exact hsound.elim
  | hop before s p => exact port_of_rests (rests_of_idle h.2)

/-- In an idle chain a hop whose consumer waits waits itself, and holds nothing back. -/
theorem idle_hop {before : Chain} {s : PullStream Unit} {p : Pump}
    (hsound : (hop before s p).Sound) (h : (hop before s p).Tended [] none)
    (hwaits : (hop before s p).port = .live 1) :
    before.port = .live 1 ∧
      (hop before s p).backlog = before.backlog.map Signal.relayed := by
  rcases hsound with ⟨hbefore, htuned, hfits⟩
  have hopen : p.port.isEnded = false := by
    rw [show p.port = .live 1 from hwaits]
    rfl
  have hdone : s.done = false := hfits.done_eq.trans hopen
  rcases dry_of_rests (rests_of_idle h.2) hwaits with ⟨hstage, hdry⟩
  have hkept : s.dropped = false := by
    by_contra hdropped
    have hover := hfits.dropped_iff.mp (by simpa using hdropped)
    rw [hstage] at hover
    cases hover
  have hseen : s.seen = before.port := by
    have htold := htuned.told hkept
    rw [PullStream.arrived, hdry.inbox, hdry.connected] at htold
    exact Option.some.inj htold
  constructor
  · -- A stream that was not greeted would have an idle chain before it that has greeted
    -- nobody.
    have hgreeted := idle_greeted hbefore h.1
    cases hsub : s.subscription with
    | none =>
        have hvacant : s.seen = .vacant := by simp [PullStream.seen, hdone, hsub]
        exact absurd (hseen.symm.trans hvacant) hgreeted
    | some handle =>
        have hrequested : s.requested = true := hdry.asked.resolve_right (by simp [hsub])
        rw [← hseen]
        simp [PullStream.seen, hdone, hsub, hrequested]
  · simp [backlog, hopen, PullStream.cargo, hdry.inbox]

/-- In an idle chain whose consumer waits for an item, nothing is on its way from a writer,
and the writer may still push. -/
theorem idle_backlog {c : Chain} (hsound : c.Sound) (h : c.Tended [] none)
    (hwaits : c.port = .live 1) {o : Outlet} (hwriter : c.writer? = some o) :
    c.backlog = [] ∧ c.standing = some { finish := none, closed := false, held := true } := by
  induction c with
  | writer o =>
      cases hdown : o.downstream with
      | waiting => simp [port, Outlet.port, hdown] at hwaits
      | done => simp [port, Outlet.port, hdown] at hwaits
      | attached =>
          rcases hsound.opened hdown with ⟨hfinish, hclosed, hheld, -⟩
          refine ⟨rfl, ?_⟩
          simp only [standing, writer?, Option.map_some, Outlet.standing, hfinish, hclosed, hheld]
  | source s p => cases hwriter
  | player p => exact hsound.elim
  | hop before s p ih =>
      rcases idle_hop hsound h hwaits with ⟨hlive, hsame⟩
      rcases ih hsound.1 h.1 hlive hwriter with ⟨hbacklog, hstanding⟩
      refine ⟨?_, hstanding⟩
      rw [hsame, hbacklog]
      rfl

/-- In an idle chain whose consumer waits for an item, a source at its beginning was not
woken, and all that is on its way is what the source has in store. -/
theorem idle_source {c : Chain} (hsound : c.Sound) (h : c.Tended [] none)
    (hwaits : c.port = .live 1) {s : Source} (hsource : c.source? = some s) :
    s.parked = true ∧ c.backlog = s.cargo.map (Signal.relayed^[c.hops]) := by
  induction c with
  | writer o => cases hsource
  | source s' p =>
      cases hsource
      have hopen : p.port.isEnded = false := by
        rw [show p.port = .live 1 from hwaits]
        rfl
      refine ⟨(dry_of_rests (rests_of_idle h) hwaits).2, ?_⟩
      simp [backlog, hopen, hops]
  | player p => exact hsound.elim
  | hop before s' p ih =>
      rcases idle_hop hsound h hwaits with ⟨hlive, hsame⟩
      rcases ih hsound.1 h.1 hlive hsource with ⟨hparked, hbacklog⟩
      refine ⟨hparked, ?_⟩
      rw [hsame, hbacklog, List.map_map, ← Function.iterate_succ']
      rfl

/-! ## The beginning -/

/-- A chain no task of which has run, and which has greeted nobody.  All that will come
through it is `store`. -/
structure Unstarted (store : List (Signal Unit)) (c : Chain) : Prop where
  sound : c.Sound
  vacant : c.port = .vacant
  tended : c.Tended c.tasks none
  stored : c.backlog = store

/-- A task that has not run is to run. -/
theorem minds_of_fresh {k : Nat} (hmem : k ∈ awake) (dry : Prop) :
    ({} : Pump).Minds awake none k dry :=
  ⟨.inr (.inl hmem), fun _ => .inl rfl, fun hpolling => by cases hpolling⟩

/-- Another hop behind a chain has heard nothing. -/
theorem Unstarted.hop {store : List (Signal Unit)} {c : Chain} (h : c.Unstarted store) :
    (hop c {} {}).Unstarted (store.map Signal.relayed) := by
  refine ⟨⟨h.sound, ?_, fits_empty⟩, rfl, ⟨?_, ?_⟩, ?_⟩
  · rw [h.vacant]
    exact PullStream.tuned_empty
  · exact h.tended.mono fun k hk => List.mem_append_left _ hk
  · exact minds_of_fresh (by simp [tasks]) _
  · have hopen : ({} : Pump).port.isEnded = false := rfl
    simp only [backlog, hopen, h.stored, Bool.false_eq_true, if_false]
    rfl

/-- More hops leave a chain unstarted, and mark the causes in its store. -/
theorem Unstarted.extend {store : List (Signal Unit)} {c : Chain} (h : c.Unstarted store)
    (n : Nat) : (Chain.extend n c).Unstarted (store.map (Signal.relayed^[n])) := by
  induction n generalizing c store with
  | zero =>
      rw [Function.iterate_zero, List.map_id]
      exact h
  | succ n ih =>
      rw [Function.iterate_succ, ← List.map_map]
      exact ih h.hop

/-- Hops change nothing of what the writer has done. -/
@[simp]
theorem extend_standing (n : Nat) (c : Chain) : (extend n c).standing = c.standing := by
  induction n generalizing c with
  | zero => rfl
  | succ n ih => exact ih (.hop c {} {})

end Chain
end CreditFlow
