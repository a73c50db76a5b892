import CreditFlow.Proofs.ChainBudget
import CreditFlow.Proofs.ChainWatch

/-!
# The source of a chain

What becomes of the source at the beginning of a chain while the tasks of the chain move, and
what waking it does to the chain behind it.  A source that nobody wakes only uses its script
up.  If it has fallen asleep meanwhile, it has come to a pause, which it has used up, or it is
open at the end of its script; so it does not fall asleep more often than its script is long.

Main results:

- {lit}`Source.Polled.goes`: what a poll makes of a source.
- {lit}`Chain.turn_goes`: what a turn of any task makes of it.
- {lit}`Chain.Sound.wakes`, {lit}`Chain.Tended.wakes`, {lit}`Chain.Frugal.wakes`: a chain whose
  source is woken is as good as before.
-/

namespace CreditFlow

/-! ## A source that nobody wakes -/

namespace Source

/-- How a source can have changed while nobody woke it. -/
structure Goes (s s' : Source) : Prop where
  isOpen : s'.isOpen = s.isOpen
  used : s'.items.length ≤ s.items.length
  /-- It falls asleep at a pause, or at the end of its script. -/
  asleep : s'.parked = true → s.parked = true ∨ s'.items.length < s.items.length ∨
    s'.items = [] ∧ s'.isOpen = true

variable {s s' s'' : Source}

theorem Goes.refl (s : Source) : s.Goes s :=
  ⟨rfl, Nat.le_refl _, .inl⟩

/-- What a source becomes in two stretches without being woken it becomes in one. -/
theorem Goes.trans (h : s.Goes s') (h' : s'.Goes s'') : s.Goes s'' := by
  have hused := h.used
  have hused' := h'.used
  refine ⟨h'.isOpen.trans h.isOpen, Nat.le_trans hused' hused, fun hparked => ?_⟩
  rcases h'.asleep hparked with hbefore | hless | hend
  · rcases h.asleep hbefore with hbefore | hless | ⟨hitems, hopen⟩
    · exact .inl hbefore
    · exact .inr (.inl (by omega))
    · rw [hitems, List.length_nil, Nat.le_zero, List.length_eq_zero_iff] at hused'
      exact .inr (.inr ⟨hused', h'.isOpen.trans hopen⟩)
  · exact .inr (.inl (by omega))
  · exact .inr (.inr hend)

/-- A poll uses an item up, or finds the end of the script. -/
theorem Polled.goes {y : Yield} (h : s.Polled s' y) : s.Goes s' := by
  have huses : ∀ {item : Item} {rest : List Item} {after : Source}, s.items = item :: rest →
      after.items = rest → after.isOpen = s.isOpen → s.Goes after := by
    intro item rest after hitems hafter hopen
    have hless : after.items.length < s.items.length := by
      rw [hitems, hafter, List.length_cons]
      exact Nat.lt_succ_self _
    exact ⟨hopen, Nat.le_of_lt hless, fun _ => .inr (.inl hless)⟩
  cases h with
  | chunk bytes rest hitems => exact huses hitems rfl rfl
  | fails cause rest hitems => exact huses hitems rfl rfl
  | pauses rest hitems => exact huses hitems rfl rfl
  | stepsAside rest hitems => exact huses hitems rfl rfl
  | acts a rest hitems => exact huses hitems rfl rfl
  | waits hitems hopen => exact ⟨rfl, Nat.le_refl _, fun _ => .inr (.inr ⟨hitems, hopen⟩)⟩
  | ends hitems hclosed => exact .refl s

end Source

namespace Chain

variable {c : Chain} {s : Source}

/-- The consumer's handle does not reach the source. -/
@[simp]
theorem controls_source (cs : List Control) (c : Chain) :
    (c.controls cs).1.source? = c.source? := by
  induction cs generalizing c with
  | nil => rfl
  | cons control cs ih =>
      rw [controls, ih]
      cases c <;> rfl

/-- Nor does anything that a hop hears. -/
theorem hear_source (es : List Emission) (before : Chain) (p : PullStream Unit) (q : Pump) :
    (hear es (hop before p q)).1.source? = before.source? := by
  induction es generalizing before p q with
  | nil => rfl
  | cons e es ih =>
      cases e with
      | signal sig =>
          change (hear es (hop _ _ _)).1.source? = before.source?
          rw [ih]
          exact controls_source _ before
      | hangUp => exact ih _ _ _

/-- A turn of a hop leaves the source at the beginning of the chain alone. -/
theorem hopTurn_source (before : Chain) (p : PullStream Unit) (q : Pump) :
    (hopTurn before p q).1.source? = before.source? := by
  have hturn := hopTurns_hopTurn before p q
  generalize hopTurn before p q = r at hturn ⊢
  cases hturn with
  | asks p' q' notes hpolls hattend => exact controls_source [.request 1] before
  | leaves hstage => exact controls_source _ before
  | _ => rfl

/-- What a turn of its pump makes of a source. -/
theorem SourceTurns.goes {p : Pump} {r : Chain × Burst} (h : SourceTurns s p r) :
    ∃ s', r.1.source? = some s' ∧ s.Goes s' := by
  cases h with
  | delivers p' notes sig hmove => exact ⟨s, rfl, .refl s⟩
  | goesOn p' notes hmove => exact ⟨s, rfl, .refl s⟩
  | parks p' notes hmove => exact ⟨s, rfl, .refl s⟩
  | leaves p' notes hmove => exact ⟨_, rfl, rfl, Nat.le_refl _, fun hparked => by cases hparked⟩
  | yields s' p' y r hpolls hpoll hyield => exact ⟨s', rfl, (Source.polled_of_poll hpoll).goes⟩
  | sleeps s' p' wakesItself hpolls hpoll => exact ⟨s', rfl, (Source.polled_of_poll hpoll).goes⟩
  | acts s' p' a hpolls hpoll => exact ⟨s', rfl, (Source.polled_of_poll hpoll).goes⟩

/-- A turn of any task wakes no source. -/
theorem turn_goes (hsource : c.source? = some s) (k : Nat) :
    ∃ s', (c.turn k).1.source? = some s' ∧ s.Goes s' := by
  induction c with
  | writer o => cases hsource
  | source s' p =>
      cases hsource
      unfold turn
      split
      · exact (sourceTurns_sourceTurn s p).goes
      · exact ⟨s, rfl, .refl s⟩
  | player p => cases hsource
  | hop before p q ih =>
      by_cases hk : k = before.hops + 1
      · rw [hk, turn_last, hopTurn_source]
        exact ⟨s, hsource, .refl s⟩
      · rw [turn_before hk]
        obtain ⟨s', hafter, hgoes⟩ := ih hsource
        exact ⟨s', (hear_source _ _ p q).trans hafter, hgoes⟩

/-! ## Waking the source -/

@[simp]
theorem atSource_hops (f : Source → Source) (wake : Bool) (c : Chain) :
    (c.atSource f wake).1.hops = c.hops := by
  induction c with
  | hop before p q ih => exact congrArg (· + 1) ih
  | _ => rfl

/-- A pump over a source that is woken. -/
theorem atSource_source (f : Source → Source) (s : Source) (p : Pump) :
    (source s p).atSource f true =
      (source (f s).unpark (p.rouse (f s).parked).1, wakeIf (p.rouse (f s).parked).2 0) := by
  simp [atSource, Pump.rouse]

/-- Waking the source of a chain unparks it. -/
theorem wakes_source (hsource : c.source? = some s) :
    (c.atSource id true).1.source? = some s.unpark := by
  induction c with
  | writer o => cases hsource
  | source s' p =>
      cases hsource
      rw [atSource_source]
      rfl
  | player p => cases hsource
  | hop before p q ih => exact ih hsource

/-- Waking the source brings nothing, and loses nothing. -/
theorem Sound.wakes (h : c.Sound) :
    (c.atSource id true).1.Sound ∧ (c.atSource id true).1.port = c.port ∧
      (c.atSource id true).1.backlog = c.backlog := by
  induction c with
  | writer o => exact ⟨h, rfl, rfl⟩
  | source s p =>
      rcases p.rouse_eq s.parked with ⟨sleep, hrouse⟩
      have hwoken : (source s p).atSource id true =
          (source s.unpark { p with sleep := sleep }, wakeIf (p.rouse s.parked).2 0) := by
        rw [← hrouse]
        exact atSource_source id s p
      rw [hwoken]
      exact ⟨Pump.Serves.of_sleep h sleep, rfl, rfl⟩
  | player p => exact h.elim
  | hop before p q ih =>
      rcases h with ⟨hbefore, htuned, hfits⟩
      rcases ih hbefore with ⟨hsound, hport, hbacklog⟩
      refine ⟨⟨hsound, ?_, hfits⟩, rfl, ?_⟩
      · rw [hport]
        exact htuned
      · simp only [atSource, backlog, hbacklog]

/-- Whoever sleeps for a source is woken when something is done to it. -/
theorem Tended.wakes {awake : List Nat} {running : Option Nat} (h : c.Tended awake running)
    (f : Source → Source) (hparked : ∀ s, (f s).parked = s.parked) :
    (c.atSource f true).1.Tended (awake ++ (c.atSource f true).2) running := by
  induction c with
  | source s p =>
      rw [atSource_source]
      exact minds_rouse h fun _ hdry => (hparked s).trans hdry
  | hop before p q ih =>
      refine ⟨ih h.1, minds_mono ?_ fun j hj => List.mem_append_left _ hj⟩
      rw [atSource_hops]
      exact h.2
  | _ => trivial

/-- It is no reason to ask for more. -/
theorem Frugal.wakes {pushes : Option Nat} {asked items room : Nat}
    (h : c.Frugal pushes asked items room) :
    (c.atSource id true).1.Frugal pushes asked items room := by
  induction c generalizing asked items room with
  | source s p =>
      rw [atSource_source]
      exact ⟨h.1, within_rouse h.2 _⟩
  | hop before p q ih =>
      rcases h with ⟨r, hbefore, hwithin⟩
      exact ⟨r, ih hbefore, hwithin⟩
  | _ => exact h

end Chain
end CreditFlow
