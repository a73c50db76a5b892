import CreditFlow.Cell
import Mathlib.Data.List.Basic
import Mathlib.Tactic.Common

/-!
# Nobody sleeps beside a resolved cell

Any number of pollers wait for a cell, and any number of resolvers set about resolving it.  A
poll is cut into sections: it registers, it looks at the cell, and if it has looked in vain it
goes to sleep, unless it has been notified in the meantime.  A resolver first stores what it
brings, if it is the first, and notifies afterwards whoever has registered until then.  The
sections of all of them come in any order, polls for which there is no reason included.

A poller registers before it looks and a resolver stores before it notifies, so one of the two
always sees the other: whoever has looked in vain had registered before the cell was resolved,
and is notified.

Main results:

- {lit}`CellTraffic.Sound.step`: what holds between any two sections.
- {lit}`Poller.poll_eq_sections`, {lit}`CellTraffic.carryOn_uninterrupted`: a poll that nothing
  comes between is {lit}`Waiter.poll`, and such a resolver is {lit}`Cell.resolve`.
- {lit}`CellTraffic.run_wakes`: nobody sleeps beside a cell whose resolver is through, and a
  poll beside a resolved cell brings the answer, unless the poller sleeps and the resolver has
  still to notify.
-/

namespace CreditFlow

/-! ## Resolvers -/

/-- The cells that were resolved are those that have a result. -/
theorem Cell.resolved_iff {α : Type} (cell : Cell α) :
    cell.isPending = false ↔ ∃ r, cell.result? = some r := by
  cases cell <;> simp [isPending, result?]

/-- What a cell can be resolved to. -/
abbrev Cell.Outcome (α : Type) := { outcome : Cell α // outcome.isPending = false }

/-- Where a resolver stands. -/
inductive Resolver (α : Type) where
  /-- It is about to store what it brings. -/
  | storing (outcome : Cell.Outcome α)
  /-- It has stored it, and is about to notify. -/
  | notifying
  /-- It is through; the flag says whether the cell took what it brought. -/
  | through (took : Bool)

namespace Resolver

variable {α : Type}

/-- Whether the cell took what a resolver brought. -/
def took : Resolver α → Bool
  | storing _ => false
  | notifying => true
  | through took => took

/-- Whether a resolver has notified. -/
def hasNotified : Resolver α → Bool
  | through took => took
  | _ => false

theorem took_of_hasNotified {r : Resolver α} (h : r.hasNotified = true) : r.took = true := by
  cases r with
  | storing outcome => cases h
  | notifying => rfl
  | through took => exact h

end Resolver

/-! ## Pollers -/

namespace Waiter

/-- Whether a notification has reached a waiter. -/
def isNotified : Waiter → Bool
  | .idle => false
  | .registered notified => notified
  | .suspended notified => notified

/-- Nobody sleeps on once it was notified. -/
theorem notify_ne_sleeping (w : Waiter) : w.notify ≠ .suspended false := by
  cases w <;> simp [notify]

/-- Whoever registers is registered, or sleeps on. -/
theorem register_cases (w : Waiter) :
    (w = .suspended false ∧ w.register = .suspended false) ∨
      (w ≠ .suspended false ∧ w.register = .registered false) := by
  cases w with
  | idle => exact .inr ⟨by simp, rfl⟩
  | registered notified => exact .inr ⟨by simp, rfl⟩
  | suspended notified =>
      cases notified with
      | false => exact .inl ⟨rfl, rfl⟩
      | true => exact .inr ⟨by simp, rfl⟩

end Waiter

/-- Someone who waits for a cell, poll by poll. -/
structure Poller (α : Type) where
  waiter : Waiter := .idle
  /-- A poll is under way. -/
  busy : Bool := false
  answer : Option (Except Failure α) := none

namespace Poller

variable {α : Type} {cell : Cell α} {p : Poller α}

/-- A poll begins, unless one is under way or the answer was given. -/
def start (p : Poller α) : Poller α :=
  if p.answer.isSome then p else { p with busy := true }

/-- The next section of a poll.  A poller that has registered looks at the cell; any other
registers, or finds that it was not notified and goes to sleep. -/
def goOn (cell : Cell α) (p : Poller α) : Poller α :=
  if p.busy then
    match p.waiter with
    | .registered notified =>
        let looked := (Waiter.registered notified).look cell
        { waiter := looked.1, busy := looked.2.isNone, answer := looked.2 }
    | w => { p with waiter := w.register, busy := w.register == .registered false }
  else p

/-- A notification reaches a poller. -/
def notify (p : Poller α) : Poller α :=
  { p with waiter := p.waiter.notify }

/-- A poll that nothing comes between is one look of the waiter. -/
theorem poll_eq_sections (cell : Cell α) (hresting : ∀ notified, p.waiter ≠ .registered notified)
    (hunanswered : p.answer = none) :
    ((p.start.goOn cell).goOn cell).goOn cell =
      { waiter := (p.waiter.poll cell).1, answer := (p.waiter.poll cell).2 } := by
  obtain ⟨waiter, busy, answer⟩ := p
  cases hunanswered
  cases waiter with
  | registered notified => exact absurd rfl (hresting notified)
  | idle =>
      cases hresult : cell.result? <;>
        simp [start, goOn, Waiter.poll, Waiter.register, Waiter.look, hresult]
  | suspended notified =>
      cases notified with
      | false => simp [start, goOn, Waiter.poll, Waiter.register, Waiter.look]
      | true =>
          cases hresult : cell.result? <;>
            simp [start, goOn, Waiter.poll, Waiter.register, Waiter.look, hresult]

/-- What holds of every poller; `told` says whether the notification was given. -/
structure Sound (cell : Cell α) (told : Bool) (p : Poller α) : Prop where
  resting : p.busy = false → ∀ notified, p.waiter ≠ .registered notified
  pending : cell.isPending = true → p.answer = none ∧ p.waiter.isNotified = false
  awake : told = true → p.waiter ≠ .suspended false
  answered : ∀ r, p.answer = some r → cell.result? = some r

theorem sound_fresh (cell : Cell α) (told : Bool) : ({} : Poller α).Sound cell told := by
  refine ⟨fun _ _ => by simp, fun _ => ⟨rfl, rfl⟩, fun _ => by simp, fun r hr => ?_⟩
  cases hr

/-- Beginning a poll breaks nothing. -/
theorem Sound.start {told : Bool} (h : p.Sound cell told) : p.start.Sound cell told := by
  unfold Poller.start
  split
  · exact h
  · refine ⟨fun hbusy => ?_, h.pending, h.awake, h.answered⟩
    cases hbusy

/-- Between its sections a poll that looks in vain registers and sleeps; one that finds the cell
resolved is over. -/
theorem goOn_cases (cell : Cell α) (p : Poller α) :
    (p.busy = false ∧ p.goOn cell = p) ∨
    (p.busy = true ∧ (∃ notified, p.waiter = .registered notified ∧
      ((∃ r, cell.result? = some r ∧ p.goOn cell = { answer := some r }) ∨
        (cell.isPending = true ∧
          p.goOn cell = { waiter := .suspended notified, busy := true })))) ∨
    (p.busy = true ∧ p.waiter = .suspended false ∧ p.goOn cell = { p with busy := false }) ∨
    (p.busy = true ∧ (p.waiter = .idle ∨ p.waiter = .suspended true) ∧
      p.goOn cell = { p with waiter := .registered false }) := by
  obtain ⟨waiter, busy, answer⟩ := p
  cases busy with
  | false => exact .inl ⟨rfl, rfl⟩
  | true =>
      cases waiter with
      | idle => exact .inr (.inr (.inr ⟨rfl, .inl rfl, rfl⟩))
      | suspended notified =>
          cases notified with
          | false => exact .inr (.inr (.inl ⟨rfl, rfl, rfl⟩))
          | true => exact .inr (.inr (.inr ⟨rfl, .inr rfl, rfl⟩))
      | registered notified =>
          refine .inr (.inl ⟨rfl, notified, rfl, ?_⟩)
          cases hresult : cell.result? with
          | none =>
              refine .inr ⟨(Cell.result?_eq_none_iff cell).mp hresult, ?_⟩
              simp [goOn, Waiter.look, hresult]
          | some r =>
              refine .inl ⟨r, rfl, ?_⟩
              simp [goOn, Waiter.look, hresult]

/-- A section keeps what holds of a poller: after the notification nobody looks in vain. -/
theorem Sound.goOn {told : Bool} (h : p.Sound cell told)
    (htold : told = true → cell.isPending = false) : (p.goOn cell).Sound cell told := by
  rcases goOn_cases cell p with ⟨-, hgo⟩ | ⟨-, notified, hwaiter, ⟨r, hr, hgo⟩ | ⟨hpending, hgo⟩⟩ |
    ⟨-, hwaiter, hgo⟩ | ⟨hbusy, -, hgo⟩
  · rwa [hgo]
  · rw [hgo]
    refine ⟨fun _ _ => by simp, fun hpending => ?_, fun _ => by simp, fun r' hr' => ?_⟩
    · rw [(Cell.result?_eq_none_iff cell).mpr hpending] at hr
      cases hr
    · cases hr'
      exact hr
  · rw [hgo]
    refine ⟨fun hbusy => ?_, fun _ => ⟨rfl, ?_⟩, fun hgiven => ?_, fun r hr => ?_⟩
    · cases hbusy
    · have hquiet := (h.pending hpending).2
      rwa [hwaiter] at hquiet
    · rw [htold hgiven] at hpending
      cases hpending
    · cases hr
  · rw [hgo]
    exact ⟨fun _ _ => by simp [hwaiter], h.pending, h.awake, h.answered⟩
  · rw [hgo]
    refine ⟨fun hbusy' => ?_, fun hpending => ⟨(h.pending hpending).1, rfl⟩, fun _ => by simp,
      h.answered⟩
    rw [hbusy] at hbusy'
    cases hbusy'

/-- A notification breaks nothing, once the cell is resolved. -/
theorem Sound.notify {told : Bool} (h : p.Sound cell told) (hresolved : cell.isPending = false)
    (told' : Bool) : p.notify.Sound cell told' := by
  refine ⟨fun hbusy notified => ?_, fun hpending => ?_, fun _ => p.waiter.notify_ne_sleeping,
    h.answered⟩
  · have hresting := h.resting hbusy
    unfold Poller.notify
    cases hwaiter : p.waiter with
    | idle => simp [Waiter.notify]
    | registered b => exact absurd hwaiter (hresting b)
    | suspended b => simp [Waiter.notify]
  · rw [hresolved] at hpending
    cases hpending

/-- What a poller keeps when a cell is resolved that was pending. -/
theorem Sound.resolved {told : Bool} (h : p.Sound cell told) (hpending : cell.isPending = true)
    {outcome : Cell α} (houtcome : outcome.isPending = false) : p.Sound outcome false := by
  refine ⟨h.resting, fun hstill => ?_, fun hgiven => ?_, fun r hr => ?_⟩
  · rw [houtcome] at hstill
    cases hstill
  · cases hgiven
  · rw [(h.pending hpending).1] at hr
    cases hr

theorem Sound.of_told {told told' : Bool} (h : p.Sound cell told)
    (htold : told' = true → told = true) : p.Sound cell told' :=
  ⟨h.resting, h.pending, fun hgiven => h.awake (htold hgiven), h.answered⟩

/-! ### Polls that come to an end -/

/-- How many sections a poll has left at most, as long as it does not find the cell pending. -/
def left : Waiter → Nat
  | .registered _ => 1
  | _ => 2

/-- A poll that will bring `r`, or has brought it; `done` counts the sections that it has done
since it was looked at first. -/
def Comes (r : Except Failure α) (done : Nat) (p : Poller α) : Prop :=
  (p.answer = some r ∧ p.busy = false) ∨
    (p.answer = none ∧ p.busy = true ∧ p.waiter ≠ .suspended false ∧ done + left p.waiter ≤ 2)

/-- A section of a poll beside a resolved cell brings the poll nearer to its answer. -/
theorem Comes.goOn {r : Except Failure α} {done : Nat} (h : p.Comes r done)
    (hresult : cell.result? = some r) : (p.goOn cell).Comes r (done + 1) := by
  rcases h with ⟨hanswer, hbusy⟩ | ⟨hanswer, hbusy, hawake, hleft⟩
  · rcases goOn_cases cell p with ⟨-, hgo⟩ | ⟨hgoing, -⟩ | ⟨hgoing, -⟩ | ⟨hgoing, -⟩
    · rw [hgo]
      exact .inl ⟨hanswer, hbusy⟩
    · rw [hbusy] at hgoing
      cases hgoing
    · rw [hbusy] at hgoing
      cases hgoing
    · rw [hbusy] at hgoing
      cases hgoing
  · rcases goOn_cases cell p with ⟨hover, -⟩ | ⟨-, notified, hwaiter, ⟨r', hr', hgo⟩ | ⟨hpending, -⟩⟩ |
      ⟨-, hwaiter, -⟩ | ⟨-, hwaiter, hgo⟩
    · rw [hbusy] at hover
      cases hover
    · rw [hresult] at hr'
      cases hr'
      rw [hgo]
      exact .inl ⟨rfl, rfl⟩
    · rw [(Cell.result?_eq_none_iff cell).mpr hpending] at hresult
      cases hresult
    · exact absurd hwaiter hawake
    · have htwo : left p.waiter = 2 := by rcases hwaiter with hw | hw <;> rw [hw] <;> rfl
      rw [htwo] at hleft
      rw [hgo]
      refine .inr ⟨hanswer, hbusy, by simp, ?_⟩
      change done + 1 + 1 ≤ 2
      omega

theorem Comes.notify {r : Except Failure α} {done : Nat} (h : p.Comes r done) :
    p.notify.Comes r done := by
  rcases h with ⟨hanswer, hbusy⟩ | ⟨hanswer, hbusy, -, hleft⟩
  · exact .inl ⟨hanswer, hbusy⟩
  · refine .inr ⟨hanswer, hbusy, p.waiter.notify_ne_sleeping, ?_⟩
    have hsame : left p.waiter.notify = left p.waiter := by cases p.waiter <;> rfl
    exact hsame ▸ hleft

/-- To begin a poll again changes nothing. -/
theorem Comes.start {r : Except Failure α} {done : Nat} (h : p.Comes r done) :
    p.start.Comes r done := by
  rcases h with ⟨hanswer, hbusy⟩ | ⟨hanswer, hbusy, hawake, hleft⟩
  · exact .inl ⟨by simp [Poller.start, hanswer], by simp [Poller.start, hanswer, hbusy]⟩
  · exact .inr ⟨by simp [Poller.start, hanswer], by simp [Poller.start, hanswer],
      by simpa [Poller.start, hanswer] using hawake, by simpa [Poller.start, hanswer] using hleft⟩

/-- A poll that begins beside a resolved cell will bring its result, unless the poller sleeps. -/
theorem comes_of_start (hawake : p.waiter ≠ .suspended false) (hunanswered : p.answer = none)
    (r : Except Failure α) : p.start.Comes r 0 := by
  refine .inr ⟨by simp [Poller.start, hunanswered], by simp [Poller.start, hunanswered],
    by simpa [Poller.start, hunanswered] using hawake, ?_⟩
  have hmost : ∀ w, left w ≤ 2 := fun w => by cases w <;> simp [left]
  simpa using hmost p.start.waiter

/-- How many sections a poll has left that finds the cell pending. -/
def vain : Waiter → Nat
  | .idle => 3
  | .registered _ => 2
  | .suspended _ => 1

/-- A poll that will come to nothing, or has come to nothing. -/
structure Dozes (done : Nat) (p : Poller α) : Prop where
  unanswered : p.answer = none
  quiet : p.waiter.isNotified = false
  asleep : p.busy = false → p.waiter = .suspended false
  left : p.busy = true → done + vain p.waiter ≤ 3

/-- A section of a poll beside a pending cell brings the poll nearer to its sleep. -/
theorem Dozes.goOn {done : Nat} (h : p.Dozes done) (hpending : cell.isPending = true) :
    (p.goOn cell).Dozes (done + 1) := by
  rcases goOn_cases cell p with ⟨hover, hgo⟩ |
    ⟨hbusy, notified, hwaiter, ⟨r, hr, -⟩ | ⟨-, hgo⟩⟩ | ⟨hbusy, hwaiter, hgo⟩ |
    ⟨hbusy, hwaiter, hgo⟩
  · rw [hgo]
    refine ⟨h.unanswered, h.quiet, h.asleep, fun hbusy => ?_⟩
    rw [hover] at hbusy
    cases hbusy
  · rw [(Cell.result?_eq_none_iff cell).mpr hpending] at hr
    cases hr
  · have hleft := h.left hbusy
    have hquiet := h.quiet
    rw [hwaiter] at hleft hquiet
    rw [hgo]
    refine ⟨rfl, hquiet, fun hover => ?_, fun _ => ?_⟩
    · cases hover
    · simp only [vain] at hleft ⊢
      omega
  · rw [hgo]
    refine ⟨h.unanswered, h.quiet, fun _ => hwaiter, fun hgoing => ?_⟩
    cases hgoing
  · have hleft := h.left hbusy
    have hquiet := h.quiet
    rcases hwaiter with hw | hw
    · rw [hw] at hleft
      rw [hgo]
      refine ⟨h.unanswered, rfl, fun hover => ?_, fun _ => ?_⟩
      · rw [hbusy] at hover
        cases hover
      · simp only [vain] at hleft ⊢
        omega
    · rw [hw] at hquiet
      cases hquiet

/-- A poll that begins beside a pending cell will come to nothing as long as it is pending. -/
theorem Sound.dozes {told : Bool} (h : p.Sound cell told) (hpending : cell.isPending = true) :
    p.start.Dozes 0 := by
  obtain ⟨hunanswered, hquiet⟩ := h.pending hpending
  have hstart : p.start = { p with busy := true } := by simp [Poller.start, hunanswered]
  rw [hstart]
  refine ⟨hunanswered, hquiet, fun hover => ?_, fun _ => ?_⟩
  · cases hover
  · have hmost : ∀ w, vain w ≤ 3 := fun w => by cases w <;> simp [vain]
    simpa using hmost p.waiter

end Poller

/-! ## Events -/

/-- A cell, those who wait for it, and those who resolve it. -/
structure CellTraffic (α : Type) where
  cell : Cell α := .pending
  pollers : List (Poller α) := []
  resolvers : List (Resolver α) := []

/-- One section, or somebody's setting about something. -/
inductive CellEvent (α : Type) where
  /-- Somebody wants to be told of the cell. -/
  | awaits
  /-- The poller at a place is polled. -/
  | polls (place : Nat)
  /-- Its poll goes on. -/
  | goesOn (place : Nat)
  /-- Somebody sets about resolving the cell. -/
  | resolves (outcome : Cell.Outcome α)
  /-- The resolver at a place goes on. -/
  | carriesOn (place : Nat)

namespace CellEvent

variable {α : Type}

/-- Whether an event is a section of the poll at a place. -/
def isSectionAt (place : Nat) : CellEvent α → Bool
  | goesOn place' => place' == place
  | _ => false

/-- Whether an event begins a poll at a place. -/
def isPollAt (place : Nat) : CellEvent α → Bool
  | polls place' => place' == place
  | _ => false

end CellEvent

namespace CellTraffic

variable {α : Type} {t : CellTraffic α}

/-- The resolver at a place does its next section. -/
def carryOn (place : Nat) (t : CellTraffic α) : CellTraffic α :=
  match t.resolvers[place]? with
  | some (.storing outcome) =>
      let resolved := t.cell.resolve outcome.1
      { t with
        cell := resolved.1
        resolvers := t.resolvers.set place (if resolved.2 then .notifying else .through false) }
  | some .notifying =>
      { t with
        pollers := t.pollers.map Poller.notify
        resolvers := t.resolvers.set place (.through true) }
  | _ => t

/-- What an event does. -/
def step (t : CellTraffic α) : CellEvent α → CellTraffic α
  | .awaits => { t with pollers := t.pollers ++ [{}] }
  | .polls place => { t with pollers := t.pollers.modify place Poller.start }
  | .goesOn place => { t with pollers := t.pollers.modify place (Poller.goOn t.cell) }
  | .resolves outcome => { t with resolvers := t.resolvers ++ [.storing outcome] }
  | .carriesOn place => t.carryOn place

/-- What a list of events comes to. -/
def run (events : List (CellEvent α)) (t : CellTraffic α) : CellTraffic α :=
  events.foldl step t

/-- A resolver that nothing comes between resolves the cell, and notifies those who have
registered if the cell took what it brought. -/
theorem carryOn_uninterrupted {place : Nat} {outcome : Cell.Outcome α}
    (hplace : t.resolvers[place]? = some (.storing outcome)) :
    (t.carryOn place).carryOn place =
      { cell := (t.cell.resolve outcome.1).1
        pollers := if (t.cell.resolve outcome.1).2 then t.pollers.map Poller.notify else t.pollers
        resolvers := t.resolvers.set place (.through (t.cell.resolve outcome.1).2) } := by
  obtain ⟨hlt, -⟩ := List.getElem?_eq_some_iff.mp hplace
  have hstored : t.carryOn place =
      { t with
        cell := (t.cell.resolve outcome.1).1
        resolvers := t.resolvers.set place
          (if (t.cell.resolve outcome.1).2 then .notifying else .through false) } := by
    simp only [carryOn, hplace]
  rw [hstored]
  cases (t.cell.resolve outcome.1).2 <;> simp [carryOn, hlt]

/-- Whether a resolver whose outcome the cell took is through. -/
def told (t : CellTraffic α) : Bool :=
  t.resolvers.any Resolver.hasNotified

@[simp]
theorem run_nil (t : CellTraffic α) : t.run [] = t := rfl

/-! ## What holds between any two sections -/

/-- What holds between any two sections.  The cell took what one resolver brought once it is
resolved, and nothing before. -/
structure Sound (t : CellTraffic α) : Prop where
  pollers : ∀ p ∈ t.pollers, p.Sound t.cell t.told
  took : t.resolvers.countP Resolver.took = if t.cell.isPending then 0 else 1

theorem start_sound : ({} : CellTraffic α).Sound := by
  refine ⟨fun p hp => ?_, rfl⟩
  cases hp

/-- A pending cell has taken nothing. -/
theorem Sound.resolved_of_took (h : t.Sound) {r : Resolver α} (hr : r ∈ t.resolvers)
    (htook : r.took = true) : t.cell.isPending = false := by
  by_contra hpending
  have hcount := h.took
  rw [if_pos (by simpa using hpending), List.countP_eq_zero] at hcount
  exact hcount r hr htook

/-- Nobody has notified as long as the cell is pending. -/
theorem Sound.resolved_of_told (h : t.Sound) (htold : t.told = true) :
    t.cell.isPending = false := by
  obtain ⟨r, hr, hnotified⟩ := List.any_eq_true.mp htold
  exact h.resolved_of_took hr (Resolver.took_of_hasNotified hnotified)

/-- One poller does something, and the others do nothing. -/
theorem Sound.modify (h : t.Sound) {f : Poller α → Poller α}
    (hf : ∀ p : Poller α, p.Sound t.cell t.told → (f p).Sound t.cell t.told) (place : Nat) :
    { t with pollers := t.pollers.modify place f }.Sound := by
  refine ⟨fun p hp => ?_, h.took⟩
  obtain ⟨place', hplace⟩ := List.mem_iff_getElem?.mp hp
  rw [List.getElem?_modify] at hplace
  obtain ⟨q, hq, rfl⟩ := Option.map_eq_some_iff.mp hplace
  have hsound := h.pollers q (List.mem_of_getElem? hq)
  split
  · exact hf q hsound
  · exact hsound

/-- A resolver that moves on without notifying has not notified. -/
theorem told_of_set {resolvers : List (Resolver α)} {place : Nat} {r : Resolver α}
    (hquiet : r.hasNotified = false)
    (htold : (resolvers.set place r).any Resolver.hasNotified = true) :
    resolvers.any Resolver.hasNotified = true := by
  obtain ⟨r', hr', hnotified⟩ := List.any_eq_true.mp htold
  rcases List.mem_or_eq_of_mem_set hr' with hbefore | rfl
  · exact List.any_eq_true.mpr ⟨r', hbefore, hnotified⟩
  · rw [hquiet] at hnotified
    cases hnotified

/-- How often the cell took something, when one resolver moves on. -/
theorem countP_set_took {resolvers : List (Resolver α)} {place : Nat} {before : Resolver α}
    (hplace : resolvers[place]? = some before) (after : Resolver α) :
    (resolvers.set place after).countP Resolver.took + before.took.toNat =
      resolvers.countP Resolver.took + after.took.toNat := by
  obtain ⟨hlt, hget⟩ := List.getElem?_eq_some_iff.mp hplace
  have hpos : before.took = true → 0 < resolvers.countP Resolver.took := fun htook =>
    List.countP_pos_iff.mpr ⟨before, List.mem_of_getElem? hplace, htook⟩
  rw [List.countP_set hlt, hget]
  cases hbefore : before.took with
  | false => cases hafter : after.took <;> simp
  | true =>
      have hsome := hpos hbefore
      cases hafter : after.took <;> simp <;> omega

/-- A resolver stores what it brings, and comes too late or is the first. -/
theorem Sound.stores (h : t.Sound) {place : Nat} {outcome : Cell.Outcome α}
    (hplace : t.resolvers[place]? = some (.storing outcome)) : (t.carryOn place).Sound := by
  have hcount := h.took
  unfold carryOn
  rw [hplace]
  by_cases hpending : t.cell.isPending = true
  · have hresolve : t.cell.resolve outcome.1 = (outcome.1, true) := by
      simp [Cell.resolve, hpending]
    have htook := countP_set_took hplace .notifying
    simp only [hresolve]
    refine ⟨fun p hp => ?_, ?_⟩
    · refine ((h.pollers p hp).resolved hpending outcome.2).of_told fun htold => ?_
      have hbefore : t.told = true := told_of_set rfl htold
      rw [h.resolved_of_told hbefore] at hpending
      cases hpending
    · simp only [hpending, if_true] at hcount
      simpa [hcount, outcome.2, Resolver.took] using htook
  · have hresolved : t.cell.isPending = false := by simpa using hpending
    have hresolve := Cell.resolve_of_resolved hresolved outcome.1
    have htook := countP_set_took hplace (.through false)
    simp only [hresolve]
    refine ⟨fun p hp => (h.pollers p hp).of_told fun htold => told_of_set rfl htold, ?_⟩
    rw [← hcount]
    simpa [Resolver.took] using htook

/-- A resolver notifies whoever has registered. -/
theorem Sound.notifies (h : t.Sound) {place : Nat}
    (hplace : t.resolvers[place]? = some .notifying) : (t.carryOn place).Sound := by
  have hresolved := h.resolved_of_took (List.mem_of_getElem? hplace) rfl
  have htook := countP_set_took hplace (.through true)
  unfold carryOn
  rw [hplace]
  refine ⟨fun p hp => ?_, ?_⟩
  · obtain ⟨q, hq, rfl⟩ := List.mem_map.mp hp
    exact (h.pollers q hq).notify hresolved _
  · rw [← h.took]
    simpa [Resolver.took] using htook

/-- Every section keeps what holds between the sections. -/
theorem Sound.step (h : t.Sound) (e : CellEvent α) : (t.step e).Sound := by
  cases e with
  | awaits =>
      refine ⟨fun p hp => ?_, h.took⟩
      rcases List.mem_append.mp hp with hbefore | hnew
      · exact h.pollers p hbefore
      · rw [List.mem_singleton.mp hnew]
        exact Poller.sound_fresh _ _
  | polls place => exact h.modify (fun p hp => hp.start) place
  | goesOn place => exact h.modify (fun p hp => hp.goOn h.resolved_of_told) place
  | resolves outcome =>
      have hquiet : ({ t with resolvers := t.resolvers ++ [.storing outcome] } :
          CellTraffic α).told = t.told := by
        simp [told, Resolver.hasNotified]
      refine ⟨fun p hp => (h.pollers p hp).of_told fun htold => hquiet ▸ htold, ?_⟩
      change (t.resolvers ++ [Resolver.storing outcome]).countP Resolver.took = _
      rw [List.countP_append, h.took]
      rfl
  | carriesOn place =>
      change (t.carryOn place).Sound
      cases hplace : t.resolvers[place]? with
      | none => simpa [carryOn, hplace] using h
      | some r =>
          cases r with
          | storing outcome => exact h.stores hplace
          | notifying => exact h.notifies hplace
          | through took => simpa [carryOn, hplace] using h

/-- What holds between sections holds after any number of them. -/
theorem Sound.run (h : t.Sound) (events : List (CellEvent α)) : (t.run events).Sound := by
  induction events generalizing t with
  | nil => exact h
  | cons e events ih => exact ih (h.step e)

theorem run_sound (events : List (CellEvent α)) : (({} : CellTraffic α).run events).Sound :=
  start_sound.run events

/-! ## What becomes of one poller -/

/-- The result of a resolved cell stays. -/
theorem result_step {r : Except Failure α} (hresult : t.cell.result? = some r)
    (e : CellEvent α) : (t.step e).cell.result? = some r := by
  have hresolved : t.cell.isPending = false := t.cell.resolved_iff.mpr ⟨r, hresult⟩
  cases e with
  | carriesOn place =>
      change (t.carryOn place).cell.result? = some r
      unfold carryOn
      split
      · simpa [Cell.resolve_of_resolved hresolved] using hresult
      · exact hresult
      · exact hresult
  | _ => exact hresult

/-- A cell that is still pending was pending before. -/
theorem pending_of_step (e : CellEvent α) (hpending : (t.step e).cell.isPending = true) :
    t.cell.isPending = true := by
  by_contra hresolved
  obtain ⟨r, hr⟩ := t.cell.resolved_iff.mp (by simpa using hresolved)
  rw [← Cell.result?_eq_none_iff, result_step hr e] at hpending
  cases hpending

theorem pending_of_run {events : List (CellEvent α)}
    (hpending : (t.run events).cell.isPending = true) : t.cell.isPending = true := by
  induction events generalizing t with
  | nil => exact hpending
  | cons e events ih => exact pending_of_step e (ih hpending)

/-- All that an event can do to the poller at a place. -/
inductive Does (cell : Cell α) (place : Nat) (p : Poller α) : CellEvent α → Poller α → Prop
  | starts : Does cell place p (.polls place) p.start
  | goesOn : Does cell place p (.goesOn place) (p.goOn cell)
  | hears (e : CellEvent α) (hresolved : cell.isPending = false)
      (hother : e.isSectionAt place = false) : Does cell place p e p.notify
  | nothing (e : CellEvent α) (hother : e.isSectionAt place = false) : Does cell place p e p

/-- Whatever happens does one of these things to the poller at a place. -/
theorem Sound.does (h : t.Sound) {place : Nat} {p : Poller α}
    (hplace : t.pollers[place]? = some p) (e : CellEvent α) :
    ∃ q, (t.step e).pollers[place]? = some q ∧ Does t.cell place p e q := by
  cases e with
  | awaits =>
      have hlt := (List.getElem?_eq_some_iff.mp hplace).1
      exact ⟨p, (List.getElem?_append_left hlt).trans hplace, .nothing _ rfl⟩
  | polls place' =>
      by_cases hsame : place' = place
      · subst hsame
        exact ⟨p.start, by simp [CellTraffic.step, hplace], .starts⟩
      · exact ⟨p, by simp [CellTraffic.step, hplace, hsame], .nothing _ rfl⟩
  | goesOn place' =>
      by_cases hsame : place' = place
      · subst hsame
        exact ⟨p.goOn t.cell, by simp [CellTraffic.step, hplace], .goesOn⟩
      · exact ⟨p, by simp [CellTraffic.step, hplace, hsame],
          .nothing _ (by simpa [CellEvent.isSectionAt] using hsame)⟩
  | resolves outcome => exact ⟨p, hplace, .nothing _ rfl⟩
  | carriesOn place' =>
      change ∃ q, (t.carryOn place').pollers[place]? = some q ∧ _
      cases hresolver : t.resolvers[place']? with
      | none => exact ⟨p, by simpa [carryOn, hresolver] using hplace, .nothing _ rfl⟩
      | some r =>
          cases r with
          | storing outcome => exact ⟨p, by simpa [carryOn, hresolver] using hplace, .nothing _ rfl⟩
          | through took => exact ⟨p, by simpa [carryOn, hresolver] using hplace, .nothing _ rfl⟩
          | notifying =>
              have hresolved := h.resolved_of_took (List.mem_of_getElem? hresolver) rfl
              exact ⟨p.notify, by simp [carryOn, hresolver, hplace], .hears _ hresolved rfl⟩

/-- A poll beside a resolved cell comes to its end, whatever happens meanwhile. -/
theorem Sound.run_comes (h : t.Sound) {place done : Nat} {p : Poller α} {r : Except Failure α}
    (hresult : t.cell.result? = some r) (hplace : t.pollers[place]? = some p)
    (hcomes : p.Comes r done) (events : List (CellEvent α)) :
    ∃ q, (t.run events).pollers[place]? = some q ∧
      q.Comes r (done + events.countP (CellEvent.isSectionAt place)) := by
  induction events generalizing t p done with
  | nil => exact ⟨p, hplace, hcomes⟩
  | cons e events ih =>
      obtain ⟨q, hq, hdoes⟩ := h.does hplace e
      have hnext : q.Comes r (done + if e.isSectionAt place then 1 else 0) := by
        cases hdoes with
        | starts => exact hcomes.start
        | goesOn => simpa [CellEvent.isSectionAt] using hcomes.goOn hresult
        | hears _ hresolved hother => simpa [hother] using hcomes.notify
        | nothing _ hother => simpa [hother] using hcomes
      obtain ⟨q', hq', hcomes'⟩ := ih (h.step e) (result_step hresult e) hq hnext
      refine ⟨q', hq', ?_⟩
      rw [List.countP_cons, Nat.add_comm (events.countP _), ← Nat.add_assoc]
      exact hcomes'

/-- A poll beside a cell that stays pending comes to nothing. -/
theorem Sound.run_dozes (h : t.Sound) {place done : Nat} {p : Poller α}
    (hplace : t.pollers[place]? = some p) (hdozes : p.Dozes done) {events : List (CellEvent α)}
    (honce : ∀ e ∈ events, e.isPollAt place = false)
    (hpending : (t.run events).cell.isPending = true) :
    ∃ q, (t.run events).pollers[place]? = some q ∧
      q.Dozes (done + events.countP (CellEvent.isSectionAt place)) := by
  induction events generalizing t p done with
  | nil => exact ⟨p, hplace, hdozes⟩
  | cons e events ih =>
      have hnow : t.cell.isPending = true := pending_of_run hpending
      obtain ⟨q, hq, hdoes⟩ := h.does hplace e
      have hnext : q.Dozes (done + if e.isSectionAt place then 1 else 0) := by
        cases hdoes with
        | starts =>
            have hagain := honce _ List.mem_cons_self
            simp [CellEvent.isPollAt] at hagain
        | goesOn => simpa [CellEvent.isSectionAt] using hdozes.goOn hnow
        | hears _ hresolved hother =>
            rw [hresolved] at hnow
            cases hnow
        | nothing _ hother => simpa [hother] using hdozes
      obtain ⟨q', hq', hdozes'⟩ := ih (h.step e) hq hnext
        (fun e' he' => honce e' (List.mem_cons_of_mem e he')) hpending
      refine ⟨q', hq', ?_⟩
      rw [List.countP_cons, Nat.add_comm (events.countP _), ← Nat.add_assoc]
      exact hdozes'

/-! ## Nobody sleeps on -/

/-- However the sections of any number of pollers and resolvers meet:

- when a resolver is through whose outcome the cell took, no poller sleeps without having been
  notified;
- whoever was answered was given the result of the cell;
- a poll that begins when the cell is resolved brings the result, with its second section at the
  latest, and never ends without it, if the resolver is through or the poller does not sleep;
  between the store and the notification a sleeper that is polled sleeps on;
- a poll that begins when the cell is pending, and meets it pending, brings nothing, and ends
  with the poller asleep.
-/
theorem run_wakes (events : List (CellEvent α)) :
    let t := ({} : CellTraffic α).run events
    (.through true ∈ t.resolvers → ∀ p ∈ t.pollers, p.waiter ≠ .suspended false) ∧
    (∀ p ∈ t.pollers, ∀ r, p.answer = some r → t.cell.result? = some r) ∧
    (∀ r place p, t.cell.result? = some r → t.pollers[place]? = some p → p.answer = none →
      (.through true ∈ t.resolvers ∨ p.waiter ≠ .suspended false) → ∀ later,
        ∃ q, ((t.step (.polls place)).run later).pollers[place]? = some q ∧
          (q.answer = some r ∨ q.answer = none ∧ q.busy = true) ∧
          (2 ≤ later.countP (CellEvent.isSectionAt place) → q.answer = some r)) ∧
    (∀ place p, t.pollers[place]? = some p → ∀ later,
      (∀ e ∈ later, e.isPollAt place = false) →
      ((t.step (.polls place)).run later).cell.isPending = true →
        ∃ q, ((t.step (.polls place)).run later).pollers[place]? = some q ∧ q.answer = none ∧
          (q.busy = false → q.waiter = .suspended false) ∧
          (3 ≤ later.countP (CellEvent.isSectionAt place) → q.busy = false)) := by
  intro t
  have h : t.Sound := run_sound events
  have hawake : .through true ∈ t.resolvers → ∀ p ∈ t.pollers, p.waiter ≠ .suspended false :=
    fun hthrough p hp =>
      (h.pollers p hp).awake (List.any_eq_true.mpr ⟨_, hthrough, rfl⟩)
  have hstarted : ∀ {place p}, t.pollers[place]? = some p →
      (t.step (.polls place)).pollers[place]? = some p.start := by
    intro place p hplace
    simp [step, hplace]
  refine ⟨hawake, fun p hp => (h.pollers p hp).answered, ?_, ?_⟩
  · intro r place p hresult hplace hunanswered hreason later
    have hp := List.mem_of_getElem? hplace
    have hready : p.waiter ≠ .suspended false := by
      rcases hreason with hthrough | hready
      · exact hawake hthrough p hp
      · exact hready
    have hcomes := Poller.comes_of_start hready hunanswered r
    obtain ⟨q, hq, hend⟩ := (h.step (.polls place)).run_comes (result_step hresult _)
      (hstarted hplace) hcomes later
    refine ⟨q, hq, ?_, fun hsections => ?_⟩
    · rcases hend with ⟨hanswer, -⟩ | ⟨hanswer, hbusy, -⟩
      · exact .inl hanswer
      · exact .inr ⟨hanswer, hbusy⟩
    · rcases hend with ⟨hanswer, -⟩ | ⟨-, -, -, hleft⟩
      · exact hanswer
      · have hsome : 0 < Poller.left q.waiter := by cases q.waiter <;> simp [Poller.left]
        omega
  · intro place p hplace later honce hpending
    have hnow : t.cell.isPending = true := pending_of_step (.polls place) (pending_of_run hpending)
    have hdozes := (h.pollers p (List.mem_of_getElem? hplace)).dozes hnow
    obtain ⟨q, hq, hend⟩ := (h.step (.polls place)).run_dozes (hstarted hplace) hdozes honce
      hpending
    refine ⟨q, hq, hend.unanswered, hend.asleep, fun hsections => ?_⟩
    by_contra hbusy
    have hleft := hend.left (by simpa using hbusy)
    have hsome : 0 < Poller.vain q.waiter := by cases q.waiter <;> simp [Poller.vain]
    omega

/-- A poller sleeps, and a resolver has stored its outcome but not notified yet.  A poll finds
that nobody has notified the sleeper, and it sleeps on, although the cell has its result; the
next poll after the notification brings it. -/
theorem poll_before_notification_is_in_vain :
    let stored : List (CellEvent Nat) :=
      [.awaits, .polls 0, .goesOn 0, .goesOn 0, .goesOn 0, .resolves ⟨.ready 7, rfl⟩,
        .carriesOn 0]
    let poll : List (CellEvent Nat) := [.polls 0, .goesOn 0, .goesOn 0, .goesOn 0]
    let t := ({} : CellTraffic Nat).run stored
    t.cell.result? = some (.ok 7) ∧
      (t.run poll).pollers = [{ waiter := .suspended false }] ∧
      (t.run (poll ++ .carriesOn 0 :: poll)).pollers = [{ answer := some (.ok 7) }] :=
  ⟨rfl, rfl, rfl⟩

/-- Of two pollers one has looked in vain before the first resolver stores, and goes to sleep
between the store and the notification; the other has registered before the store and looks
after it.  A second resolver comes too late. -/
theorem crossing_polls_are_answered :
    let crossing : List (CellEvent Nat) :=
      [.awaits, .awaits, .polls 0, .goesOn 0, .goesOn 0, .resolves ⟨.ready 7, rfl⟩,
        .resolves ⟨.missing, rfl⟩, .polls 1, .goesOn 1, .carriesOn 0, .carriesOn 1, .goesOn 0,
        .goesOn 1, .carriesOn 0]
    let t := ({} : CellTraffic Nat).run crossing
    t.pollers = [{ waiter := .suspended true }, { answer := some (.ok 7) }] ∧
      (∀ p ∈ t.pollers, p.waiter ≠ .suspended false) ∧
      (∃ q, ((t.step (.polls 0)).run [.goesOn 0, .goesOn 0]).pollers[0]? = some q ∧
        q.answer = some (.ok 7)) ∧
      (∃ q, (((({} : CellTraffic Nat).run [.awaits]).step (.polls 0)).run
          [.goesOn 0, .goesOn 0, .goesOn 0]).pollers[0]? = some q ∧
        q.busy = false ∧ q.waiter = .suspended false) := by
  intro crossing t
  obtain ⟨hawake, -, hcomes, -⟩ := run_wakes crossing
  obtain ⟨-, -, -, hdozes⟩ := run_wakes (α := Nat) [.awaits]
  have hthrough : t.resolvers[0]? = some (.through true) := rfl
  obtain ⟨q, hq, -, hanswer⟩ := hcomes (.ok 7) 0 { waiter := .suspended true } rfl rfl rfl
    (.inl (List.mem_of_getElem? hthrough)) [.goesOn 0, .goesOn 0]
  obtain ⟨q', hq', -, hasleep, hover⟩ := hdozes 0 {} rfl [.goesOn 0, .goesOn 0, .goesOn 0]
    (by decide) rfl
  exact ⟨rfl, hawake (List.mem_of_getElem? hthrough), ⟨q, hq, hanswer (by decide)⟩,
    ⟨q', hq', hover (by decide), hasleep (hover (by decide))⟩⟩

end CellTraffic
end CreditFlow
