import CreditFlow.Proofs.InletCancellation

/-!
# The subscriptions of an inlet

Any number of publishers may offer an inlet their subscriptions, and an inlet wants one.  The
first one that arrives while nobody has closed the inlet is *accepted* and asked for an item at
once; every other one is turned away with a cancellation, and that is all it ever hears.  What
the accepted one hears is requests, and at most one cancellation: none if the inlet was told of
an end before it was closed, one if it was not.

Five operations decide about the subscription and call it afterwards.  What they decide is
given in the step in which they look at the slot, so the orders that a subscription is given
come in this order however the steps of several operations meet.  Only the order in which they
*arrive* depends on that: a request may be overtaken by a cancellation that was decided later.
In a run whose operations are {lit}`Atomic` nothing is overtaken, though publishers signal and
close from inside the calls that reach them.

Main results:

- {lit}`InletTraffic.run_standing`: what a subscription was given, in every run.
- {lit}`InletTraffic.Accepts.unique`: at most one subscription is accepted.
- {lit}`InletTraffic.Whole.received`: where operations are atomic, orders arrive as they were
  given.
- {lit}`InletTraffic.accepting_arrival`, {lit}`InletTraffic.refusing_arrival`: all that an
  arrival comes to.
- {lit}`InletTraffic.run_disciplines`: what becomes of subscriptions in every run.
-/

namespace CreditFlow
namespace InletTraffic

variable {t : InletTraffic}

/-! ## The orders for one subscription -/

/-- The controls that orders bring to one subscription, in order. -/
def ordersFor (handle : Nat) (orders : List (Nat × Control)) : List Control :=
  (orders.filter fun o => o.1 == handle).map Prod.snd

@[simp]
theorem ordersFor_append (handle : Nat) (first second : List (Nat × Control)) :
    ordersFor handle (first ++ second) = ordersFor handle first ++ ordersFor handle second := by
  simp [ordersFor]

@[simp]
theorem ordersFor_own (handle : Nat) (c : Control) : ordersFor handle [(handle, c)] = [c] := by
  simp [ordersFor]

/-- What is ordered of another subscription is nothing to this one. -/
theorem ordersFor_other {handle other : Nat} (hother : other ≠ handle) (c : Control) :
    ordersFor handle [(other, c)] = [] := by
  simp [ordersFor, hother]

/-- The orders for a subscription are counted among all orders. -/
theorem count_ordersFor (handle : Nat) (c : Control) (orders : List (Nat × Control)) :
    (ordersFor handle orders).count c = orders.count (handle, c) := by
  induction orders with
  | nil => rfl
  | cons o orders ih =>
      obtain ⟨other, d⟩ := o
      rw [← List.singleton_append, ordersFor_append, List.count_append, List.count_append, ih]
      by_cases hown : other = handle
      · subst hown
        rw [ordersFor_own]
        simp [List.count_singleton]
      · rw [ordersFor_other hown]
        simp [hown]

/-! ## Acceptance -/

/-- A subscription is accepted in a run if the inlet holds it at some time. -/
def Accepts (events : List InletEvent) (t : InletTraffic) (handle : Nat) : Prop :=
  ∃ before, before <+: events ∧ (t.run before).inlet.slot = .installed handle

/-- A subscription that was accepted stays accepted in a longer run. -/
theorem Accepts.append {events : List InletEvent} {handle : Nat} (h : Accepts events t handle)
    (later : List InletEvent) : Accepts (events ++ later) t handle := by
  obtain ⟨before, hprefix, hslot⟩ := h
  exact ⟨before, hprefix.trans (List.prefix_append _ _), hslot⟩

/-- One more event can accept one more subscription. -/
theorem accepts_concat (events : List InletEvent) (e : InletEvent) (t : InletTraffic)
    (handle : Nat) :
    Accepts (events ++ [e]) t handle ↔
      Accepts events t handle ∨ ((t.run events).step e).inlet.slot = .installed handle := by
  constructor
  · rintro ⟨before, hprefix, hslot⟩
    rcases List.prefix_concat_iff.mp hprefix with rfl | hearlier
    · rw [run_append] at hslot
      exact .inr hslot
    · exact .inl ⟨before, hearlier, hslot⟩
  · rintro (haccepts | hslot)
    · exact haccepts.append [e]
    · exact ⟨events ++ [e], List.prefix_refl _, by rw [run_append]; exact hslot⟩

/-- The subscription that an inlet holds stays until the inlet is closed, and no other one
takes its place. -/
theorem Windowed.run_installed (h : t.Windowed) {handle : Nat}
    (hinstalled : t.inlet.slot = .installed handle) (events : List InletEvent) :
    (t.run events).inlet.slot = .installed handle ∨ (t.run events).inlet.slot = .closed := by
  have hall : (t.run events).Windowed ∧
      ((t.run events).inlet.slot = .installed handle ∨
        (t.run events).inlet.slot = .closed) := by
    apply @run_keeps (fun t => t.Windowed ∧
      (t.inlet.slot = .installed handle ∨ t.inlet.slot = .closed)) _ t ⟨h, .inl hinstalled⟩ events
    rintro t e ⟨h, hinstalled | hclosed⟩
    · refine ⟨h.step e, ?_⟩
      cases move_step h e with
      | stays hslot hspared => exact .inl (hslot.trans hinstalled)
      | installs hbefore hslot hspared =>
          rw [hinstalled] at hbefore
          cases hbefore
      | shuts hbefore hslot horders => exact .inr hslot
      | cuts first hbefore hslot horders => exact .inr hslot
    · exact ⟨h.step e, .inr (closed_step h hclosed e)⟩
  exact hall.2

/-- At most one subscription is accepted. -/
theorem Accepts.unique {interrupted : Bool} {events : List InletEvent} {first second : Nat}
    (hfirst : Accepts events (start interrupted) first)
    (hsecond : Accepts events (start interrupted) second) : first = second := by
  obtain ⟨before, hbefore, hslot⟩ := hfirst
  obtain ⟨before', hbefore', hslot'⟩ := hsecond
  -- Of the two times at which they were held one is the earlier one.
  have hkept : ∀ {early late : List InletEvent} {one other : Nat}, early <+: late →
      ((start interrupted).run early).inlet.slot = .installed one →
      ((start interrupted).run late).inlet.slot = .installed other → one = other := by
    rintro early late one other ⟨between, rfl⟩ hone hother
    rw [run_append] at hother
    rcases (run_windowed interrupted early).run_installed hone between with hsame | hclosed
    · rw [hsame] at hother
      exact Slot.installed.inj hother
    · rw [hclosed] at hother
      cases hother
  rcases List.prefix_or_prefix_of_prefix hbefore hbefore' with hearlier | hlater
  · exact hkept hearlier hslot hslot'
  · exact (hkept hlater hslot' hslot).symm

/-! ## What a subscription is given -/

/-- Whether the inlet was told of an end, by its publisher or from beside the stream. -/
def ended (t : InletTraffic) : Bool :=
  t.told.any fun c => c.end?.isSome

/-- All that a subscription can have been given which arrived and is not held. -/
inductive Final (t : InletTraffic) (accepted : Prop) (orders : List Control) : Prop where
  /-- It was accepted, and had come to an end when the inlet closed. -/
  | released (haccepted : accepted) (hended : t.ended = true) (k : Nat)
      (horders : orders = List.replicate (k + 1) (.request 1))
  /-- It was accepted, and cancelled when the inlet closed. -/
  | cancelled (haccepted : accepted) (k : Nat)
      (horders : orders = List.replicate (k + 1) (.request 1) ++ [.cancel])
  /-- It came too late or twice. -/
  | turnedAway (hnever : ¬accepted) (horders : orders = [.cancel])

/-- How a subscription and the inlet stand to each other, and what it was given so far. -/
inductive Standing (t : InletTraffic) (accepted : Prop) (handle : Nat) (orders : List Control) :
    Prop where
  /-- It has not arrived. -/
  | absent (hplace : t.world.peers.length ≤ handle) (hnever : ¬accepted) (horders : orders = [])
  /-- The inlet holds it. -/
  | held (hslot : t.inlet.slot = .installed handle) (haccepted : accepted) (k : Nat)
      (horders : orders = List.replicate (k + 1) (.request 1))
  /-- It arrived, and the inlet does not hold it. -/
  | past (hplace : handle < t.world.peers.length) (hwanted : t.inlet.slot ≠ .vacant)
      (hother : t.inlet.slot ≠ .installed handle) (hfinal : t.Final accepted orders)

/-- The inlet holds nobody who has not arrived. -/
theorem Addressed.not_installed (h : t.Addressed) {handle : Nat}
    (hplace : t.world.peers.length ≤ handle) : t.inlet.slot ≠ .installed handle := by
  intro hinstalled
  exact absurd (h.slot handle hinstalled) (Nat.not_lt.mpr hplace)

/-- A subscription brings its publisher. -/
theorem peers_step (t : InletTraffic) (e : InletEvent) :
    (t.step e).world.peers.length =
      t.world.peers.length + (t.arrives e).toNat := by
  cases e with
  | begins c => rfl
  | proceeds place =>
      simp only [step, arrives, cue?]
      cases htask : t.underway[place]? with
      | none => rfl
      | some task =>
          cases task with
          | reaction r =>
              cases r with
              | control handle c => exact Peer.answerAt_length c handle t.world.peers
              | _ => rfl
          | cue c =>
              cases c with
              | subscribe peer => exact List.length_append
              | aside e => cases e <;> rfl
              | _ => rfl
  | reads call =>
      rcases read_cases call t with ⟨-, hkept⟩ | ⟨a, -, hafter⟩
      · rw [step, hkept]
        rfl
      · rw [step, hafter]
        rfl
  | readerLeaves => rfl

/-- An inlet is told of an end by an event that brings it a cue with one. -/
theorem ended_step (t : InletTraffic) (e : InletEvent) :
    (t.step e).ended = (t.ended || (t.cue? e).any fun c => c.end?.isSome) := by
  rw [ended, told_step e t, List.any_append]
  cases t.cue? e with
  | none => rfl
  | some c => simp [ended]

/-- A step decides about the subscription that arrives and about the one that is held, and
about no other. -/
theorem ruling_other {b : Inlet Nat} {arrives : Bool} {after : Slot Nat} {fresh handle : Nat}
    {orders : List (Nat × Control)} (h : b.Ruling arrives after fresh orders)
    (hslot : b.slot ≠ .installed handle) (hfresh : arrives = true → fresh ≠ handle) :
    ordersFor handle orders = [] ∧ after ≠ .installed handle ∧
      (b.slot ≠ .vacant → after ≠ .vacant) := by
  cases h with
  | rests harrives hafter horders =>
      rw [horders, hafter]
      exact ⟨rfl, hslot, id⟩
  | asks first harrives hbefore hafter horders =>
      have hne : first ≠ handle := fun hsame => hslot (hsame ▸ hbefore)
      rw [horders, hafter]
      exact ⟨ordersFor_other hne _, hslot, id⟩
  | accepts harrives hbefore hafter horders =>
      rw [horders, hafter]
      exact ⟨ordersFor_other (hfresh harrives) _, by simpa using hfresh harrives, by simp⟩
  | refuses harrives hbefore hafter horders =>
      rw [horders, hafter]
      exact ⟨ordersFor_other (hfresh harrives) _, hslot, id⟩
  | shuts harrives hbefore hafter horders =>
      rw [horders, hafter]
      exact ⟨rfl, by simp, by simp⟩
  | releases first harrives hbefore hended hafter horders =>
      rw [horders, hafter]
      exact ⟨rfl, by simp, by simp⟩
  | cancels first harrives hbefore hopen hafter horders =>
      have hne : first ≠ handle := fun hsame => hslot (hsame ▸ hbefore)
      rw [horders, hafter]
      exact ⟨ordersFor_other hne _, by simp, by simp⟩

section Standing

variable {accepted accepted' : Prop} {handle : Nat} {orders : List Control}

/-- What was given in the end stays so. -/
theorem Final.step (hfinal : t.Final accepted orders) (e : InletEvent)
    (haccepted : accepted' ↔ accepted) : (t.step e).Final accepted' orders := by
  cases hfinal with
  | released hbefore hended k horders =>
      refine .released (haccepted.mpr hbefore) ?_ k horders
      rw [ended_step, hended]
      rfl
  | cancelled hbefore k horders => exact .cancelled (haccepted.mpr hbefore) k horders
  | turnedAway hnever horders => exact .turnedAway (mt haccepted.mp hnever) horders

/-- A subscription that arrives is accepted or turned away. -/
theorem Standing.arrive (h : t.Windowed) (hnever : ¬accepted) {e : InletEvent}
    (harrives : t.arrives e = true) (hfresh : t.world.peers.length = handle)
    (haccepted : accepted' ↔ accepted ∨ (t.step e).inlet.slot = .installed handle) :
    (t.step e).Standing accepted' handle (ordersFor handle (t.gives e)) := by
  have hruling := ruling_step h e
  rw [harrives, hfresh] at hruling
  cases hruling with
  | accepts _ hbefore hslot horders =>
      refine .held hslot (haccepted.mpr (.inr hslot)) 0 ?_
      rw [horders, ordersFor_own]
      rfl
  | refuses _ hbefore hslot horders =>
      have hother := h.not_installed hfresh.le
      rw [hslot] at haccepted
      apply Standing.past
      · rw [peers_step, harrives, hfresh]
        exact Nat.lt_succ_self handle
      · rwa [hslot]
      · rwa [hslot]
      · apply Final.turnedAway
        · intro hnow
          exact (haccepted.mp hnow).elim hnever hother
        · rw [horders, ordersFor_own]
  | rests hfalse | asks _ hfalse | shuts hfalse | releases _ hfalse | cancels _ hfalse =>
      cases hfalse

/-- The subscription that is held is asked for items until the inlet is closed. -/
theorem Standing.keep (h : t.Windowed)
    (hends : t.inlet.slot ≠ .closed → t.inlet.terminated = t.ended) {k : Nat}
    (hinstalled : t.inlet.slot = .installed handle) (hbefore : accepted) (e : InletEvent)
    (haccepted : accepted' ↔ accepted ∨ (t.step e).inlet.slot = .installed handle) :
    (t.step e).Standing accepted' handle
      (List.replicate (k + 1) (.request 1) ++ ordersFor handle (t.gives e)) := by
  have hplace := h.slot handle hinstalled
  have hstill : accepted' := haccepted.mpr (.inl hbefore)
  have hmore : handle < (t.step e).world.peers.length := by
    rw [peers_step]
    omega
  cases ruling_step h e with
  | rests harrives hslot horders =>
      refine .held (hslot.trans hinstalled) hstill k ?_
      rw [horders]
      exact List.append_nil _
  | asks first harrives hheld hslot horders =>
      obtain rfl : handle = first := Slot.installed.inj (hinstalled.symm.trans hheld)
      refine .held (hslot.trans hinstalled) hstill (k + 1) ?_
      rw [horders, ordersFor_own, List.replicate_succ' (n := k + 1)]
  | accepts harrives hvacant hslot horders =>
      rw [hinstalled] at hvacant
      cases hvacant
  | refuses harrives hvacant hslot horders =>
      refine .held (hslot.trans hinstalled) hstill k ?_
      rw [horders, ordersFor_other (by omega), List.append_nil]
  | shuts harrives hvacant hslot horders =>
      rw [hinstalled] at hvacant
      cases hvacant
  | releases first harrives hheld hended hslot horders =>
      refine .past hmore (by simp [hslot]) (by simp [hslot]) (.released hstill ?_ k ?_)
      · rw [ended_step, ← hends (by simp [hinstalled]), hended]
        rfl
      · rw [horders]
        exact List.append_nil _
  | cancels first harrives hheld hopen hslot horders =>
      obtain rfl : handle = first := Slot.installed.inj (hinstalled.symm.trans hheld)
      refine .past hmore (by simp [hslot]) (by simp [hslot]) (.cancelled hstill k ?_)
      rw [horders, ordersFor_own]

/-- Whatever happens moves a subscription as the list of its standings allows. -/
theorem Standing.step (h : t.Windowed)
    (hends : t.inlet.slot ≠ .closed → t.inlet.terminated = t.ended)
    (hstanding : t.Standing accepted handle orders) (e : InletEvent)
    (haccepted : accepted' ↔ accepted ∨ (t.step e).inlet.slot = .installed handle) :
    (t.step e).Standing accepted' handle (orders ++ ordersFor handle (t.gives e)) := by
  cases hstanding with
  | absent hplace hnever horders =>
      rw [horders, List.nil_append]
      by_cases hown : t.arrives e = true ∧ t.world.peers.length = handle
      · exact .arrive h hnever hown.1 hown.2 haccepted
      · -- Somebody else may arrive, and then this one is still behind all others.
        obtain ⟨hnothing, hslot, -⟩ := ruling_other (ruling_step h e) (h.not_installed hplace)
          (fun harrives hfresh => hown ⟨harrives, hfresh⟩)
        apply Standing.absent
        · rw [peers_step]
          cases harrives : t.arrives e with
          | false => exact hplace
          | true => exact Nat.lt_of_le_of_ne hplace fun hfresh => hown ⟨harrives, hfresh⟩
        · intro hnow
          exact (haccepted.mp hnow).elim hnever hslot
        · exact hnothing
  | held hinstalled hbefore k horders =>
      rw [horders]
      exact .keep h hends hinstalled hbefore e haccepted
  | past hplace hwanted hother hfinal =>
      obtain ⟨hnothing, hslot, hstill⟩ := ruling_other (ruling_step h e) hother
        (fun _ hfresh => absurd hfresh (by omega))
      rw [hnothing, List.append_nil]
      apply Standing.past
      · rw [peers_step]
        omega
      · exact hstill hwanted
      · exact hslot
      · exact hfinal.step e (haccepted.trans (or_iff_left hslot))

/-- What a subscription was given in a run, however the steps of several operations met. -/
theorem run_standing (interrupted : Bool) (events : List InletEvent) (handle : Nat) :
    ((start interrupted).run events).Standing (Accepts events (start interrupted) handle) handle
      (ordersFor handle (given events (start interrupted))) := by
  induction events using List.reverseRecOn with
  | nil =>
      refine .absent (Nat.zero_le _) ?_ rfl
      rintro ⟨before, hprefix, hslot⟩
      rw [List.prefix_nil.mp hprefix] at hslot
      cases hslot
  | append_singleton events e ih =>
      have hstep := ih.step (run_windowed interrupted events) (run_terminated interrupted events) e
        (accepts_concat events e (start interrupted) handle)
      rw [run_append, given_append, ordersFor_append, given, given, List.append_nil]
      exact hstep

/-- Nobody is cancelled twice. -/
theorem Standing.cancels_le (h : t.Standing accepted handle orders) :
    orders.count .cancel ≤ 1 := by
  cases h with
  | absent hplace hnever horders => simp [horders]
  | held hslot haccepted k horders => simp [horders, List.count_replicate]
  | past hplace hwanted hother hfinal =>
      cases hfinal with
      | released haccepted hended k horders => simp [horders, List.count_replicate]
      | cancelled haccepted k horders => simp [horders, List.count_append, List.count_replicate]
      | turnedAway hnever horders => simp [horders]

end Standing

end InletTraffic

/-! ## Operations that nothing interrupts -/

/-- Notes come first, and at most one call comes after them. -/
def Reaction.Prompt {ι : Type} : List (Reaction ι) → Prop
  | [] => True
  | .note _ :: rest => Prompt rest
  | .control _ _ :: rest => rest = []
  | .interrupt :: _ => False

/-- Whether a task is left of an operation that has begun. -/
def Task.isReaction : Task → Bool
  | .cue _ => false
  | .reaction _ => true

namespace Inlet

variable {ι : Type} {b : Inlet ι}

/-- A failing stream makes no call. -/
theorem failStream_prompt (f : Failure) (b : Inlet ι) : Reaction.Prompt (b.failStream f).2 := by
  unfold failStream
  split
  · trivial
  · split
    · split <;> trivial
    · trivial

/-- Closing makes one call at most, after its notes. -/
theorem close_prompt (b : Inlet ι) : Reaction.Prompt b.close.2 := by
  unfold close
  split
  · trivial
  · split
    · trivial
    · rfl
  · trivial

/-- An operation calls a subscription when it is through with everything else. -/
theorem echo_prompt (c : InletCue) (fresh : ι) (b : Inlet ι) :
    Reaction.Prompt (b.echo c fresh) := by
  cases c with
  | subscribe peer =>
      simp only [echo, subscribed]
      split <;> rfl
  | next chunk =>
      simp only [echo, next]
      split
      · split
        · rfl
        · split
          · rfl
          · trivial
      · trivial
  | error cause => exact failStream_prompt _ _
  | complete =>
      simp only [echo, complete, completeStream]
      split <;> trivial
  | aside e =>
      cases e with
      | failure cause => exact failStream_prompt _ _
      | publish value => trivial
      | close => exact close_prompt b
      | interrupt => trivial

/-- A reading call makes one call at most, after its notes. -/
theorem read_prompt (h : b.Orderly) {n : Nat} {interrupted : Bool}
    {a : Answer ι (Except Failure Octets)} (hread : b.read n interrupted = some a) :
    Reaction.Prompt a.reactions := by
  by_cases hn : n = 0
  · subst hn
    cases hread
    trivial
  · obtain ⟨held, hhold, rfl⟩ := hold_of_read (Nat.pos_of_ne_zero hn) hread
    rcases hold_cases h hhold with ⟨-, rfl⟩ | ⟨-, hrefill⟩
    · trivial
    · cases hrefill <;> trivial

end Inlet

/-- Whether an event carries on what was begun last. -/
def InletEvent.carriesOn : InletEvent → Bool
  | .proceeds 0 => true
  | _ => false

namespace InletTraffic

variable {t : InletTraffic}

/-- Whether an operation has begun whose calls are not all made. -/
def busy (t : InletTraffic) : Bool :=
  t.underway.any Task.isReaction

/-- Once an operation has begun nothing happens until it has made its calls.  What publishers do
from inside the calls comes after that. -/
def Atomic : List InletEvent → InletTraffic → Prop
  | [], _ => True
  | e :: events, t => (t.busy = true → e.carriesOn = true) ∧ Atomic events (t.step e)

instance Atomic.decidable : (events : List InletEvent) → (t : InletTraffic) →
    Decidable (Atomic events t)
  | [], _ => .isTrue trivial
  | e :: events, t =>
      have := Atomic.decidable events (t.step e)
      inferInstanceAs (Decidable ((_ → _) ∧ _))

/-- What is under way is what is left of one operation, and what publishers are still to do. -/
structure Whole (t : InletTraffic) (left : List (Reaction Nat)) (cues : List InletCue) : Prop where
  prompt : Reaction.Prompt left
  underway : t.underway = left.map Task.reaction ++ cues.map Task.cue

/-- The orders that are under way are those of the operation that has begun. -/
theorem Whole.due_eq {left : List (Reaction Nat)} {cues : List InletCue} (h : t.Whole left cues) :
    t.due = Reaction.orders left := by
  rw [due, h.underway, List.filterMap_append, Task.orders_reactions, Task.orders_cues,
    List.append_nil]

/-- When every call is made a new operation may begin, and all that it gives is under way. -/
theorem Whole.begin {cues : List InletCue} (hidle : t.Whole [] cues) (h : t.Windowed)
    (e : InletEvent) :
    ∃ left cues, (t.step e).Whole left cues ∧ t.receives e = none ∧
      Reaction.orders left = t.gives e := by
  have hcues : t.underway = cues.map Task.cue := hidle.underway
  cases e with
  | begins c => exact ⟨[], c :: cues, ⟨trivial, by simp [step, hcues]⟩, rfl, rfl⟩
  | proceeds place =>
      have htask : t.underway[place]? = cues[place]?.map Task.cue := by
        rw [hcues, List.getElem?_map]
      cases hcue : cues[place]? with
      | none =>
          rw [hcue, Option.map_none] at htask
          refine ⟨[], cues, ?_, ?_, ?_⟩
          · simpa only [InletTraffic.step, htask] using hidle
          · simp [receives, htask]
          · simp only [gives, htask]
            rfl
      | some c =>
          rw [hcue, Option.map_some] at htask
          refine ⟨t.inlet.echo c t.world.peers.length, cues.eraseIdx place,
            ⟨Inlet.echo_prompt c _ t.inlet, ?_⟩, ?_, ?_⟩
          · simp only [InletTraffic.step, htask]
            change (t.world.perform c).2.map .reaction ++ t.underway.eraseIdx place = _
            rw [Exchange.perform_echo, hcues, List.eraseIdx_map]
            rfl
          · simp [receives, htask, Task.order?]
          · simp [gives, htask]
  | reads call =>
      rcases read_cases call t with ⟨hread, hkept⟩ | ⟨a, hread, hafter⟩
      · refine ⟨[], cues, ?_, rfl, ?_⟩
        · rw [InletTraffic.step, hkept]
          exact hidle
        · simp only [gives, hread]
          rfl
      · refine ⟨a.reactions, cues, ⟨Inlet.read_prompt h.orderly hread, ?_⟩, rfl, ?_⟩
        · rw [InletTraffic.step, hafter]
          exact congrArg (a.reactions.map Task.reaction ++ ·) hcues
        · simp only [gives, hread]
  | readerLeaves =>
      refine ⟨t.inlet.dropReader.2, cues, ⟨Inlet.close_prompt t.inlet, ?_⟩, rfl, rfl⟩
      exact congrArg (t.inlet.dropReader.2.map Task.reaction ++ ·) hcues

/-- An operation that has begun goes on with its next reaction.  It has nothing left to do
after a call, so what the call brings about is not mixed up with it. -/
theorem Whole.carryOn {r : Reaction Nat} {left : List (Reaction Nat)} {cues : List InletCue}
    (hbusy : t.Whole (r :: left) cues) :
    ∃ cues, (t.step (.proceeds 0)).Whole left cues ∧
      t.receives (.proceeds 0) = r.order? ∧ t.gives (.proceeds 0) = [] := by
  have hunderway : t.underway =
      Task.reaction r :: (left.map Task.reaction ++ cues.map Task.cue) :=
    hbusy.underway
  have hreceives : t.receives (.proceeds 0) = r.order? := by
    rw [receives, hunderway]
    rfl
  have hgives : t.gives (.proceeds 0) = [] := by
    rw [gives, hunderway]
    rfl
  have hprompt := hbusy.prompt
  simp only [InletTraffic.step, hunderway, List.getElem?_cons_zero]
  cases r with
  | note n => exact ⟨cues, ⟨hprompt, rfl⟩, hreceives, hgives⟩
  | control handle c =>
      obtain rfl : left = [] := hprompt
      refine ⟨(Peer.answerAt c handle t.world.peers).2.1 ++ cues, ⟨trivial, ?_⟩, hreceives,
        hgives⟩
      rw [List.map_append]
      rfl
  | interrupt => cases hprompt

/-- As long as operations are atomic, what is under way is what is left of one of them, and
orders are carried out in the order in which they are given. -/
theorem Whole.step {left : List (Reaction Nat)} {cues : List InletCue} (hwhole : t.Whole left cues)
    (h : t.Windowed) {e : InletEvent} (hnext : t.busy = true → e.carriesOn = true) :
    (∃ left cues, (t.step e).Whole left cues) ∧
      (t.receives e).toList ++ (t.step e).due = t.due ++ t.gives e := by
  cases left with
  | nil =>
      obtain ⟨left, cues', hafter, hreceives, hgives⟩ := hwhole.begin h e
      rw [hafter.due_eq, hwhole.due_eq, hreceives, hgives]
      exact ⟨⟨left, cues', hafter⟩, rfl⟩
  | cons r left =>
      have hbusy : t.busy = true := by
        rw [busy, hwhole.underway]
        rfl
      obtain rfl : e = .proceeds 0 := by
        have hcarries := hnext hbusy
        cases e with
        | proceeds place =>
            cases place with
            | zero => rfl
            | succ place => cases hcarries
        | _ => cases hcarries
      obtain ⟨cues', hafter, hreceives, hgives⟩ := hwhole.carryOn
      rw [hafter.due_eq, hwhole.due_eq, hreceives, hgives, List.append_nil]
      refine ⟨⟨left, cues', hafter⟩, ?_⟩
      cases r <;> rfl

/-- Where operations are atomic, orders arrive in the order in which they were given. -/
theorem Whole.received {left : List (Reaction Nat)} {cues : List InletCue}
    (hwhole : t.Whole left cues) (h : t.Windowed) {events : List InletEvent}
    (hatomic : Atomic events t) :
    received events t ++ (t.run events).due = t.due ++ given events t := by
  induction events generalizing t left cues with
  | nil => exact (List.append_nil _).symm
  | cons e events ih =>
      obtain ⟨⟨left', cues', hafter⟩, hstep⟩ := hwhole.step h hatomic.1
      rw [InletTraffic.received, given, run_cons, List.append_assoc,
        ih hafter (h.step e) hatomic.2, ← List.append_assoc, hstep, List.append_assoc]

/-- When no operation is half done, nothing that was ordered has still to arrive. -/
theorem due_of_idle (hidle : t.busy = false) : t.due = [] := by
  rw [due, List.filterMap_eq_nil_iff]
  intro task htask
  have hcue := List.any_eq_false.mp hidle task htask
  cases task with
  | cue c => rfl
  | reaction r => exact absurd rfl hcue

/-! ## Arrivals -/

/-- What there is when a subscription has arrived and its publisher was called: the inlet may
be another one, and what the publisher does from inside the call is under way. -/
def arrived (t : InletTraffic) (place : Nat) (peer : Peer InletCue) (c : Control) (note : Notice)
    (after : Inlet Nat) : InletTraffic :=
  { t with
    world :=
      { t.world with
        inlet := after
        peers := t.world.peers ++ [(peer.answer c).2]
        calls := t.world.calls ++ peer.heard c
        journal := t.world.journal ++ [note] }
    underway := (peer.answer c).1.map .cue ++ t.underway.eraseIdx place
    told := t.told ++ [.subscribe peer] }

/-- An arrival is a decision, a note and a call. -/
theorem run_arrival {place : Nat} {peer : Peer InletCue}
    (hcue : t.underway[place]? = some (.cue (.subscribe peer))) {after : Inlet Nat}
    {note : Notice} {c : Control}
    (hruled : t.inlet.subscribed t.world.peers.length =
      (after, [.note note, .control t.world.peers.length c])) :
    t.run [.proceeds place, .proceeds 0, .proceeds 0] = t.arrived place peer c note after := by
  have hnothing : t.world.inlet.acceptedBy (.subscribe peer) = [] := ite_self _
  have hinlet : t.world.inlet.subscribed t.world.peers.length =
      (after, [.note note, .control t.world.peers.length c]) := hruled
  simp [run, step, hcue, carry, Exchange.step, Exchange.perform, Exchange.told, hinlet,
    Exchange.carryOut, Peer.answerAt_last, inlet, arrived, hnothing]

/-- A subscription that arrives first is asked for one item, and all else stays as it is. -/
theorem accepting_arrival {place : Nat} {peer : Peer InletCue}
    (hcue : t.underway[place]? = some (.cue (.subscribe peer)))
    (hvacant : t.inlet.slot = .vacant) :
    t.run [.proceeds place, .proceeds 0, .proceeds 0] =
      t.arrived place peer (.request 1) .requestingFirstChunk
        { t.inlet with slot := .installed t.world.peers.length, credit := 1 } := by
  apply run_arrival hcue
  rw [Inlet.subscribed, hvacant]

/-- A subscription that comes too late or twice is cancelled, and the inlet stays as it is. -/
theorem refusing_arrival {place : Nat} {peer : Peer InletCue}
    (hcue : t.underway[place]? = some (.cue (.subscribe peer)))
    (hwanted : t.inlet.slot ≠ .vacant) :
    ∃ note, t.run [.proceeds place, .proceeds 0, .proceeds 0] =
      t.arrived place peer .cancel note t.inlet := by
  cases hslot : t.inlet.slot with
  | vacant => exact absurd hslot hwanted
  | installed first =>
      exact ⟨.subscribedTwice, run_arrival hcue (Inlet.subscribed_of_installed hslot _)⟩
  | closed => exact ⟨.subscribedAfterClose, run_arrival hcue (Inlet.subscribed_of_closed hslot _)⟩

/-! ## Closings -/

/-- Whether an event closes the inlet: somebody closes it, or its reader goes away. -/
def Closes (t : InletTraffic) (e : InletEvent) : Prop :=
  e = .readerLeaves ∨ t.cue? e = some (.aside .close)

/-- Whether an event delivers what nobody has asked for. -/
def Overruns (t : InletTraffic) (e : InletEvent) : Prop :=
  ∃ c, t.cue? e = some c ∧ t.inlet.Overruns c

/-- What is told to an inlet is all that happens to it. -/
theorem inlet_of_cue {e : InletEvent} {c : InletCue} (hcue : t.cue? e = some c) :
    (t.step e).inlet = t.inlet.heed c t.world.peers.length := by
  cases e with
  | proceeds place =>
      simp only [cue?] at hcue
      cases htask : t.underway[place]? with
      | none => simp [htask] at hcue
      | some task =>
          cases task with
          | reaction r => simp [htask] at hcue
          | cue d =>
              obtain rfl : d = c := by simpa [htask] using hcue
              simp only [step, htask]
              exact carry_inlet_cue d _
  | _ => cases hcue

/-- A closing and a breach leave the inlet closed; neither is an arrival or tells of an end. -/
theorem closed_of_closing {e : InletEvent} (hcloses : t.Closes e ∨ t.Overruns e) :
    (t.step e).inlet.slot = .closed ∧ t.arrives e = false ∧ (t.step e).ended = t.ended := by
  rw [ended_step, arrives]
  rcases hcloses with (rfl | hcue) | ⟨c, hcue, hchunk, ⟨handle, hslot⟩, hopen, hcredit⟩
  · exact ⟨Inlet.close_slot t.inlet, rfl, Bool.or_false _⟩
  · rw [inlet_of_cue hcue, hcue]
    exact ⟨Inlet.close_slot t.inlet, rfl, Bool.or_false _⟩
  · rw [inlet_of_cue hcue, hcue]
    cases c with
    | next chunk => exact ⟨by simp [Inlet.heed, Inlet.next, hslot, hopen, hcredit], rfl,
        Bool.or_false _⟩
    | _ => cases hchunk

/-- Whoever closes an inlet whose stream has ended cancels nobody. -/
theorem gives_of_closing (h : t.Windowed)
    (hends : t.inlet.slot ≠ .closed → t.inlet.terminated = t.ended) (hended : t.ended = true)
    {e : InletEvent} (hcloses : t.Closes e) : t.gives e = [] := by
  obtain ⟨hclosed, hstays, -⟩ := closed_of_closing (.inl hcloses)
  cases ruling_step h e with
  | rests harrives hslot horders => exact horders
  | shuts harrives hbefore hslot horders => exact horders
  | releases first harrives hbefore hterminated hslot horders => exact horders
  | asks first harrives hbefore hslot horders =>
      rw [hslot, hbefore] at hclosed
      cases hclosed
  | accepts harrives hbefore hslot horders =>
      rw [hstays] at harrives
      cases harrives
  | refuses harrives hbefore hslot horders =>
      rw [hstays] at harrives
      cases harrives
  | cancels first harrives hbefore hopen hslot horders =>
      rw [hends (by simp [hbefore]), hended] at hopen
      cases hopen

/-- Once the inlet is closed nothing is accepted any more. -/
theorem Accepts.of_closed {interrupted : Bool} {first later : List InletEvent} {handle : Nat}
    (hclosed : ((start interrupted).run first).inlet.slot = .closed)
    (haccepts : Accepts (first ++ later) (start interrupted) handle) :
    Accepts first (start interrupted) handle := by
  obtain ⟨before, hbefore, hslot⟩ := haccepts
  rcases List.prefix_or_prefix_of_prefix hbefore (List.prefix_append first later) with
    hearlier | ⟨between, rfl⟩
  · exact ⟨before, hearlier, hslot⟩
  · have hstill : ((start interrupted).run (first ++ between)).inlet.slot = .closed := by
      rw [run_append]
      have hall := @run_keeps (fun t => t.Windowed ∧ t.inlet.slot = .closed)
        (fun e h => ⟨h.1.step e, closed_step h.1 h.2 e⟩) _
        ⟨run_windowed interrupted first, hclosed⟩ between
      exact hall.2
    rw [hstill] at hslot
    cases hslot

/-- A closing or a breach that comes before every end has cancelled the subscription that was
accepted, once and for all. -/
theorem count_cancels {interrupted : Bool} {before later : List InletEvent} {e : InletEvent}
    (hopen : ((start interrupted).run before).ended = false)
    (hcloses : ((start interrupted).run before).Closes e ∨
      ((start interrupted).run before).Overruns e)
    {handle : Nat} (haccepts : Accepts (before ++ e :: later) (start interrupted) handle) :
    (ordersFor handle (given (before ++ e :: later) (start interrupted))).count .cancel = 1 := by
  obtain ⟨hclosed, -, hended⟩ := closed_of_closing hcloses
  rw [hopen] at hended
  have hsplit : before ++ e :: later = (before ++ [e]) ++ later := by simp
  have hrun : (start interrupted).run (before ++ [e]) = ((start interrupted).run before).step e :=
    run_append before [e] _
  have hearly : Accepts (before ++ [e]) (start interrupted) handle := by
    rw [hsplit] at haccepts
    exact haccepts.of_closed (by rw [hrun, hclosed])
  have hcancelled : .cancel ∈ ordersFor handle (given (before ++ [e]) (start interrupted)) := by
    have hstanding := run_standing interrupted (before ++ [e]) handle
    rw [hrun] at hstanding
    cases hstanding with
    | absent hplace hnever horders => exact absurd hearly hnever
    | held hslot haccepted k horders =>
        rw [hclosed] at hslot
        cases hslot
    | past hplace hwanted hother hfinal =>
        cases hfinal with
        | released haccepted hover k horders =>
            rw [hended] at hover
            cases hover
        | cancelled haccepted k horders => simp [horders]
        | turnedAway hnever horders => exact absurd hearly hnever
  apply Nat.le_antisymm
  · exact (run_standing interrupted _ handle).cancels_le
  · apply List.count_pos_iff.mpr
    rw [hsplit, given_append, ordersFor_append]
    exact List.mem_append_left _ hcancelled

/-! ## The discipline -/

/-- What becomes of subscriptions in a run whose operations are atomic. -/
structure Disciplined (interrupted : Bool) (events : List InletEvent) (t : InletTraffic) :
    Prop where
  /-- When no operation is half done, every order has arrived. -/
  prompt : t.busy = false → t.due = []
  /-- At most one subscription is accepted. -/
  single : ∀ {first second}, Accepts events (start interrupted) first →
    Accepts events (start interrupted) second → first = second
  /-- The accepted one is asked for items, and cancelled at most once, after the last of them. -/
  accepted : ∀ {handle}, Accepts events (start interrupted) handle →
    let orders := ordersFor handle (received events (start interrupted) ++ t.due)
    ∃ k, orders = List.replicate (k + 1) (.request 1) ∨
      orders = List.replicate (k + 1) (.request 1) ++ [.cancel]
  /-- Every other one is cancelled, and that is all. -/
  turnedAway : ∀ {handle}, handle < t.world.peers.length →
    ¬Accepts events (start interrupted) handle →
      ordersFor handle (received events (start interrupted) ++ t.due) = [.cancel]
  /-- One that arrives first is accepted, and asked for its first item at once. -/
  accepting : ∀ {place peer}, t.underway[place]? = some (.cue (.subscribe peer)) →
    t.inlet.slot = .vacant → t.run [.proceeds place, .proceeds 0, .proceeds 0] =
      t.arrived place peer (.request 1) .requestingFirstChunk
        { t.inlet with slot := .installed t.world.peers.length, credit := 1 }
  /-- One that comes too late or twice is cancelled at once, and leaves the inlet as it was. -/
  refusing : ∀ {place peer}, t.underway[place]? = some (.cue (.subscribe peer)) →
    t.inlet.slot ≠ .vacant → ∃ note,
      t.run [.proceeds place, .proceeds 0, .proceeds 0] =
        t.arrived place peer .cancel note t.inlet
  /-- Whoever closes the inlet after it was told of an end cancels nobody. -/
  spared : ∀ {e}, t.ended = true → t.Closes e → t.gives e = []
  /-- A closing or a breach before every end cancels the accepted one, once in the whole run. -/
  cancelled : ∀ {before e later handle}, events = before ++ e :: later →
    ((start interrupted).run before).ended = false →
    ((start interrupted).run before).Closes e ∨ ((start interrupted).run before).Overruns e →
    Accepts events (start interrupted) handle →
      (ordersFor handle (received events (start interrupted) ++ t.due)).count .cancel = 1

theorem run_disciplined (interrupted : Bool) {events : List InletEvent}
    (hatomic : Atomic events (start interrupted)) :
    Disciplined interrupted events ((start interrupted).run events) := by
  have h := run_windowed interrupted events
  have hwhole : (start interrupted).Whole [] [] := ⟨trivial, rfl⟩
  have horders : received events (start interrupted) ++ ((start interrupted).run events).due =
      given events (start interrupted) :=
    hwhole.received (start_windowed interrupted) hatomic
  constructor
  · exact due_of_idle
  · exact Accepts.unique
  · intro handle haccepts orders
    rw [show orders = _ from congrArg (ordersFor handle) horders]
    cases run_standing interrupted events handle with
    | absent hplace hnever hnothing => exact absurd haccepts hnever
    | held hslot haccepted k hgiven => exact ⟨k, .inl hgiven⟩
    | past hplace hwanted hother hfinal =>
        cases hfinal with
        | released haccepted hended k hgiven => exact ⟨k, .inl hgiven⟩
        | cancelled haccepted k hgiven => exact ⟨k, .inr hgiven⟩
        | turnedAway hnever hgiven => exact absurd haccepts hnever
  · intro handle hplace hnever
    rw [horders]
    cases run_standing interrupted events handle with
    | absent habsent _ hnothing => exact absurd hplace (Nat.not_lt.mpr habsent)
    | held hslot haccepted k hgiven => exact absurd haccepted hnever
    | past _ hwanted hother hfinal =>
        cases hfinal with
        | released haccepted hended k hgiven => exact absurd haccepted hnever
        | cancelled haccepted k hgiven => exact absurd haccepted hnever
        | turnedAway _ hgiven => exact hgiven
  · exact accepting_arrival
  · exact refusing_arrival
  · exact fun hended hcloses =>
      gives_of_closing h (run_terminated interrupted events) hended hcloses
  · intro before e later handle hsplit hopen hcloses haccepts
    rw [horders]
    subst hsplit
    exact count_cancels hopen hcloses haccepts

/-- However the steps of several operations meet, what the publishers hear is what was ordered of
their subscriptions, and no subscription is cancelled twice.  Where
operations are atomic and publishers signal and close from inside the calls that reach them: at
most one subscription is accepted, and asked for an item at once; every other one is cancelled
and leaves the inlet as it was; the accepted one is cancelled once if the inlet was closed or
its demand exceeded before every end, by no closing after an end, and asked for nothing after
that. -/
theorem run_disciplines (interrupted : Bool) (events : List InletEvent) :
    let t := (start interrupted).run events
    t.world.calls =
        (received events (start interrupted)).flatMap
          (fun o => Peer.heardAt o.2 o.1 t.world.peers) ∧
      (∀ handle, (received events (start interrupted) ++ t.due).count (handle, .cancel) ≤ 1) ∧
      (Atomic events (start interrupted) → Disciplined interrupted events t) := by
  intro t
  refine ⟨(start_windowed interrupted).run_calls events, fun handle => ?_,
    run_disciplined interrupted⟩
  have hperm := received_perm events (start interrupted)
  have hnone : (start interrupted).due = [] := rfl
  rw [hnone, List.append_nil] at hperm
  rw [hperm.count_eq, ← count_ordersFor]
  exact (run_standing interrupted events handle).cancels_le

/-- A publisher delivers and brings a second subscription from inside its request; the second
one delivers too much from inside its cancellation, so that the first one is cancelled, and
closes the inlet and brings a third subscription from inside that. -/
theorem reentrant_publishers_are_disciplined :
    let third : Peer InletCue := { name := "third" }
    let second : Peer InletCue := { name := "second", onCancel := [[.next [2]]] }
    let first : Peer InletCue :=
      { name := "first"
        onRequest := [[.next [1], .subscribe second]]
        onCancel := [[.aside .close, .subscribe third]] }
    let events : List InletEvent :=
      .begins (.subscribe first) :: List.replicate 15 (.proceeds 0) ++ [.readerLeaves]
    let t := (start false).run events
    Atomic events (start false) ∧ Disciplined false events t ∧
      t.world.calls =
        [.requested "first" 1, .cancelled "second", .cancelled "first", .cancelled "third"] := by
  intro third second first events t
  have hatomic : Atomic events (start false) := by decide +kernel
  refine ⟨hatomic, (run_disciplines false events).2.2 hatomic, ?_⟩
  decide +kernel

end InletTraffic
end CreditFlow
