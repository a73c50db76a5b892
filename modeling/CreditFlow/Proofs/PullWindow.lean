import CreditFlow.Proofs.ChainBudget
import CreditFlow.Proofs.PullFidelity
import Mathlib.Data.List.Infix

/-!
# The window of a pull stream

A pull stream asks its publisher for one item at a time.  It asks from inside a poll that has
found nothing, marks that it has asked, and takes the mark away when it yields an item,
whether or not that item was the one that it had asked for.  So the requests that were made
are never more than the items that were yielded, and one more if the mark is set; they are
exactly that many as long as the publisher sends no item that was not asked for.

Main results:

- {lit}`PullExchange.Account`: what a step does to the requests, the items and the mark.
- {lit}`PullExchange.carry_account`: every step but a drop does one of these things.
- {lit}`PullExchange.poll_asks`: whom a poll asks, and when.
- {lit}`PullExchange.requests_after`: how many requests there are in a run.
- {lit}`PullExchange.run_window`: the window of one item, in every run.
-/

namespace CreditFlow

/-- Whether a call is a request. -/
def Call.isRequest : Call → Bool
  | .requested _ _ => true
  | _ => false

namespace PullStream

variable {ι : Type} {p : PullStream ι} {told : List (Signal ι)} {ready : List Pull}

/-- How looking through the inbox leaves the mark when it answers. -/
theorem attend_requested {answer : Pull} (hanswer : p.attend.2.2 = .answer answer) :
    p.attend.1.requested = if answer.isItem then false else p.requested := by
  by_cases hdone : p.done = true
  · rw [attend_of_done hdone] at hanswer ⊢
    cases hanswer
    rfl
  · rw [Bool.not_eq_true] at hdone
    have hattended := attend_attended hdone
    rw [hanswer] at hattended
    generalize p.attend.1 = q at hattended
    cases hattended <;> rfl

/-- A stream that asks for an item was not marked and is now, has nothing in its inbox, and
its publisher is there. -/
theorem attend_asks {handle : ι} (hasks : p.attend.2.2 = .asks handle) :
    p.requested = false ∧ p.attend.1.requested = true ∧ p.attend.1.inbox = [] ∧
      p.attend.1.subscription = some handle ∧ p.attend.1.done = false := by
  have hdone : p.done = false := done_of_attend (by rw [hasks]; rfl)
  have hattended := attend_attended hdone
  rw [hasks] at hattended
  generalize p.attend.1 = q at hattended
  cases hattended with
  | asks handles _ hinbox hconnected hunasked hheld => exact ⟨hunasked, rfl, rfl, hheld, hdone⟩

/-- A poll waits on a stream that holds a subscription only if the stream has asked. -/
theorem attend_waits (hpending : p.attend.2.2 = .answer .pending) :
    p.attend.1.requested = true ∨ p.attend.1.subscription = none := by
  have hdone : p.done = false := done_of_attend (by rw [hpending]; rfl)
  have hattended := attend_attended hdone
  rw [hpending] at hattended
  generalize p.attend.1 = q at hattended
  cases hattended with
  | pending handles hinbox hconnected hidle => exact hidle

/-- As many items are due as were sent before the first end. -/
theorem items_due_le (told : List (Signal ι)) :
    (due told).countP Pull.isItem ≤ told.countP Signal.isNext := by
  induction told with
  | nil => exact Nat.le_refl _
  | cons s rest ih =>
      cases s with
      | subscribed handle =>
          rw [List.countP_cons_of_neg (by simp [Signal.isNext])]
          exact ih
      | next chunk =>
          rw [due, List.countP_cons_of_pos rfl, List.countP_cons_of_pos rfl]
          exact Nat.succ_le_succ ih
      | error cause => exact Nat.zero_le _
      | complete => exact Nat.zero_le _

/-- A stream never yields more items than were sent to it. -/
theorem Faithful.items_le (h : Faithful told ready p) :
    ready.countP Pull.isItem ≤ told.countP Signal.isNext := by
  have hends : ∀ n, (List.replicate n Pull.ended).countP Pull.isItem = 0 := by
    intro n
    rw [List.countP_eq_zero]
    intro answer hmem
    rw [List.eq_of_mem_replicate hmem]
    exact Bool.false_ne_true
  have hprefix := h.ready_prefix.sublist.countP_le (p := Pull.isItem)
  rw [List.countP_append, hends, Nat.add_zero] at hprefix
  exact Nat.le_trans hprefix (items_due_le told)

end PullStream

namespace PullExchange

open PullStream (Heard Faithful due concluded)

variable {w u : PullExchange} {told : List (Signal Nat)} {ready : List Pull}

/-! ## The account of a step -/

/-- How many requests have reached the peers. -/
def requests (w : PullExchange) : Nat :=
  w.calls.countP Call.isRequest

/-- What a step that yields so many items does to the requests and to the mark: the stream
asks nobody and yields nothing, or yields an item that it had, or asks for one, which may be
yielded at once. -/
inductive Account (gain : Nat) (w u : PullExchange) : Prop
  | still (hgain : gain = 0) (hcalls : u.calls = w.calls)
      (hmark : u.stream.requested = w.stream.requested)
  | yields (hgain : gain = 1) (hcalls : u.calls = w.calls) (hmark : u.stream.requested = false)
  | asks (name : String) (hcalls : u.calls = w.calls ++ [.requested name 1])
      (hunmarked : w.stream.requested = false) (htotal : u.stream.requested.toNat + gain = 1)

/-- Requests are counted among the calls. -/
theorem requests_of_calls (hcalls : u.calls = w.calls) : u.requests = w.requests :=
  congrArg (List.countP Call.isRequest) hcalls

/-- A request is one request more. -/
theorem requests_succ {name : String} (hcalls : u.calls = w.calls ++ [.requested name 1]) :
    u.requests = w.requests + 1 := by
  rw [requests, hcalls, List.countP_append]
  rfl

/-- What is yielded and marked never falls behind the requests. -/
theorem Account.requests_le {gain items : Nat} (h : Account gain w u)
    (hle : w.requests ≤ items + w.stream.requested.toNat) :
    u.requests ≤ items + gain + u.stream.requested.toNat := by
  cases h with
  | still hgain hcalls hmark =>
      rw [requests_of_calls hcalls, hmark]
      omega
  | yields hgain hcalls hmark =>
      have hone := Bool.toNat_le w.stream.requested
      rw [requests_of_calls hcalls]
      omega
  | asks name hcalls hunmarked htotal =>
      rw [hunmarked, Bool.toNat_false] at hle
      rw [requests_succ hcalls]
      omega

/-- It is exactly as much, unless more was yielded than had been asked for. -/
theorem Account.requests_eq {gain items : Nat} (h : Account gain w u)
    (heq : w.requests = items + w.stream.requested.toNat) (hasked : items + gain ≤ u.requests) :
    u.requests = items + gain + u.stream.requested.toNat := by
  cases h with
  | still hgain hcalls hmark =>
      rw [requests_of_calls hcalls, hmark]
      omega
  | yields hgain hcalls hmark =>
      have hone := Bool.toNat_le w.stream.requested
      rw [requests_of_calls hcalls] at hasked ⊢
      rw [hmark, Bool.toNat_false]
      omega
  | asks name hcalls hunmarked htotal =>
      rw [hunmarked, Bool.toNat_false] at heq
      rw [requests_succ hcalls]
      omega

/-! ## Steps -/

/-- A look that answers leaves the mark as it was, or yields an item and takes it away. -/
theorem attend_account {answer : Pull} (hanswer : w.attend.2 = .answer answer) :
    w.attend.1.stream.requested = if answer.isItem then false else w.stream.requested :=
  PullStream.attend_requested hanswer

/-- Whoever is asked hears a request for one item. -/
theorem asking_calls (hplaced : w.Placed) {handle : Nat} (hglance : w.glance.2 = .asks handle) :
    ∃ p, w.peers[handle]? = some p ∧
      (w.asking handle).calls = w.calls ++ [.requested p.name 1] := by
  have hsubscription : w.glance.1.stream.subscription = some handle :=
    (PullStream.attend_asks hglance).2.2.2.1
  have hknown : w.glance.1.Placed :=
    Placed.attend ⟨hplaced.waiting, hplaced.subscription⟩
  have hplace : handle < w.peers.length := hknown.subscription handle hsubscription
  have hpeer : w.peers[handle]? = some w.peers[handle] := List.getElem?_eq_getElem hplace
  refine ⟨w.peers[handle], hpeer, ?_⟩
  have hcalls : (w.asking handle).calls = w.calls ++ Peer.heardAt (.request 1) handle w.peers :=
    control_calls handle (.request 1) w.glance.1
  rw [hcalls, Peer.heardAt, hpeer]
  rfl

/-- What a poll does to the requests and to the mark. -/
theorem poll_account (hplaced : w.Placed) : Account w.poll.1.isItem.toNat w w.poll.2 := by
  have hpolled := poll_polled w
  generalize w.poll.1 = answer at hpolled
  generalize w.poll.2 = u at hpolled
  cases hpolled with
  | atOnce _ hglance =>
      have hmark : w.glance.1.stream.requested =
          if answer.isItem then false else w.stream.requested :=
        attend_account hglance
      by_cases hitem : answer.isItem = true
      · rw [if_pos hitem] at hmark
        exact .yields (by rw [hitem]; rfl) rfl hmark
      · rw [if_neg hitem] at hmark
        rw [Bool.not_eq_true] at hitem
        exact .still (by rw [hitem]; rfl) rfl hmark
  | asked handle _ hglance hagain =>
      obtain ⟨p, -, hcalls⟩ := asking_calls hplaced hglance
      obtain ⟨hunmarked, hmarked, -⟩ := PullStream.attend_asks hglance
      have hkept : (w.asking handle).stream.requested = true :=
        (control_heard handle (.request 1) w.glance.1).requested.trans hmarked
      apply Account.asks p.name
      · exact hcalls
      · exact hunmarked
      · rw [attend_account hagain, hkept]
        cases answer.isItem <;> rfl

/-- Every step but a drop keeps the account; what is yielded in it is the answer of a poll. -/
theorem carry_account {s : PullStep} (hstays : s.isDrop = false) (hplaced : w.Placed) :
    Account ((stepAnswers s w).countP Pull.isItem) w (PullScenario.carry s w).2 := by
  cases s with
  | cue c => exact .still rfl (perform_calls w c) (perform_heard w c).requested
  | poll =>
      by_cases hdropped : w.stream.dropped = true
      · rw [PullScenario.carry_poll_of_dropped hdropped, stepAnswers, if_pos hdropped]
        exact .still rfl rfl rfl
      · have hcarry : (PullScenario.carry .poll w).2 = w.poll.2 := by
          simp [PullScenario.carry, hdropped]
        have hgain : [w.poll.1].countP Pull.isItem = w.poll.1.isItem.toNat := by
          cases hitem : w.poll.1.isItem <;> simp [hitem]
        rw [hcarry, stepAnswers, if_neg hdropped, hgain]
        exact poll_account hplaced
  | woken => exact .still rfl rfl rfl
  | drop => cases hstays

/-- Nothing but a poll asks for anything. -/
theorem carry_requests {s : PullStep} (hquiet : s.isPoll = false) (w : PullExchange) :
    (PullScenario.carry s w).2.requests = w.requests := by
  cases s with
  | cue c => exact requests_of_calls (perform_calls w c)
  | poll => cases hquiet
  | woken => rfl
  | drop =>
      by_cases hdropped : w.stream.dropped = true
      · exact requests_of_calls (carry_calls_of_dropped hdropped .drop).1
      · have hcarry : (PullScenario.carry .drop w).2 = w.dropStream := by
          simp [PullScenario.carry, hdropped]
        have hparting : w.parting.countP Call.isRequest = 0 := by
          unfold parting Peer.heardAt
          repeat' split
          all_goals rfl
        rw [hcarry, requests, dropStream_calls, List.countP_append, hparting]
        rfl

/-! ## Runs -/

/-- Every handle belongs to a peer in every run. -/
theorem placed_after {steps : List PullStep} (hstays : ∀ s ∈ steps, s.isDrop = false) :
    (after steps {}).Placed := by
  refine after_keeps Placed (fun hs h => h.carry hs) ⟨?_, ?_⟩ hstays
  · intro handle hmem
    cases hmem
  · intro handle hsome
    cases hsome

/-- The items that were yielded in a run. -/
def items (steps : List PullStep) : Nat :=
  (yielded steps {}).countP Pull.isItem

/-- The publisher sends no item that was not asked for: at no time have more been sent than
were asked for.  Within a poll the request comes before all signals, so it is enough to look
at the ends of steps. -/
def Measured (steps : List PullStep) : Prop :=
  ∀ begun ∈ steps.inits, (sent begun {}).countP Signal.isNext ≤ (after begun {}).requests

instance (steps : List PullStep) : Decidable (Measured steps) :=
  inferInstanceAs (Decidable (∀ begun ∈ steps.inits, _))

theorem items_concat (steps : List PullStep) (s : PullStep) :
    items (steps ++ [s]) = items steps + (stepAnswers s (after steps {})).countP Pull.isItem := by
  have hready : ∀ answers : List Pull,
      (answers.filter Pull.isReady).countP Pull.isItem = answers.countP Pull.isItem := by
    intro answers
    rw [List.countP_filter]
    apply List.countP_congr
    intro answer _
    cases answer <;> simp [Pull.isItem, Pull.isReady]
  rw [items, items, yielded, yielded, hready, hready, answers_append, List.countP_append]
  simp [answers]

/-- The requests of a run are at most the items that it yielded, and one more if the stream
has asked since the last of them; they are exactly that many if the publisher sends no item
that was not asked for. -/
theorem requests_after {steps : List PullStep} (hstays : ∀ s ∈ steps, s.isDrop = false) :
    (after steps {}).requests ≤ items steps + (after steps {}).stream.requested.toNat ∧
      (Measured steps →
        (after steps {}).requests = items steps + (after steps {}).stream.requested.toNat) := by
  induction steps using List.reverseRecOn with
  | nil => exact ⟨Nat.le_refl _, fun _ => rfl⟩
  | append_singleton steps s ih =>
      have hbefore : ∀ s ∈ steps, s.isDrop = false :=
        fun s' hs' => hstays s' (List.mem_append_left _ hs')
      have hs : s.isDrop = false := hstays s (by simp)
      obtain ⟨hle, heq⟩ := ih hbefore
      have hafter : after (steps ++ [s]) {} = (PullScenario.carry s (after steps {})).2 :=
        after_append steps [s] {}
      have haccount := carry_account hs (placed_after hbefore)
      rw [← hafter] at haccount
      rw [items_concat]
      constructor
      · exact haccount.requests_le hle
      · intro hmeasured
        apply haccount.requests_eq
        · apply heq
          intro begun hbegun
          apply hmeasured begun
          rw [List.mem_inits] at hbegun ⊢
          exact hbegun.trans (List.prefix_append _ _)
        · -- What was yielded had been sent, and so had been asked for.
          have hsent := (faithful_after hstays).items_le
          have hlast := hmeasured (steps ++ [s]) (by simp)
          rw [← items_concat]
          exact Nat.le_trans hsent hlast

/-- All calls that reach the peers before the stream is dropped ask for one item. -/
theorem calls_after {steps : List PullStep} (hstays : ∀ s ∈ steps, s.isDrop = false) :
    ∀ call ∈ (after steps {}).calls, ∃ name, call = .requested name 1 := by
  have hfirst : ∀ call ∈ (PullExchange.calls {}), ∃ name, call = .requested name 1 := by
    intro call hmem
    cases hmem
  have hblank : (after [] {}).Placed := placed_after (List.forall_mem_nil _)
  refine (after_keeps (fun w => w.Placed ∧ ∀ call ∈ w.calls, ∃ name, call = .requested name 1)
    ?_ ⟨hblank, hfirst⟩ hstays).2
  intro w s hs h
  refine ⟨h.1.carry hs, ?_⟩
  cases carry_account hs h.1 with
  | still hgain hcalls hmark =>
      rw [hcalls]
      exact h.2
  | yields hgain hcalls hmark =>
      rw [hcalls]
      exact h.2
  | asks name hcalls hunmarked htotal =>
      intro call hmem
      rw [hcalls] at hmem
      rcases List.mem_append.mp hmem with hold | hnew
      · exact h.2 call hold
      · exact ⟨name, List.mem_singleton.mp hnew⟩

/-- A poll asks nobody, or asks the last that has subscribed for one item.  It asks only when
everything that was sent has been looked at, no end was among it, and no request is left that
was not answered. -/
theorem poll_asks (hplaced : w.Placed) (hfaithful : Faithful told ready w.stream) :
    w.poll.2.calls = w.calls ∨
      ∃ handle p, w.peers[handle]? = some p ∧
        w.poll.2.calls = w.calls ++ [.requested p.name 1] ∧
        (told.flatMap Signal.handles).getLast? = some handle ∧
        w.glance.1.stream.inbox = [] ∧ ready = due told ∧ concluded told = false ∧
        w.stream.requested = false := by
  have hpolled := poll_polled w
  generalize w.poll.1 = answer at hpolled
  generalize w.poll.2 = u at hpolled
  cases hpolled with
  | atOnce _ hglance => exact .inl rfl
  | asked handle _ hglance hagain =>
      obtain ⟨p, hpeer, hcalls⟩ := asking_calls hplaced hglance
      obtain ⟨hunmarked, -, hinbox, hheld, hopen⟩ := PullStream.attend_asks hglance
      have hfirst : Faithful told (ready ++ w.glance.2.ready) w.glance.1.stream := hfaithful.attend
      rw [hglance, Attention.ready, List.append_nil] at hfirst
      obtain ⟨hready, hover, hlast⟩ := hfirst.ready_eq hopen hinbox
      exact .inr ⟨handle, p, hpeer, hcalls, hlast.symm.trans hheld, hinbox, hready, hover,
        hunmarked⟩

/-- A poll waits on a stream that holds a subscription only if the stream has asked. -/
theorem poll_waits (hpending : w.poll.1 = .pending) :
    w.poll.2.stream.requested = true ∨ w.poll.2.stream.subscription = none := by
  have hpolled := poll_polled w
  rw [hpending] at hpolled
  generalize w.poll.2 = u at hpolled
  cases hpolled with
  | atOnce _ hglance => exact PullStream.attend_waits hglance
  | asked handle _ hglance hagain => exact PullStream.attend_waits hagain

/-- However signals and polls follow one another, also signals that come from inside a request:

- all that a publisher hears before the stream is dropped are requests for one item;
- there are never more of them than items were yielded, and one;
- only a poll makes a request, and none is made once the stream is dropped;
- a poll makes at most one, to the last publisher that has subscribed.  At that moment
  nothing is left in the inbox, everything that was sent has been yielded and no end was
  among it, and no more requests were made than items yielded;
- a poll of a stream with a subscription that waits leaves exactly one request more than
  items were yielded, if the publisher sends no item that was not asked for. -/
theorem run_window {steps : List PullStep} (hstays : ∀ s ∈ steps, s.isDrop = false) :
    let w := after steps {}
    let told := sent steps {}
    (∀ call ∈ w.calls, ∃ name, call = .requested name 1) ∧
    w.requests ≤ items steps + 1 ∧
    (∀ s : PullStep, s.isPoll = false → (PullScenario.carry s w).2.requests = w.requests) ∧
    (∀ later, (after (steps ++ .drop :: later) {}).requests = w.requests) ∧
    (w.poll.2.calls = w.calls ∨
      ∃ handle p, w.peers[handle]? = some p ∧
        w.poll.2.calls = w.calls ++ [.requested p.name 1] ∧
        (told.flatMap Signal.handles).getLast? = some handle ∧
        w.glance.1.stream.inbox = [] ∧ yielded steps {} = due told ∧
        (∀ answer ∈ yielded steps {}, answer.isItem = true) ∧ w.requests ≤ items steps) ∧
    (Measured (steps ++ [.poll]) → ∀ handle, .subscribed handle ∈ told →
      w.poll.1 = .pending → w.poll.2.requests = items steps + 1) := by
  intro w told
  have hplaced : w.Placed := placed_after hstays
  have hfaithful : Faithful told (yielded steps {}) w.stream := faithful_after hstays
  have hheld : w.stream.dropped = false := after_dropped hstays
  obtain ⟨hle, -⟩ := requests_after hstays
  have hone := Bool.toNat_le w.stream.requested
  refine ⟨calls_after hstays, ?_, fun s hquiet => carry_requests hquiet w, ?_, ?_, ?_⟩
  · exact Nat.le_trans hle (Nat.add_le_add_left hone _)
  · intro later
    have hgone := after_calls_of_dropped (carry_drop_dropped w) later
    rw [after_append]
    exact (requests_of_calls hgone).trans (carry_requests rfl w)
  · rcases poll_asks hplaced hfaithful with hnobody | hasked
    · exact .inl hnobody
    · obtain ⟨handle, p, hpeer, hcalls, hlast, hinbox, hready, hover, hunmarked⟩ := hasked
      refine .inr ⟨handle, p, hpeer, hcalls, hlast, hinbox, hready, ?_, ?_⟩
      · rw [hready]
        exact PullStream.due_isItem hover
      · rw [hunmarked] at hle
        exact hle
  · intro hmeasured handle hsubscribed hpending
    have hpolls : ∀ s ∈ steps ++ [.poll], s.isDrop = false := by
      intro s hs
      rcases List.mem_append.mp hs with hbefore | hlast
      · exact hstays s hbefore
      · rw [List.mem_singleton.mp hlast]
        rfl
    have hcarry : after (steps ++ [.poll]) {} = w.poll.2 := by
      rw [after_append]
      change (PullScenario.carry .poll w).2 = _
      simp [PullScenario.carry, hheld]
    have hitems : items (steps ++ [.poll]) = items steps := by
      rw [items_concat]
      change _ + (stepAnswers .poll w).countP Pull.isItem = _
      rw [stepAnswers, hheld, hpending]
      rfl
    have hexact := (requests_after hpolls).2 hmeasured
    rw [hcarry, hitems] at hexact
    have hmarked : w.poll.2.stream.requested = true := by
      rcases poll_waits hpending with hmarked | hnone
      · exact hmarked
      · -- The subscription that was sent has been taken in, since the inbox is empty.
        obtain ⟨hinbox, -, -, hopen⟩ := poll_pending hpending
        obtain ⟨-, -, hlast⟩ := (poll_faithful hfaithful).ready_eq hopen hinbox
        rw [hnone, eq_comm, List.getLast?_eq_none_iff] at hlast
        have hmem : handle ∈ (told ++ w.pollEmits).flatMap Signal.handles := by
          apply List.mem_flatMap.mpr
          exact ⟨.subscribed handle, List.mem_append_left _ hsubscribed, List.mem_singleton_self _⟩
        rw [hlast] at hmem
        cases hmem
    rw [hexact, hmarked]
    rfl

-- A publisher that sends two items for one request is asked for one item less after that.
example :
    let publisher : Peer PullCue :=
      { name := "publisher", onRequest := [[.next [1], .next [2]]] }
    let steps : List PullStep := [.cue (.subscribe publisher), .poll, .poll]
    (after steps {}).poll.1 = .pending ∧ (after steps {}).poll.2.requests = items steps := by
  decide +kernel

/-- A publisher that subscribes late answers its first request at once and its second one not
yet: the poll that waits has left one request more than items. -/
theorem waiting_poll_has_asked :
    let publisher : Peer PullCue := { name := "publisher", onRequest := [[.next [1]]] }
    let steps : List PullStep := [.poll, .cue (.subscribe publisher), .poll]
    (after steps {}).poll.2.requests = items steps + 1 ∧ items steps = 1 := by
  intro publisher steps
  have hstays : ∀ s ∈ steps, s.isDrop = false := by simp [steps, PullStep.isDrop]
  have hmeasured : Measured (steps ++ [.poll]) := by decide +kernel
  have hsubscribed : Signal.subscribed 0 ∈ sent steps {} := List.mem_cons_self
  have hpending : (after steps {}).poll.1 = .pending := by decide +kernel
  have hitems : items steps = 1 := by decide +kernel
  exact ⟨(run_window hstays).2.2.2.2.2 hmeasured 0 hsubscribed hpending, hitems⟩

end PullExchange
end CreditFlow
