import CreditFlow.Proofs.InletClosing
import CreditFlow.Proofs.PeerCalls
import Mathlib.Data.List.Induction
import Mathlib.Data.List.Perm.Basic

/-!
# The cancellation of an inlet's subscription

An inlet that is closed, or whose reader goes away, has no use for its subscription any
more.  Whether the subscription hears of it depends on one thing: an inlet whose stream has
ended does not cancel.  For the inlet the stream has ended as soon as it was told of an end,
and it makes no difference who told it.  So a publisher that has completed or failed the
stream is spared a cancellation that it has no use for; but a failure that was reported from
beside the stream spares the subscription too, and its publisher is never told.

To tell one subscription from another, this module follows the *orders*: a control together
with the handle that it is for.  An order is given in the step that decides it, is under way
after that, and reaches the peer in a step of its own.

Main results:

- {lit}`InletTraffic.received_perm`: every order that was given is under way or has reached
  its peer, once.
- {lit}`InletTraffic.run_calls`: the record of a run is what the orders bring to the peers.
- {lit}`InletTraffic.run_terminated`: the stream of an inlet that was not closed has ended if
  it was told of an end.
- {lit}`InletTraffic.run_cancels_installed`: how often the installed subscription is
  cancelled.
-/

namespace CreditFlow

/-- Whether a publisher ends its own stream by a cue. -/
def Cue.endsOwn {ε : Type} : Cue ε → Bool
  | .error _ => true
  | .complete => true
  | _ => false

/-! ## Orders -/

/-- The order that a reaction brings, if it does. -/
def Reaction.order? {ι : Type} : Reaction ι → Option (ι × Control)
  | .control handle c => some (handle, c)
  | _ => none

/-- The orders among several reactions. -/
def Reaction.orders {ι : Type} (rs : List (Reaction ι)) : List (ι × Control) :=
  rs.filterMap order?

/-- The order that a task is about to bring, if it does. -/
def Task.order? : Task → Option (Nat × Control)
  | .cue _ => none
  | .reaction r => r.order?

@[simp]
theorem Task.orders_cues (script : List InletCue) :
    (script.map Task.cue).filterMap order? = [] := by
  induction script with
  | nil => rfl
  | cons c script ih => exact ih

@[simp]
theorem Task.orders_reactions (out : List (Reaction Nat)) :
    (out.map Task.reaction).filterMap order? = Reaction.orders out := by
  rw [List.filterMap_map]
  rfl

/-- The orders among reactions are their controls. -/
theorem Reaction.mem_orders {ι : Type} {rs : List (Reaction ι)} {handle : ι} {c : Control} :
    (handle, c) ∈ orders rs ↔ Reaction.control handle c ∈ rs := by
  constructor
  · intro hmem
    obtain ⟨r, hr, horder⟩ := List.mem_filterMap.mp hmem
    cases r with
    | note n => cases horder
    | interrupt => cases horder
    | control handle c =>
        cases horder
        exact hr
  · intro hmem
    exact List.mem_filterMap.mpr ⟨_, hmem, rfl⟩

/-- Without a control there is no order. -/
theorem Reaction.orders_eq_nil {ι : Type} {rs : List (Reaction ι)} (hnone : controls rs = []) :
    orders rs = [] := by
  refine List.eq_nil_iff_forall_not_mem.mpr fun order hmem => ?_
  have hcontrol : order.2 ∈ controls rs := List.mem_filterMap.mpr ⟨_, mem_orders.mp hmem, rfl⟩
  rw [hnone] at hcontrol
  cases hcontrol

namespace InletTraffic

variable {t : InletTraffic}

/-- The orders that are under way. -/
def due (t : InletTraffic) : List (Nat × Control) :=
  t.underway.filterMap Task.order?

/-- The orders that are given when an event happens. -/
def gives (t : InletTraffic) : InletEvent → List (Nat × Control)
  | .begins _ => []
  | .proceeds place =>
      match t.underway[place]? with
      | some (.cue c) => Reaction.orders (t.inlet.echo c t.world.peers.length)
      | _ => []
  | .reads call =>
      match t.inlet.read call.wanted t.world.interrupted with
      | some a => Reaction.orders a.reactions
      | none => []
  | .readerLeaves => Reaction.orders t.inlet.dropReader.2

/-- The order that reaches its peer when an event happens, if one does. -/
def receives (t : InletTraffic) : InletEvent → Option (Nat × Control)
  | .proceeds place => t.underway[place]?.bind Task.order?
  | _ => none

/-- The orders that are given in a run, in order. -/
def given : List InletEvent → InletTraffic → List (Nat × Control)
  | [], _ => []
  | e :: events, t => t.gives e ++ given events (t.step e)

/-- The orders that reach their peers in a run, in order. -/
def received : List InletEvent → InletTraffic → List (Nat × Control)
  | [], _ => []
  | e :: events, t => (t.receives e).toList ++ received events (t.step e)

/-- What a longer run gives is what its first part gives, and then the rest. -/
theorem given_append (first second : List InletEvent) (t : InletTraffic) :
    given (first ++ second) t = given first t ++ given second (t.run first) := by
  induction first generalizing t with
  | nil => rfl
  | cons e first ih => rw [List.cons_append, given, ih, given, run_cons, List.append_assoc]

/-- What goes on is taken from what is under way. -/
theorem due_eraseIdx {place : Nat} {task : Task} (htask : t.underway[place]? = some task) :
    t.due.Perm (task.order?.toList ++ (t.underway.eraseIdx place).filterMap Task.order?) := by
  obtain ⟨hplace, rfl⟩ := List.getElem?_eq_some_iff.mp htask
  have htasks := (List.getElem_cons_eraseIdx_perm hplace).symm
  have horders := htasks.filterMap Task.order?
  rw [List.filterMap_cons] at horders
  cases horder : t.underway[place].order? with
  | none =>
      rw [horder] at horders
      exact horders
  | some order =>
      rw [horder] at horders
      exact horders

/-- A task that is carried out puts the orders that follow from it in front. -/
theorem due_carry (task : Task) (t : InletTraffic) :
    (t.carry task).due = (t.world.step task).2.filterMap Task.order? ++ t.due := by
  cases task with
  | cue c => exact List.filterMap_append
  | reaction r => exact List.filterMap_append

/-- An order that is given is under way; one that was under way may have reached its
peer. -/
theorem receives_perm (e : InletEvent) (t : InletTraffic) :
    ((t.receives e).toList ++ (t.step e).due).Perm (t.gives e ++ t.due) := by
  cases e with
  | begins c => exact List.Perm.refl _
  | proceeds place =>
      cases htask : t.underway[place]? with
      | none =>
          simp only [receives, gives, step, htask]
          exact List.Perm.refl _
      | some task =>
          have hdue := due_eraseIdx htask
          simp only [receives, gives, step, htask, due_carry]
          cases task with
          | cue c =>
              rw [Exchange.step, Task.orders_reactions, Exchange.perform_echo]
              exact hdue.symm.append_left _
          | reaction r =>
              rw [Exchange.step, Task.orders_cues]
              exact hdue.symm
  | reads call =>
      simp only [receives, gives, step]
      rcases read_cases call t with ⟨hread, hkept⟩ | ⟨a, hread, hafter⟩
      · rw [hread, hkept]
        exact List.Perm.refl _
      · rw [hread, hafter]
        simp only [due, change, List.filterMap_append, Task.orders_reactions]
        exact List.Perm.refl _
  | readerLeaves =>
      simp only [receives, gives, step, due, change, List.filterMap_append,
        Task.orders_reactions]
      exact List.Perm.refl _

/-- Every order that was given is under way or has reached its peer, once. -/
theorem received_perm (events : List InletEvent) (t : InletTraffic) :
    (received events t ++ (t.run events).due).Perm (given events t ++ t.due) := by
  induction events generalizing t with
  | nil => exact List.Perm.refl _
  | cons e events ih =>
      rw [received, given, run_cons, List.append_assoc, List.append_assoc]
      calc
        ((t.receives e).toList ++ (received events (t.step e) ++ ((t.step e).run events).due)).Perm
            ((t.receives e).toList ++ (given events (t.step e) ++ (t.step e).due)) :=
              (ih (t.step e)).append_left _
        _ |>.Perm (given events (t.step e) ++ ((t.receives e).toList ++ (t.step e).due)) :=
              List.perm_append_comm_assoc _ _ _
        _ |>.Perm (given events (t.step e) ++ (t.gives e ++ t.due)) :=
              (receives_perm e t).append_left _
        _ |>.Perm (t.gives e ++ (given events (t.step e) ++ t.due)) :=
              List.perm_append_comm_assoc _ _ _

/-! ## The record of a run -/

/-- Peers keep their names, and others join behind them. -/
theorem names_step (t : InletTraffic) (e : InletEvent) :
    t.world.peers.map Peer.name <+: (t.step e).world.peers.map Peer.name := by
  cases e with
  | begins c => exact List.prefix_refl _
  | proceeds place =>
      rcases proceeds_cases place t with hkept | ⟨task, hafter⟩
      · rw [hkept]
      · rw [hafter]
        cases task with
        | reaction r =>
            cases r with
            | note n => exact List.prefix_refl _
            | interrupt => exact List.prefix_refl _
            | control handle c =>
                change t.world.peers.map Peer.name <+:
                  (Peer.answerAt c handle t.world.peers).2.2.map Peer.name
                rw [Peer.answerAt_names]
        | cue c =>
            cases c with
            | subscribe peer => exact (List.prefix_append _ _).map _
            | aside e => cases e <;> exact List.prefix_refl _
            | _ => exact List.prefix_refl _
  | reads call =>
      rcases read_cases call t with ⟨-, hkept⟩ | ⟨a, -, hafter⟩
      · rw [step, hkept]
      · rw [step, hafter]
        exact List.prefix_refl _
  | readerLeaves => exact List.prefix_refl _

/-- Publishers come in order, and keep their names. -/
theorem names_run (events : List InletEvent) (t : InletTraffic) :
    t.world.peers.map Peer.name <+: (t.run events).world.peers.map Peer.name :=
  @run_keeps (fun u => t.world.peers.map Peer.name <+: u.world.peers.map Peer.name)
    (fun e h => h.trans (names_step _ e)) t (List.prefix_refl _) events

theorem peers_length_step (t : InletTraffic) (e : InletEvent) :
    t.world.peers.length ≤ (t.step e).world.peers.length := by
  simpa using (names_step t e).length_le

/-- An order that reaches its peer is heard, and nothing else is. -/
theorem calls_step (t : InletTraffic) (e : InletEvent) :
    (t.step e).world.calls =
      t.world.calls ++
        (t.receives e).toList.flatMap fun o => Peer.heardAt o.2 o.1 t.world.peers := by
  cases e with
  | begins c => simp [step, receives]
  | proceeds place =>
      simp only [step, receives]
      cases htask : t.underway[place]? with
      | none => simp
      | some task =>
          cases task with
          | reaction r =>
              cases r with
              | note _ | interrupt =>
                  simp [carry, Exchange.step, Exchange.carryOut, Task.order?, Reaction.order?]
              | control handle c =>
                  simp [carry, Exchange.step, Exchange.carryOut, Task.order?, Reaction.order?]
          | cue c =>
              have hcalls : (t.world.perform c).1.calls = t.world.calls := by
                cases c with
                | aside e => cases e <;> rfl
                | _ => rfl
              simpa [carry, Exchange.step, Task.order?] using hcalls
  | reads call =>
      rcases read_cases call t with ⟨-, hkept⟩ | ⟨a, -, hafter⟩
      · simp [step, hkept, receives]
      · simp [step, hafter, receives, change]
  | readerLeaves => simp [step, receives, change]

/-- An order that reaches its peer was under way. -/
theorem Addressed.place_of_receives (h : t.Addressed) {e : InletEvent} {o : Nat × Control}
    (hreceives : t.receives e = some o) : o.1 < t.world.peers.length := by
  cases e with
  | proceeds place =>
      obtain ⟨task, htask, horder⟩ := Option.bind_eq_some_iff.mp hreceives
      cases task with
      | cue c => cases horder
      | reaction r =>
          cases r with
          | note n => cases horder
          | interrupt => cases horder
          | control handle c =>
              cases horder
              exact (h.tasks handle c (List.mem_of_getElem? htask)).1
  | _ => cases hreceives

/-- The record of a run is what the orders that reached the peers were heard as. -/
theorem Windowed.run_calls (h : t.Windowed) (events : List InletEvent) :
    (t.run events).world.calls =
      t.world.calls ++
        (received events t).flatMap fun o =>
          Peer.heardAt o.2 o.1 (t.run events).world.peers := by
  induction events generalizing t with
  | nil => simp [received]
  | cons e events ih =>
      have hfirst : (t.receives e).toList.flatMap (fun o => Peer.heardAt o.2 o.1 t.world.peers) =
          (t.receives e).toList.flatMap fun o =>
            Peer.heardAt o.2 o.1 (t.run (e :: events)).world.peers := by
        apply List.flatMap_congr
        intro o ho
        have hplace := h.toAddressed.place_of_receives (Option.mem_toList.mp ho)
        exact (Peer.heardAt_of_prefix (names_run (e :: events) t) hplace o.2).symm
      rw [run_cons, ih (h.step e), calls_step, hfirst, received, List.flatMap_append,
        List.append_assoc]
      rfl

end InletTraffic

/-! ## What becomes of a subscription -/

namespace Inlet

variable {ι : Type} {b : Inlet ι}

/-- All that an inlet can rule about subscriptions in one step, and the orders that it gives;
`fresh` names the subscription that arrives in the step, if one does. -/
inductive Ruling (b : Inlet ι) (arrives : Bool) (after : Slot ι) (fresh : ι)
    (orders : List (ι × Control)) : Prop where
  /-- Nothing is ruled. -/
  | rests (harrives : arrives = false) (hslot : after = b.slot) (horders : orders = [])
  /-- The installed one is asked for another item. -/
  | asks (handle : ι) (harrives : arrives = false) (hbefore : b.slot = .installed handle)
      (hslot : after = b.slot) (horders : orders = [(handle, .request 1)])
  /-- The first one is accepted, and asked for its first item. -/
  | accepts (harrives : arrives = true) (hbefore : b.slot = .vacant)
      (hslot : after = .installed fresh) (horders : orders = [(fresh, .request 1)])
  /-- One that comes too late or twice is turned away. -/
  | refuses (harrives : arrives = true) (hbefore : b.slot ≠ .vacant) (hslot : after = b.slot)
      (horders : orders = [(fresh, .cancel)])
  /-- None is wanted any more, and there was none. -/
  | shuts (harrives : arrives = false) (hbefore : b.slot = .vacant) (hslot : after = .closed)
      (horders : orders = [])
  /-- None is wanted any more; the installed one has ended its stream, and is let go. -/
  | releases (handle : ι) (harrives : arrives = false) (hbefore : b.slot = .installed handle)
      (hended : b.terminated = true) (hslot : after = .closed) (horders : orders = [])
  /-- None is wanted any more; the installed one goes on, and is cancelled. -/
  | cancels (handle : ι) (harrives : arrives = false) (hbefore : b.slot = .installed handle)
      (hopen : b.terminated = false) (hslot : after = .closed)
      (horders : orders = [(handle, .cancel)])

/-- A subscription that arrives is taken in and asked, or turned away. -/
theorem subscribed_ruling (fresh : ι) (b : Inlet ι) :
    Ruling b true (b.subscribed fresh).1.slot fresh (Reaction.orders (b.subscribed fresh).2) := by
  unfold subscribed
  split
  · rename_i hslot
    exact .accepts rfl hslot rfl rfl
  · rename_i hslot
    exact .refuses rfl (by simp [hslot]) rfl rfl
  · rename_i first hslot
    exact .refuses rfl (by simp [hslot]) rfl rfl

/-- A chunk leaves the subscription where it is, unless it is one too many. -/
theorem next_ruling (chunk : Octets) (fresh : ι) (b : Inlet ι) :
    Ruling b false (b.next chunk).1.slot fresh (Reaction.orders (b.next chunk).2) := by
  unfold next
  split
  · rename_i handle hslot hopen
    by_cases hcredit : b.credit = 0
    · rw [if_pos hcredit]
      exact .cancels handle rfl hslot hopen rfl rfl
    · rw [if_neg hcredit]
      split
      · exact .asks handle rfl hslot rfl rfl
      · exact .rests rfl rfl rfl
  · exact .rests rfl rfl rfl

/-- Closing cancels the publisher that has not ended. -/
theorem close_ruling (fresh : ι) (b : Inlet ι) :
    Ruling b false b.close.1.slot fresh (Reaction.orders b.close.2) := by
  unfold close
  split
  · rename_i hslot
    exact .shuts rfl hslot rfl rfl
  · rename_i handle hslot
    by_cases hended : b.terminated = true
    · rw [if_pos hended]
      exact .releases handle rfl hslot hended rfl rfl
    · rw [if_neg hended]
      exact .cancels handle rfl hslot (by simpa using hended) rfl rfl
  · exact .rests rfl rfl rfl

/-- Whatever a cue does to the subscription is in the list. -/
theorem heed_ruling (c : InletCue) (fresh : ι) (b : Inlet ι) :
    Ruling b c.isSubscribe (b.heed c fresh).slot fresh (Reaction.orders (b.echo c fresh)) := by
  cases c with
  | subscribe peer => exact subscribed_ruling fresh b
  | next chunk => exact next_ruling chunk fresh b
  | error cause =>
      exact .rests rfl (by simp [heed, error, resolveMetadata])
        (Reaction.orders_eq_nil (by simp [echo, error, resolveMetadata]))
  | complete =>
      refine .rests rfl ?_ (Reaction.orders_eq_nil (by simp [echo, complete, resolveMetadata]))
      simp only [heed, complete, completeStream]
      split <;> rfl
  | aside e =>
      cases e with
      | failure cause =>
          exact .rests rfl (by simp [heed, failure, resolveMetadata])
            (Reaction.orders_eq_nil (by simp [echo, failure, resolveMetadata]))
      | publish value => exact .rests rfl rfl rfl
      | close => exact close_ruling fresh b
      | interrupt => exact .rests rfl rfl rfl

/-- A reading call asks for an item when it has taken one from a subscription that is still
wanted. -/
theorem read_ruling (h : b.Orderly) {n : Nat} {interrupted : Bool} (fresh : ι)
    {a : Answer ι (Except Failure Octets)} (hread : b.read n interrupted = some a) :
    Ruling b false a.after.slot fresh (Reaction.orders a.reactions) := by
  have hslot := (read_ahead h hread).slot
  by_cases hn : n = 0
  · subst hn
    cases hread
    exact .rests rfl rfl rfl
  · obtain ⟨held, hhold, rfl⟩ := hold_of_read (Nat.pos_of_ne_zero hn) hread
    rcases hold_cases h hhold with ⟨-, rfl⟩ | ⟨-, hrefill⟩
    · exact .rests rfl hslot rfl
    · cases hrefill with
      | chunk c rest handle hverdict hqueue hinstalled =>
          exact .asks handle rfl hinstalled hslot rfl
      | _ => exact .rests rfl hslot rfl

/-- All that can become of the subscription of an inlet in one step, and the orders that are
given in it; `fresh` names the subscription that the step may bring. -/
inductive Move (b : Inlet ι) (after : Slot ι) (fresh : ι) (orders : List (ι × Control)) : Prop where
  /-- It stays; only one that comes too late or twice is cancelled. -/
  | stays (hslot : after = b.slot)
      (hspared : ∀ handle, (handle, Control.cancel) ∈ orders → handle = fresh ∧ b.slot ≠ .vacant)
  /-- The first one is installed. -/
  | installs (hbefore : b.slot = .vacant) (hslot : after = .installed fresh)
      (hspared : ∀ handle, (handle, Control.cancel) ∉ orders)
  /-- None is wanted any more, and there was none. -/
  | shuts (hbefore : b.slot = .vacant) (hslot : after = .closed) (horders : orders = [])
  /-- None is wanted any more; the installed one is cancelled unless the stream has ended. -/
  | cuts (handle : ι) (hbefore : b.slot = .installed handle) (hslot : after = .closed)
      (horders : orders = if b.terminated then [] else [(handle, .cancel)])

/-- What an inlet rules moves its subscription in one of the ways that there are. -/
theorem Ruling.move {arrives : Bool} {after : Slot ι} {fresh : ι} {orders : List (ι × Control)}
    (h : Ruling b arrives after fresh orders) : Move b after fresh orders := by
  cases h with
  | rests harrives hslot horders => exact .stays hslot (by simp [horders])
  | asks handle harrives hbefore hslot horders => exact .stays hslot (by simp [horders])
  | accepts harrives hbefore hslot horders => exact .installs hbefore hslot (by simp [horders])
  | refuses harrives hbefore hslot horders => exact .stays hslot (by simp [horders, hbefore])
  | shuts harrives hbefore hslot horders => exact .shuts hbefore hslot horders
  | releases handle harrives hbefore hended hslot horders =>
      exact .cuts handle hbefore hslot (by rw [horders, hended, if_pos rfl])
  | cancels handle harrives hbefore hopen hslot horders =>
      exact .cuts handle hbefore hslot (by rw [horders, hopen, if_neg Bool.false_ne_true])

/-- Until the inlet is closed, its stream ends when it is told of an end, whoever tells of
it. -/
theorem heed_terminated_eq (h : b.Orderly) (c : InletCue) (fresh : ι)
    (hwanted : (b.heed c fresh).slot ≠ .closed) :
    (b.heed c fresh).terminated = (b.terminated || c.end?.isSome) := by
  cases c with
  | subscribe peer =>
      simp only [heed, subscribed]
      split <;> simp [Cue.end?]
  | next chunk =>
      simp only [heed, next, Cue.end?, Option.isSome_none, Bool.or_false] at hwanted ⊢
      split
      · rename_i handle hslot hopen
        by_cases hcredit : b.credit = 0
        · simp [hslot, hopen, hcredit] at hwanted
        · rw [if_neg hcredit, hopen]
          split
          · exact hopen
          · rfl
      · rfl
  | error cause =>
      rw [heed, error, failStream_terminated (resolveMetadata_orderly h _ _)]
      exact (Bool.or_true _).symm
  | complete =>
      rw [heed, complete, completeStream_terminated]
      exact (Bool.or_true _).symm
  | aside e =>
      cases e with
      | failure cause =>
          rw [heed, failure, failStream_terminated (resolveMetadata_orderly h _ _)]
          exact (Bool.or_true _).symm
      | publish value => exact (Bool.or_false _).symm
      | close => simp [heed] at hwanted
      | interrupt => exact (Bool.or_false _).symm

end Inlet

namespace InletTraffic

variable {t : InletTraffic}

/-- Whether a subscription arrives when an event happens. -/
def arrives (t : InletTraffic) (e : InletEvent) : Bool :=
  (t.cue? e).any Cue.isSubscribe

/-- In every step the inlet rules about its subscription as the list says. -/
theorem ruling_step (h : t.Windowed) (e : InletEvent) :
    Inlet.Ruling t.inlet (t.arrives e) (t.step e).inlet.slot t.world.peers.length (t.gives e) := by
  cases e with
  | begins c => exact .rests rfl rfl rfl
  | proceeds place =>
      simp only [step, gives, arrives, cue?]
      cases htask : t.underway[place]? with
      | none => exact .rests rfl rfl rfl
      | some task =>
          cases task with
          | cue c =>
              simp only [carry_inlet_cue]
              exact Inlet.heed_ruling c _ t.inlet
          | reaction r => exact .rests rfl (congrArg Inlet.slot (carry_inlet_reaction r _)) rfl
  | reads call =>
      simp only [step, gives]
      rcases read_cases call t with ⟨hread, hkept⟩ | ⟨a, hread, hafter⟩
      · rw [hread, hkept]
        exact .rests rfl rfl rfl
      · rw [hread, hafter]
        exact Inlet.read_ruling h.orderly _ hread
  | readerLeaves => exact Inlet.close_ruling _ t.inlet

theorem move_step (h : t.Windowed) (e : InletEvent) :
    Inlet.Move t.inlet (t.step e).inlet.slot t.world.peers.length (t.gives e) :=
  (ruling_step h e).move

/-- No later step opens a closed inlet. -/
theorem closed_step (h : t.Windowed) (hclosed : t.inlet.slot = .closed) (e : InletEvent) :
    (t.step e).inlet.slot = .closed :=
  ((h.shut hclosed).step e).closed

/-- What was told to the inlet stays told. -/
theorem told_prefix_run (h : t.Windowed) (events : List InletEvent) :
    t.told <+: (t.run events).told := by
  induction events generalizing t with
  | nil => exact List.prefix_refl _
  | cons e events ih =>
      refine List.IsPrefix.trans ?_ (ih (h.step e))
      cases turn_step h.toAddressed e with
      | rests hinlet htold haccepted hissued => rw [htold]
      | heeds c hcue hinlet htold haccepted hissued =>
          rw [htold]
          exact List.prefix_append _ _
      | reads n a hread hinlet htold haccepted hissued => rw [htold]
      | leaves hinlet htold haccepted hissued => rw [htold]

/-- As long as an inlet was not closed, its stream has ended if it was told of an end. -/
theorem run_terminated (interrupted : Bool) (events : List InletEvent) :
    let t := (start interrupted).run events
    t.inlet.slot ≠ .closed → t.inlet.terminated = t.told.any fun c => c.end?.isSome := by
  have hall : ((start interrupted).run events).Windowed ∧
      (((start interrupted).run events).inlet.slot ≠ .closed →
        ((start interrupted).run events).inlet.terminated =
          ((start interrupted).run events).told.any fun c => c.end?.isSome) := by
    refine @run_keeps (fun t => t.Windowed ∧ (t.inlet.slot ≠ .closed →
      t.inlet.terminated = t.told.any fun c => c.end?.isSome)) ?_ _ ?_ events
    · intro t e ⟨h, hagrees⟩
      refine ⟨h.step e, fun hwanted => ?_⟩
      have hbefore : t.inlet.slot ≠ .closed := fun hclosed => hwanted (closed_step h hclosed e)
      have hended := hagrees hbefore
      cases turn_step h.toAddressed e with
      | rests hinlet htold haccepted hissued => rw [hinlet, htold, hended]
      | heeds c hcue hinlet htold haccepted hissued =>
          rw [hinlet] at hwanted
          rw [hinlet, htold, Inlet.heed_terminated_eq h.orderly c _ hwanted, hended]
          simp
      | reads n a hread hinlet htold haccepted hissued =>
          rw [hinlet, htold, (Inlet.read_ahead h.orderly hread).terminated, hended]
      | leaves hinlet htold haccepted hissued =>
          rw [hinlet] at hwanted
          exact absurd (Inlet.close_slot t.inlet) hwanted
    · exact ⟨start_windowed interrupted, fun _ => rfl⟩
  exact hall.2

/-! ## How often the subscription is cancelled -/

/-- Until the inlet is closed its subscription is not cancelled. -/
theorem run_spared (interrupted : Bool) (events : List InletEvent) {handle : Nat}
    (hslot : ((start interrupted).run events).inlet.slot = .vacant ∨
      ((start interrupted).run events).inlet.slot = .installed handle) :
    (handle, Control.cancel) ∉ given events (start interrupted) := by
  induction events using List.reverseRecOn with
  | nil => exact List.not_mem_nil
  | append_singleton events e ih =>
      have h := run_windowed interrupted events
      rw [run_append] at hslot
      rw [given_append, List.mem_append, not_or]
      change ((((start interrupted).run events).step e).inlet.slot = .vacant ∨
        (((start interrupted).run events).step e).inlet.slot = .installed handle) at hslot
      change _ ∧ (handle, Control.cancel) ∉ ((start interrupted).run events).gives e ++ []
      rw [List.append_nil]
      cases move_step h e with
      | stays hsame hspared =>
          rw [hsame] at hslot
          refine ⟨ih hslot, fun hmem => ?_⟩
          obtain ⟨hfresh, hsome⟩ := hspared handle hmem
          rcases hslot with hvacant | hinstalled
          · exact hsome hvacant
          · have hplace := h.slot handle hinstalled
            omega
      | installs hbefore hafter hspared => exact ⟨ih (.inl hbefore), hspared handle⟩
      | shuts hbefore hafter horders => simp [hafter] at hslot
      | cuts first hbefore hafter horders => simp [hafter] at hslot

/-- Once the inlet is closed its subscription is not cancelled any more. -/
theorem Windowed.run_closed_spared (h : t.Windowed) (hclosed : t.inlet.slot = .closed)
    {handle : Nat} (hplace : handle < t.world.peers.length) (events : List InletEvent) :
    (handle, Control.cancel) ∉ given events t := by
  induction events generalizing t with
  | nil => exact List.not_mem_nil
  | cons e events ih =>
      rw [given, List.mem_append, not_or]
      constructor
      · intro hmem
        cases move_step h e with
        | stays hsame hspared =>
            have hfresh := (hspared handle hmem).1
            omega
        | installs hbefore hafter hspared => exact hspared handle hmem
        | shuts hbefore hafter horders =>
            rw [horders] at hmem
            cases hmem
        | cuts first hbefore hafter horders =>
            rw [hclosed] at hbefore
            cases hbefore
      · have hmore := peers_length_step t e
        exact ih (h.step e) (closed_step h hclosed e) (by omega)

/-- A subscription that was installed stays until there is an event that closes the
inlet. -/
theorem Windowed.exists_closing (h : t.Windowed) {handle : Nat}
    (hinstalled : t.inlet.slot = .installed handle) {events : List InletEvent}
    (hclosed : (t.run events).inlet.slot = .closed) :
    ∃ before e later, events = before ++ e :: later ∧
      (t.run before).inlet.slot = .installed handle ∧
      ((t.run before).step e).inlet.slot = .closed := by
  induction events generalizing t with
  | nil =>
      rw [run_nil, hinstalled] at hclosed
      cases hclosed
  | cons e events ih =>
      cases move_step h e with
      | stays hsame hspared =>
          obtain ⟨before, e', later, rfl, hbefore, hafter⟩ :=
            ih (h.step e) (hsame.trans hinstalled) hclosed
          exact ⟨e :: before, e', later, rfl, hbefore, hafter⟩
      | installs hbefore hafter hspared =>
          rw [hinstalled] at hbefore
          cases hbefore
      | shuts hbefore hafter horders =>
          rw [hinstalled] at hbefore
          cases hbefore
      | cuts first hbefore hafter horders => exact ⟨[], e, events, rfl, hinstalled, hafter⟩

/-- The event that closes the inlet cancels the subscription, unless the stream has
ended. -/
theorem Windowed.count_gives (h : t.Windowed) {handle : Nat}
    (hinstalled : t.inlet.slot = .installed handle) {e : InletEvent}
    (hclosed : (t.step e).inlet.slot = .closed) :
    (t.gives e).count (handle, .cancel) = if t.inlet.terminated then 0 else 1 := by
  cases move_step h e with
  | stays hsame hspared =>
      rw [hsame, hinstalled] at hclosed
      cases hclosed
  | installs hbefore hafter hspared =>
      rw [hafter] at hclosed
      cases hclosed
  | shuts hbefore hafter horders =>
      rw [hinstalled] at hbefore
      cases hbefore
  | cuts first hbefore hafter horders =>
      rw [hinstalled, Slot.installed.injEq] at hbefore
      subst hbefore
      rw [horders]
      split <;> simp

/-- Over a whole run the subscription is cancelled once, unless the inlet had been told of an
end before it was closed. -/
theorem count_given (interrupted : Bool) {first : List InletEvent} {e : InletEvent}
    {handle : Nat} (hinstalled : ((start interrupted).run first).inlet.slot = .installed handle)
    (hclosed : (((start interrupted).run first).step e).inlet.slot = .closed)
    (rest : List InletEvent) :
    (given (first ++ e :: rest) (start interrupted)).count (handle, .cancel) =
      if ((start interrupted).run first).told.any fun c => c.end?.isSome then 0 else 1 := by
  have h := run_windowed interrupted first
  have hbefore := List.count_eq_zero.mpr (run_spared interrupted first (.inr hinstalled))
  have hplace : handle < (((start interrupted).run first).step e).world.peers.length :=
    (h.slot handle hinstalled).trans_le (peers_length_step _ e)
  have hafter := List.count_eq_zero.mpr ((h.step e).run_closed_spared hclosed hplace rest)
  have hended := run_terminated interrupted first (by simp [hinstalled])
  rw [given_append, given, List.count_append, List.count_append, hbefore, hafter,
    h.count_gives hinstalled hclosed, hended, Nat.zero_add, Nat.add_zero]

/-- However a run goes in which a subscription is installed and the inlet is closed, by
whomever and for whatever reason: the subscription is cancelled exactly once if the inlet had
been told of no end by then, and never if it had been, by its publisher or from beside the
stream.  The cancellation is under way or has reached its peer, and reaches it when what is
under way is carried out. -/
theorem run_cancels_installed (interrupted : Bool) (before later : List InletEvent)
    {handle : Nat} (hinstalled : ((start interrupted).run before).inlet.slot = .installed handle)
    (hclosed : (((start interrupted).run before).run later).inlet.slot = .closed) :
    let events := before ++ later
    let t := (start interrupted).run events
    t.world.calls =
        (received events (start interrupted)).flatMap
          (fun o => Peer.heardAt o.2 o.1 t.world.peers) ∧
      ∃ first e rest, events = first ++ e :: rest ∧
        ((start interrupted).run first).inlet.slot = .installed handle ∧
        (((start interrupted).run first).step e).inlet.slot = .closed ∧
        let times := if ((start interrupted).run first).told.any fun c => c.end?.isSome
          then 0 else 1
        (received events (start interrupted)).count (handle, .cancel) +
            t.due.count (handle, .cancel) = times ∧
          ∃ n, let settling := List.replicate n (InletEvent.proceeds 0)
            (t.run settling).underway = [] ∧
              (received (events ++ settling) (start interrupted)).count (handle, .cancel) =
                times := by
  intro events t
  have hcount : ∀ all : List InletEvent,
      (received all (start interrupted)).count (handle, .cancel) +
          ((start interrupted).run all).due.count (handle, .cancel) =
        (given all (start interrupted)).count (handle, .cancel) := by
    intro all
    have hperm := (received_perm all (start interrupted)).count_eq (handle, .cancel)
    rwa [List.count_append, List.count_append] at hperm
  refine ⟨(start_windowed interrupted).run_calls events, ?_⟩
  obtain ⟨between, e, rest, rfl, hbetween, hafter⟩ :=
    (run_windowed interrupted before).exists_closing hinstalled hclosed
  rw [← run_append] at hbetween hafter
  have hsplit : events = (before ++ between) ++ e :: rest := by simp [events]
  refine ⟨before ++ between, e, rest, hsplit, hbetween, hafter, ?_, ?_⟩
  · rw [hcount, hsplit]
    exact count_given interrupted hbetween hafter rest
  · obtain ⟨n, -, hsettled⟩ := settle_eq_run t
    refine ⟨n, hsettled, ?_⟩
    have hnone : ((start interrupted).run
        (events ++ List.replicate n (.proceeds 0))).due.count (handle, .cancel) = 0 := by
      rw [run_append, due, hsettled]
      rfl
    have hall := hcount (events ++ List.replicate n (.proceeds 0))
    rw [hnone, Nat.add_zero] at hall
    rw [hall, hsplit, List.append_assoc, List.cons_append]
    exact count_given interrupted hbetween hafter _

/-- Two publishers subscribe, the first one delivers more than it was asked for, and somebody
closes the inlet besides: the first one is cancelled once. -/
theorem breaching_run_cancels_installed :
    let before : List InletEvent :=
      [.begins (.subscribe { name := "first" }), .proceeds 0, .proceeds 0, .proceeds 0]
    let later : List InletEvent :=
      [.begins (.subscribe { name := "second" }), .proceeds 0, .begins (.next [1]), .proceeds 0,
        .begins (.next [2]), .proceeds 0, .begins (.aside .close), .proceeds 0, .readerLeaves] ++
        List.replicate 8 (.proceeds 0)
    let t := ((start false).run before).run later
    ((start false).run before).inlet.slot = .installed 0 ∧ t.inlet.slot = .closed ∧
      (received (before ++ later) (start false)).count (0, .cancel) +
          ((start false).run (before ++ later)).due.count (0, .cancel) = 1 := by
  intro before later t
  have hinstalled : ((start false).run before).inlet.slot = .installed 0 := by decide +kernel
  have hclosed : t.inlet.slot = .closed := by decide +kernel
  have hnone : (t.told.any fun c => c.end?.isSome) = false := by decide +kernel
  refine ⟨hinstalled, hclosed, ?_⟩
  obtain ⟨-, first, e, rest, hevents, -, -, htimes, -⟩ :=
    run_cancels_installed false before later hinstalled hclosed
  have htold : ((start false).run first).told <+: t.told := by
    have hall := told_prefix_run (run_windowed false first) (e :: rest)
    rwa [← run_append, ← hevents, run_append] at hall
  have hearly : (((start false).run first).told.any fun c => c.end?.isSome) = false := by
    rw [List.any_eq_false] at hnone ⊢
    intro c hc
    exact hnone c (htold.subset hc)
  rw [htimes, hearly]
  rfl

/-- A failure that is reported from beside the stream spares the subscription: when the
inlet is closed after it, nobody is cancelled, though the publisher has told of no end. -/
theorem failure_spares_installed :
    let events : List InletEvent :=
      [.begins (.subscribe { name := "publisher" }), .proceeds 0, .proceeds 0, .proceeds 0,
        .begins (.aside (.failure (.test "boom"))), .proceeds 0, .proceeds 0,
        .begins (.aside .close), .proceeds 0]
    let t := (start false).run events
    ((start false).run (events.take 2)).inlet.slot = .installed 0 ∧ t.inlet.slot = .closed ∧
      t.told.any Cue.endsOwn = false ∧ t.underway.length = 0 ∧
      t.world.calls = [.requested "publisher" 1] := by
  intro events t
  refine ⟨?_, ?_, ?_, ?_, ?_⟩
  · decide +kernel
  · decide +kernel
  · decide +kernel
  · decide +kernel
  · decide +kernel

end InletTraffic
end CreditFlow
