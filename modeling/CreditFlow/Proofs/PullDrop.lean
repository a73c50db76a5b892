import CreditFlow.Proofs.PeerCalls
import CreditFlow.Proofs.Pipe
import CreditFlow.Proofs.PumpMove
import CreditFlow.Scenario.Pulling
import Mathlib.Data.List.Infix

/-!
# Dropping a pull stream

A pull stream that is dropped before its end was yielded has a publisher that still works for
it.  Whether the publisher hears of the drop depends on how far the stream has looked: a
subscription comes through the inbox like every other signal, and only a poll takes it out.
A stream that holds its subscription cancels it when it is dropped, once.  A subscription
that waits in the inbox, or that arrives when the stream is gone, is let go of without a
word.

Main results:

- {lit}`PullExchange.dropStream_calls`: whom a stream calls when it is dropped.
- {lit}`PullExchange.carry_cancels`: nothing else that happens to a stream cancels anyone.
- {lit}`Chain.controls_abandoned`: a publisher that is cancelled knows of it for good.
- {lit}`PullExchange.sole_subscription`: what a stream holds that has one publisher.
- {lit}`PullExchange.run_drop_cancels`: how often a publisher is cancelled in a whole run.
-/

namespace CreditFlow

/-- Whether a call is a cancellation. -/
def Call.isCancel : Call → Bool
  | .cancelled _ => true
  | _ => false

namespace PullStep

/-- Whether a step is a poll of the stream. -/
def isPoll : PullStep → Bool
  | .poll => true
  | _ => false

/-- Whether a step drops the stream. -/
def isDrop : PullStep → Bool
  | .drop => true
  | _ => false

/-- Whether in a step the publisher does nothing and the stream stays. -/
def isIdle : PullStep → Bool
  | .poll => true
  | .woken => true
  | _ => false

end PullStep

/-! ## The handles that a stream takes -/

namespace PullStream

variable {ι : Type}

/-- The handles of the subscriptions that wait in the inbox. -/
def waiting (p : PullStream ι) : List ι :=
  p.inbox.flatMap Signal.handles

/-- A stream takes its subscription from the inbox, and asks the one that it has. -/
theorem attendTo_known {known : ι → Prop} {p : PullStream ι} {inbox : List (Signal ι)}
    (hinbox : ∀ handle ∈ inbox.flatMap Signal.handles, known handle)
    (hsubscription : ∀ handle, p.subscription = some handle → known handle) :
    (∀ handle ∈ (p.attendTo inbox).1.waiting, known handle) ∧
      ∀ handle, (p.attendTo inbox).1.subscription = some handle → known handle := by
  induction inbox generalizing p with
  | nil =>
      unfold attendTo
      split
      · split <;> exact ⟨by simp [waiting], hsubscription⟩
      · exact ⟨by simp [waiting], hsubscription⟩
  | cons s rest ih =>
      have hrest : ∀ handle ∈ rest.flatMap Signal.handles, known handle := by
        intro handle hmem
        apply hinbox
        rw [List.flatMap_cons]
        exact List.mem_append_right _ hmem
      cases s with
      | subscribed first =>
          apply ih hrest
          rintro handle hfirst
          cases hfirst
          exact hinbox first (by simp [Signal.handles])
      | next chunk => exact ⟨hrest, hsubscription⟩
      | error cause => exact ⟨hrest, hsubscription⟩
      | complete => exact ⟨hrest, hsubscription⟩

/-- A poll takes subscriptions from the inbox only, so it holds none that was not sent. -/
theorem attend_known {known : ι → Prop} {p : PullStream ι}
    (hwaiting : ∀ handle ∈ p.waiting, known handle)
    (hsubscription : ∀ handle, p.subscription = some handle → known handle) :
    (∀ handle ∈ p.attend.1.waiting, known handle) ∧
      ∀ handle, p.attend.1.subscription = some handle → known handle := by
  unfold attend
  split
  · exact ⟨hwaiting, hsubscription⟩
  · exact attendTo_known hwaiting hsubscription

/-- Where no subscription waits the stream keeps the one that it has. -/
theorem attendTo_subscription {p : PullStream ι} {inbox : List (Signal ι)}
    (hnone : inbox.flatMap Signal.handles = []) :
    (p.attendTo inbox).1.subscription = p.subscription ∧ (p.attendTo inbox).1.waiting = [] := by
  induction inbox with
  | nil =>
      unfold attendTo
      split
      · split <;> exact ⟨rfl, rfl⟩
      · exact ⟨rfl, rfl⟩
  | cons s rest ih =>
      rw [List.flatMap_cons, List.append_eq_nil_iff] at hnone
      cases s with
      | subscribed first => cases hnone.1
      | next chunk => exact ⟨rfl, hnone.2⟩
      | error cause => exact ⟨rfl, hnone.2⟩
      | complete => exact ⟨rfl, hnone.2⟩

/-- A poll of a stream for which no subscription waits keeps the one that it has. -/
theorem attend_subscription {p : PullStream ι} (hnone : p.waiting = []) :
    p.attend.1.subscription = p.subscription ∧ p.attend.1.waiting = [] := by
  unfold attend
  split
  · exact ⟨rfl, hnone⟩
  · exact attendTo_subscription hnone

/-- Looking through the inbox never drops the stream. -/
@[simp]
theorem attendTo_dropped (p : PullStream ι) (inbox : List (Signal ι)) :
    (p.attendTo inbox).1.dropped = p.dropped := by
  induction inbox generalizing p with
  | nil =>
      unfold attendTo
      split
      · split <;> rfl
      · rfl
  | cons s rest ih =>
      cases s with
      | subscribed first => exact ih _
      | _ => rfl

@[simp]
theorem attend_dropped (p : PullStream ι) : p.attend.1.dropped = p.dropped := by
  unfold attend
  split
  · rfl
  · exact attendTo_dropped p p.inbox

@[simp]
theorem hear_dropped (s : Signal ι) (p : PullStream ι) : (p.hear s).1.dropped = p.dropped := by
  unfold hear
  split
  · rfl
  · split <;> rfl

@[simp]
theorem hangUp_dropped (p : PullStream ι) : p.hangUp.1.dropped = p.dropped := by
  unfold hangUp
  split <;> rfl

end PullStream

/-! ## Whom a stream calls -/

namespace PullExchange

variable {w : PullExchange}

/-- The cancellations that have reached the peers, in order. -/
def cancels (w : PullExchange) : List Call :=
  w.calls.filter Call.isCancel

/-- What the peers hear when a stream is dropped that has not yielded its end. -/
def parting (w : PullExchange) : List Call :=
  match w.stream.subscription with
  | some handle => if w.stream.done then [] else Peer.heardAt .cancel handle w.peers
  | none => []

@[simp]
theorem control_calls (handle : Nat) (c : Control) (w : PullExchange) :
    (w.control handle c).calls = w.calls ++ Peer.heardAt c handle w.peers := by
  simp [control]

/-- Handles are let go of unheard. -/
theorem controls_release (handles : List Nat) (w : PullExchange) :
    (w.controls (handles.map fun handle => (handle, .release))).calls = w.calls := by
  induction handles generalizing w with
  | nil => rfl
  | cons handle handles ih =>
      have hrest := ih (w.control handle .release)
      rw [control_calls, Peer.heardAt_release, List.append_nil] at hrest
      exact hrest

/-- A stream that is dropped cancels the subscription that it holds, unless it has yielded
its end. -/
theorem dropStream_calls (w : PullExchange) : w.dropStream.calls = w.calls ++ w.parting := by
  simp only [dropStream, PullStream.discard, controls_release]
  unfold PullStream.cancelEarly parting
  cases hsubscription : w.stream.subscription with
  | none => simp [controls]
  | some handle =>
      by_cases hdone : w.stream.done = true
      · simp [hdone, controls]
      · simp [hdone, controls]

@[simp]
theorem tell_dropped (s : Signal Nat) (w : PullExchange) :
    (w.tell s).stream.dropped = w.stream.dropped :=
  PullStream.hear_dropped s w.stream

@[simp]
theorem perform_dropped (w : PullExchange) (c : PullCue) :
    (w.perform c).stream.dropped = w.stream.dropped := by
  cases c with
  | aside e =>
      cases e
      exact PullStream.hangUp_dropped w.stream
  | _ => exact tell_dropped _ _

@[simp]
theorem play_dropped (cues : List PullCue) (w : PullExchange) :
    (w.play cues).stream.dropped = w.stream.dropped := by
  induction cues generalizing w with
  | nil => rfl
  | cons c cues ih => exact (ih (w.perform c)).trans (perform_dropped w c)

@[simp]
theorem control_dropped (handle : Nat) (c : Control) (w : PullExchange) :
    (w.control handle c).stream.dropped = w.stream.dropped := by
  simp [control]

@[simp]
theorem controls_dropped (told : List (Nat × Control)) (w : PullExchange) :
    (w.controls told).stream.dropped = w.stream.dropped := by
  induction told generalizing w with
  | nil => rfl
  | cons t told ih => exact (ih (w.control t.1 t.2)).trans (control_dropped _ _ _)

@[simp]
theorem dropStream_dropped (w : PullExchange) : w.dropStream.stream.dropped = true := by
  simp [dropStream, PullStream.discard]

/-! ## Steps -/

/-- Every property that looking through the inbox and asking for an item keep is kept by a
poll. -/
theorem poll_keeps (holds : PullExchange → Prop) (hunwoken : holds w → holds w.unwoken)
    (hattend : ∀ {w}, holds w → holds w.attend.1)
    (hasks : ∀ {w} (handle), holds w → holds (w.control handle (.request 1))) (h : holds w) :
    holds w.poll.2 := by
  have hfirst := hattend (hunwoken h)
  unfold poll
  dsimp only
  split
  · exact hfirst
  · rename_i handle hask
    have hsecond := hattend (hasks handle hfirst)
    split <;> exact hsecond

/-- A poll cancels nobody and does not drop the stream. -/
theorem poll_cancels (w : PullExchange) :
    w.poll.2.cancels = w.cancels ∧ w.poll.2.stream.dropped = w.stream.dropped := by
  have hrequest : ∀ (handle : Nat) (peers : List (Peer PullCue)),
      (Peer.heardAt (.request 1) handle peers).filter Call.isCancel = [] := by
    intro handle peers
    unfold Peer.heardAt
    split <;> rfl
  refine poll_keeps (fun u => u.cancels = w.cancels ∧ u.stream.dropped = w.stream.dropped)
    id ?_ ?_ ⟨rfl, rfl⟩
  · intro u h
    exact ⟨h.1, (PullStream.attend_dropped u.stream).trans h.2⟩
  · intro u handle h
    refine ⟨?_, (control_dropped handle _ u).trans h.2⟩
    rw [cancels, control_calls, List.filter_append, hrequest, List.append_nil]
    exact h.1

/-- Nothing but a drop cancels anyone. -/
theorem carry_cancels {s : PullStep} (hstays : s.isDrop = false) (w : PullExchange) :
    (PullScenario.carry s w).2.cancels = w.cancels ∧
      (PullScenario.carry s w).2.stream.dropped = w.stream.dropped := by
  cases s with
  | cue c => exact ⟨congrArg (List.filter _) (perform_calls w c), perform_dropped w c⟩
  | poll =>
      simp only [PullScenario.carry]
      split
      · exact ⟨rfl, rfl⟩
      · exact poll_cancels w
  | woken => exact ⟨rfl, rfl⟩
  | drop => cases hstays

/-- When the stream is gone nobody is called any more. -/
theorem carry_calls_of_dropped (hdropped : w.stream.dropped = true) (s : PullStep) :
    (PullScenario.carry s w).2.calls = w.calls ∧
      (PullScenario.carry s w).2.stream.dropped = true := by
  cases s with
  | cue c => exact ⟨perform_calls w c, (perform_dropped w c).trans hdropped⟩
  | poll =>
      rw [PullScenario.carry_poll_of_dropped hdropped]
      exact ⟨rfl, hdropped⟩
  | woken => exact ⟨rfl, hdropped⟩
  | drop =>
      simp only [PullScenario.carry, if_pos hdropped]
      exact ⟨trivial, hdropped⟩

/-! ## Names and places -/

/-- Peers come in order, and keep their names. -/
theorem perform_names (w : PullExchange) (c : PullCue) :
    w.peers.map Peer.name <+: (w.perform c).peers.map Peer.name := by
  cases c with
  | subscribe peer => exact (List.prefix_append _ _).map _
  | aside e =>
      cases e
      exact List.prefix_refl _
  | _ => exact List.prefix_refl _

theorem play_names (cues : List PullCue) (w : PullExchange) :
    w.peers.map Peer.name <+: (w.play cues).peers.map Peer.name := by
  induction cues generalizing w with
  | nil => exact List.prefix_refl _
  | cons c cues ih => exact (perform_names w c).trans (ih (w.perform c))

theorem control_names (handle : Nat) (c : Control) (w : PullExchange) :
    w.peers.map Peer.name <+: (w.control handle c).peers.map Peer.name := by
  refine List.IsPrefix.trans ?_ (play_names _ _)
  rw [Peer.answerAt_names]

theorem poll_names (w : PullExchange) :
    w.peers.map Peer.name <+: w.poll.2.peers.map Peer.name :=
  poll_keeps (fun u => w.peers.map Peer.name <+: u.peers.map Peer.name) id id
    (fun handle h => h.trans (control_names handle _ _)) (List.prefix_refl _)

theorem carry_names {s : PullStep} (hstays : s.isDrop = false) (w : PullExchange) :
    w.peers.map Peer.name <+: (PullScenario.carry s w).2.peers.map Peer.name := by
  cases s with
  | cue c => exact perform_names w c
  | poll =>
      simp only [PullScenario.carry]
      split
      · exact List.prefix_refl _
      · exact poll_names w
  | woken => exact List.prefix_refl _
  | drop => cases hstays

/-- Every handle in use belongs to a peer. -/
structure Placed (w : PullExchange) : Prop where
  waiting : ∀ handle ∈ w.stream.waiting, handle < w.peers.length
  subscription : ∀ handle, w.stream.subscription = some handle → handle < w.peers.length

/-- A signal is told; the handle that it may bring has a place. -/
theorem Placed.tell (h : w.Placed) {s : Signal Nat}
    (hplace : ∀ handle ∈ s.handles, handle < w.peers.length) : (w.tell s).Placed := by
  simp only [PullExchange.tell, PullStream.hear]
  split
  · exact ⟨h.waiting, h.subscription⟩
  · split
    · refine ⟨?_, h.subscription⟩
      intro handle hmem
      have hall : handle ∈ (w.stream.inbox ++ [s]).flatMap Signal.handles := hmem
      rw [List.flatMap_append, List.mem_append] at hall
      rcases hall with hold | hnew
      · exact h.waiting handle hold
      · exact hplace handle (by simpa using hnew)
    · exact ⟨h.waiting, h.subscription⟩

/-- A cue brings the peer whose handle it sends. -/
theorem Placed.perform (h : w.Placed) (c : PullCue) : (w.perform c).Placed := by
  cases c with
  | subscribe peer =>
      have hmore : ({ w with peers := w.peers ++ [peer] } : PullExchange).Placed := by
        constructor
        · intro handle hmem
          have hplace := h.waiting handle hmem
          simp only [List.length_append]
          omega
        · intro handle hsome
          have hplace := h.subscription handle hsome
          simp only [List.length_append]
          omega
      apply hmore.tell
      simp [Signal.handles]
  | next chunk => exact h.tell (by simp [Signal.handles])
  | error cause => exact h.tell (by simp [Signal.handles])
  | complete => exact h.tell (by simp [Signal.handles])
  | aside e =>
      cases e
      simp only [PullExchange.perform, PullStream.hangUp]
      split <;> exact ⟨h.waiting, h.subscription⟩

theorem Placed.play (h : w.Placed) (cues : List PullCue) : (w.play cues).Placed := by
  induction cues generalizing w with
  | nil => exact h
  | cons c cues ih => exact ih (h.perform c)

theorem Placed.attend (h : w.Placed) : w.attend.1.Placed := by
  obtain ⟨hwaiting, hsubscription⟩ := PullStream.attend_known h.waiting h.subscription
  exact ⟨hwaiting, hsubscription⟩

/-- A control brings no handle that belongs to nobody. -/
theorem Placed.control (h : w.Placed) (handle : Nat) (c : Control) :
    (w.control handle c).Placed := by
  have hlength := Peer.answerAt_length c handle w.peers
  apply Placed.play
  constructor
  · intro handle hmem
    exact hlength ▸ h.waiting handle hmem
  · intro handle hsome
    exact hlength ▸ h.subscription handle hsome

/-- No step brings a handle that belongs to nobody. -/
theorem Placed.carry (h : w.Placed) {s : PullStep} (hstays : s.isDrop = false) :
    (PullScenario.carry s w).2.Placed := by
  cases s with
  | cue c => exact h.perform c
  | poll =>
      simp only [PullScenario.carry]
      split
      · exact ⟨h.waiting, h.subscription⟩
      · exact poll_keeps Placed (fun h => ⟨h.waiting, h.subscription⟩)
          (fun h => h.attend) (fun handle h => h.control handle _) h
  | woken => exact h
  | drop => cases hstays

/-- Whoever is cancelled when the stream is dropped hears it once. -/
theorem Placed.parting_eq (h : w.Placed) :
    w.parting =
      match w.stream.subscription.bind fun handle => w.peers[handle]? with
      | some p => if w.stream.done then [] else [.cancelled p.name]
      | none => [] := by
  unfold parting
  cases hsubscription : w.stream.subscription with
  | none => rfl
  | some handle =>
      have hplace := h.subscription handle hsubscription
      simp [Peer.heardAt, List.getElem?_eq_getElem hplace, Peer.heard]

/-! ## Runs -/

/-- What a list of steps comes to. -/
def after (steps : List PullStep) (w : PullExchange) : PullExchange :=
  steps.foldl (fun w s => (PullScenario.carry s w).2) w

theorem after_append (first second : List PullStep) (w : PullExchange) :
    after (first ++ second) w = after second (after first w) :=
  List.foldl_append

/-- What every step but a drop keeps is kept until the stream is dropped. -/
theorem after_keeps (holds : PullExchange → Prop)
    (hstep : ∀ {w : PullExchange} {s : PullStep}, s.isDrop = false → holds w →
      holds (PullScenario.carry s w).2)
    (h : holds w) {steps : List PullStep} (hstays : ∀ s ∈ steps, s.isDrop = false) :
    holds (after steps w) := by
  induction steps generalizing w with
  | nil => exact h
  | cons s steps ih =>
      apply ih (hstep (hstays s List.mem_cons_self) h)
      intro s' hs'
      exact hstays s' (List.mem_cons_of_mem s hs')

/-- Nobody is called any more once the stream was dropped. -/
theorem after_calls_of_dropped (hdropped : w.stream.dropped = true) (steps : List PullStep) :
    (after steps w).calls = w.calls := by
  induction steps generalizing w with
  | nil => rfl
  | cons s steps ih =>
      obtain ⟨hcalls, hgone⟩ := carry_calls_of_dropped hdropped s
      exact (ih hgone).trans hcalls

/-- In a whole run the publisher is called for the last time when the stream is dropped, and
nobody is cancelled before. -/
theorem after_drop {before : List PullStep} (hstays : ∀ s ∈ before, s.isDrop = false)
    (later : List PullStep) :
    (after (before ++ .drop :: later) {}).calls =
        (after before {}).calls ++ (after before {}).parting ∧
      (after before {}).cancels = [] := by
  have hkept : (after before {}).cancels = [] ∧ (after before {}).stream.dropped = false := by
    refine after_keeps (fun u => u.cancels = [] ∧ u.stream.dropped = false) ?_
      ⟨rfl, rfl⟩ hstays
    intro u s hs h
    obtain ⟨hcancels, hdropped⟩ := carry_cancels hs u
    exact ⟨hcancels.trans h.1, hdropped.trans h.2⟩
  have hdrop : (PullScenario.carry .drop (after before {})).2 = (after before {}).dropStream := by
    simp [PullScenario.carry, hkept.2]
  refine ⟨?_, hkept.1⟩
  rw [after_append]
  change (after later (PullScenario.carry .drop (after before {})).2).calls = _
  rw [hdrop, after_calls_of_dropped (dropStream_dropped _) later, dropStream_calls]

/-! ## A publisher that subscribes once -/

/-- Nobody has subscribed and nothing was signalled. -/
structure Blank (w : PullExchange) : Prop where
  peers : w.peers = []
  inbox : w.stream.inbox = []
  subscription : w.stream.subscription = none
  connected : w.stream.connected = true
  undone : w.stream.done = false
  held : w.stream.dropped = false

/-- The only subscription waits at the head of the inbox. -/
structure Awaited (w : PullExchange) : Prop where
  alone : w.peers.length = 1
  head : ∃ rest, w.stream.inbox = .subscribed 0 :: rest ∧ rest.flatMap Signal.handles = []
  subscription : w.stream.subscription = none
  undone : w.stream.done = false
  held : w.stream.dropped = false

/-- The stream has taken the only subscription. -/
structure Taken (w : PullExchange) : Prop where
  alone : w.peers.length = 1
  subscription : w.stream.subscription = some 0
  waiting : w.stream.waiting = []

theorem length_le_of_names {u : PullExchange}
    (hnames : w.peers.map Peer.name <+: u.peers.map Peer.name) :
    w.peers.length ≤ u.peers.length := by
  have hlength := hnames.length_le
  rwa [List.length_map, List.length_map] at hlength

/-- Another subscription is another peer. -/
theorem perform_length (w : PullExchange) (peer : Peer PullCue) :
    (w.perform (.subscribe peer)).peers.length = w.peers.length + 1 := by
  simp [perform, tell]

/-- Polls of a blank stream leave it blank. -/
theorem Blank.carry (h : w.Blank) {s : PullStep} (hidle : s.isIdle = true) :
    (PullScenario.carry s w).2.Blank := by
  cases s with
  | poll =>
      have hattend : w.unwoken.attend =
          ({ w with stream := { w.stream with parked := true }, woken := false },
            .answer .pending) := by
        have hstream : w.stream.attend =
            ({ w.stream with inbox := [], parked := true }, [], .answer .pending) := by
          rw [PullStream.attend, h.undone, h.inbox, if_neg Bool.false_ne_true]
          unfold PullStream.attendTo
          rw [if_pos h.connected]
          split
          · rename_i handle hrequested hsome
            rw [h.subscription] at hsome
            cases hsome
          · rfl
        simp [attend, unwoken, hstream, h.inbox]
      have hcarry : (PullScenario.carry .poll w).2 =
          { w with stream := { w.stream with parked := true }, woken := false } := by
        simp [PullScenario.carry, h.held, poll, hattend]
      rw [hcarry]
      exact ⟨h.peers, h.inbox, h.subscription, h.connected, h.undone, h.held⟩
  | woken => exact h
  | cue c => cases hidle
  | drop => cases hidle

theorem Blank.after (h : w.Blank) {steps : List PullStep}
    (hidle : ∀ s ∈ steps, s.isIdle = true) : (after steps w).Blank := by
  induction steps generalizing w with
  | nil => exact h
  | cons s steps ih =>
      apply ih (h.carry (hidle s List.mem_cons_self))
      intro s' hs'
      exact hidle s' (List.mem_cons_of_mem s hs')

/-- The first subscription is put into the inbox. -/
theorem Blank.subscribe (h : w.Blank) (peer : Peer PullCue) :
    (w.perform (.subscribe peer)).Awaited ∧ (w.perform (.subscribe peer)).peers = [peer] := by
  have hperform : w.perform (.subscribe peer) =
      { w with
        stream := { w.stream with inbox := [.subscribed 0], parked := false }
        peers := [peer]
        woken := w.woken || w.stream.parked } := by
    simp [perform, tell, PullStream.hear, h.peers, h.inbox, h.connected, h.held]
  rw [hperform]
  exact ⟨⟨rfl, ⟨[], rfl, rfl⟩, h.subscription, h.undone, h.held⟩, rfl⟩

/-- A signal without a handle leaves the subscription where it is. -/
theorem Awaited.tell (h : w.Awaited) {s : Signal Nat} (hnone : s.handles = []) :
    (w.tell s).Awaited := by
  obtain ⟨rest, hinbox, hrest⟩ := h.head
  unfold PullExchange.tell PullStream.hear
  rw [if_neg (by simp [h.held])]
  split
  · refine ⟨h.alone, ⟨rest ++ [s], ?_, ?_⟩, h.subscription, h.undone, h.held⟩
    · simp [hinbox]
    · simp [hrest, hnone]
  · exact ⟨h.alone, ⟨rest, hinbox, hrest⟩, h.subscription, h.undone, h.held⟩

/-- A signal that is no subscription leaves the stream with the one that it has taken. -/
theorem Taken.tell (h : w.Taken) {s : Signal Nat} (hnone : s.handles = []) :
    (w.tell s).Taken := by
  unfold PullExchange.tell PullStream.hear
  split
  · exact ⟨h.alone, h.subscription, h.waiting⟩
  · split
    · refine ⟨h.alone, h.subscription, ?_⟩
      have hwaiting := h.waiting
      unfold PullStream.waiting at hwaiting ⊢
      simp [hwaiting, hnone]
    · exact ⟨h.alone, h.subscription, h.waiting⟩

/-- What the only peer does leaves its subscription at the head of the inbox. -/
theorem Awaited.perform (h : w.Awaited) {c : PullCue}
    (hone : (w.perform c).peers.length = 1) : (w.perform c).Awaited := by
  cases c with
  | subscribe peer =>
      rw [perform_length, h.alone] at hone
      cases hone
  | next chunk => exact h.tell rfl
  | error cause => exact h.tell rfl
  | complete => exact h.tell rfl
  | aside e =>
      cases e
      simp only [PullExchange.perform, PullStream.hangUp]
      split <;> exact ⟨h.alone, h.head, h.subscription, h.undone, h.held⟩

/-- What the only peer does leaves its subscription with the stream. -/
theorem Taken.perform (h : w.Taken) {c : PullCue}
    (hone : (w.perform c).peers.length = 1) : (w.perform c).Taken := by
  cases c with
  | subscribe peer =>
      rw [perform_length, h.alone] at hone
      cases hone
  | next chunk => exact h.tell rfl
  | error cause => exact h.tell rfl
  | complete => exact h.tell rfl
  | aside e =>
      cases e
      simp only [PullExchange.perform, PullStream.hangUp]
      split <;> exact ⟨h.alone, h.subscription, h.waiting⟩

theorem Taken.play (h : w.Taken) {cues : List PullCue}
    (hone : (w.play cues).peers.length = 1) : (w.play cues).Taken := by
  induction cues generalizing w with
  | nil => exact h
  | cons c cues ih =>
      have hfirst := length_le_of_names (perform_names w c)
      have hlater := length_le_of_names (play_names cues (w.perform c))
      have hall : ((w.perform c).play cues).peers.length = 1 := hone
      have halone := h.alone
      exact ih (h.perform (by omega)) hone

theorem Taken.attend (h : w.Taken) : w.attend.1.Taken := by
  obtain ⟨hsubscription, hwaiting⟩ := PullStream.attend_subscription h.waiting
  exact ⟨h.alone, hsubscription.trans h.subscription, hwaiting⟩

theorem Taken.control (h : w.Taken) {handle : Nat} {c : Control}
    (hone : (w.control handle c).peers.length = 1) : (w.control handle c).Taken := by
  have hanswered : ({ w with
      calls := w.calls ++ (Peer.answerAt c handle w.peers).1
      peers := (Peer.answerAt c handle w.peers).2.2 } : PullExchange).Taken :=
    ⟨(Peer.answerAt_length c handle w.peers).trans h.alone, h.subscription, h.waiting⟩
  exact hanswered.play hone

/-- A stream that looks through its inbox takes the subscription. -/
theorem Awaited.attend (h : w.Awaited) : w.attend.1.Taken := by
  obtain ⟨rest, hinbox, hrest⟩ := h.head
  have hattend : w.stream.attend.1 =
      (PullStream.attendTo { w.stream with subscription := some 0 } rest).1 := by
    rw [PullStream.attend, h.undone, if_neg Bool.false_ne_true, hinbox]
    rfl
  have htaken := PullStream.attendTo_subscription (p := { w.stream with subscription := some 0 })
    hrest
  refine ⟨h.alone, ?_, ?_⟩
  · exact (congrArg PullStream.subscription hattend).trans htaken.1
  · exact (congrArg PullStream.waiting hattend).trans htaken.2

/-- A poll leaves the stream with the subscription that it has taken. -/
theorem Taken.poll (h : w.Taken) (hone : w.poll.2.peers.length = 1) : w.poll.2.Taken := by
  have hkept : w.poll.2.peers.length = 1 → w.poll.2.Taken := by
    refine (poll_keeps (fun u => 1 ≤ u.peers.length ∧ (u.peers.length = 1 → u.Taken))
      ?_ ?_ ?_ ⟨Nat.le_of_eq h.alone.symm, fun _ => h⟩).2
    · intro hu
      exact ⟨hu.1, fun hone => ⟨hone, (hu.2 hone).subscription, (hu.2 hone).waiting⟩⟩
    · intro u hu
      exact ⟨hu.1, fun hone => (hu.2 hone).attend⟩
    · intro u handle hu
      have hmore := length_le_of_names (control_names handle (.request 1) u)
      have hfirst := hu.1
      exact ⟨by omega, fun hone => (hu.2 (by omega)).control hone⟩
  exact hkept hone

/-- A poll takes the subscription that waits. -/
theorem Awaited.poll (h : w.Awaited) (hone : w.poll.2.peers.length = 1) : w.poll.2.Taken := by
  have hfirst : w.unwoken.attend.1.Taken :=
    Awaited.attend ⟨h.alone, h.head, h.subscription, h.undone, h.held⟩
  revert hone
  unfold PullExchange.poll
  dsimp only
  split
  · intro _
    exact hfirst
  · rename_i handle hask
    split
    · intro hone
      exact (hfirst.control hone).attend
    · intro hone
      exact (hfirst.control hone).attend

/-- So does every step that keeps the stream. -/
theorem Taken.carry (h : w.Taken) {s : PullStep} (hstays : s.isDrop = false)
    (hone : (PullScenario.carry s w).2.peers.length = 1) :
    (PullScenario.carry s w).2.Taken := by
  cases s with
  | cue c => exact h.perform hone
  | poll =>
      revert hone
      simp only [PullScenario.carry]
      split
      · intro _
        exact ⟨h.alone, h.subscription, h.waiting⟩
      · exact h.poll
  | woken => exact h
  | drop => cases hstays

/-- A subscription that waits is taken by the next poll, and by nothing else. -/
theorem Awaited.carry (h : w.Awaited) {s : PullStep} (hstays : s.isDrop = false)
    (hone : (PullScenario.carry s w).2.peers.length = 1) :
    if s.isPoll then (PullScenario.carry s w).2.Taken
      else (PullScenario.carry s w).2.Awaited := by
  cases s with
  | cue c => exact h.perform hone
  | poll =>
      have hpoll : (PullScenario.carry .poll w).2 = w.poll.2 := by
        simp [PullScenario.carry, h.held]
      rw [hpoll] at hone ⊢
      exact h.poll hone
  | woken => exact h
  | drop => cases hstays

/-- Peers come in order and keep their names in every run. -/
theorem after_names {steps : List PullStep} (hstays : ∀ s ∈ steps, s.isDrop = false)
    (w : PullExchange) : w.peers.map Peer.name <+: (after steps w).peers.map Peer.name :=
  after_keeps (fun u => w.peers.map Peer.name <+: u.peers.map Peer.name)
    (fun hs h => h.trans (carry_names hs _)) (List.prefix_refl _) hstays

/-- From its arrival on the only subscription waits until the stream is polled, and is held
after that. -/
theorem after_subscribed {steps : List PullStep} (hstays : ∀ s ∈ steps, s.isDrop = false)
    (hone : (after steps w).peers.length = 1) :
    (w.Taken → (after steps w).Taken) ∧
      (w.Awaited → if steps.any PullStep.isPoll then (after steps w).Taken
        else (after steps w).Awaited) := by
  induction steps generalizing w with
  | nil => exact ⟨id, id⟩
  | cons s steps ih =>
      have hs := hstays s List.mem_cons_self
      have hrest : ∀ s' ∈ steps, s'.isDrop = false := by
        intro s' hs'
        exact hstays s' (List.mem_cons_of_mem s hs')
      obtain ⟨htaken, hawaited⟩ := ih hrest hone
      -- Peers only join, so there was one in between as well.
      have hmore : (after steps (PullScenario.carry s w).2).peers.length = 1 := hone
      have hbefore := length_le_of_names (carry_names hs w)
      have hlater := length_le_of_names (after_names hrest (PullScenario.carry s w).2)
      constructor
      · intro h
        have halone := h.alone
        exact htaken (h.carry hs (by omega))
      · intro h
        have halone := h.alone
        have hcarry := h.carry hs (by omega)
        rw [List.any_cons]
        cases hpoll : s.isPoll with
        | true =>
            rw [hpoll] at hcarry
            exact htaken hcarry
        | false =>
            rw [hpoll] at hcarry
            exact hawaited hcarry

end PullExchange

/-! ## The publisher behind the stream -/

/-- The last publisher of a chain knows that it has no consumer any more, or is gone. -/
def Chain.Abandoned : Chain → Prop
  | .writer o => o.ledger.cancelled = true ∨ (o.writerHeld = false ∧ o.bodyHeld = false)
  | .source _ p => p.Abandoned
  | .player p => p.cancelled = true
  | .hop _ _ p => p.Abandoned

namespace Chain

variable {c : Chain}

/-- Nothing that comes later takes a cancellation back. -/
theorem Abandoned.control (h : c.Abandoned) (told : Control) : (c.control told).1.Abandoned := by
  cases c with
  | writer o =>
      obtain ⟨ledger, hledger, -, hcancelled⟩ := Outlet.control_eq told o
      change Abandoned (.writer (o.control told).1)
      rw [hledger]
      rcases h with hknown | hgone
      · exact .inl (hcancelled hknown)
      · exact .inr hgone
  | source s p => exact Pump.Abandoned.control h told
  | hop before s p => exact Pump.Abandoned.control h told
  | player p =>
      cases told with
      | request n =>
          change (p.control (.request n)).1.cancelled = true
          simp only [Player.control]
          split <;> exact h
      | cancel => exact rfl
      | release => exact h

/-- A publisher that is cancelled knows of it. -/
theorem control_cancel_abandoned (c : Chain) : (c.control .cancel).1.Abandoned := by
  cases c with
  | writer o =>
      change Abandoned (.writer (o.control .cancel).1)
      unfold Outlet.control
      split
      · exact .inl (Ledger.cancel_cancelled _)
      · rename_i hgone
        exact .inr (by simpa using hgone)
  | source s p => exact p.cancel_abandoned
  | hop before s p => exact p.cancel_abandoned
  | player p => exact rfl

/-- A publisher that is cancelled knows of it for good. -/
theorem controls_abandoned {cs : List Control} (hcancel : .cancel ∈ cs) :
    (c.controls cs).1.Abandoned := by
  have hkept : ∀ (cs : List Control) (c : Chain), c.Abandoned → (c.controls cs).1.Abandoned := by
    intro cs
    induction cs with
    | nil => exact fun c h => h
    | cons told cs ih => exact fun c h => ih _ (h.control told)
  induction cs generalizing c with
  | nil => cases hcancel
  | cons told cs ih =>
      rcases List.mem_cons.mp hcancel with rfl | hrest
      · exact hkept cs _ c.control_cancel_abandoned
      · exact ih hrest

end Chain

/-- A stream that is dropped with a subscription, and without having yielded its end,
cancels. -/
theorem PullStream.cancel_mem_drop {ι : Type} {s : PullStream ι} {handle : ι}
    (hsubscription : s.subscription = some handle) (hundone : s.done = false) :
    (handle, .cancel) ∈ s.drop.2.2 := by
  simp [drop, cancelEarly, hsubscription, hundone]

/-- Whoever stands behind a stream at the end of a line learns that it is dropped, if the
stream had taken the subscription and had not yielded its end. -/
theorem Line.dropStream_abandons {l : Line} {s : PullStream Unit} (hsink : l.sink = .stream s)
    (hsubscription : s.subscription = some ()) (hundone : s.done = false) :
    l.dropStream.chain.Abandoned := by
  have hchain : l.dropStream.chain = (l.chain.controls (s.drop.2.2.map Prod.snd)).1 := by
    simp only [dropStream, hsink, (reactAll_parts _ _).1, Reaction.controls_map]
    rfl
  rw [hchain]
  apply Chain.controls_abandoned
  exact List.mem_map_of_mem (PullStream.cancel_mem_drop hsubscription hundone)

/-- So does the chain before a hop whose pump lets go of its stream. -/
theorem Chain.dropStream_abandons (before : Chain) {s : PullStream Unit} (p : Pump)
    (notes : List Notice) (hsubscription : s.subscription = some ()) (hundone : s.done = false) :
    ∃ told : Chain, (dropStream before s p notes).1 = .hop told s.drop.1 p ∧ told.Abandoned := by
  refine ⟨_, rfl, ?_⟩
  apply controls_abandoned
  exact List.mem_map_of_mem (PullStream.cancel_mem_drop hsubscription hundone)

/-! ## How often a publisher is cancelled -/

namespace PullExchange

/-- In a whole run there is one cancellation if the stream held a subscription when it was
dropped and had not yielded its end, and none otherwise. -/
theorem cancels_after_drop {before : List PullStep} (hstays : ∀ s ∈ before, s.isDrop = false)
    (later : List PullStep) :
    let w := after before {}
    (after (before ++ .drop :: later) {}).cancels =
      match w.stream.subscription.bind fun handle => w.peers[handle]? with
      | some p => if w.stream.done then [] else [.cancelled p.name]
      | none => [] := by
  intro w
  have hplaced : w.Placed := by
    refine after_keeps Placed (fun hs h => h.carry hs) ⟨?_, ?_⟩ hstays
    · intro handle hmem
      cases hmem
    · intro handle hsome
      cases hsome
  obtain ⟨hcalls, hnone⟩ := after_drop hstays later
  have hparting : (after (before ++ .drop :: later) {}).cancels = w.parting.filter Call.isCancel := by
    rw [cancels, hcalls, List.filter_append]
    exact (congrArg (· ++ _) hnone).trans (List.nil_append _)
  rw [hparting, hplaced.parting_eq]
  split
  · split <;> rfl
  · rfl

/-- What a stream holds whose publisher subscribes once and before everything else: the
subscription, if it was polled since, and nothing otherwise. -/
theorem sole_subscription {waiting rest : List PullStep} {publisher : Peer PullCue}
    (hwaiting : ∀ s ∈ waiting, s.isIdle = true) (hstays : ∀ s ∈ rest, s.isDrop = false) :
    let w := after (waiting ++ .cue (.subscribe publisher) :: rest) {}
    w.peers.length = 1 →
      (w.stream.subscription.bind fun handle => w.peers[handle]?).map Peer.name =
        if rest.any PullStep.isPoll then some publisher.name else none := by
  intro w hone
  have hblank : (after waiting {}).Blank := Blank.after ⟨rfl, rfl, rfl, rfl, rfl, rfl⟩ hwaiting
  obtain ⟨hawaited, hfirst⟩ := hblank.subscribe publisher
  have hw : w = after rest ((after waiting {}).perform (.subscribe publisher)) := by
    change after (waiting ++ .cue (.subscribe publisher) :: rest) {} = _
    rw [after_append]
    rfl
  have hheld := (after_subscribed hstays (hw ▸ hone)).2 hawaited
  have hnames := after_names hstays ((after waiting {}).perform (.subscribe publisher))
  rw [← hw] at hheld hnames
  by_cases hpoll : rest.any PullStep.isPoll = true
  · rw [if_pos hpoll] at hheld ⊢
    obtain ⟨p, hp⟩ := List.length_eq_one_iff.mp hone
    have hname : publisher.name = p.name := by
      rw [hfirst, hp] at hnames
      simpa using hnames
    rw [hheld.subscription, hp, hname]
    rfl
  · rw [if_neg hpoll] at hheld ⊢
    rw [hheld.subscription]
    rfl

/-- However signals, polls and the drop of a stream follow one another:

- in the whole run there is one cancellation if the stream held a subscription when it was
  dropped and had not yielded its end, and none otherwise;
- so a publisher that subscribes once and before everything else is cancelled exactly once if
  the stream was polled between its subscription and the drop and had not yielded its end,
  and never otherwise;
- nobody is cancelled who subscribes after the drop;
- whoever stands before a stream that cancels learns of it, be it a writer, a pump or a
  player. -/
theorem run_drop_cancels {before : List PullStep} (hstays : ∀ s ∈ before, s.isDrop = false)
    (later : List PullStep) :
    let w := after before {}
    let u := after (before ++ .drop :: later) {}
    (u.cancels =
      match w.stream.subscription.bind fun handle => w.peers[handle]? with
      | some p => if w.stream.done then [] else [.cancelled p.name]
      | none => []) ∧
    (∀ waiting publisher rest, before = waiting ++ .cue (.subscribe publisher) :: rest →
      (∀ s ∈ waiting, s.isIdle = true) → w.peers.length = 1 →
        u.cancels =
          if rest.any PullStep.isPoll && !w.stream.done then [.cancelled publisher.name]
          else []) ∧
    (w.peers = [] → u.cancels = []) ∧
    (∀ (l : Line) (s : PullStream Unit), l.sink = .stream s → s.subscription = some () →
      s.done = false → l.dropStream.chain.Abandoned) ∧
    ∀ (c : Chain) (s : PullStream Unit) (p : Pump) (notes : List Notice),
      s.subscription = some () → s.done = false →
        ∃ told : Chain, (Chain.dropStream c s p notes).1 = .hop told s.drop.1 p ∧
          told.Abandoned := by
  intro w u
  have hexact : u.cancels =
      match w.stream.subscription.bind fun handle => w.peers[handle]? with
      | some p => if w.stream.done then [] else [.cancelled p.name]
      | none => [] := cancels_after_drop hstays later
  refine ⟨hexact, ?_, ?_, fun l s hsink hs hdone => Line.dropStream_abandons hsink hs hdone,
    fun c s p notes hs hdone => Chain.dropStream_abandons c p notes hs hdone⟩
  · intro waiting publisher rest hbefore hwaiting hone
    have hrest : ∀ s ∈ rest, s.isDrop = false := by
      intro s hs
      apply hstays
      rw [hbefore]
      exact List.mem_append_right _ (List.mem_cons_of_mem _ hs)
    have hw : w = after (waiting ++ .cue (.subscribe publisher) :: rest) {} :=
      congrArg (after · {}) hbefore
    have hname := sole_subscription hwaiting hrest (hw ▸ hone)
    rw [← hw] at hname
    rw [hexact]
    cases hpeer : w.stream.subscription.bind fun handle => w.peers[handle]? with
    | none =>
        rw [hpeer] at hname
        have hunpolled : rest.any PullStep.isPoll = false := by
          cases hpoll : rest.any PullStep.isPoll with
          | false => rfl
          | true => simp [hpoll] at hname
        simp [hunpolled]
    | some p =>
        rw [hpeer] at hname
        cases hpoll : rest.any PullStep.isPoll with
        | false => simp [hpoll] at hname
        | true =>
            have hsame : p.name = publisher.name := by simpa [hpoll] using hname
            cases hdone : w.stream.done <;> simp [hsame]
  · intro hpeers
    rw [hexact, hpeers]
    cases w.stream.subscription <;> rfl

/-- A publisher subscribes at once, and is asked for an item when the stream is polled; it
signals once more from inside the cancellation, and another subscription comes too late. -/
theorem polled_drop_cancels :
    let publisher : Peer PullCue :=
      { name := "publisher", onRequest := [[.next [1]]], onCancel := [[.next [2], .complete]] }
    let before : List PullStep := [.poll, .cue (.subscribe publisher), .poll, .poll]
    let later : List PullStep := [.cue (.subscribe { name := "late" }), .poll, .drop]
    let u := after (before ++ .drop :: later) {}
    u.cancels = [.cancelled "publisher"] := by
  intro publisher before later u
  have hstays : ∀ s ∈ before, s.isDrop = false := by simp [before, PullStep.isDrop]
  have hone : (after before {}).peers.length = 1 := by decide +kernel
  have hundone : (after before {}).stream.done = false := by decide +kernel
  have hcancels := (run_drop_cancels hstays later).2.1 [.poll] publisher [.poll, .poll] rfl
    (by simp [PullStep.isIdle]) hone
  rw [hundone] at hcancels
  exact hcancels

/-- A stream that was never polled has not taken its subscription; when it is dropped, its
publisher is not cancelled. -/
theorem unpolled_drop_cancels_nobody :
    let u := after [.cue (.subscribe { name := "publisher" }), .drop] {}
    u.stream.dropped = true ∧ u.peers.length = 1 ∧ u.calls = [] := by
  decide +kernel

end PullExchange
end CreditFlow
