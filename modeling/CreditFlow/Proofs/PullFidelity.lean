import CreditFlow.Proofs.PullDrop

/-!
# What a pull stream yields

Whoever polls a pull stream sees its signals one by one.  A poll can take in several
subscriptions, yields at most one answer, and lets the publisher signal once more from inside
the request that it may make.  None of that can be seen in the answers: they are the items in
the order in which they were sent, then the failure if the first end is one, and ends from
then on.

The signals of a run are told by {lit}`PullExchange.sent`, its answers by
{lit}`PullExchange.answers`.  Both go along with the run, also through the cues that a
publisher carries out from inside a request.  A publisher that signals while it is being
subscribed to does so in the first steps of a run.

Main results:

- {lit}`PullStream.attendTo_attended`: all that looking through an inbox can come to.
- {lit}`PullStream.Faithful`: what a stream has yielded, by the signals that were sent to it.
- {lit}`PullExchange.Faithful.run`: this holds in every run.
- {lit}`PullExchange.run_answers`: the answers of a run are those that its signals are worth.
-/

namespace CreditFlow

/-- Whether a poll was answered. -/
def Pull.isReady : Pull → Bool
  | .pending => false
  | _ => true

/-- The answers that looking through an inbox has led to. -/
def Attention.ready {ι : Type} : Attention ι → List Pull
  | .answer p => [p].filter Pull.isReady
  | .asks _ => []

namespace PullStream

variable {ι : Type} {p q r : PullStream ι} {sent more : List (Signal ι)} {ready : List Pull}

/-! ## What signals are worth -/

/-- The answers that signals are worth: an item for each one before the first end, and a
failure if that is how they end. -/
def due : List (Signal ι) → List Pull
  | .subscribed _ :: rest => due rest
  | .next chunk :: rest => .item chunk :: due rest
  | .error cause :: _ => [.failed cause]
  | .complete :: _ => []
  | [] => []

/-- Whether there is an end among signals. -/
def concluded (sent : List (Signal ι)) : Bool :=
  sent.any Signal.isTerminal

@[simp]
theorem concluded_append (first later : List (Signal ι)) :
    concluded (first ++ later) = (concluded first || concluded later) :=
  List.any_append

/-- Nothing that comes after an end is worth anything. -/
theorem due_append (first later : List (Signal ι)) :
    due (first ++ later) = due first ++ if concluded first then [] else due later := by
  induction first with
  | nil => rfl
  | cons s rest ih =>
      cases s with
      | subscribed handle => exact ih
      | next chunk => exact congrArg (Pull.item chunk :: ·) ih
      | error cause => rfl
      | complete => rfl

/-- Subscriptions are worth nothing. -/
theorem due_subscribed (handles : List ι) (rest : List (Signal ι)) :
    due (handles.map .subscribed ++ rest) = due rest := by
  induction handles with
  | nil => rfl
  | cons handle handles ih => exact ih

@[simp]
theorem concluded_subscribed (handles : List ι) :
    concluded (handles.map Signal.subscribed) = false := by
  simp [concluded, Signal.isTerminal]

@[simp]
theorem handles_subscribed (handles : List ι) :
    (handles.map Signal.subscribed).flatMap Signal.handles = handles := by
  induction handles with
  | nil => rfl
  | cons handle handles ih => exact congrArg (handle :: ·) ih

/-- Every answer that signals are worth before their end is an item. -/
theorem due_isItem (hopen : concluded sent = false) :
    ∀ answer ∈ due sent, answer.isItem = true := by
  induction sent with
  | nil =>
      intro answer hmem
      cases hmem
  | cons s rest ih =>
      cases s with
      | subscribed handle => exact ih hopen
      | next chunk =>
          intro answer hmem
          rcases List.mem_cons.mp hmem with rfl | hrest
          · rfl
          · exact ih hopen answer hrest
      | error cause => cases hopen
      | complete => cases hopen

/-! ## Looking through an inbox -/

/-- The stream with the last of some handles. -/
def taking (p : PullStream ι) (handles : List ι) : PullStream ι :=
  { p with subscription := handles.getLast?.or p.subscription }

/-- What looking through an inbox can come to.  The subscriptions at its head are taken in,
and what comes after them decides. -/
inductive Attended (p : PullStream ι) (inbox : List (Signal ι)) :
    PullStream ι → Attention ι → Prop
  | item (handles : List ι) (chunk : Octets) (rest : List (Signal ι))
      (hinbox : inbox = handles.map .subscribed ++ .next chunk :: rest) :
      Attended p inbox { p.taking handles with inbox := rest, requested := false }
        (.answer (.item chunk))
  | failed (handles : List ι) (cause : Cause) (rest : List (Signal ι))
      (hinbox : inbox = handles.map .subscribed ++ .error cause :: rest) :
      Attended p inbox { p.taking handles with inbox := rest, done := true }
        (.answer (.failed cause))
  | complete (handles : List ι) (rest : List (Signal ι))
      (hinbox : inbox = handles.map .subscribed ++ .complete :: rest) :
      Attended p inbox { p.taking handles with inbox := rest, done := true } (.answer .ended)
  | hungUp (handles : List ι) (hinbox : inbox = handles.map .subscribed)
      (hgone : p.connected = false) :
      Attended p inbox { p.taking handles with inbox := [], done := true } (.answer .ended)
  | pending (handles : List ι) (hinbox : inbox = handles.map .subscribed)
      (hconnected : p.connected = true)
      (hidle : p.requested = true ∨ (p.taking handles).subscription = none) :
      Attended p inbox { p.taking handles with inbox := [], parked := true } (.answer .pending)
  | asks (handles : List ι) (handle : ι) (hinbox : inbox = handles.map .subscribed)
      (hconnected : p.connected = true) (hunasked : p.requested = false)
      (hheld : (p.taking handles).subscription = some handle) :
      Attended p inbox { p.taking handles with inbox := [], parked := true, requested := true }
        (.asks handle)

theorem taking_cons (p : PullStream ι) (first : ι) (handles : List ι) :
    { p with subscription := some first }.taking handles = p.taking (first :: handles) := by
  cases handles with
  | nil => rfl
  | cons handle handles => simp [taking, List.getLast?_cons]

/-- A subscription at the head of an inbox is taken in. -/
theorem Attended.subscribed {first : ι} {rest : List (Signal ι)} {a : Attention ι}
    (h : Attended { p with subscription := some first } rest q a) :
    Attended p (.subscribed first :: rest) q a := by
  cases h with
  | item handles chunk rest hinbox =>
      rw [taking_cons]
      exact .item (first :: handles) chunk rest (by rw [hinbox]; rfl)
  | failed handles cause rest hinbox =>
      rw [taking_cons]
      exact .failed (first :: handles) cause rest (by rw [hinbox]; rfl)
  | complete handles rest hinbox =>
      rw [taking_cons]
      exact .complete (first :: handles) rest (by rw [hinbox]; rfl)
  | hungUp handles hinbox hgone =>
      rw [taking_cons]
      exact .hungUp (first :: handles) (by rw [hinbox]; rfl) hgone
  | pending handles hinbox hconnected hidle =>
      rw [taking_cons] at hidle ⊢
      exact .pending (first :: handles) (by rw [hinbox]; rfl) hconnected hidle
  | asks handles handle hinbox hconnected hunasked hheld =>
      rw [taking_cons] at hheld ⊢
      exact .asks (first :: handles) handle (by rw [hinbox]; rfl) hconnected hunasked hheld

/-- All that looking through an inbox can come to. -/
theorem attendTo_attended (p : PullStream ι) (inbox : List (Signal ι)) :
    Attended p inbox (p.attendTo inbox).1 (p.attendTo inbox).2.2 := by
  induction inbox generalizing p with
  | nil =>
      unfold attendTo
      by_cases hconnected : p.connected = true
      · rw [if_pos hconnected]
        split
        · rename_i handle hunasked hheld
          exact .asks [] handle rfl hconnected hunasked hheld
        · rename_i hnone
          apply Attended.pending [] rfl hconnected
          by_cases hunasked : p.requested = true
          · exact .inl hunasked
          · refine .inr (Option.eq_none_iff_forall_ne_some.mpr ?_)
            intro handle hheld
            exact hnone handle (by simpa using hunasked) hheld
      · rw [if_neg hconnected]
        exact .hungUp [] rfl (by simpa using hconnected)
  | cons s rest ih =>
      cases s with
      | subscribed first => exact (ih _).subscribed
      | next chunk => exact .item [] chunk rest rfl
      | error cause => exact .failed [] cause rest rfl
      | complete => exact .complete [] rest rfl

/-- A stream looks through its own inbox until its end was yielded. -/
theorem attend_attended (hopen : p.done = false) :
    Attended p p.inbox p.attend.1 p.attend.2.2 := by
  rw [attend, if_neg (by simp [hopen])]
  exact attendTo_attended p p.inbox

/-- Only a stream that has not ended asks for an item or has a poll wait. -/
theorem done_of_attend (hready : p.attend.2.2.ready = []) : p.done = false := by
  by_contra hdone
  rw [Bool.not_eq_false] at hdone
  rw [attend_of_done hdone] at hready
  cases hready

/-- A stream has a poll wait only if there is nothing in its inbox, its publisher is still
there, and the poller is remembered. -/
theorem attend_pending (hpending : p.attend.2.2 = .answer .pending) :
    p.attend.1.inbox = [] ∧ p.attend.1.connected = true ∧ p.attend.1.parked = true ∧
      p.attend.1.done = false := by
  have hopen : p.done = false := done_of_attend (by rw [hpending]; rfl)
  have hattended := attend_attended hopen
  rw [hpending] at hattended
  generalize p.attend.1 = after at hattended
  cases hattended with
  | pending handles hinbox hconnected hidle => exact ⟨rfl, hconnected, rfl, hopen⟩

/-! ## What a stream has yielded -/

/-- What a stream has yielded, by the signals that were sent to it.  Before its end it has
looked at the oldest ones and holds the last subscription among them. -/
structure Faithful (sent : List (Signal ι)) (ready : List Pull) (p : PullStream ι) : Prop where
  looking : p.done = false → ∃ looked, sent = looked ++ p.inbox ∧ concluded looked = false ∧
    ready = due looked ∧ p.subscription = (looked.flatMap Signal.handles).getLast?
  ended : p.done = true → (concluded sent = true ∨ p.connected = false) ∧
    ∃ n, ready = due sent ++ List.replicate n .ended

/-- The subscriptions at the head of an inbox are worth nothing, and are no end. -/
theorem looked_subscribed {looked : List (Signal ι)} (hopen : concluded looked = false)
    (handles : List ι) :
    concluded (looked ++ handles.map Signal.subscribed) = false ∧
      due (looked ++ handles.map Signal.subscribed) = due looked := by
  have hworth := due_subscribed handles []
  rw [List.append_nil] at hworth
  constructor
  · simp [hopen]
  · rw [due_append, hworth]
    simp [hopen, due]

/-- The stream holds the last subscription that it has looked at. -/
theorem taking_looked {looked : List (Signal ι)}
    (hheld : p.subscription = (looked.flatMap Signal.handles).getLast?) (handles : List ι) :
    (p.taking handles).subscription =
      ((looked ++ handles.map Signal.subscribed).flatMap Signal.handles).getLast? := by
  rw [List.flatMap_append, handles_subscribed, List.getLast?_append, ← hheld]
  rfl

theorem Faithful.ofLooked (looked : List (Signal ι)) (hundone : p.done = false)
    (hsent : sent = looked ++ p.inbox) (hopen : concluded looked = false)
    (hready : ready = due looked)
    (hheld : p.subscription = (looked.flatMap Signal.handles).getLast?) :
    Faithful sent ready p := by
  constructor
  · exact fun _ => ⟨looked, hsent, hopen, hready, hheld⟩
  · intro hdone
    rw [hundone] at hdone
    cases hdone

/-- A stream that has yielded its end goes on to say so. -/
theorem Faithful.ofEnded (hdone : p.done = true)
    (hover : concluded sent = true ∨ p.connected = false) {n : Nat}
    (hready : ready = due sent ++ List.replicate n .ended) : Faithful sent ready p := by
  constructor
  · intro hundone
    rw [hdone] at hundone
    cases hundone
  · exact fun _ => ⟨hover, n, hready⟩

/-- A stream that looks through its inbox yields the next answer that is due. -/
theorem Faithful.attend (h : Faithful sent ready p) :
    Faithful sent (ready ++ p.attend.2.2.ready) p.attend.1 := by
  by_cases hdone : p.done = true
  · rw [attend_of_done hdone]
    obtain ⟨hover, n, hn⟩ := h.ended hdone
    apply Faithful.ofEnded hdone hover (n := n + 1)
    rw [hn, List.replicate_succ', List.append_assoc]
    rfl
  · rw [Bool.not_eq_true] at hdone
    obtain ⟨looked, hsent, hopen, hready, hheld⟩ := h.looking hdone
    have hattended := attend_attended hdone
    generalize p.attend.1 = q at hattended
    generalize p.attend.2.2 = a at hattended
    cases hattended with
    | item handles chunk rest hinbox =>
        obtain ⟨hstill, hworth⟩ := looked_subscribed hopen handles
        apply Faithful.ofLooked (looked ++ handles.map .subscribed ++ [.next chunk])
        · exact hdone
        · simp [hsent, hinbox]
        · rw [concluded_append, hstill]
          rfl
        · rw [due_append, hstill, hworth, hready]
          rfl
        · have hnone : [Signal.next (ι := ι) chunk].flatMap Signal.handles = [] := rfl
          rw [List.flatMap_append, hnone, List.append_nil]
          exact taking_looked hheld handles
    | failed handles cause rest hinbox =>
        obtain ⟨hstill, hworth⟩ := looked_subscribed hopen handles
        have hall : sent = (looked ++ handles.map .subscribed) ++ .error cause :: rest := by
          rw [hsent, hinbox, List.append_assoc]
        apply Faithful.ofEnded rfl (n := 0)
        · rw [hall, concluded_append]
          exact .inl (Bool.or_true _)
        · rw [hall, due_append, hstill, hworth, hready]
          exact (List.append_nil _).symm
    | complete handles rest hinbox =>
        obtain ⟨hstill, hworth⟩ := looked_subscribed hopen handles
        have hall : sent = (looked ++ handles.map .subscribed) ++ .complete :: rest := by
          rw [hsent, hinbox, List.append_assoc]
        apply Faithful.ofEnded rfl (n := 1)
        · rw [hall, concluded_append]
          exact .inl (Bool.or_true _)
        · rw [hall, due_append, hstill, hworth, hready]
          exact congrArg (· ++ _) (List.append_nil _).symm
    | hungUp handles hinbox hgone =>
        obtain ⟨hstill, hworth⟩ := looked_subscribed hopen handles
        apply Faithful.ofEnded rfl (n := 1)
        · exact .inr hgone
        · rw [hsent, hinbox, hworth, hready]
          rfl
    | pending handles hinbox hconnected hidle =>
        obtain ⟨hstill, hworth⟩ := looked_subscribed hopen handles
        apply Faithful.ofLooked (looked ++ handles.map .subscribed)
        · exact hdone
        · rw [hsent, hinbox, List.append_nil]
        · exact hstill
        · rw [hworth, hready]
          exact List.append_nil _
        · exact taking_looked hheld handles
    | asks handles handle hinbox hconnected hunasked hasked =>
        obtain ⟨hstill, hworth⟩ := looked_subscribed hopen handles
        apply Faithful.ofLooked (looked ++ handles.map .subscribed)
        · exact hdone
        · rw [hsent, hinbox, List.append_nil]
        · exact hstill
        · rw [hworth, hready]
          exact List.append_nil _
        · exact taking_looked hheld handles

/-- What a stream keeps when signals are sent to it and its publisher may go away. -/
structure Heard (more : List (Signal ι)) (p q : PullStream ι) : Prop where
  inbox : q.inbox = p.inbox ++ more
  subscription : q.subscription = p.subscription
  requested : q.requested = p.requested
  done : q.done = p.done
  connected : q.connected = true → p.connected = true
  silent : p.connected = false → more = []

/-- A publisher that has gone away stays away. -/
theorem Heard.gone (h : Heard more p q) (hgone : p.connected = false) : q.connected = false := by
  cases hq : q.connected with
  | false => rfl
  | true => exact absurd (h.connected hq) (by simp [hgone])

theorem Heard.refl (p : PullStream ι) : Heard [] p p :=
  ⟨(List.append_nil _).symm, rfl, rfl, rfl, id, fun _ => rfl⟩

/-- What a stream hears in two parts it hears as a whole. -/
theorem Heard.trans {first later : List (Signal ι)} (h : Heard first p q) (h' : Heard later q r) :
    Heard (first ++ later) p r := by
  constructor
  · rw [h'.inbox, h.inbox, List.append_assoc]
  · exact h'.subscription.trans h.subscription
  · exact h'.requested.trans h.requested
  · exact h'.done.trans h.done
  · exact fun hconnected => h.connected (h'.connected hconnected)
  · intro hgone
    rw [h.silent hgone, h'.silent (h.gone hgone)]
    rfl

/-- Signals wait in the inbox until the stream looks at them. -/
theorem Faithful.heard (h : Faithful sent ready p) (hheard : Heard more p q) :
    Faithful (sent ++ more) ready q := by
  by_cases hdone : p.done = true
  · obtain ⟨hover, n, hn⟩ := h.ended hdone
    rcases hover with hover | hgone
    · apply Faithful.ofEnded (hheard.done.trans hdone) (n := n)
      · rw [concluded_append, hover]
        exact .inl rfl
      · rw [hn, due_append, if_pos hover, List.append_nil]
    · apply Faithful.ofEnded (hheard.done.trans hdone) (n := n)
      · exact .inr (hheard.gone hgone)
      · rw [hheard.silent hgone, List.append_nil]
        exact hn
  · rw [Bool.not_eq_true] at hdone
    obtain ⟨looked, hsent, hlooked, hready, hheld⟩ := h.looking hdone
    apply Faithful.ofLooked looked (hheard.done.trans hdone)
    · rw [hsent, hheard.inbox, List.append_assoc]
    · exact hlooked
    · exact hready
    · exact hheard.subscription.trans hheld

/-- What was yielded is the beginning of what is due, with ends after it. -/
theorem Faithful.ready_prefix (h : Faithful sent ready p) :
    ready <+: due sent ++ List.replicate ready.length .ended := by
  by_cases hdone : p.done = true
  · obtain ⟨-, n, hn⟩ := h.ended hdone
    have hmore : n ≤ ready.length := by simp [hn]
    obtain ⟨k, hk⟩ := Nat.exists_eq_add_of_le hmore
    rw [hk, ← List.replicate_append_replicate, ← List.append_assoc, ← hn]
    exact List.prefix_append _ _
  · rw [Bool.not_eq_true] at hdone
    obtain ⟨looked, hsent, hopen, hready, -⟩ := h.looking hdone
    rw [hsent, due_append, ← hready, List.append_assoc]
    exact List.prefix_append _ _

/-- Ends are yielded only after an end was sent or the publisher has gone away. -/
theorem Faithful.concluded_of_ended (h : Faithful sent ready p) (hended : .ended ∈ ready) :
    concluded sent = true ∨ p.connected = false := by
  by_cases hdone : p.done = true
  · exact (h.ended hdone).1
  · rw [Bool.not_eq_true] at hdone
    obtain ⟨looked, -, hopen, hready, -⟩ := h.looking hdone
    have hitem := due_isItem hopen .ended (hready ▸ hended)
    cases hitem

/-- A stream with an empty inbox that has not ended has yielded all that is due. -/
theorem Faithful.ready_eq (h : Faithful sent ready p) (hopen : p.done = false)
    (hinbox : p.inbox = []) :
    ready = due sent ∧ concluded sent = false ∧
      p.subscription = (sent.flatMap Signal.handles).getLast? := by
  obtain ⟨looked, hsent, hlooked, hready, hheld⟩ := h.looking hopen
  rw [hinbox, List.append_nil] at hsent
  rw [hsent]
  exact ⟨hready, hlooked, hheld⟩

/-- A poller that is remembered is woken by whatever the publisher does next. -/
theorem hear_wakes (hheld : p.dropped = false) (hconnected : p.connected = true)
    (hparked : p.parked = true) (s : Signal ι) : (p.hear s).2.1 = true := by
  simp [hear, hheld, hconnected, hparked]

/-- A publisher that goes away wakes whoever sleeps for it. -/
theorem hangUp_wakes (hconnected : p.connected = true) (hparked : p.parked = true) :
    p.hangUp.2 = true := by
  simp [hangUp, hconnected, hparked]

end PullStream

namespace PullExchange

open PullStream (Heard Faithful due concluded)

variable {w : PullExchange}

/-! ## The signals and the answers of a run -/

/-- The signals that reach the stream when a cue is carried out. -/
def emits (w : PullExchange) (c : PullCue) : List (Signal Nat) :=
  if w.stream.dropped || !w.stream.connected then []
  else
    match c with
    | .subscribe _ => [.subscribed w.peers.length]
    | .next chunk => [.next chunk]
    | .error cause => [.error cause]
    | .complete => [.complete]
    | .aside .hangUp => []

/-- The signals that reach the stream when cues are carried out in order. -/
def playEmits : List PullCue → PullExchange → List (Signal Nat)
  | [], _ => []
  | c :: cues, w => w.emits c ++ playEmits cues (w.perform c)

/-- The signals that a peer answers a control with. -/
def controlEmits (handle : Nat) (c : Control) (w : PullExchange) : List (Signal Nat) :=
  let answer := Peer.answerAt c handle w.peers
  playEmits answer.2.1 { w with calls := w.calls ++ answer.1, peers := answer.2.2 }

/-- The first look of a poll. -/
def glance (w : PullExchange) : PullExchange × Attention Nat :=
  w.unwoken.attend

/-- What a poll that asks for an item comes back to. -/
def asking (handle : Nat) (w : PullExchange) : PullExchange :=
  w.glance.1.control handle (.request 1)

/-- The signals that reach the stream in the middle of a poll. -/
def pollEmits (w : PullExchange) : List (Signal Nat) :=
  match w.glance.2 with
  | .answer _ => []
  | .asks handle => controlEmits handle (.request 1) w.glance.1

/-- The signals that reach the stream in a step.  Those that come while it is being dropped
are never looked at. -/
def stepEmits (s : PullStep) (w : PullExchange) : List (Signal Nat) :=
  match s with
  | .cue c => w.emits c
  | .poll => if w.stream.dropped then [] else w.pollEmits
  | .woken => []
  | .drop => []

/-- The signals of a run, in order. -/
def sent : List PullStep → PullExchange → List (Signal Nat)
  | [], _ => []
  | s :: steps, w => stepEmits s w ++ sent steps (PullScenario.carry s w).2

/-- What the poll of a step is answered with. -/
def stepAnswers (s : PullStep) (w : PullExchange) : List Pull :=
  match s with
  | .poll => if w.stream.dropped then [] else [w.poll.1]
  | _ => []

/-- The answers of a run, in order. -/
def answers : List PullStep → PullExchange → List Pull
  | [], _ => []
  | s :: steps, w => stepAnswers s w ++ answers steps (PullScenario.carry s w).2

/-- The answers of a run that did not have the poller wait. -/
def yielded (steps : List PullStep) (w : PullExchange) : List Pull :=
  (answers steps w).filter Pull.isReady

/-- What is sent in a longer run is what is sent in its first part, and then the rest. -/
theorem sent_append (first later : List PullStep) (w : PullExchange) :
    sent (first ++ later) w = sent first w ++ sent later (after first w) := by
  induction first generalizing w with
  | nil => rfl
  | cons s first ih =>
      change stepEmits s w ++ sent (first ++ later) _ = (stepEmits s w ++ sent first _) ++ _
      rw [ih, List.append_assoc]
      rfl

/-- The answers of a longer run are those of its first part, and then the rest. -/
theorem answers_append (first later : List PullStep) (w : PullExchange) :
    answers (first ++ later) w = answers first w ++ answers later (after first w) := by
  induction first generalizing w with
  | nil => rfl
  | cons s first ih =>
      change stepAnswers s w ++ answers (first ++ later) _ =
        (stepAnswers s w ++ answers first _) ++ _
      rw [ih, List.append_assoc]
      rfl

/-- A stream that was dropped answers nobody. -/
theorem answers_of_dropped (hdropped : w.stream.dropped = true) (steps : List PullStep) :
    answers steps w = [] := by
  induction steps generalizing w with
  | nil => rfl
  | cons s steps ih =>
      have hnone : stepAnswers s w = [] := by
        cases s <;> simp [stepAnswers, hdropped]
      rw [answers, hnone, ih (carry_calls_of_dropped hdropped s).2]
      rfl

/-- The stream is gone after a drop. -/
theorem carry_drop_dropped (w : PullExchange) :
    (PullScenario.carry .drop w).2.stream.dropped = true := by
  by_cases hdropped : w.stream.dropped = true
  · simp [PullScenario.carry, hdropped]
  · simp [PullScenario.carry, hdropped]

/-! ## The publisher's side -/

/-- A signal reaches a stream that was not dropped and whose publisher is there. -/
theorem tell_heard (s : Signal Nat) (w : PullExchange) :
    Heard (if w.stream.dropped || !w.stream.connected then [] else [s])
      w.stream (w.tell s).stream := by
  unfold tell PullStream.hear
  by_cases hdropped : w.stream.dropped = true
  · rw [if_pos hdropped, if_pos (by simp [hdropped])]
    exact Heard.refl _
  · rw [if_neg hdropped]
    by_cases hconnected : w.stream.connected = true
    · rw [if_pos hconnected, if_neg (by simp [hdropped, hconnected])]
      exact ⟨rfl, rfl, rfl, rfl, id, fun hgone => by simp [hconnected] at hgone⟩
    · rw [if_neg hconnected, if_pos (by simp [hconnected])]
      exact Heard.refl _

/-- A cue puts its signal into the inbox and changes nothing that the stream has seen. -/
theorem perform_heard (w : PullExchange) (c : PullCue) :
    Heard (w.emits c) w.stream (w.perform c).stream := by
  cases c with
  | subscribe peer => exact tell_heard _ { w with peers := w.peers ++ [peer] }
  | next chunk => exact tell_heard _ w
  | error cause => exact tell_heard _ w
  | complete => exact tell_heard _ w
  | aside e =>
      cases e
      have hnone : w.emits (.aside .hangUp) = [] := by
        unfold emits
        split <;> rfl
      rw [hnone]
      simp only [perform, PullStream.hangUp]
      by_cases hconnected : w.stream.connected = true
      · rw [if_pos hconnected]
        exact ⟨(List.append_nil _).symm, rfl, rfl, rfl, fun _ => hconnected, fun _ => rfl⟩
      · rw [if_neg hconnected]
        exact Heard.refl _

/-- The signals of a script reach the stream in order. -/
theorem play_heard (cues : List PullCue) (w : PullExchange) :
    Heard (playEmits cues w) w.stream (w.play cues).stream := by
  induction cues generalizing w with
  | nil => exact Heard.refl _
  | cons c cues ih => exact (perform_heard w c).trans (ih (w.perform c))

/-- What a peer answers a control with reaches the stream. -/
theorem control_heard (handle : Nat) (c : Control) (w : PullExchange) :
    Heard (controlEmits handle c w) w.stream (w.control handle c).stream :=
  play_heard _ _

/-- Whatever the publisher does next wakes a poller that waits. -/
theorem perform_wakes (hheld : w.stream.dropped = false) (hconnected : w.stream.connected = true)
    (hparked : w.stream.parked = true) (c : PullCue) : (w.perform c).woken = true := by
  have hheard : ∀ s : Signal Nat, (w.woken || (w.stream.hear s).2.1) = true := by
    intro s
    rw [PullStream.hear_wakes hheld hconnected hparked]
    exact Bool.or_true _
  cases c with
  | subscribe peer => exact hheard _
  | next chunk => exact hheard _
  | error cause => exact hheard _
  | complete => exact hheard _
  | aside e =>
      cases e
      change (w.woken || w.stream.hangUp.2) = true
      rw [PullStream.hangUp_wakes hconnected hparked]
      exact Bool.or_true _

/-! ## The puller's side -/

/-- The two ways in which a poll goes: it is answered at its first look, or it asks for an
item and is answered at its second. -/
inductive Polled (w : PullExchange) : Pull → PullExchange → Prop
  | atOnce (p : Pull) (hglance : w.glance.2 = .answer p) : Polled w p w.glance.1
  | asked (handle : Nat) (p : Pull) (hglance : w.glance.2 = .asks handle)
      (hagain : (w.asking handle).attend.2 = .answer p) : Polled w p (w.asking handle).attend.1

/-- A stream that has asked for an item does not ask again when it looks a second time. -/
theorem asking_attend {handle : Nat} (hglance : w.glance.2 = .asks handle) (again : Nat) :
    (w.asking handle).attend.2 ≠ .asks again := by
  have hopen : w.stream.done = false := by
    apply PullStream.done_of_attend
    change Attention.ready w.glance.2 = []
    rw [hglance]
    rfl
  have hasks : (w.stream.attendTo w.stream.inbox).2.2 = .asks handle := by
    have hattend : w.stream.attend = w.stream.attendTo w.stream.inbox := by
      simp [PullStream.attend, hopen]
    exact hattend ▸ hglance
  have hmarked : w.glance.1.stream.requested = true := by
    change w.stream.attend.1.requested = true
    rw [PullStream.attend, if_neg (by simp [hopen])]
    exact (PullStream.attendTo_asks hasks).1
  have hrequested : (w.asking handle).stream.requested = true :=
    (control_heard handle (.request 1) w.glance.1).requested.trans hmarked
  change (w.asking handle).stream.attend.2.2 ≠ .asks again
  unfold PullStream.attend
  split
  · intro hnone
    cases hnone
  · exact PullStream.attendTo_of_requested hrequested _ again

/-- Every poll goes one of these ways. -/
theorem poll_polled (w : PullExchange) : Polled w w.poll.1 w.poll.2 := by
  unfold poll
  dsimp only
  split
  · rename_i p hglance
    exact .atOnce p hglance
  · rename_i handle hglance
    split
    · rename_i p hagain
      exact .asked handle p hglance hagain
    · rename_i again hagain
      exact absurd hagain (asking_attend hglance again)

/-- A poll waits only if it has left nothing in the inbox and the poller is remembered. -/
theorem poll_pending (hpending : w.poll.1 = .pending) :
    w.poll.2.stream.inbox = [] ∧ w.poll.2.stream.connected = true ∧
      w.poll.2.stream.parked = true ∧ w.poll.2.stream.done = false := by
  have hpolled := poll_polled w
  rw [hpending] at hpolled
  generalize w.poll.2 = u at hpolled
  cases hpolled with
  | atOnce _ hglance => exact PullStream.attend_pending hglance
  | asked handle _ hglance hagain => exact PullStream.attend_pending hagain

/-! ## Runs -/

variable {told : List (Signal Nat)} {ready : List Pull}

/-- A poll yields the next answer that is due, also with the signals that come in the middle
of it. -/
theorem poll_faithful (h : Faithful told ready w.stream) :
    Faithful (told ++ w.pollEmits) (ready ++ [w.poll.1].filter Pull.isReady) w.poll.2.stream := by
  have hfirst : Faithful told (ready ++ w.glance.2.ready) w.glance.1.stream := h.attend
  have hpolled := poll_polled w
  generalize w.poll.1 = p at hpolled
  generalize w.poll.2 = u at hpolled
  unfold pollEmits
  cases hpolled with
  | atOnce _ hglance =>
      rw [hglance] at hfirst ⊢
      rw [List.append_nil]
      exact hfirst
  | asked handle _ hglance hagain =>
      rw [hglance, Attention.ready, List.append_nil] at hfirst
      have hsecond := (hfirst.heard (control_heard handle (.request 1) w.glance.1)).attend
      have hanswer : (w.asking handle).stream.attend.2.2 = .answer p := hagain
      change Faithful _ (ready ++ Attention.ready (w.asking handle).stream.attend.2.2) _ at hsecond
      rw [hanswer] at hsecond
      rw [hglance]
      exact hsecond

/-- Every step keeps what a stream has yielded in line with what was sent to it. -/
theorem carry_faithful {s : PullStep} (hstays : s.isDrop = false)
    (hheld : w.stream.dropped = false) (h : Faithful told ready w.stream) :
    Faithful (told ++ stepEmits s w) (ready ++ (stepAnswers s w).filter Pull.isReady)
      (PullScenario.carry s w).2.stream := by
  cases s with
  | cue c =>
      have hnext := h.heard (perform_heard w c)
      rwa [← List.append_nil ready] at hnext
  | poll =>
      simp only [PullScenario.carry, stepEmits, stepAnswers, hheld]
      exact poll_faithful h
  | woken =>
      change Faithful (told ++ []) (ready ++ []) w.stream
      rwa [List.append_nil, List.append_nil]
  | drop => cases hstays

/-- So does every run, until the stream is dropped. -/
theorem Faithful.run {steps : List PullStep} (hstays : ∀ s ∈ steps, s.isDrop = false)
    (hheld : w.stream.dropped = false) (h : Faithful told ready w.stream) :
    Faithful (told ++ sent steps w) (ready ++ yielded steps w) (after steps w).stream := by
  induction steps generalizing w told ready with
  | nil =>
      change Faithful (told ++ []) (ready ++ []) w.stream
      rwa [List.append_nil, List.append_nil]
  | cons s steps ih =>
      have hs := hstays s List.mem_cons_self
      have hnext : (PullScenario.carry s w).2.stream.dropped = false :=
        (carry_cancels hs w).2.trans hheld
      have hrest : ∀ s' ∈ steps, s'.isDrop = false := by
        intro s' hs'
        exact hstays s' (List.mem_cons_of_mem s hs')
      have hrun := ih hrest hnext (carry_faithful hs hheld h)
      rw [List.append_assoc, List.append_assoc] at hrun
      rw [yielded, answers, List.filter_append]
      exact hrun

/-- What a stream has yielded in a run that starts from nothing. -/
theorem faithful_after {steps : List PullStep} (hstays : ∀ s ∈ steps, s.isDrop = false) :
    Faithful (sent steps {}) (yielded steps {}) (after steps {}).stream := by
  have hfirst : Faithful ([] : List (Signal Nat)) [] (PullExchange.stream {}) :=
    .ofLooked [] rfl rfl rfl rfl rfl
  exact Faithful.run hstays rfl hfirst

/-- A stream that no step drops is there at the end. -/
theorem after_dropped {steps : List PullStep} (hstays : ∀ s ∈ steps, s.isDrop = false) :
    (after steps {}).stream.dropped = false :=
  after_keeps (fun u => u.stream.dropped = false)
    (fun {u} {_} hs hheld => (carry_cancels hs u).2.trans hheld) rfl hstays

/-- However signals and polls follow one another, also signals that come from inside a request:

- the answers that did not have the poller wait are the next ones in the sequence of what the
  signals before their first end are worth, with ends for ever after that;
- the end is answered only after one was sent or the publisher has gone away;
- a poll waits only if everything that is due was yielded, nothing is left in the inbox and
  neither has an end been sent nor has the publisher gone away, and then whatever the
  publisher does next wakes the poller;
- a stream that was dropped answers no poll. -/
theorem run_answers {steps : List PullStep} (hstays : ∀ s ∈ steps, s.isDrop = false) :
    let w := after steps {}
    let told := sent steps {}
    let ready := yielded steps {}
    (ready <+: due told ++ List.replicate ready.length .ended) ∧
    (.ended ∈ ready → concluded told = true ∨ w.stream.connected = false) ∧
    (w.poll.1 = .pending →
      let heard := sent (steps ++ [.poll]) {}
      ready = due heard ∧ concluded heard = false ∧
        w.poll.2.stream.inbox = [] ∧ w.poll.2.stream.connected = true ∧
        (∀ s, (w.poll.2.stream.hear s).2.1 = true) ∧ w.poll.2.stream.hangUp.2 = true ∧
        ∀ c, (w.poll.2.perform c).woken = true) ∧
    ∀ later, answers (steps ++ .drop :: later) {} = answers steps {} := by
  intro w told ready
  have hfaithful : Faithful told ready w.stream := faithful_after hstays
  have hheld : w.stream.dropped = false := after_dropped hstays
  refine ⟨hfaithful.ready_prefix, hfaithful.concluded_of_ended, ?_, ?_⟩
  · intro hpending heard
    have hheard : heard = told ++ w.pollEmits := by
      change sent (steps ++ [.poll]) {} = _
      rw [sent_append]
      simp [sent, stepEmits, hheld, told, w]
    obtain ⟨hinbox, hconnected, hparked, hopen⟩ := poll_pending hpending
    have hlast := poll_faithful hfaithful
    rw [hpending, ← hheard] at hlast
    have hall : ready ++ [Pull.pending].filter Pull.isReady = ready := List.append_nil _
    rw [hall] at hlast
    obtain ⟨hready, hover, -⟩ := hlast.ready_eq hopen hinbox
    have hstill : w.poll.2.stream.dropped = false := (poll_cancels w).2.trans hheld
    exact ⟨hready, hover, hinbox, hconnected, PullStream.hear_wakes hstill hconnected hparked,
      PullStream.hangUp_wakes hconnected hparked, perform_wakes hstill hconnected hparked⟩
  · intro later
    rw [answers_append, answers, answers_of_dropped (carry_drop_dropped _) later]
    exact List.append_nil _

/-- A publisher sends two items for the first request, one of them empty, and fails after the
item of the second; an item that it sends after that is never seen. -/
theorem generous_publisher_answers :
    let publisher : Peer PullCue :=
      { name := "publisher"
        onRequest := [[.next [1], .next []], [.next [2], .error (.test "lost")]] }
    let steps : List PullStep :=
      [.poll, .cue (.subscribe publisher), .poll, .poll, .poll, .poll, .cue (.next [3]), .poll,
        .poll]
    let worth : List Pull := [.item [1], .item [], .item [2], .failed (.test "lost")]
    due (sent steps {}) = worth ∧ (yielded steps {}).length = 6 ∧
      yielded steps {} <+: worth ++ List.replicate 6 .ended := by
  intro publisher steps worth
  have hstays : ∀ s ∈ steps, s.isDrop = false := by simp [steps, PullStep.isDrop]
  have hdue : due (sent steps {}) = worth := by decide +kernel
  have hlength : (yielded steps {}).length = 6 := by decide +kernel
  have hanswers := (run_answers hstays).1
  rw [hdue, hlength] at hanswers
  exact ⟨hdue, hlength, hanswers⟩

end PullExchange
end CreditFlow
