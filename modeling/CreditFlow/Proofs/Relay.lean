import CreditFlow.Proofs.PipeBackpressure
import CreditFlow.Proofs.PipeFidelity

/-!
# Relays

A *relay* is a line that was put together from a pumped source, any number of hops, and a
reader or a pull stream at the end, together with what has come of it: what the polls of the
stream have answered, and the bytes that the reader's calls have returned.  At any time the
source may be woken, the stream polled, the reader may make a call, and the tasks may make a
move, in whatever order they come to run.

What should come of it is written down by the script of the source alone: its chunks in order,
its first failure as each hop hands it on, and then the end.

Main results:

- {lit}`Item.told_eq`: what a script has in store, answer by answer.
- {lit}`Line.settle_goes`: what letting the tasks run makes of a source.
-/

namespace CreditFlow

/-! ## What a script says -/

/-- How a poll answers with a signal. -/
def Signal.pull : Signal Unit → Pull
  | .subscribed _ => .pending
  | .next chunk => .item chunk
  | .error cause => .failed cause
  | .complete => .ended

/-- What the `k`-th poll answers of a stream that has several signals in store, if polls that
are pending are left out. -/
def Signal.answer (store : List (Signal Unit)) (k : Nat) : Pull :=
  match store[k]? with
  | some sig => sig.pull
  | none => if store.any isTerminal then .ended else .pending

/-- What a poll has answered, unless it is pending. -/
def Pull.answered (p : Pull) : List Pull :=
  if p = .pending then [] else [p]

/-- Whether a reply tells that a reading call has to wait: it would wait for ever, or it does
not because the interrupt token was fired. -/
def Reply.waits : Reply → Bool
  | .stuck => true
  | .ioFailed (.stream (.condition (.interrupted .data))) => true
  | _ => false

namespace Item

/-- What the `k`-th poll of a stream answers that relays a script over `n` hops, if polls that
are pending are left out: chunk by chunk, then the failure, once, and then the end for ever.
After the chunks of a script that stays open every poll is pending. -/
def told (isOpen : Bool) (n : Nat) (items : List Item) (k : Nat) : Pull :=
  match (chunks items)[k]? with
  | some bytes => .item bytes
  | none =>
      match failure? items with
      | some cause =>
          if k = (chunks items).length then .failed (Cause.relayed^[n] cause) else .ended
      | none => if isOpen then .pending else .ended

/-- All that comes of a script at the end of `n` hops. -/
def store (isOpen : Bool) (n : Nat) (items : List Item) : List (Signal Unit) :=
  (Source.cargo { items := items, isOpen := isOpen }).map (Signal.relayed^[n])

variable {isOpen : Bool} {n : Nat} {items : List Item}

/-- Hops leave chunks and the end what they are, and relay the cause of a failure. -/
theorem store_eq (isOpen : Bool) (n : Nat) (items : List Item) :
    store isOpen n items = (chunks items).map .next ++
      match failure? items with
      | some cause => [.error (Cause.relayed^[n] cause)]
      | none => if isOpen then [] else [.complete] := by
  have hchunks : ((chunks items).map Signal.next).map (Signal.relayed^[n]) =
      (chunks items).map .next := by
    rw [List.map_map]
    exact List.map_congr_left fun chunk _ => Signal.relayed_next n chunk
  rw [store, Source.cargo, List.map_append, hchunks]
  cases failure? items with
  | some cause => exact congrArg (_ ++ [·]) (Signal.relayed_error n cause)
  | none =>
      cases isOpen with
      | true => rfl
      | false => exact congrArg (_ ++ [·]) (Signal.relayed_complete n)

/-- Answer by answer, a stream tells of what the script has in store. -/
theorem told_eq (isOpen : Bool) (n : Nat) (items : List Item) (k : Nat) :
    told isOpen n items k = Signal.answer (store isOpen n items) k := by
  have hnext : ((chunks items).map (Signal.next (ι := Unit))).any Signal.isTerminal = false := by
    simp [Signal.isTerminal]
  rw [told, Signal.answer, store_eq, List.any_append, hnext, Bool.false_or]
  by_cases hk : k < (chunks items).length
  · rw [List.getElem?_append_left (by simpa using hk), List.getElem?_map,
      List.getElem?_eq_getElem hk]
    rfl
  · have hnone : (chunks items)[k]? = none := List.getElem?_eq_none (Nat.le_of_not_lt hk)
    rw [List.getElem?_append_right (by simpa using hk), List.length_map, hnone]
    cases failure? items with
    | some cause =>
        by_cases hlast : k = (chunks items).length
        · simp [hlast, Signal.pull]
        · have hlater : k - (chunks items).length = (k - (chunks items).length - 1) + 1 := by omega
          dsimp only
          rw [hlater, if_neg hlast]
          simp [Signal.isTerminal]
    | none =>
        cases isOpen with
        | true => rfl
        | false =>
            by_cases hlast : k = (chunks items).length
            · simp [hlast, Signal.pull]
            · have hlater : k - (chunks items).length = (k - (chunks items).length - 1) + 1 := by
                omega
              dsimp only
              rw [hlater]
              simp [Signal.isTerminal]

end Item

/-! ## The source of a line -/

namespace Line

variable {l : Line} {s : Source}

@[simp]
theorem reactAll_source (rs : List (Reaction Unit)) (l : Line) :
    (l.reactAll rs).chain.source? = l.chain.source? := by
  rw [(reactAll_parts rs l).1, Chain.controls_source]

/-- A move of the tasks wakes no source. -/
theorem tick_goes (hsource : l.chain.source? = some s) {l' : Line} (htick : l.tick = some l') :
    ∃ s', l'.chain.source? = some s' ∧ s.Goes s' := by
  unfold tick at htick
  split at htick
  · rename_i k hrunning
    cases htick
    obtain ⟨cs, hchain⟩ := absorb_chain (l.chain.turn k)
      { l with running := if (l.chain.turn k).2.goesOn then some k else none }
    rw [hchain, Chain.controls_source]
    exact Chain.turn_goes hsource k
  · split at htick
    · cases htick
    · cases htick
      exact ⟨s, hsource, .refl s⟩

/-- Nor does running them until the line is idle. -/
theorem settle_goes (hsource : l.chain.source? = some s) :
    ∃ s', l.settle.chain.source? = some s' ∧ s.Goes s' := by
  have hmove : ∀ {l moved : Line}, (∃ s', l.chain.source? = some s' ∧ s.Goes s') →
      l.tick = some moved → ∃ s', moved.chain.source? = some s' ∧ s.Goes s' := by
    rintro l moved ⟨s', hsource', hgoes⟩ htick
    obtain ⟨s'', hsource'', hgoes'⟩ := tick_goes hsource' htick
    exact ⟨s'', hsource'', hgoes.trans hgoes'⟩
  exact settle_keeps hmove ⟨s, hsource, .refl s⟩

/-- A poll of the stream at the end does not reach the source. -/
theorem poll_source (l : Line) : l.poll.2.chain.source? = l.chain.source? := by
  unfold poll
  cases hsink : l.sink with
  | stream p =>
      dsimp only
      split
      · rfl
      · rename_i handle hasks
        have hasked : ((({ l.unwoken with sink := .stream p.attend.1 }).note p.attend.2.1).react
            (.control handle (.request 1))).chain.source? = l.chain.source? :=
          Chain.controls_source [.request 1] l.chain
        split
        · split
          · exact hasked
          · exact hasked
        · exact hasked
  | inlet b | nobody | listener listener | recorder r => rfl

/-- Nor does letting the tasks run and polling. -/
theorem settlePoll_goes (hsource : l.chain.source? = some s) :
    ∃ s', (Puller.settlePoll l).2.chain.source? = some s' ∧ s.Goes s' := by
  obtain ⟨s₁, hsettled, hgoes⟩ := settle_goes hsource
  have hpolled := l.settle.poll_source.trans hsettled
  unfold Puller.settlePoll
  dsimp only
  split
  · obtain ⟨s₂, hagain, hgoes'⟩ := settle_goes hpolled
    exact ⟨s₂, (poll_source _).trans hagain, hgoes.trans hgoes'⟩
  · exact ⟨s₁, hpolled, hgoes⟩

end Line

/-! ## Events -/

/-- One thing that happens along a relay. -/
inductive RelayEvent where
  /-- The tasks make one move. -/
  | ticks
  /-- One of the tasks that are to run comes first. -/
  | prefers (task : Nat)
  /-- Someone wakes the source. -/
  | wakes
  /-- The stream at the end is polled. -/
  | polls
  /-- The reader at the end makes a call, unless it has to wait. -/
  | reads (call : ReadCall)
  /-- The interrupt token is fired. -/
  | interrupts

/-- A line, and what has come of it. -/
structure Relay where
  line : Line
  /-- What the polls of the stream have answered, in order; those that are pending are left
  out. -/
  answers : List Pull := []
  /-- The bytes that the reader's calls have returned, in order. -/
  returned : Octets := []

namespace Relay

/-- A source, `n` hops, and an end, put together; no task has run. -/
def start (items : List Item) (isOpen : Bool) (n : Nat) (ending : PipeEnd) (interrupted : Bool) :
    Relay :=
  let pieces : PipeScenario := { head := .source items isOpen, hops := n, ending := ending }
  { line := { pieces.pieces with interrupted := interrupted } }

/-- Wake the source. -/
def wake (t : Relay) : Relay :=
  { t with line := t.line.atSource id true }

/-- Poll the stream at the end. -/
def poll (t : Relay) : Relay :=
  { t with line := t.line.poll.2, answers := t.answers ++ t.line.poll.1.answered }

/-- The reader makes a call.  A call that would have to wait does nothing yet. -/
def read (call : ReadCall) (t : Relay) : Relay :=
  match Reader.attempt (Inlet.answer call) t.line with
  | none => t
  | some answered =>
      { t with line := answered.2, returned := t.returned ++ Inlet.bytes answered.1 }

/-- What an event does. -/
def step (t : Relay) : RelayEvent → Relay
  | .ticks => { t with line := t.line.tick.getD t.line }
  | .prefers task => { t with line := t.line.prefer task }
  | .wakes => t.wake
  | .polls => t.poll
  | .reads call => t.read call
  | .interrupts => { t with line := t.line.react .interrupt }

/-- What a list of events comes to. -/
def run (events : List RelayEvent) (t : Relay) : Relay :=
  events.foldl step t

/-- How many items the stream has yielded. -/
def yielded (t : Relay) : Nat :=
  t.answers.countP Pull.isItem

/-- How many items were pulled from the source. -/
def pulled (t : Relay) : Nat :=
  PumpScenario.pulled t.line

/-! ## Running a relay to its end -/

/-- Wake the source, let the tasks run, and poll the stream; if it is pending, let them run
and poll it once more. -/
def pull (t : Relay) : Relay :=
  let polled := Puller.settlePoll t.wake.line
  { t.wake with line := polled.2, answers := t.answers ++ polled.1.answered }

/-- Wake the source, and read into a buffer of `size` bytes until there is nothing more. -/
def drain (size : Nat) (t : Relay) : Reply × Relay :=
  let drained := PipeScenario.drain size (t.wake.line.volume + 2) t.wake.line
  (drained.2.1, { t.wake with line := drained.2.2, returned := t.returned ++ drained.1.flatten })

/-- Drain the reader; as often as it has to wait, but at most `patience` times, wake the source
and drain it again. -/
def drainAll (size : Nat) : (patience : Nat) → Relay → Reply × Relay
  | 0, t => drain size t
  | patience + 1, t =>
      let drained := drain size t
      if drained.1.waits then drainAll size patience drained.2 else drained

end Relay
end CreditFlow
