import CreditFlow.Line.Chain
import CreditFlow.Proofs.PumpMove

/-!
# A turn of a pump over a source

All that one move of a pump over a source can come to, and what a script has in store: the
chunks before its first failure, and that failure.  Pauses, asides and things that the
listener does are no part of what a source yields, so nothing that is shown by way of the
store depends on where they stand.

Main results:

- {lit}`Chain.sourceTurns_sourceTurn`: all that a turn of the pump can come to.
- {lit}`Source.polled_poll`: all that a step of a poll can come to.
- {lit}`Source.Past.chunks`, {lit}`Source.Past.failure`: what was yielded and what is still
  to come make up the script.
- {lit}`Source.Past.polled`: what a poll yields comes next in the script.
-/

namespace CreditFlow

/-! ## A turn of the pump -/

/-- What a poll of a source yields to the pump, if it does. -/
def Yield.yielded? : Yield → Option (Option (Except Cause Octets))
  | .item r => some (some r)
  | .exhausted => some none
  | .pending _ => none
  | .act _ => none

/-- The poll of the source is pending; a source that steps aside wakes the pump at once. -/
def Pump.stepAside (wakesItself : Bool) (p : Pump) : Pump × Bool :=
  if wakesItself then p.pending.streamReady else (p.pending, false)

namespace Pump

/-- A wake changes neither the place of the task nor what it knows of its consumer. -/
theorem streamReady_parts (p : Pump) :
    p.streamReady.1.stage = p.stage ∧ p.streamReady.1.cancelled = p.cancelled := by
  unfold streamReady
  split <;> exact ⟨rfl, rfl⟩

/-- A pump that steps aside is between its turns, and no more cancelled than before. -/
theorem stepAside_parts (wakesItself : Bool) (p : Pump) :
    (p.stepAside wakesItself).1.stage = .between ∧
      (p.stepAside wakesItself).1.cancelled = p.cancelled := by
  unfold stepAside
  split
  · exact p.pending.streamReady_parts
  · exact ⟨rfl, rfl⟩

end Pump

namespace Chain

/-- All that a turn of a pump over a source can come to. -/
inductive SourceTurns (s : Source) (p : Pump) : Chain × Burst → Prop
  /-- Without polling, the consumer is told something. -/
  | delivers (p' : Pump) (notes : List Notice) (sig : Signal Unit)
      (hmove : p.Advances (p', notes, .deliver sig)) :
      SourceTurns s p (source s p', signalling notes (some sig))
  | goesOn (p' : Pump) (notes : List Notice) (hmove : p.Advances (p', notes, .again)) :
      SourceTurns s p (source s p', { notes := notes, goesOn := true })
  | parks (p' : Pump) (notes : List Notice) (hmove : p.Advances (p', notes, .park)) :
      SourceTurns s p (source s p', { notes := notes })
  /-- The source is let go. -/
  | leaves (p' : Pump) (notes : List Notice) (hmove : p.Advances (p', notes, .leave)) :
      SourceTurns s p (source s.unpark p', { notes := notes, emissions := [.hangUp] })
  /-- The source yields. -/
  | yields (s' : Source) (p' : Pump) (y : Yield) (r : Option (Except Cause Octets))
      (hpolls : p.Polls p') (hpoll : s.poll = (s', y)) (hyield : y.yielded? = some r) :
      SourceTurns s p
        (source s' (p'.receive r).1, signalling (p'.receive r).2.1 (p'.receive r).2.2)
  /-- There is nothing to do before the source has something. -/
  | sleeps (s' : Source) (p' : Pump) (wakesItself : Bool) (hpolls : p.Polls p')
      (hpoll : s.poll = (s', .pending wakesItself)) :
      SourceTurns s p
        (source s' (p'.stepAside wakesItself).1,
          { wakes := wakeIf (p'.stepAside wakesItself).2 0 })
  /-- The listener does something meanwhile. -/
  | acts (s' : Source) (p' : Pump) (a : Act) (hpolls : p.Polls p')
      (hpoll : s.poll = (s', .act a)) :
      SourceTurns s p (source s' p', { acts := [a], goesOn := true })

/-- Every turn of a pump over a source is in the list. -/
theorem sourceTurns_sourceTurn (s : Source) (p : Pump) : SourceTurns s p (sourceTurn s p) := by
  have hmove := p.advances_advance
  unfold sourceTurn
  rcases hadvance : p.advance with ⟨p', notes, move⟩
  rw [hadvance] at hmove
  cases move with
  | deliver sig => exact .delivers p' notes sig hmove
  | again => exact .goesOn p' notes hmove
  | park => exact .parks p' notes hmove
  | leave => exact .leaves p' notes hmove
  | fetch =>
      cases hmove with
      | polls _ hpolls =>
          rcases hpoll : s.poll with ⟨s', y⟩
          cases y with
          | item r => exact .yields s' p' (.item r) (some r) hpolls hpoll rfl
          | exhausted => exact .yields s' p' .exhausted none hpolls hpoll rfl
          | pending wakesItself => exact .sleeps s' p' wakesItself hpolls hpoll
          | act a => exact .acts s' p' a hpolls hpoll

theorem sourceTurns_of_sourceTurn {s : Source} {p : Pump} {r : Chain × Burst}
    (hturn : sourceTurn s p = r) : SourceTurns s p r :=
  hturn ▸ sourceTurns_sourceTurn s p

/-- After a turn the pump stands over a source as before. -/
theorem SourceTurns.source {s : Source} {p : Pump} {r : Chain × Burst}
    (h : SourceTurns s p r) : ∃ s' p', r.1 = .source s' p' := by
  cases h <;> exact ⟨_, _, rfl⟩

end Chain

/-! ## What a script has in store -/

namespace Item

/-- The chunks that a script yields before it fails. -/
def chunks : List Item → List Octets
  | [] => []
  | .chunk bytes :: rest => bytes :: chunks rest
  | .fail _ :: _ => []
  | .pause :: rest => chunks rest
  | .stepAside :: rest => chunks rest
  | .act _ :: rest => chunks rest

/-- The first failure of a script. -/
def failure? : List Item → Option Cause
  | [] => none
  | .chunk _ :: rest => failure? rest
  | .fail cause :: _ => some cause
  | .pause :: rest => failure? rest
  | .stepAside :: rest => failure? rest
  | .act _ :: rest => failure? rest

/-- A script that does not fail yields all its chunks, and goes on with what follows. -/
theorem chunks_append {front : List Item} (hfront : failure? front = none) (rest : List Item) :
    chunks (front ++ rest) = chunks front ++ chunks rest := by
  induction front with
  | nil => rfl
  | cons item front ih =>
      cases item with
      | chunk bytes => exact congrArg (bytes :: ·) (ih hfront)
      | fail cause => cases hfront
      | pause | stepAside | act a => exact ih hfront

theorem failure?_append {front : List Item} (hfront : failure? front = none) (rest : List Item) :
    failure? (front ++ rest) = failure? rest := by
  induction front with
  | nil => rfl
  | cons item front ih =>
      cases item with
      | fail cause => cases hfront
      | chunk bytes | pause | stepAside | act a => exact ih hfront

end Item

/-! ## Polls -/

namespace Source

/-- All that a step of a poll of a source can come to. -/
inductive Polled (s : Source) : Source → Yield → Prop
  | chunk (bytes : Octets) (rest : List Item) (hitems : s.items = .chunk bytes :: rest) :
      Polled s { s with items := rest, pulled := s.pulled + 1 } (.item (.ok bytes))
  | fails (cause : Cause) (rest : List Item) (hitems : s.items = .fail cause :: rest) :
      Polled s { s with items := rest, pulled := s.pulled + 1 } (.item (.error cause))
  | pauses (rest : List Item) (hitems : s.items = .pause :: rest) :
      Polled s { s with items := rest, parked := true } (.pending false)
  | stepsAside (rest : List Item) (hitems : s.items = .stepAside :: rest) :
      Polled s { s with items := rest } (.pending true)
  | acts (a : Act) (rest : List Item) (hitems : s.items = .act a :: rest) :
      Polled s { s with items := rest } (.act a)
  /-- It stays open at the end of its script. -/
  | waits (hitems : s.items = []) (hopen : s.isOpen = true) :
      Polled s { s with parked := true } (.pending false)
  | ends (hitems : s.items = []) (hclosed : s.isOpen = false) : Polled s s .exhausted

/-- Every step of a poll of a source is in the list. -/
theorem polled_poll (s : Source) : s.Polled s.poll.1 s.poll.2 := by
  unfold poll
  split
  · rename_i bytes rest hitems
    exact .chunk bytes rest hitems
  · rename_i cause rest hitems
    exact .fails cause rest hitems
  · rename_i rest hitems
    exact .pauses rest hitems
  · rename_i rest hitems
    exact .stepsAside rest hitems
  · rename_i a rest hitems
    exact .acts a rest hitems
  · rename_i hitems
    split
    · rename_i hopen
      exact .waits hitems hopen
    · rename_i hclosed
      exact .ends hitems (by simpa using hclosed)

theorem polled_of_poll {s s' : Source} {y : Yield} (hpoll : s.poll = (s', y)) :
    s.Polled s' y := by
  have hpolled := s.polled_poll
  rwa [hpoll] at hpolled

/-- A poll neither opens nor closes a source. -/
theorem Polled.isOpen {s s' : Source} {y : Yield} (h : s.Polled s' y) : s'.isOpen = s.isOpen := by
  cases h <;> rfl

/-- A source that follows a script has yielded some of its chunks, and has not failed. -/
def Past (script : List Item) (yielded : List Octets) (s : Source) : Prop :=
  ∃ front, script = front ++ s.items ∧ Item.chunks front = yielded ∧ Item.failure? front = none

variable {script : List Item} {yielded : List Octets} {s s' : Source} {y : Yield}

/-- What was yielded and what is still to come are the chunks of the script. -/
theorem Past.chunks (h : s.Past script yielded) :
    Item.chunks script = yielded ++ Item.chunks s.items := by
  rcases h with ⟨front, rfl, rfl, hnone⟩
  exact Item.chunks_append hnone s.items

/-- A source that has not failed fails where its script does. -/
theorem Past.failure (h : s.Past script yielded) :
    Item.failure? script = Item.failure? s.items := by
  rcases h with ⟨front, rfl, -, hnone⟩
  exact Item.failure?_append hnone s.items

/-- What happens to a source beside its script changes nothing of its past. -/
theorem Past.of_items (h : s.Past script yielded) (hitems : s'.items = s.items) :
    s'.Past script yielded := by
  rcases h with ⟨front, hscript, hchunks, hnone⟩
  exact ⟨front, by rw [hitems, hscript], hchunks, hnone⟩

/-- What is fed to a source comes last in its script. -/
theorem Past.feed (h : s.Past script yielded) {items : List Item}
    (hitems : s'.items = s.items ++ items) : s'.Past (script ++ items) yielded := by
  rcases h with ⟨front, hscript, hchunks, hnone⟩
  exact ⟨front, by rw [hitems, hscript, List.append_assoc], hchunks, hnone⟩

/-- What a poll uses up without failing is past. -/
theorem Past.advance (h : s.Past script yielded) {item : Item}
    (hitems : s.items = item :: s'.items) (hnone : Item.failure? [item] = none) :
    s'.Past script (yielded ++ Item.chunks [item]) := by
  rcases h with ⟨front, hscript, hchunks, hfront⟩
  refine ⟨front ++ [item], ?_, ?_, ?_⟩
  · rw [hscript, hitems, List.append_assoc]
    rfl
  · rw [Item.chunks_append hfront, hchunks]
  · rw [Item.failure?_append hfront, hnone]

/-- What a poll yields comes next in the script, and whatever else it comes to leaves the
past what it is. -/
theorem Past.polled (h : s.Past script yielded) (hpolled : s.Polled s' y) :
    match y with
    | .item (.ok chunk) => s'.Past script (yielded ++ [chunk])
    | .item (.error cause) =>
        ∃ front, script = front ++ .fail cause :: s'.items ∧ Item.chunks front = yielded ∧
          Item.failure? front = none
    | _ => s'.Past script yielded := by
  have hsilent : ∀ {item : Item}, s.items = item :: s'.items → Item.failure? [item] = none →
      Item.chunks [item] = [] → s'.Past script yielded := by
    intro item hitems hnone hnothing
    have hafter := h.advance hitems hnone
    rwa [hnothing, List.append_nil] at hafter
  cases hpolled with
  | chunk bytes rest hitems =>
      have hnone : Item.failure? [.chunk bytes] = none := rfl
      exact h.advance hitems hnone
  | fails cause rest hitems =>
      rcases h with ⟨front, hscript, hchunks, hnone⟩
      exact ⟨front, by rw [hscript, hitems], hchunks, hnone⟩
  | pauses rest hitems => exact hsilent hitems rfl rfl
  | stepsAside rest hitems => exact hsilent hitems rfl rfl
  | acts a rest hitems => exact hsilent hitems rfl rfl
  | waits hitems hopen => exact h.of_items rfl
  | ends hitems hclosed => exact h

end Source

/-- Neither does a turn of its pump. -/
theorem Chain.SourceTurns.isOpen {s s' : Source} {p p' : Pump} {burst : Burst}
    (h : SourceTurns s p (.source s' p', burst)) : s'.isOpen = s.isOpen := by
  cases h with
  | delivers _ notes sig hmove => rfl
  | goesOn _ notes hmove => rfl
  | parks _ notes hmove => rfl
  | leaves _ notes hmove => rfl
  | yields _ q y r hpolls hpoll hyield => exact (Source.polled_of_poll hpoll).isOpen
  | sleeps _ q wakesItself hpolls hpoll => exact (Source.polled_of_poll hpoll).isOpen
  | acts _ q a hpolls hpoll => exact (Source.polled_of_poll hpoll).isOpen

end CreditFlow
