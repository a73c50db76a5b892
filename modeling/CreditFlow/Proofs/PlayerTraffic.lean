import CreditFlow.Proofs.PlayerReader
import CreditFlow.Proofs.PumpTraffic

/-!
# A player under traffic

A player plays its script on a thread of its own, and any number of callers use the handle that
it has given out, from other threads and from inside the signals that the consumer receives.  A
control is put down first, then it takes effect, and then the thread is woken.  The thread looks
at its demand and makes up its mind about a signal in one section, and sends it in the next.
Between any two of these sections anything may happen.  *Traffic* is a player together with the
calls under way, and with what has come of the calls and of the script so far.

A request that the counter has no room for breaks off when it is to take effect.  One that was
made from inside a signal takes the thread of the player with it.

Main results:

- {lit}`PlayerTraffic.goOn_uninterrupted`, {lit}`PlayerTraffic.goOn_refused`: a call that nothing
  comes between is {lit}`Player.control`.
- {lit}`PlayerTraffic.turn_step`: all that an event can come to.
- {lit}`Player.advances_advance`: all that the thread can do next.
-/

namespace CreditFlow

/-! ## Scripts -/

namespace Step

/-- The signals of a script: an item for each chunk before its first end, and that end. -/
def signals : List Step → List (Signal Unit)
  | [] => []
  | .chunk bytes :: rest => .next bytes :: signals rest
  | .fail text :: _ => [.error (.test text)]
  | .complete :: _ => [.complete]

/-- All that a consumer is told of a script. -/
def told (script : List Step) : List (Signal Unit) :=
  .subscribed () :: signals script

end Step

/-! ## Moves of the thread -/

/-- What the thread of a player is about. -/
inductive Focus where
  /-- It comes to the next step of its script. -/
  | script
  /-- It has made up its mind to send a signal. -/
  | sending (s : Signal Unit)
  /-- The consumer has been given a signal, and has not returned. -/
  | consumer

/-- The signal that a thread is about to send. -/
def Focus.signals : Focus → List (Signal Unit)
  | sending s => [s]
  | _ => []

@[simp]
theorem Focus.signals_script : script.signals = [] := rfl

@[simp]
theorem Focus.signals_sending (s : Signal Unit) : (sending s).signals = [s] := rfl

@[simp]
theorem Focus.signals_consumer : consumer.signals = [] := rfl

/-- What a thread is about after a call that breaks off.  One from inside a signal takes it
along. -/
def Focus.afterBreak (inside : Bool) (f : Focus) : Focus :=
  if inside then script else f

@[simp]
theorem Focus.afterBreak_true (f : Focus) : f.afterBreak true = .script := rfl

@[simp]
theorem Focus.afterBreak_false (f : Focus) : f.afterBreak false = f := rfl

/-- What a thread is about after a move. -/
def Move.focus : Move → Focus
  | .deliver s => .sending s
  | _ => .script

namespace Player

/-- What the thread of a player has still to tell its consumer, if nobody cancels. -/
def coming (p : Player) : List (Signal Unit) :=
  match p.performance with
  | .fresh => Step.told p.script
  | .playing => Step.signals p.script
  | .leaving => []
  | .over => []

/-- What a call that breaks off leaves of a player.  One from inside a signal takes the thread
along. -/
def afterBreak (inside : Bool) (p : Player) : Player :=
  if inside then { p with performance := .over } else p

@[simp]
theorem afterBreak_true (p : Player) : p.afterBreak true = { p with performance := .over } := rfl

@[simp]
theorem afterBreak_false (p : Player) : p.afterBreak false = p := rfl

/-- It leaves alone all but the thread. -/
theorem afterBreak_frame (inside : Bool) (p : Player) :
    (p.afterBreak inside).script = p.script ∧
      (p.afterBreak inside).outstanding = p.outstanding ∧
      (p.afterBreak inside).cancelled = p.cancelled ∧
      (p.afterBreak inside).asleep = p.asleep ∧ (p.afterBreak inside).log = p.log := by
  cases inside <;> exact ⟨rfl, rfl, rfl, rfl, rfl⟩

/-- All that the thread of a player can do next. -/
inductive Advances (p : Player) : Player → Move → Prop
  /-- The consumer is greeted. -/
  | greets (hperformance : p.performance = .fresh) :
      Advances p { p with performance := .playing } (.deliver (.subscribed ()))
  /-- The script is through, and had no end. -/
  | exhausted (hperformance : p.performance = .playing) (hscript : p.script = []) :
      Advances p { p with performance := .leaving } .again
  /-- A cancellation is noticed. -/
  | stops (hperformance : p.performance = .playing) (hcancelled : p.cancelled = true) :
      Advances p { p with performance := .leaving } .again
  /-- The next step is a chunk that has no demand. -/
  | waits (bytes : Octets) (rest : List Step) (hperformance : p.performance = .playing)
      (hscript : p.script = .chunk bytes :: rest) (hopen : p.cancelled = false)
      (hdemand : p.outstanding = 0) : Advances p { p with asleep := true } .park
  /-- The next step is a chunk, and takes one item of the demand. -/
  | delivers (bytes : Octets) (rest : List Step) (hperformance : p.performance = .playing)
      (hscript : p.script = .chunk bytes :: rest) (hopen : p.cancelled = false)
      (hdemand : 0 < p.outstanding) :
      Advances p { p with script := rest, outstanding := p.outstanding - 1 }
        (.deliver (.next bytes))
  /-- The next step is an end. -/
  | ends (e : Finale) (rest : List Step) (hperformance : p.performance = .playing)
      (hscript : p.script = e.step :: rest) (hopen : p.cancelled = false) :
      Advances p { p with performance := .leaving } (.deliver e.signal)
  | leaves (hperformance : p.performance = .leaving) :
      Advances p { p with performance := .over } .leave
  | rests (hperformance : p.performance = .over) : Advances p p .park

/-- At an end the thread tells it, unless it finds that it was cancelled. -/
theorem advances_of_end {p : Player} {e : Finale} {rest : List Step}
    (hperformance : p.performance = .playing) (hscript : p.script = e.step :: rest) :
    p.Advances (p.finishWith e.signal).1 (p.finishWith e.signal).2.2 := by
  unfold finishWith
  by_cases hcancelled : p.cancelled = true
  · rw [if_pos hcancelled]
    exact .stops hperformance hcancelled
  · rw [if_neg hcancelled]
    exact .ends e rest hperformance hscript (by simpa using hcancelled)

/-- At a chunk the thread looks for a cancellation, and then at the demand. -/
theorem advances_of_chunk {p : Player} {bytes : Octets} {rest : List Step}
    (hperformance : p.performance = .playing) (hscript : p.script = .chunk bytes :: rest) :
    p.Advances p.advance.1 p.advance.2.2 := by
  cases hcancelled : p.cancelled with
  | true =>
      have hadvance : p.advance =
          ({ p with performance := .leaving }, [.playerCancelled], .again) := by
        simp [advance, hperformance, hscript, hcancelled]
      rw [hadvance]
      exact .stops hperformance hcancelled
  | false =>
      by_cases hdemand : p.outstanding = 0
      · have hadvance : p.advance = ({ p with asleep := true }, [], .park) := by
          simp [advance, hperformance, hscript, hcancelled, hdemand]
        rw [hadvance]
        exact .waits bytes rest hperformance hscript hcancelled hdemand
      · have hadvance : p.advance =
            ({ p with script := rest, outstanding := p.outstanding - 1 }, [],
              .deliver (.next bytes)) := by
          simp [advance, hperformance, hscript, hcancelled, hdemand]
        rw [hadvance]
        exact .delivers bytes rest hperformance hscript hcancelled (Nat.pos_of_ne_zero hdemand)

/-- Every move of the thread is in the list. -/
theorem advances_advance (p : Player) : p.Advances p.advance.1 p.advance.2.2 := by
  cases hperformance : p.performance with
  | fresh =>
      have hadvance : p.advance =
          ({ p with performance := .playing }, [], .deliver (.subscribed ())) := by
        simp only [advance, hperformance]
      rw [hadvance]
      exact .greets hperformance
  | leaving =>
      have hadvance : p.advance = ({ p with performance := .over }, [], .leave) := by
        simp only [advance, hperformance]
      rw [hadvance]
      exact .leaves hperformance
  | «over» =>
      have hadvance : p.advance = (p, [], .park) := by simp only [advance, hperformance]
      rw [hadvance]
      exact .rests hperformance
  | playing =>
      cases hscript : p.script with
      | nil =>
          have hadvance : p.advance = ({ p with performance := .leaving }, [], .again) := by
            simp only [advance, hperformance, hscript]
          rw [hadvance]
          exact .exhausted hperformance hscript
      | cons step rest =>
          cases step with
          | chunk bytes => exact advances_of_chunk hperformance hscript
          | fail text =>
              have hadvance : p.advance = p.finishWith (.error (.test text)) := by
                simp only [advance, hperformance, hscript]
              rw [hadvance]
              exact advances_of_end (e := .fail text) hperformance hscript
          | complete =>
              have hadvance : p.advance = p.finishWith .complete := by
                simp only [advance, hperformance, hscript]
              rw [hadvance]
              exact advances_of_end (e := .complete) hperformance hscript

/-! ### What a move comes to -/

section Moves

variable {p p' : Player} {move : Move}

/-- A move tells a beginning of what was to come, and leaves what follows it, unless the player
was cancelled. -/
theorem Advances.tells (h : p.Advances p' move) :
    move.focus.signals ++ p'.coming <+: p.coming ∧
      (p.cancelled = false → move.focus.signals ++ p'.coming = p.coming) := by
  cases h with
  | greets hperformance => simp [coming, hperformance, Move.focus, Step.told]
  | exhausted hperformance hscript =>
      simp [coming, hperformance, hscript, Move.focus, Step.signals]
  | stops hperformance hcancelled => simp [coming, Move.focus, hcancelled]
  | waits bytes rest hperformance hscript hopen hdemand =>
      simp [coming, hperformance, Move.focus]
  | delivers bytes rest hperformance hscript hopen hdemand =>
      simp [coming, hperformance, hscript, Move.focus, Step.signals]
  | ends e rest hperformance hscript hopen =>
      have hlast : Step.signals (e.step :: rest) = [e.signal] := by cases e <;> rfl
      simp [coming, hperformance, hscript, hlast, Move.focus]
  | leaves hperformance => simp [coming, hperformance, Move.focus]
  | rests hperformance => simp [coming, hperformance, Move.focus]

/-- An item that the thread makes up its mind to send is taken from the demand. -/
theorem Advances.spends (h : p.Advances p' move) :
    (move.focus.signals.filterMap Signal.chunk?).length + p'.outstanding = p.outstanding := by
  cases h with
  | delivers bytes rest hperformance hscript hopen hdemand =>
      simp only [Move.focus, Focus.signals_sending, Signal.chunk?, List.filterMap_cons,
        List.filterMap_nil, List.length_singleton]
      omega
  | ends e rest hperformance hscript hopen =>
      cases e <;> simp [Move.focus, Finale.signal, Signal.chunk?]
  | greets | exhausted | stops | waits | leaves | rests =>
      simp [Move.focus, Signal.chunk?]

/-- The thread does not touch what comes through the handle, and it greets but once. -/
theorem Advances.frame (h : p.Advances p' move) :
    p'.cancelled = p.cancelled ∧ p'.log = p.log ∧ p'.performance ≠ .fresh := by
  cases h with
  | waits bytes rest hperformance hscript hopen hdemand => simp [hperformance]
  | delivers bytes rest hperformance hscript hopen hdemand => simp [hperformance]
  | rests hperformance => simp [hperformance]
  | greets | exhausted | stops | ends | leaves => simp

/-- The thread falls asleep at a chunk that has no demand, and knows of no cancellation. -/
theorem Advances.sleeps (h : p.Advances p' move) (hawake : p.asleep = false)
    (hasleep : p'.asleep = true) :
    move.focus = .script ∧ p'.performance = .playing ∧
      (∃ bytes rest, p'.script = .chunk bytes :: rest) ∧
      p'.outstanding = 0 ∧ p'.cancelled = false := by
  cases h with
  | waits bytes rest hperformance hscript hopen hdemand =>
      exact ⟨rfl, hperformance, ⟨bytes, rest, hscript⟩, hdemand, hopen⟩
  | greets | exhausted | stops | delivers | ends | leaves | rests =>
      exact absurd hasleep (by simp [hawake])

/-- A thread that was cancelled after its greeting makes up its mind to nothing more. -/
theorem Advances.hushed (h : p.Advances p' move) (hgreeted : p.performance ≠ .fresh)
    (hcancelled : p.cancelled = true) : move.focus.signals = [] := by
  cases h with
  | greets hperformance => exact absurd hperformance hgreeted
  | delivers bytes rest hperformance hscript hopen hdemand => simp [hcancelled] at hopen
  | ends e rest hperformance hscript hopen => simp [hcancelled] at hopen
  | exhausted | stops | waits | leaves | rests => rfl

/-- A thread that is through sends nothing any more. -/
theorem Advances.left (h : p.Advances p' move) (hover : p'.performance = .over) :
    move.focus = .script := by
  cases h with
  | delivers bytes rest hperformance hscript hopen hdemand => simp [hperformance] at hover
  | greets | ends => simp at hover
  | exhausted | stops | waits | leaves | rests => rfl

/-- A thread that is awake and not through gets somewhere. -/
theorem Advances.ne_self (h : p.Advances p' move) (hawake : p.asleep = false)
    (hgoing : p.performance ≠ .over) (hscript : move.focus = .script) : p' ≠ p := by
  intro hsame
  have hperformance := congrArg Player.performance hsame
  have hslept := congrArg Player.asleep hsame
  cases h with
  | greets hfresh => simp [hfresh] at hperformance
  | exhausted hplaying hscript => simp [hplaying] at hperformance
  | stops hplaying hcancelled => simp [hplaying] at hperformance
  | waits bytes rest hplaying hscript hopen hdemand => simp [hawake] at hslept
  | delivers bytes rest hplaying hscript hopen hdemand => simp [Move.focus] at hscript
  | ends e rest hplaying hscript hopen => simp [hplaying] at hperformance
  | leaves hleaving => simp [hleaving] at hperformance
  | rests hover => exact hgoing hover

end Moves

/-! ### What a control comes to -/

section Controls

variable (c : Control) (p : Player)

/-- A control that reaches the counter touches the counter and the flag only. -/
theorem count_frame :
    (p.count c).script = p.script ∧ (p.count c).performance = p.performance ∧
      (p.count c).asleep = p.asleep ∧ (p.count c).log = p.log := by
  cases c with
  | request n =>
      simp only [count]
      split <;> exact ⟨rfl, rfl, rfl, rfl⟩
  | cancel => exact ⟨rfl, rfl, rfl, rfl⟩
  | release => exact ⟨rfl, rfl, rfl, rfl⟩

/-- The thread is told of a cancellation when there is one. -/
theorem count_cancelled : (p.count c).cancelled = true ↔ p.cancelled = true ∨ c = .cancel := by
  cases c with
  | request n =>
      simp only [count]
      split <;> simp
  | cancel => simp [count]
  | release => simp [count]

/-- What there is room for is added to the demand. -/
theorem count_outstanding {c : Control} {p : Player} (hroom : p.hasRoom c = true) :
    (p.count c).outstanding = p.outstanding + c.asks := by
  cases c with
  | request n => simp only [count, hroom, if_true, Control.asks]
  | cancel => rfl
  | release => rfl

/-- What there is room for does not go past the ceiling. -/
theorem le_of_hasRoom {c : Control} {p : Player} (hroom : p.hasRoom c = true)
    (hbound : p.outstanding ≤ Demand.ceiling) : p.outstanding + c.asks ≤ Demand.ceiling := by
  cases c with
  | request n => simpa [hasRoom, Control.asks] using hroom
  | cancel => exact hbound
  | release => exact hbound

/-- There is no room for what goes past the ceiling. -/
theorem hasRoom_eq_false {c : Control} {p : Player} (hfull : p.hasRoom c = false) :
    Demand.ceiling < p.outstanding + c.asks := by
  cases c with
  | request n => simpa [hasRoom, Control.asks] using hfull
  | cancel => cases hfull
  | release => cases hfull

end Controls

end Player

/-- What is put down adds to the sum of all requests what it asks for. -/
@[simp]
theorem ControlLog.total_hear (c : Control) (log : ControlLog) :
    (log.hear c).total = log.total + c.asks := by
  cases c with
  | request n => simp [total, hear, Control.asks]
  | cancel => rfl
  | release => rfl

/-! ## Calls under way -/

/-- How far a call through the handle has come. -/
inductive CallStage where
  /-- Nothing of it is done. -/
  | made
  /-- Its control is put down. -/
  | noted
  /-- Its control has taken effect, and the thread is still to be woken. -/
  | effective
  deriving DecidableEq

/-- A call through the handle of a player. -/
structure HandleCall where
  control : Control
  /-- It is made from inside a signal, on the thread of the player. -/
  inside : Bool
  stage : CallStage := .made
  deriving DecidableEq

/-- How many items a call asks for that was put down and has not taken effect. -/
def HandleCall.pending (call : HandleCall) : Nat :=
  if call.stage = .noted then call.control.asks else 0

/-- One thing that happens at a player under traffic. -/
inductive PlayerEvent where
  /-- The thread of the player goes on. -/
  | plays
  /-- Somebody sets about a request for `n` items.  The flag says that it is the consumer, from
  inside a signal. -/
  | requests (inside : Bool) (n : Nat)
  /-- Somebody sets about cancelling. -/
  | cancels (inside : Bool)
  /-- The call at a place goes on. -/
  | goesOn (place : Nat)

/-- A player, the calls under way, and what has come of them and of the script so far. -/
structure PlayerTraffic where
  player : Player
  focus : Focus := .script
  /-- The calls through the handle that are under way. -/
  calls : List HandleCall := []
  /-- The controls that have taken effect, in order. -/
  taken : List Control := []
  /-- The requests that the counter had no room for. -/
  refused : List Control := []
  /-- What the consumer has been told, in order. -/
  heard : List (Signal Unit) := []

namespace PlayerTraffic

/-- Nothing has happened yet. -/
def start (script : List Step) : PlayerTraffic :=
  { player := { script := script } }

/-- The consumer makes a call from inside a signal. -/
def isCalling (t : PlayerTraffic) : Bool :=
  t.calls.any HandleCall.inside

/-- Whether a call can be made.  There is no handle before the greeting, and the consumer makes
one call after the other. -/
def mayCall (inside : Bool) (t : PlayerTraffic) : Bool :=
  match inside, t.focus with
  | true, .consumer => !t.isCalling
  | true, _ => false
  | false, _ => !t.heard.isEmpty

/-- Somebody sets about a call. -/
def call (c : Control) (inside : Bool) (t : PlayerTraffic) : PlayerTraffic :=
  if t.mayCall inside then { t with calls := t.calls ++ [{ control := c, inside := inside }] }
  else t

/-- A request breaks off that the counter has no room for. -/
def breakOff (place : Nat) (call : HandleCall) (t : PlayerTraffic) : PlayerTraffic :=
  { t with
    player := t.player.afterBreak call.inside
    focus := t.focus.afterBreak call.inside
    calls := t.calls.eraseIdx place
    refused := t.refused ++ [call.control] }

/-- The call at a place goes on with its next section. -/
def goOn (place : Nat) (t : PlayerTraffic) : PlayerTraffic :=
  match t.calls[place]? with
  | none => t
  | some call =>
      match call.stage with
      | .made =>
          { t with
            player := t.player.putDown call.control
            calls := t.calls.set place { call with stage := .noted } }
      | .noted =>
          if t.player.hasRoom call.control then
            { t with
              player := t.player.count call.control
              calls := t.calls.set place { call with stage := .effective }
              taken := t.taken ++ [call.control] }
          else t.breakOff place call
      | .effective => { t with player := t.player.notify, calls := t.calls.eraseIdx place }

/-- The thread of the player goes on: it makes up its mind about the next step, sends what it has
made up its mind to send, or comes back from the consumer.  A thread that sleeps does not go on,
and neither does one that is in the middle of a call. -/
def play (t : PlayerTraffic) : PlayerTraffic :=
  match t.focus with
  | .script =>
      if t.player.asleep then t
      else
        { t with
          player := t.player.advance.1
          focus := t.player.advance.2.2.focus }
  | .sending s => { t with focus := .consumer, heard := t.heard ++ [s] }
  | .consumer => if t.isCalling then t else { t with focus := .script }

/-- What an event does.  What cannot happen at the moment does nothing. -/
def step (t : PlayerTraffic) : PlayerEvent → PlayerTraffic
  | .plays => t.play
  | .requests inside n => t.call (.request n) inside
  | .cancels inside => t.call .cancel inside
  | .goesOn place => t.goOn place

/-- What a list of events comes to. -/
def run (events : List PlayerEvent) (t : PlayerTraffic) : PlayerTraffic :=
  events.foldl step t

/-- The items that the consumer was given, in order. -/
def delivered (t : PlayerTraffic) : List Octets :=
  t.heard.filterMap Signal.chunk?

/-- How many items are granted by the requests that have taken effect. -/
def granted (t : PlayerTraffic) : Nat :=
  Control.total t.taken

/-- How many items are asked for by requests that were put down and have not taken effect. -/
def pending (t : PlayerTraffic) : Nat :=
  (t.calls.map HandleCall.pending).sum

/-- What the thread has told the consumer, or made up its mind to tell. -/
def decided (t : PlayerTraffic) : List (Signal Unit) :=
  t.heard ++ t.focus.signals

/-- The thread of the player is not through, and cannot go on. -/
def IsBlocked (t : PlayerTraffic) : Prop :=
  t.player.performance ≠ .over ∧ t.step .plays = t

@[simp]
theorem run_nil (t : PlayerTraffic) : t.run [] = t := rfl

theorem run_cons (e : PlayerEvent) (events : List PlayerEvent) (t : PlayerTraffic) :
    t.run (e :: events) = (t.step e).run events := rfl

/-! ## Sections of a call -/

section Sections

variable {t : PlayerTraffic} {place : Nat} {call : HandleCall}

/-- First the control of a call is put down. -/
theorem goOn_made (hplace : t.calls[place]? = some call) (hstage : call.stage = .made) :
    t.goOn place =
      { t with
        player := t.player.putDown call.control
        calls := t.calls.set place { call with stage := .noted } } := by
  simp only [goOn, hplace, hstage]

/-- Then it takes effect, if the counter has room for it. -/
theorem goOn_noted (hplace : t.calls[place]? = some call) (hstage : call.stage = .noted)
    (hroom : t.player.hasRoom call.control = true) :
    t.goOn place =
      { t with
        player := t.player.count call.control
        calls := t.calls.set place { call with stage := .effective }
        taken := t.taken ++ [call.control] } := by
  simp only [goOn, hplace, hstage, hroom, if_true]

/-- Else the call breaks off. -/
theorem goOn_without_room (hplace : t.calls[place]? = some call) (hstage : call.stage = .noted)
    (hfull : t.player.hasRoom call.control = false) :
    t.goOn place = t.breakOff place call := by
  simp only [goOn, hplace, hstage, hfull, Bool.false_eq_true, if_false]

/-- Last the thread is woken. -/
theorem goOn_effective (hplace : t.calls[place]? = some call) (hstage : call.stage = .effective) :
    t.goOn place = { t with player := t.player.notify, calls := t.calls.eraseIdx place } := by
  simp only [goOn, hplace, hstage]

end Sections

/-! ### Calls that nothing comes between -/

section Uninterrupted

variable {t : PlayerTraffic} {place : Nat} {c : Control} {inside : Bool}

/-- A call that nothing comes between is one control of the player. -/
theorem goOn_uninterrupted (hplace : t.calls[place]? = some { control := c, inside := inside })
    (hkept : c ≠ .release) (hroom : t.player.hasRoom c = true) :
    ((t.goOn place).goOn place).goOn place =
      { t with
        player := (t.player.control c).1
        calls := t.calls.eraseIdx place
        taken := t.taken ++ [c] } := by
  obtain ⟨hlt, -⟩ := List.getElem?_eq_some_iff.mp hplace
  have hfits : (t.player.putDown c).hasRoom c = true := by
    cases c <;> exact hroom
  have hnoted := goOn_noted
    (t := { t with
      player := t.player.putDown c
      calls := t.calls.set place { control := c, inside := inside, stage := .noted } })
    (List.getElem?_set_self hlt) rfl hfits
  have hlater : place < (t.calls.set place (HandleCall.mk c inside .noted)).length := by
    rwa [List.length_set]
  rw [Player.control_sections hroom hkept, goOn_made hplace rfl, hnoted,
    goOn_effective (List.getElem?_set_self hlater) rfl]
  simp only [List.eraseIdx_set_eq]

/-- So is one that the counter has no room for, unless it is made on the thread of the player. -/
theorem goOn_refused (hplace : t.calls[place]? = some { control := c, inside := false })
    (hfull : t.player.hasRoom c = false) :
    (t.goOn place).goOn place =
      { t with
        player := (t.player.control c).1
        calls := t.calls.eraseIdx place
        refused := t.refused ++ [c] } := by
  obtain ⟨hlt, -⟩ := List.getElem?_eq_some_iff.mp hplace
  have hlow : (t.player.putDown c).hasRoom c = false := by
    cases c <;> exact hfull
  have hcontrol : (t.player.control c).1 = t.player.putDown c := by
    cases c with
    | request n => simp [Player.control, hfull, Player.putDown]
    | cancel => cases hfull
    | release => cases hfull
  rw [hcontrol, goOn_made hplace rfl, goOn_without_room (List.getElem?_set_self hlt) rfl hlow]
  simp [breakOff, List.eraseIdx_set_eq]

end Uninterrupted

/-! ## Turns -/

/-- All that an event can come to. -/
inductive Turn (t : PlayerTraffic) : PlayerTraffic → Prop
  /-- It cannot happen at the moment. -/
  | stays : Turn t t
  /-- A call is set about. -/
  | calls (c : Control) (inside : Bool) (hmay : t.mayCall inside = true) :
      Turn t { t with calls := t.calls ++ [{ control := c, inside := inside }] }
  /-- The control of a call is put down. -/
  | notes (front rest : List HandleCall) (call : HandleCall)
      (hcalls : t.calls = front ++ call :: rest) (hstage : call.stage = .made) :
      Turn t
        { t with
          player := t.player.putDown call.control
          calls := front ++ { call with stage := .noted } :: rest }
  /-- It takes effect. -/
  | takes (front rest : List HandleCall) (call : HandleCall)
      (hcalls : t.calls = front ++ call :: rest) (hstage : call.stage = .noted)
      (hroom : t.player.hasRoom call.control = true) :
      Turn t
        { t with
          player := t.player.count call.control
          calls := front ++ { call with stage := .effective } :: rest
          taken := t.taken ++ [call.control] }
  /-- There is no room for it. -/
  | breaksOff (front rest : List HandleCall) (call : HandleCall)
      (hcalls : t.calls = front ++ call :: rest) (hstage : call.stage = .noted)
      (hfull : t.player.hasRoom call.control = false) :
      Turn t
        { t with
          player := t.player.afterBreak call.inside
          focus := t.focus.afterBreak call.inside
          calls := front ++ rest
          refused := t.refused ++ [call.control] }
  /-- The thread is woken for it. -/
  | notifies (front rest : List HandleCall) (call : HandleCall)
      (hcalls : t.calls = front ++ call :: rest) (hstage : call.stage = .effective) :
      Turn t { t with player := t.player.notify, calls := front ++ rest }
  /-- The thread comes to the next step of its script. -/
  | advances (p : Player) (move : Move) (hfocus : t.focus = .script)
      (hawake : t.player.asleep = false) (hadvances : t.player.Advances p move) :
      Turn t { t with player := p, focus := move.focus }
  /-- The thread sends what it has made up its mind to send. -/
  | sends (s : Signal Unit) (hfocus : t.focus = .sending s) :
      Turn t { t with focus := .consumer, heard := t.heard ++ [s] }
  /-- The consumer returns. -/
  | returns (hfocus : t.focus = .consumer) (hidle : t.isCalling = false) :
      Turn t { t with focus := .script }

/-- What stands at a place of a list, and what is left when it is replaced or taken out. -/
theorem exists_split_at {α : Type} {xs : List α} {i : Nat} {x : α} (hplace : xs[i]? = some x) :
    ∃ front rest, xs = front ++ x :: rest ∧ (∀ y, xs.set i y = front ++ y :: rest) ∧
      xs.eraseIdx i = front ++ rest := by
  obtain ⟨hlt, rfl⟩ := List.getElem?_eq_some_iff.mp hplace
  refine ⟨xs.take i, xs.drop (i + 1), ?_, fun y => ?_, List.eraseIdx_eq_take_drop_succ xs i⟩
  · rw [List.getElem_cons_drop, List.take_append_drop]
  · rw [List.set_eq_take_append_cons_drop, if_pos hlt]

/-- Setting about a call is in the list. -/
theorem turn_call (c : Control) (inside : Bool) (t : PlayerTraffic) :
    t.Turn (t.call c inside) := by
  unfold call
  split
  · rename_i hmay
    exact .calls c inside hmay
  · exact .stays

/-- A section of a call is in the list. -/
theorem turn_goOn (place : Nat) (t : PlayerTraffic) : t.Turn (t.goOn place) := by
  cases hplace : t.calls[place]? with
  | none =>
      have hstays : t.goOn place = t := by simp only [goOn, hplace]
      rw [hstays]
      exact .stays
  | some call =>
      obtain ⟨front, rest, hcalls, hset, herase⟩ := exists_split_at hplace
      cases hstage : call.stage with
      | made =>
          rw [goOn_made hplace hstage, hset]
          exact .notes front rest call hcalls hstage
      | noted =>
          cases hroom : t.player.hasRoom call.control with
          | true =>
              rw [goOn_noted hplace hstage hroom, hset]
              exact .takes front rest call hcalls hstage hroom
          | false =>
              rw [goOn_without_room hplace hstage hroom, breakOff, herase]
              exact .breaksOff front rest call hcalls hstage hroom
      | effective =>
          rw [goOn_effective hplace hstage, herase]
          exact .notifies front rest call hcalls hstage

/-- A move of the thread is in the list. -/
theorem turn_play (t : PlayerTraffic) : t.Turn t.play := by
  unfold play
  cases hfocus : t.focus with
  | script =>
      cases hasleep : t.player.asleep with
      | true => exact .stays
      | false => exact .advances _ _ hfocus hasleep (Player.advances_advance t.player)
  | sending s => exact .sends s hfocus
  | consumer =>
      cases hcalling : t.isCalling with
      | true => exact .stays
      | false => exact .returns hfocus hcalling

/-- Every event comes to a turn. -/
theorem turn_step (t : PlayerTraffic) (e : PlayerEvent) : t.Turn (t.step e) := by
  cases e with
  | plays => exact turn_play t
  | requests inside n => exact turn_call (.request n) inside t
  | cancels inside => exact turn_call .cancel inside t
  | goesOn place => exact turn_goOn place t

end PlayerTraffic
end CreditFlow
