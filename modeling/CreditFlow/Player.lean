import CreditFlow.Pump
import CreditFlow.Recorder

/-!
# Player

A publisher that plays a fixed script on a thread of its own.  Chunks wait for
demand; an end is sent without it.  A cancellation stops the script before its next
step.

The demand of a player is a plain counter of sixty-four bits.  A request that it has
no room for is put down, and does nothing else.

Main results:

- {lit}`Player.control_log`: every control is put down, whatever else it does.
- {lit}`Player.control_outstanding_le`: the counter never passes its ceiling.
- {lit}`Player.control_of_full`: a request without room leaves the demand as it was.
- {lit}`Player.advance_next`: a chunk is signalled only with demand.
-/

namespace CreditFlow

/-- One step of a script. -/
inductive Step where
  /-- Signal a chunk; waits for demand. -/
  | chunk (bytes : Octets)
  /-- Fail with a message. -/
  | fail (text : String)
  | complete
  deriving DecidableEq, Repr

/-- Where the thread of a player stands. -/
inductive Performance where
  | fresh
  | playing
  | leaving
  | over
  deriving DecidableEq, Repr

/-- The state of a player. -/
structure Player where
  script : List Step
  performance : Performance := .fresh
  /-- Items granted and not yet signalled. -/
  outstanding : Nat := 0
  cancelled : Bool := false
  asleep : Bool := false
  log : ControlLog := {}
  deriving DecidableEq, Repr

namespace Player

/-- Whether the counter of the player has room for a control. -/
def hasRoom (c : Control) (p : Player) : Bool :=
  match c with
  | .request n => p.outstanding + n ≤ Demand.ceiling
  | _ => true

/-- A control that comes through the handle.  The flag says whether the thread was woken. -/
def control (c : Control) (p : Player) : Player × Bool :=
  let p' := { p with log := p.log.hear c }
  match c with
  | .request n =>
      if p.hasRoom c then
        ({ p' with outstanding := p.outstanding + n, asleep := false }, p.asleep)
      else (p', false)
  | .cancel => ({ p' with cancelled := true, asleep := false }, p.asleep)
  | .release => (p', false)

/-- Send an end, unless the stream was cancelled. -/
def finishWith (s : Signal Unit) (p : Player) : Player × List Notice × Move :=
  ({ p with performance := .leaving }, [], if p.cancelled then .again else .deliver s)

/-- What the thread does next. -/
def advance (p : Player) : Player × List Notice × Move :=
  match p.performance with
  | .fresh => ({ p with performance := .playing }, [], .deliver (.subscribed ()))
  | .playing =>
      match p.script with
      | [] => ({ p with performance := .leaving }, [], .again)
      | .chunk bytes :: rest =>
          if p.cancelled then ({ p with performance := .leaving }, [.playerCancelled], .again)
          else if p.outstanding = 0 then ({ p with asleep := true }, [], .park)
          else
            ({ p with script := rest, outstanding := p.outstanding - 1 }, [],
              .deliver (.next bytes))
      | .fail text :: _ => p.finishWith (.error (.test text))
      | .complete :: _ => p.finishWith .complete
  | .leaving => ({ p with performance := .over }, [], .leave)
  | .over => (p, [], .park)

/-- A chunk is signalled only with demand, and not after a cancellation. -/
theorem advance_next {p : Player} {bytes : Octets}
    (hdeliver : p.advance.2.2 = .deliver (.next bytes)) :
    0 < p.outstanding ∧ p.cancelled = false := by
  unfold advance at hdeliver
  split at hdeliver
  · simp at hdeliver
  · split at hdeliver
    · simp at hdeliver
    · split at hdeliver
      · simp at hdeliver
      · split at hdeliver
        · simp at hdeliver
        · rename_i hopen hpos
          exact ⟨Nat.pos_of_ne_zero hpos, by simpa using hopen⟩
    · simp only [finishWith] at hdeliver
      split at hdeliver <;> simp at hdeliver
    · simp only [finishWith] at hdeliver
      split at hdeliver <;> simp at hdeliver
  · simp at hdeliver
  · simp at hdeliver

/-- Every control is put down, whatever else it does. -/
@[simp]
theorem control_log (c : Control) (p : Player) : (p.control c).1.log = p.log.hear c := by
  cases c with
  | request n => simp only [control]; split <;> rfl
  | cancel => rfl
  | release => rfl

/-- A control moves neither the script nor the thread. -/
theorem control_script (c : Control) (p : Player) :
    (p.control c).1.script = p.script ∧ (p.control c).1.performance = p.performance := by
  cases c with
  | request n => simp only [control]; split <;> exact ⟨rfl, rfl⟩
  | cancel => exact ⟨rfl, rfl⟩
  | release => exact ⟨rfl, rfl⟩

/-- A request without room leaves the demand as it was. -/
theorem control_of_full {c : Control} {p : Player} (hfull : p.hasRoom c = false) :
    (p.control c).1.outstanding = p.outstanding := by
  cases c with
  | request n => simp [control, hfull]
  | cancel => rfl
  | release => rfl

/-- The counter never passes its ceiling. -/
theorem control_outstanding_le {p : Player} (hbound : p.outstanding ≤ Demand.ceiling)
    (c : Control) : (p.control c).1.outstanding ≤ Demand.ceiling := by
  by_cases hroom : p.hasRoom c = true
  · cases c with
    | request n =>
        simp only [control, hroom, if_true]
        simpa [hasRoom] using hroom
    | cancel => exact hbound
    | release => exact hbound
  · rw [control_of_full (by simpa using hroom)]
    exact hbound

end Player
end CreditFlow
