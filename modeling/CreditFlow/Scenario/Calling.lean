import CreditFlow.Scenario.Reply

/-!
# Calls that may have to wait

A call on a world is one step if it finds what it needs, and otherwise waits until
someone else has changed the world.  In a scenario it is written down what the
others will do: they act one at a time, and only while a call waits.

Main results:

- {lit}`await_of_ready`: a call that need not wait does not let anyone else act.
- {lit}`await_of_waiting`: a call that has to wait lets one other act, and tries
  again.
-/

namespace CreditFlow

/-- A world, and what others will do to it while a call waits. -/
structure Assisted (ω : Type) where
  world : ω
  helpers : List (ω → ω) := []

/-- The same world, in which nobody else will act. -/
def Assisted.alone {ω : Type} (s : Assisted ω) : Assisted ω :=
  { s with helpers := [] }

/-- Something that is done in a world in which others act while it waits.  Without an
answer it waits for ever. -/
abbrev Calling (ω α : Type) : Type := StateT (Assisted ω) Option α

variable {ω α : Type}

/-- Try a call until it need not wait, with the help of others. -/
def awaitIn (call : ω → Option (α × ω)) : List (ω → ω) → ω → Option (α × Assisted ω)
  | helpers, w =>
      match call w with
      | some answer => some (answer.1, ⟨answer.2, helpers⟩)
      | none =>
          match helpers with
          | [] => none
          | helper :: rest => awaitIn call rest (helper w)

/-- Wait for a call. -/
def await (call : ω → Option (α × ω)) : Calling ω α :=
  fun s => awaitIn call s.helpers s.world

/-- Something that is done at once. -/
def atOnce (change : ω → α × ω) : Calling ω α :=
  fun s => some ((change s.world).1, { s with world := (change s.world).2 })

/-- Carry out a call whose answer is a reply.  Others do what is left to them when the
call is over. -/
def Calling.carry (call : Calling ω Reply) (helpers : List (ω → ω)) (w : ω) : Reply × ω :=
  match call ⟨w, helpers⟩ with
  | some answer => (answer.1, answer.2.helpers.foldl (fun w helper => helper w) answer.2.world)
  | none => (.stuck, helpers.foldl (fun w helper => helper w) w)

/-- A call that need not wait does not let anyone else act. -/
theorem await_of_ready {call : ω → Option (α × ω)} {s : Assisted ω} {answer : α × ω}
    (hready : call s.world = some answer) :
    await call s = some (answer.1, { s with world := answer.2 }) := by
  unfold await awaitIn
  simp [hready]

/-- A call that has to wait lets one other act, and tries again. -/
theorem await_of_waiting {call : ω → Option (α × ω)} {w : ω} {helper : ω → ω}
    {rest : List (ω → ω)} (hwait : call w = none) :
    await call ⟨w, helper :: rest⟩ = await call ⟨helper w, rest⟩ := by
  unfold await
  rw [awaitIn.eq_def]
  simp [hwait]

end CreditFlow
