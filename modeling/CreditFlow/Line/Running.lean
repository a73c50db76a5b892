import CreditFlow.Line.Work

/-!
# Running a line

A line is run move by move until it is idle.  Since every move uses some of the work
up that is left in the line, this always comes to an end.

Main results:

- {lit}`Line.settle_of_idle`: an idle line is left alone.
- {lit}`Line.settle_of_tick`: a line that can move is run by making a move and running
  what it leads to.
- {lit}`Line.settle_isIdle`: a line that was run is idle.
- {lit}`Line.settle_settle`: running a line twice is running it once.
-/

namespace CreditFlow
namespace Line

/-- Run a line until it is idle. -/
def settle (l : Line) : Line :=
  match _htick : l.tick with
  | none => l
  | some moved => moved.settle
termination_by l.work
decreasing_by exact tick_work (by assumption)

/-- An idle line is left alone. -/
theorem settle_of_idle {l : Line} (hidle : l.isIdle = true) : l.settle = l := by
  have htick := (tick_eq_none_iff l).mpr hidle
  rw [settle]
  split
  · rfl
  · simp_all

/-- Running a line that can move is making a move and running what it leads to. -/
theorem settle_of_tick {l moved : Line} (htick : l.tick = some moved) :
    l.settle = moved.settle := by
  rw [settle]
  split <;> simp_all

/-- A line that was run is idle. -/
theorem settle_isIdle (l : Line) : l.settle.isIdle = true := by
  fun_induction settle l with
  | case1 l htick => exact (tick_eq_none_iff l).mp htick
  | case2 l moved htick ih => exact ih

/-- Running a line twice is running it once. -/
theorem settle_settle (l : Line) : l.settle.settle = l.settle :=
  settle_of_idle (settle_isIdle l)

/-- A property that every move keeps is kept by running. -/
theorem settle_keeps {holds : Line → Prop}
    (hmove : ∀ {l moved : Line}, holds l → l.tick = some moved → holds moved)
    {l : Line} (hl : holds l) : holds l.settle := by
  fun_induction settle l with
  | case1 l htick => exact hl
  | case2 l moved htick ih => exact ih (hmove hl htick)

end Line
end CreditFlow
