/-!
# Demand

The credit that a consumer has granted and that has not been used yet, counted
in items.  The counter has a ceiling: a grant that would pass it leaves the
counter at the ceiling, so a consumer that asked for practically everything may
ask again without losing what it had.

Main results:

- {lit}`Demand.le_grant`: a grant never lowers the demand.
- {lit}`Demand.grant_pos`: after a grant of a positive number there is demand.
- {lit}`Demand.grant_items_of_le`: below the ceiling a grant is exact.
-/

namespace CreditFlow

/-- The largest demand that can be kept: sixty-four bits. -/
def Demand.ceiling : Nat := UInt64.size - 1

/-- Granted and unused items, at most the ceiling. -/
structure Demand where
  items : Nat
  le_ceiling : items ≤ Demand.ceiling
  deriving DecidableEq

namespace Demand

instance : Repr Demand where
  reprPrec d p := reprPrec d.items p

/-- No demand. -/
def zero : Demand := ⟨0, Nat.zero_le _⟩

instance : Inhabited Demand := ⟨zero⟩

/-- Add a grant of `n` items, up to the ceiling. -/
def grant (n : Nat) (d : Demand) : Demand :=
  ⟨min (d.items + n) ceiling, Nat.min_le_right _ _⟩

/-- Use one item of the demand; no demand stays no demand. -/
def spend (d : Demand) : Demand :=
  ⟨d.items - 1, Nat.le_trans (Nat.sub_le _ _) d.le_ceiling⟩

@[ext]
theorem ext {d e : Demand} (h : d.items = e.items) : d = e := by
  cases d
  cases e
  cases h
  rfl

@[simp]
theorem zero_items : zero.items = 0 := rfl

@[simp]
theorem grant_items (n : Nat) (d : Demand) :
    (d.grant n).items = min (d.items + n) ceiling := rfl

@[simp]
theorem spend_items (d : Demand) : d.spend.items = d.items - 1 := rfl

/-- A grant never lowers the demand. -/
theorem le_grant (n : Nat) (d : Demand) : d.items ≤ (d.grant n).items := by
  have h := d.le_ceiling
  simp only [grant_items]
  omega

/-- After a grant of a positive number there is demand. -/
theorem grant_pos {n : Nat} (hn : 0 < n) (d : Demand) : 0 < (d.grant n).items := by
  simp only [grant_items, ceiling, UInt64.size]
  omega

/-- Below the ceiling a grant is exact. -/
theorem grant_items_of_le {n : Nat} {d : Demand} (h : d.items + n ≤ ceiling) :
    (d.grant n).items = d.items + n := by
  simp only [grant_items]
  omega

end Demand
end CreditFlow
