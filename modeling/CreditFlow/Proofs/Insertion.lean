import Mathlib.Data.List.Basic
import Mathlib.Tactic.Common

/-!
# Calls that are put into a run

Two runs of one party side by side: one as it was, and one into which further calls were put
and in which some calls were made in another way.  If a call that is put in leaves everything
that matters as it was, and a call that is made in another way comes to the same, then the
runs end alike, and every call that stands in both of them is answered the same.

What matters is a relation between states.  It is enough to look at one step at a time: two
states that are alike answer an event alike and stay alike.

Main results:

- {lit}`exists_split_append_singleton`: the places of a run that has gone on by one event.
- {lit}`Edit.run_alike`: an edited run ends like the run as it was, and what was kept is
  answered the same.
-/

namespace CreditFlow

/-! ## Places of a run -/

/-- A place of a run that has gone on by one event is a place of the run as it was, or the
event is the new one. -/
theorem exists_split_append_singleton {ε : Type} {p : List ε → ε → Prop} {events : List ε}
    {e : ε} :
    (∃ before x later, events ++ [e] = before ++ x :: later ∧ p before x) ↔
      (∃ before x later, events = before ++ x :: later ∧ p before x) ∨ p events e := by
  constructor
  · rintro ⟨before, x, later, hsplit, hx⟩
    rcases List.eq_nil_or_concat later with rfl | ⟨rest, last, rfl⟩
    · obtain ⟨rfl, hlast⟩ := List.append_inj' hsplit rfl
      cases hlast
      exact .inr hx
    · rw [List.concat_eq_append, ← List.cons_append, ← List.append_assoc] at hsplit
      exact .inl ⟨before, x, rest, (List.append_inj' hsplit rfl).1, hx⟩
  · rintro (⟨before, x, later, rfl, hx⟩ | hx)
    · exact ⟨before, x, later ++ [e], by simp, hx⟩
    · exact ⟨events, e, [], rfl, hx⟩

/-! ## Parties and edits -/

/-- A party that is in some state, and answers whatever happens to it. -/
structure Party (σ ε ρ : Type) where
  step : σ → ε → σ
  reply : σ → ε → ρ

namespace Party

variable {σ ε ρ : Type} (p : Party σ ε ρ)

/-- Where a list of events leads. -/
def run (events : List ε) (t : σ) : σ :=
  events.foldl p.step t

/-- What is answered on the way. -/
def replies : List ε → σ → List ρ
  | [], _ => []
  | e :: events, t => p.reply t e :: replies events (p.step t e)

end Party

/-- One place of a run that was edited. -/
inductive Edit (ε : Type) where
  /-- An event is put in. -/
  | inserts (e : ε)
  /-- An event stays as it was. -/
  | keeps (e : ε)
  /-- An event happens in another way. -/
  | alters (e e' : ε)

namespace Edit

variable {σ ε ρ : Type}

/-- The run as it was. -/
def before : List (Edit ε) → List ε
  | [] => []
  | .inserts _ :: edits => before edits
  | .keeps e :: edits => e :: before edits
  | .alters e _ :: edits => e :: before edits

/-- The run as it was edited. -/
def after : List (Edit ε) → List ε
  | [] => []
  | .inserts e :: edits => e :: after edits
  | .keeps e :: edits => e :: after edits
  | .alters _ e' :: edits => e' :: after edits

/-- What is answered in the edited run to the events that were not put in. -/
def kept (p : Party σ ε ρ) : List (Edit ε) → σ → List ρ
  | [], _ => []
  | .inserts e :: edits, t => kept p edits (p.step t e)
  | .keeps e :: edits, t => p.reply t e :: kept p edits (p.step t e)
  | .alters _ e' :: edits, t => p.reply t e' :: kept p edits (p.step t e')

/-- Every edit is allowed where it stands in the edited run: an event that is put in is
`idle` there, and one that happens in another way is `like` the one as it was. -/
def Allowed (p : Party σ ε ρ) (idle : σ → ε → Prop) (like : σ → ε → ε → Prop) :
    List (Edit ε) → σ → Prop
  | [], _ => True
  | .inserts e :: edits, t => idle t e ∧ Allowed p idle like edits (p.step t e)
  | .keeps e :: edits, t => Allowed p idle like edits (p.step t e)
  | .alters e e' :: edits, t => like t e e' ∧ Allowed p idle like edits (p.step t e')

section Alike

variable {p : Party σ ε ρ} {R : σ → σ → Prop} {idle : σ → ε → Prop}
  {like : σ → ε → ε → Prop}

/-- An edited run ends like the run as it was, and what was kept is answered the same. -/
theorem run_alike
    (hstep : ∀ {t u : σ} (e : ε), R t u →
      p.reply t e = p.reply u e ∧ R (p.step t e) (p.step u e))
    (hidle : ∀ {t u : σ} {e : ε}, R t u → idle u e → R t (p.step u e))
    (hlike : ∀ {u : σ} {e e' : ε}, like u e e' →
      p.reply u e = p.reply u e' ∧ p.step u e = p.step u e')
    {edits : List (Edit ε)} {t u : σ} (halike : R t u) (hallowed : Allowed p idle like edits u) :
    R (p.run (before edits) t) (p.run (after edits) u) ∧
      p.replies (before edits) t = kept p edits u := by
  induction edits generalizing t u with
  | nil => exact ⟨halike, rfl⟩
  | cons edit edits ih =>
      cases edit with
      | inserts e => exact ih (hidle halike hallowed.1) hallowed.2
      | keeps e =>
          obtain ⟨hreply, hafter⟩ := hstep e halike
          obtain ⟨hrun, hreplies⟩ := ih hafter hallowed
          exact ⟨hrun, congrArg₂ List.cons hreply hreplies⟩
      | alters e e' =>
          obtain ⟨hreply, hafter⟩ := hstep e halike
          obtain ⟨hanswer, hsame⟩ := hlike hallowed.1
          rw [hsame] at hafter
          obtain ⟨hrun, hreplies⟩ := ih hafter hallowed.2
          exact ⟨hrun, congrArg₂ List.cons (hreply.trans hanswer) hreplies⟩

end Alike

end Edit
end CreditFlow
