import CreditFlow.Rehearsal.Cue

/-!
# Listener

A consumer whose behaviour is written down beforehand: what it does when it is
greeted, at each item, and at the end.  It keeps the handle it is given until it
lets go of it.

Main results:

- {lit}`Listener.perform_of_not_holds`: without a handle a listener controls nothing.
-/

namespace CreditFlow

/-- One thing that a listener does. -/
inductive Act where
  | control (c : Control)
  /-- Fire the interrupt token. -/
  | interrupt
  deriving DecidableEq, Repr

/-- A consumer that follows a script. -/
structure Listener where
  onSubscribe : List Act := []
  /-- A script for each item. -/
  onNext : List (List Act) := []
  /-- What it does at the first end that it hears of. -/
  onEnd : List Act := []
  /-- It keeps the handle it was given. -/
  holds : Bool := false
  deriving DecidableEq, Repr

namespace Listener

/-- Do one thing.  A control without a handle is nothing. -/
def perform (a : Act) (l : Listener) : Listener × List (Reaction Unit) :=
  match a with
  | .interrupt => (l, [.interrupt])
  | .control c =>
      if l.holds then ({ l with holds := l.holds && c ≠ .release }, [.control () c]) else (l, [])

/-- Do several things in order. -/
def performAll : List Act → Listener → Listener × List (Reaction Unit)
  | [], l => (l, [])
  | a :: rest, l =>
      let first := l.perform a
      let others := performAll rest first.1
      (others.1, first.2 ++ others.2)

/-- Hear a signal: the call is put down, then the script for it is followed. -/
def hear (s : Signal Unit) (l : Listener) : Listener × Call × List (Reaction Unit) :=
  match s with
  | .subscribed _ =>
      let played := performAll l.onSubscribe { l with onSubscribe := [], holds := true }
      (played.1, .subscribed, played.2)
  | .next chunk =>
      let played := performAll (l.onNext.headD []) { l with onNext := l.onNext.tail }
      (played.1, .next chunk, played.2)
  | .error cause =>
      let played := performAll l.onEnd { l with onEnd := [] }
      (played.1, .error cause, played.2)
  | .complete =>
      let played := performAll l.onEnd { l with onEnd := [] }
      (played.1, .complete, played.2)

/-- Without a handle a listener controls nothing. -/
theorem perform_of_not_holds {l : Listener} (hholds : l.holds = false) (c : Control) :
    l.perform (.control c) = (l, []) := by
  simp [perform, hholds]

end Listener
end CreditFlow
