import CreditFlow.Text.TimeSpan

/-!
# Options

What both bridges are made with: the token that interrupts a blocked call, and
how often a blocked call looks at it.  Copies of the options share the token, so
firing it through one copy is seen through every other.

Main results:

- {lit}`Tokens.isFired_fire`: a token that was fired stays fired, and firing one
  token fires no other.
- {lit}`Options.withInterrupt_pollMillis`, {lit}`Options.withPollMillis_interrupt`:
  the two settings are independent.
-/

namespace CreditFlow

/-- The identity of an interrupt token. -/
abbrev Token := Nat

/-- The tokens that have been handed out so far, and those that were fired. -/
structure Tokens where
  fresh : Token := 0
  fired : List Token := []
  deriving Repr

namespace Tokens

/-- Hand out a new token, which has not been fired. -/
def issue (t : Tokens) : Token × Tokens :=
  (t.fresh, { t with fresh := t.fresh + 1 })

/-- Fire a token.  Firing it again changes nothing that can be seen. -/
def fire (token : Token) (t : Tokens) : Tokens :=
  { t with fired := token :: t.fired }

/-- Whether a token was fired. -/
def isFired (t : Tokens) (token : Token) : Bool :=
  t.fired.contains token

/-- Firing a token is seen through that token only, and for good. -/
theorem isFired_fire (t : Tokens) (token other : Token) :
    (t.fire token).isFired other = (other == token || t.isFired other) := by
  simp only [fire, isFired, List.contains_cons]

end Tokens

/-- The options of a bridge. -/
structure Options where
  interrupt : Token
  pollMillis : Nat
  deriving DecidableEq, Repr

namespace Options

/-- The options that are used when nothing is said: a look every fifty milliseconds. -/
def standard (interrupt : Token) : Options := ⟨interrupt, 50⟩

/-- Set the interrupt token. -/
def withInterrupt (interrupt : Token) (o : Options) : Options :=
  { o with interrupt := interrupt }

/-- Set how often a blocked call looks at the token, in milliseconds. -/
def withPollMillis (n : Nat) (o : Options) : Options :=
  { o with pollMillis := n }

/-- The debug text of options whose token was fired or not. -/
def debug (fired : Bool) (o : Options) : String :=
  "BridgeOptions \x7b interrupt: CancellationToken \x7b is_cancelled: " ++
    (if fired then "true" else "false") ++ " \x7d, poll_interval: " ++
    Text.timeSpan (o.pollMillis * 1000000) ++ " \x7d"

@[simp]
theorem withInterrupt_pollMillis (t : Token) (o : Options) :
    (o.withInterrupt t).pollMillis = o.pollMillis := rfl

@[simp]
theorem withPollMillis_interrupt (n : Nat) (o : Options) :
    (o.withPollMillis n).interrupt = o.interrupt := rfl

end Options
end CreditFlow
