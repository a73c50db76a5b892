import CreditFlow.Options

/-!
# Settings

Options that are changed step by step, and the tokens that they refer to.

Main results:

- {lit}`Settings.apply_fire_options`: tokens have nothing to do with how often a
  blocked call looks at its own.
-/

namespace CreditFlow

/-- One change of settings. -/
inductive SettingStep where
  | pollMillis (n : Nat)
  /-- Take a new token. -/
  | newToken
  /-- Fire the token that the options refer to. -/
  | fire
  /-- Copy the options, fire the token through the first ones, and go on with the
  copy. -/
  | copyThenFire
  deriving DecidableEq, Repr

/-- Options, and the tokens that exist. -/
structure Settings where
  options : Options
  tokens : Tokens

namespace Settings

/-- The settings when nothing has been said. -/
def standard : Settings :=
  let issued := Tokens.issue {}
  ⟨.standard issued.1, issued.2⟩

/-- Whether the token of the options was fired. -/
def isInterrupted (s : Settings) : Bool :=
  s.tokens.isFired s.options.interrupt

/-- Carry out one change. -/
def apply (s : Settings) : SettingStep → Settings
  | .pollMillis n => { s with options := s.options.withPollMillis n }
  | .newToken =>
      let issued := s.tokens.issue
      ⟨s.options.withInterrupt issued.1, issued.2⟩
  | .fire => { s with tokens := s.tokens.fire s.options.interrupt }
  | .copyThenFire => { s with tokens := s.tokens.fire s.options.interrupt }

/-- The settings after several changes. -/
def applyAll (steps : List SettingStep) : Settings :=
  steps.foldl apply standard

/-- The debug text of the options. -/
def debug (s : Settings) : String :=
  s.options.debug s.isInterrupted

/-- Tokens have nothing to do with how often a blocked call looks at its own. -/
theorem apply_fire_options (s : Settings) : (s.apply .fire).options = s.options := rfl

end Settings
end CreditFlow
