/-!
# Octets

Byte strings, and the form in which they are written down: two lower-case
hexadecimal digits per byte, the higher half first, with nothing in between.

Main results:

- {lit}`Octets.hex_append`: the written form of a concatenation is the
  concatenation of the written forms.
- {lit}`Octets.hexDigits_length`: every byte takes exactly two digits.
-/

namespace CreditFlow

/-- A byte string. -/
abbrev Octets := List UInt8

namespace Octets

/-- The most bytes that a buffer can have. -/
def capacity : Nat := UInt64.size / 2 - 1

/-- What is told to whoever asks for a longer buffer. -/
def tooLong : String := "capacity overflow"

/-- The digit of a number below sixteen. -/
def hexDigit (n : Nat) : Char :=
  if n < 10 then Char.ofNat ('0'.toNat + n) else Char.ofNat ('a'.toNat + (n - 10))

/-- The digits of a byte string, two for each byte. -/
def hexDigits (o : Octets) : List Char :=
  o.flatMap fun b => [hexDigit (b.toNat / 16), hexDigit (b.toNat % 16)]

/-- The written form of a byte string. -/
def hex (o : Octets) : String :=
  String.ofList o.hexDigits

@[simp]
theorem hexDigits_append (a b : Octets) :
    hexDigits (a ++ b) = hexDigits a ++ hexDigits b := by
  simp [hexDigits]

/-- Every byte takes exactly two digits. -/
@[simp]
theorem hexDigits_length (o : Octets) : (hexDigits o).length = 2 * o.length := by
  induction o with
  | nil => rfl
  | cons b o ih =>
      simp only [hexDigits, List.flatMap_cons, List.length_append, List.length_cons,
        List.length_nil] at ih ⊢
      omega

/-- The written form of a concatenation is the concatenation of the written forms. -/
theorem hex_append (a b : Octets) : hex (a ++ b) = hex a ++ hex b := by
  simp [hex]

end Octets
end CreditFlow
