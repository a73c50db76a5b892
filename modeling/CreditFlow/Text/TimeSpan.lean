/-!
# Time spans

The written form of a span of time.  The unit is the largest of seconds,
milliseconds, microseconds and nanoseconds of which the span has at least one;
the rest follows as a decimal fraction without trailing zeros.  The empty span is
{lit}`0ns`.

Main results:

- {lit}`Text.trimZeros_append_zeros`: trailing zeros of a fraction never show.
-/

namespace CreditFlow
namespace Text

/-- A fraction's digits without the zeros at its end. -/
def trimZeros (digits : List Char) : List Char :=
  (digits.reverse.dropWhile (· = '0')).reverse

/-- The last `width` decimal digits of a number, with leading zeros. -/
def fixedDigits : Nat → Nat → List Char
  | 0, _ => []
  | width + 1, n => fixedDigits width (n / 10) ++ [Nat.digitChar (n % 10)]

/-- A number of `unit`s and a rest below one, written with its unit.  `width` is the
number of decimal places that the rest can take. -/
def inUnit (whole rest width : Nat) (unit : String) : String :=
  let fraction := trimZeros (fixedDigits width rest)
  toString whole ++ (if fraction.isEmpty then "" else "." ++ String.ofList fraction) ++ unit

/-- The written form of a span given in nanoseconds. -/
def timeSpan (nanos : Nat) : String :=
  if 1000000000 ≤ nanos then inUnit (nanos / 1000000000) (nanos % 1000000000) 9 "s"
  else if 1000000 ≤ nanos then inUnit (nanos / 1000000) (nanos % 1000000) 6 "ms"
  else if 1000 ≤ nanos then inUnit (nanos / 1000) (nanos % 1000) 3 "µs"
  else inUnit nanos 0 0 "ns"

@[simp]
theorem fixedDigits_length (width n : Nat) : (fixedDigits width n).length = width := by
  induction width generalizing n with
  | zero => rfl
  | succ width ih => simp [fixedDigits, ih]

/-- Trailing zeros of a fraction never show. -/
theorem trimZeros_append_zeros (digits : List Char) (n : Nat) :
    trimZeros (digits ++ List.replicate n '0') = trimZeros digits := by
  have h : (List.replicate n '0' ++ digits.reverse).dropWhile (fun c => decide (c = '0')) =
      digits.reverse.dropWhile (fun c => decide (c = '0')) := by
    induction n with
    | zero => rfl
    | succ n ih => simp [List.replicate_succ, ih]
  simp [trimZeros, h]

end Text
end CreditFlow
