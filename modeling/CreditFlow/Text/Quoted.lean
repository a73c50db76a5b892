import CreditFlow.Text.Printable

/-!
# Quoted text

A piece of text inside a debug text stands between double quotes.  Quotes and
backslashes are escaped by a backslash, the usual control characters have an
escape of one letter, every other character that is not printable is written as
its code point in braces, and all else stands for itself.

Main results:

- {lit}`Text.quoted_toList`: a quoted text is the escapes of its characters, in
  order, between two quotes.
-/

namespace CreditFlow
namespace Text

/-- The digits of a code point in lower-case hexadecimal, without leading zeros. -/
def codePoint (c : Char) : List Char :=
  Nat.toDigits 16 c.toNat

/-- How a character stands inside quotes. -/
def escape (c : Char) : List Char :=
  if c = '"' then ['\\', '"']
  else if c = '\\' then ['\\', '\\']
  else if c = '\n' then ['\\', 'n']
  else if c = '\t' then ['\\', 't']
  else if c = '\r' then ['\\', 'r']
  else if c.toNat = 0 then ['\\', '0']
  else if isPrintable c then [c]
  else ['\\', 'u', '\x7b'] ++ codePoint c ++ ['\x7d']

/-- The quoted form of a text. -/
def quoted (s : String) : String :=
  String.ofList ('"' :: (s.toList.flatMap escape ++ ['"']))

/-- A quoted text is the escapes of its characters, in order, between two quotes. -/
theorem quoted_toList (s : String) :
    (quoted s).toList = '"' :: (s.toList.flatMap escape ++ ['"']) := by
  simp [quoted]

end Text
end CreditFlow
