/-!
# Numerals

Numbers are read from decimal digits with an optional plus sign before
them, up to a limit. Leading zeros do not matter.
-/

namespace VideoTerminal

namespace Numeral

/-- The value of a decimal digit. -/
def digit? (c : Char) : Option Nat :=
  if c.isDigit then some (c.toNat - '0'.toNat) else none

/-- The number that digits write, most significant first. -/
def ofDigits (digits : List Nat) : Nat :=
  digits.foldl (fun value digit => 10 * value + digit) 0

/-- The number that a text writes, if the text is a numeral and the number
is not above the limit. -/
def read? (limit : Nat) (text : List Char) : Option Nat := do
  let body := match text with
    | '+' :: rest => rest
    | _ => text
  let digits ← body.mapM digit?
  let value := ofDigits digits
  if digits ≠ [] ∧ value ≤ limit then some value else none

end Numeral

end VideoTerminal
