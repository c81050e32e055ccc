/-!
# Sets of code points

A set of code points is written as its maximal intervals, in ascending
order. Membership walks the intervals and stops at the first one that
starts above the code point.
-/

namespace VideoTerminal

namespace Glyph

/-- Intervals of code points, both ends included, ascending and apart. -/
abbrev Ranges := List (Nat × Nat)

/-- Whether a code point lies in one of the intervals. Intervals ascend, so
one that starts above the code point ends the search. -/
def Ranges.contains (n : Nat) : Ranges → Bool
  | [] => false
  | (first, last) :: rest =>
    if n < first then false else if n ≤ last then true else Ranges.contains n rest

end Glyph

end VideoTerminal
