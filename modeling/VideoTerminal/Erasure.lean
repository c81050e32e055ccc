/-!
# Erasure

Erasing takes the part of a line or of the screen from the cursor on, the
part up to the cursor, or all of it.
-/

namespace VideoTerminal

/-- The part that is erased. The cell of the cursor belongs to each part. -/
inductive Erasure where
  | toEnd
  | toStart
  | all
  deriving DecidableEq, Repr, Inhabited

/-- The part that a parameter stands for. -/
def Erasure.ofParameter? : Nat → Option Erasure
  | 0 => some .toEnd
  | 1 => some .toStart
  | 2 => some .all
  | _ => none

end VideoTerminal
