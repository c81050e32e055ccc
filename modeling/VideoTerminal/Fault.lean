/-!
# Faults

What can go wrong for the host. A child program cannot do anything wrong:
what it sends is read, or dropped.
-/

namespace VideoTerminal

/-- Why an operation failed. -/
inductive Fault where
  /-- No terminal has a size of zero. -/
  | invalidSize (rows cols : Nat)
  /-- There is no memory for a grid of this size. -/
  | allocation (rows cols : Nat)
  /-- The printer failed. -/
  | printer (reason : String)
  deriving DecidableEq, Repr, Inhabited

namespace Fault

/-- A size as it is shown, rows first. -/
def sizeText (rows cols : Nat) : String :=
  toString rows ++ "x" ++ toString cols

/-- The fault in words. -/
def message : Fault → String
  | .invalidSize rows cols => "invalid terminal size " ++ sizeText rows cols
  | .allocation rows cols => "failed to allocate a " ++ sizeText rows cols ++ " grid"
  | .printer reason => "print pipe failed: " ++ reason

/-- The fault behind the fault, in words. -/
def source? : Fault → Option String
  | .printer reason => some reason
  | _ => none

end Fault

end VideoTerminal
