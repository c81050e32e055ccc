/-!
# Counting clicks

Presses in the same cell that follow each other in time count up to three
and then from the beginning. All times are in milliseconds.
-/

namespace VideoTerminal

/-- When and where the pointer was pressed. -/
structure Press where
  time : Nat
  col : Nat
  row : Nat
  deriving DecidableEq, Repr, Inhabited

/-- The last press, and what it counted as. -/
structure ClickTracker where
  /-- The longest time between presses that belong together. -/
  interval : Nat
  last : Option Press := none
  count : Nat := 0
  deriving DecidableEq, Repr, Inhabited

namespace ClickTracker

/-- A press belongs together with the last one. A press that seems to come
before the last one comes at once. -/
def repeats (t : ClickTracker) (p : Press) : Bool :=
  t.last.any fun last =>
    last.col == p.col && last.row == p.row && p.time - last.time ≤ t.interval

/-- Take a press; the count is that of the press. -/
def press (t : ClickTracker) (p : Press) : ClickTracker :=
  { t with last := some p, count := if t.repeats p then t.count % 3 + 1 else 1 }

/-- Forget the last press. -/
def reset (t : ClickTracker) : ClickTracker := { t with last := none, count := 0 }

end ClickTracker

end VideoTerminal
