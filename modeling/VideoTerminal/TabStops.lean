/-!
# Tab stops

Every column is a stop or is not. A move over stops searches the columns
strictly ahead for the next stop, goes there and searches again, as often as
it is told to; where a search finds none, the move ends at the edge of the row.
-/

namespace VideoTerminal

/-- One mark for each column. -/
structure TabStops where
  marks : Array Bool
  deriving DecidableEq, Repr, Inhabited

namespace TabStops

/-- Columns from one stop to the next in a fresh table. -/
def spacing : Nat := 8

/-- The fresh table for a number of columns: a stop at every eighth column,
the first one included. -/
def fresh (cols : Nat) : TabStops :=
  ⟨((List.range cols).map fun col => col % spacing == 0).toArray⟩

/-- Number of columns. -/
def cols (t : TabStops) : Nat := t.marks.size

/-- Whether a column is a stop. Beyond the last column nothing is. -/
def isSet (t : TabStops) (col : Nat) : Bool := t.marks[col]?.getD false

/-- Make a column a stop. -/
def set (t : TabStops) (col : Nat) : TabStops := ⟨t.marks.setIfInBounds col true⟩

/-- Make a column no stop. -/
def clear (t : TabStops) (col : Nat) : TabStops := ⟨t.marks.setIfInBounds col false⟩

/-- Remove every stop. -/
def clearAll (t : TabStops) : TabStops := ⟨Array.replicate t.cols false⟩

/-- The stops in ascending order. -/
def stops (t : TabStops) : List Nat := (List.range t.cols).filter t.isSet

/-- The nearest stop to the right of a column. -/
def nextStop? (t : TabStops) (col : Nat) : Option Nat :=
  (List.range' (col + 1) (t.cols - (col + 1))).find? t.isSet

/-- The nearest stop to the left of a column. -/
def previousStop? (t : TabStops) (col : Nat) : Option Nat :=
  (List.range col).reverse.find? t.isSet

/-- So many searches, each from the stop that the one before it found. The
first one that finds nothing ends the walk, at the edge. -/
def walk (search : Nat → Option Nat) (edge : Nat) : Nat → Nat → Nat
  | 0, col => col
  | n + 1, col =>
    match search col with
    | some stop => walk search edge n stop
    | none => edge

/-- The column reached over a number of stops. A positive count moves right
and ends at the last column if there are too few stops, a negative count
moves left and ends at the first. -/
def advance (t : TabStops) (col : Nat) (count : Int) : Nat :=
  let last := t.cols - 1
  let col := min col last
  match count with
  | .ofNat n => walk t.nextStop? last n col
  | .negSucc n => walk t.previousStop? 0 (n + 1) col

@[simp] theorem cols_fresh (n : Nat) : (fresh n).cols = n := by simp [fresh, cols]

@[simp] theorem cols_set (t : TabStops) (col : Nat) : (t.set col).cols = t.cols := by
  simp [set, cols]

@[simp] theorem cols_clear (t : TabStops) (col : Nat) : (t.clear col).cols = t.cols := by
  simp [clear, cols]

@[simp] theorem cols_clearAll (t : TabStops) : t.clearAll.cols = t.cols := by
  simp [clearAll, cols]

end TabStops

end VideoTerminal
