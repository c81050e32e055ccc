/-!
# Positions

A position is a cell of the whole buffer: the lines of the history come
first, then those of the screen. A row that scrolls into the history keeps
its line. Positions are ordered as they are read, line by line.
-/

namespace VideoTerminal

/-- A line of the buffer and a column. -/
structure Position where
  line : Nat
  col : Nat
  deriving DecidableEq, Repr, Inhabited

namespace Position

instance : LE Position where
  le p q := p.line < q.line ∨ (p.line = q.line ∧ p.col ≤ q.col)

instance : LT Position where
  lt p q := p.line < q.line ∨ (p.line = q.line ∧ p.col < q.col)

theorem le_def {p q : Position} :
    p ≤ q ↔ p.line < q.line ∨ (p.line = q.line ∧ p.col ≤ q.col) := Iff.rfl

theorem lt_def {p q : Position} :
    p < q ↔ p.line < q.line ∨ (p.line = q.line ∧ p.col < q.col) := Iff.rfl

instance : DecidableLE Position := fun _ _ => decidable_of_iff' _ le_def

instance : DecidableLT Position := fun _ _ => decidable_of_iff' _ lt_def

instance : Min Position := minOfLe

instance : Max Position := maxOfLe

/-- The line above which line numbers do not go. -/
def maxLine : Nat := 4294967295

/-- The position of a cell of the screen, below a history of the given
length. -/
def onScreen (history row col : Nat) : Position := ⟨history + row, col⟩

/-- The position after lines before it are gone. -/
def up (p : Position) (count : Nat) : Position := { p with line := p.line - count }

end Position

end VideoTerminal
