import VideoTerminal.Grid
import VideoTerminal.History
import VideoTerminal.Selection.Position
/-!
# The buffer

The rows of the history and then those of the screen, read as one text.
Reading goes from one line to the next only where the text of a row goes on
in the row below.
-/

namespace VideoTerminal

/-- Lines from the oldest to the last row of the screen. -/
structure Buffer where
  lines : List Row
  /-- The width of the screen. -/
  cols : Nat
  deriving DecidableEq, Repr, Inhabited

namespace Buffer

/-- The history above the rows of the grid. -/
def of (history : History) (grid : Grid) : Buffer := ⟨history.lines ++ grid.rows, grid.cols⟩

/-- Number of lines. -/
def total (b : Buffer) : Nat := b.lines.length

/-- The last column. -/
def lastCol (b : Buffer) : Nat := b.cols - 1

/-- There is no cell to point to. -/
def isEmpty (b : Buffer) : Bool := b.total == 0 || b.cols == 0

/-- The cell at a position. -/
def cell? (b : Buffer) (p : Position) : Option Cell := do
  (← b.lines[p.line]?).cells[p.col]?

/-- The text of a line goes on in the next one. -/
def continues (b : Buffer) (line : Nat) : Bool := b.lines[line]?.any Row.isWrapped

/-- The nearest position of the buffer. -/
def clamp (b : Buffer) (p : Position) : Position :=
  ⟨min p.line (b.total - 1), min p.col b.lastCol⟩

/-- The position where the glyph at this position starts. -/
def lead (b : Buffer) (p : Position) : Position :=
  if (b.cell? p).any Cell.isTrail then { p with col := p.col - 1 } else p

/-- The position where the glyph that starts at this position ends. -/
def glyphEnd (b : Buffer) (p : Position) : Position :=
  if (b.cell? p).any Cell.isLead ∧ p.col < b.lastCol then { p with col := p.col + 1 } else p

/-- The position before this one. -/
def prev? (b : Buffer) (p : Position) : Option Position :=
  if 0 < p.col then some ⟨p.line, p.col - 1⟩
  else if 0 < p.line ∧ b.continues (p.line - 1) then some ⟨p.line - 1, b.lastCol⟩
  else none

/-- The position behind this one. -/
def next? (b : Buffer) (p : Position) : Option Position :=
  if p.col < b.lastCol then some ⟨p.line, p.col + 1⟩
  else if p.line + 1 < b.total ∧ b.continues p.line then some ⟨p.line + 1, 0⟩
  else none

/-! ## How far it is to the ends -/

/-- Number of positions before a position. -/
def before (b : Buffer) (p : Position) : Nat := p.line * (b.lastCol + 1) + p.col

/-- Number of positions behind a position. -/
def behind (b : Buffer) (p : Position) : Nat :=
  (b.total - p.line) * (b.lastCol + 1) + (b.lastCol - p.col)

/-- The start of a glyph is not behind any of its cells. -/
theorem before_lead_le (b : Buffer) (p : Position) : b.before (b.lead p) ≤ b.before p := by
  unfold lead
  split
  · simp only [before]
    omega
  · exact Nat.le_refl _

/-- The end of a glyph is not before any of its cells. -/
theorem behind_glyphEnd_le (b : Buffer) (p : Position) :
    b.behind (b.glyphEnd p) ≤ b.behind p := by
  unfold glyphEnd
  split
  · simp only [behind]
    omega
  · exact Nat.le_refl _

/-- Going back comes nearer to the start. -/
theorem before_lt_of_prev? {b : Buffer} {p q : Position} (h : b.prev? p = some q) :
    b.before q < b.before p := by
  unfold prev? at h
  split at h
  · cases h
    simp only [before]
    omega
  · split at h
    · rename_i hcol hline
      cases h
      obtain ⟨line, col⟩ := p
      cases line with
      | zero => simp at hline
      | succ n =>
        simp only [before, Nat.add_sub_cancel, Nat.succ_mul]
        omega
    · cases h

/-- Going on comes nearer to the end. -/
theorem behind_lt_of_next? {b : Buffer} {p q : Position} (h : b.next? p = some q) :
    b.behind q < b.behind p := by
  unfold next? at h
  split at h
  · cases h
    simp only [behind]
    omega
  · split at h
    · rename_i hcol hline
      cases h
      obtain ⟨line, col⟩ := p
      dsimp only at hline hcol
      have hsub : b.total - line = (b.total - (line + 1)) + 1 := by omega
      simp only [behind, hsub, Nat.succ_mul]
      omega
    · cases h

end Buffer

end VideoTerminal
