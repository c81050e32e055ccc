import VideoTerminal.Cell
/-!
# Rows

A row is its cells together with where its text ends: after a number of
columns, or nowhere because the text wrapped and goes on in the next row.
Copying and selecting go by that end, not by the blanks on the display.
-/

namespace VideoTerminal

/-- Where the text of a row ends. -/
inductive RowEnd where
  /-- The text ends before this column. -/
  | hard (length : Nat)
  /-- The row was filled and its text goes on in the next row. -/
  | wrapped
  deriving DecidableEq, Repr, Inhabited

/-- The cells from left to right, and the end of their text. -/
structure Row where
  cells : List Cell
  ending : RowEnd := .hard 0
  deriving DecidableEq, Repr, Inhabited

namespace Row

/-- A row on which nothing was written. -/
def blank (cols : Nat) (r : Rendition) : Row :=
  { cells := List.replicate cols (Cell.blank r) }

/-- Number of columns. -/
def cols (row : Row) : Nat := row.cells.length

/-- The text goes on in the next row. -/
def isWrapped (row : Row) : Bool := row.ending == .wrapped

/-- Nothing was written on the row. -/
def isBlank (row : Row) : Bool :=
  row.ending == .hard 0 && row.cells.all (·.glyph == ' ')

/-- Number of columns that hold text: all of them if the text wrapped. -/
def textLength (row : Row) : Nat :=
  match row.ending with
  | .hard n => min n row.cols
  | .wrapped => row.cols

/-- The cell at a column lies in the row and is the left half of a wide
glyph. -/
def leadAt (row : Row) (col : Nat) : Bool := row.cells[col]?.any Cell.isLead

/-- The cell at a column lies in the row and is the right half of a wide
glyph. -/
def trailAt (row : Row) (col : Nat) : Bool := row.cells[col]?.any Cell.isTrail

/-- Glyphs from left to right, each wide one once. -/
def glyphs (row : Row) : List Char :=
  (row.cells.filter (!·.isTrail)).map (·.glyph)

/-! ## The end of the text -/

/-- Say where the text ends. It ends within the row. -/
def withEnd (row : Row) (ending : RowEnd) : Row :=
  { row with ending := match ending with
    | .hard n => .hard (min n row.cols)
    | .wrapped => .wrapped }

/-- The text reaches at least to a column, within the row. -/
def extendTo (row : Row) (col : Nat) : Row :=
  match row.ending with
  | .hard n => { row with ending := .hard (max n (min col row.cols)) }
  | .wrapped => row

/-- The text reaches at most to a column. A wrapped row ends there. -/
def clipTo (row : Row) (col : Nat) : Row :=
  { row with ending := match row.ending with
    | .hard n => .hard (min n (min col row.cols))
    | .wrapped => .hard (min col row.cols) }

/-! ## The row as a whole -/

/-- Blank the row and forget its text. -/
def reset (row : Row) (r : Rendition) : Row :=
  blank row.cols r

/-- One glyph in every cell, all of it text. -/
def fill (row : Row) (glyph : Char) (r : Rendition) : Row :=
  { cells := List.replicate row.cols (Cell.ofGlyph glyph r), ending := .hard row.cols }

/-- Replace the cell at a column by a blank. -/
def eraseAt (row : Row) (col : Nat) (r : Rendition) : Row :=
  { row with cells := row.cells.set col (Cell.blank r) }

/-- Replace the glyph at a column and keep its rendition. -/
def setGlyph (row : Row) (col : Nat) (glyph : Char) : Row :=
  { row with cells := row.cells.modify col (·.withGlyph glyph) }

/-- Replace a left half at a column by a blank. -/
def eraseLeadAt (row : Row) (col : Nat) (r : Rendition) : Row :=
  if row.leadAt col then row.eraseAt col r else row

/-- The row cut on the right, or padded with blanks there. Text ends within
the new width, and text that wrapped still does. -/
def cutTo (row : Row) (cols : Nat) (r : Rendition) : Row where
  cells := row.cells.take cols ++ List.replicate (cols - row.cols) (Cell.blank r)
  ending := match row.ending with
    | .hard n => .hard (min n cols)
    | .wrapped => .wrapped

/-- The row at another width. A wide glyph that is cut in half becomes a
blank. -/
def resized (row : Row) (cols : Nat) (r : Rendition) : Row :=
  if 0 < cols ∧ cols < row.cols then (row.cutTo cols r).eraseLeadAt (cols - 1) r
  else row.cutTo cols r

/-! ## Widths -/

@[simp] theorem cols_blank (n : Nat) (r : Rendition) : (blank n r).cols = n := by
  simp [blank, cols]

@[simp] theorem cols_withEnd (row : Row) (e : RowEnd) : (row.withEnd e).cols = row.cols := rfl

@[simp] theorem cols_extendTo (row : Row) (n : Nat) : (row.extendTo n).cols = row.cols := by
  unfold extendTo
  split <;> rfl

@[simp] theorem cols_clipTo (row : Row) (n : Nat) : (row.clipTo n).cols = row.cols := rfl

@[simp] theorem cols_reset (row : Row) (r : Rendition) : (row.reset r).cols = row.cols := by
  simp [reset]

@[simp] theorem cols_fill (row : Row) (c : Char) (r : Rendition) :
    (row.fill c r).cols = row.cols := by
  simp [fill, cols]

@[simp] theorem cols_eraseAt (row : Row) (col : Nat) (r : Rendition) :
    (row.eraseAt col r).cols = row.cols := by
  simp [eraseAt, cols]

@[simp] theorem cols_eraseLeadAt (row : Row) (col : Nat) (r : Rendition) :
    (row.eraseLeadAt col r).cols = row.cols := by
  unfold eraseLeadAt
  split <;> simp

@[simp] theorem cols_setGlyph (row : Row) (col : Nat) (c : Char) :
    (row.setGlyph col c).cols = row.cols := by
  simp [setGlyph, cols]

@[simp] theorem cols_cutTo (row : Row) (n : Nat) (r : Rendition) : (row.cutTo n r).cols = n := by
  simp only [cutTo, cols, List.length_append, List.length_take, List.length_replicate]
  omega

/-- A resized row has the width that was asked for. -/
@[simp] theorem cols_resized (row : Row) (n : Nat) (r : Rendition) :
    (row.resized n r).cols = n := by
  unfold resized
  split <;> simp

end Row

end VideoTerminal
