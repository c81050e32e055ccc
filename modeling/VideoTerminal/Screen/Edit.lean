import VideoTerminal.Screen.Scroll
import VideoTerminal.Erasure
/-!
# Erasing, inserting and deleting

All of these work at the cursor, leave blanks in the current colours, and
cancel a pending wrap. Rows of cells are edited within the row, lines within
the region.
-/

namespace VideoTerminal

namespace Screen

/-! ## Erasing -/

/-- Erase a part of the row of the cursor. Erasing to the end ends the text
at the cursor; erasing the whole row forgets its text and its wrap. -/
def eraseLine (s : Screen) (part : Erasure) : Screen :=
  let col := s.cursor.col
  s.cancelWrap.editLine fun row =>
    match part with
    | .toEnd => (row.blankRange col row.cols s.eraser).clipTo col
    | .toStart => row.blankRange 0 (col + 1) s.eraser
    | .all => row.reset s.eraser

/-- Blank the rows from `start` up to `stop`. -/
def resetRows (s : Screen) (start stop : Nat) (r : Rendition) : Screen :=
  { s with grid := s.grid.resetRows start stop r }

/-- Erase a part of the screen. The cursor stays. -/
def eraseScreen (s : Screen) (part : Erasure) : Screen :=
  let row := s.cursor.row
  match part with
  | .toEnd =>
    ((s.eraseLine .toEnd).resetRows (row + 1) s.height s.eraser).damaged row s.lastRow
  | .toStart => ((s.eraseLine .toStart).resetRows 0 row s.eraser).damaged 0 row
  | .all => (s.cancelWrap.resetRows 0 s.height s.eraser).damaged 0 s.lastRow

/-! ## Cells -/

/-- Edit the cells from the cursor on, as many as the row has at most. -/
def editCells (s : Screen) (count : Nat) (edit : Row → Nat → Nat → Rendition → Row) :
    Screen :=
  let s := s.cancelWrap
  let n := min count (s.cols - s.cursor.col)
  if n = 0 then s else s.editLine fun row => edit row s.cursor.col n s.eraser

/-- Insert blanks at the cursor. -/
def insertCells (s : Screen) (count : Nat) : Screen := s.editCells count Row.insertBlanks

/-- Delete cells at the cursor. -/
def deleteCells (s : Screen) (count : Nat) : Screen := s.editCells count Row.deleteCells

/-- Blank cells from the cursor on. -/
def eraseCells (s : Screen) (count : Nat) : Screen :=
  s.editCells count fun row col n r => row.blankRange col (col + n) r

/-- One column to the left. In the first column the row moves to the right
instead. -/
def backIndex (s : Screen) : Screen :=
  let s := s.cancelWrap
  if 0 < s.cursor.col then s.atColumn (s.cursor.col - 1)
  else s.editLine fun row => row.insertBlanks 0 1 s.eraser

/-- One column to the right. In the last column the row moves to the left
instead. -/
def forwardIndex (s : Screen) : Screen :=
  let s := s.cancelWrap
  if s.cursor.col < s.lastCol then s.atColumn (s.cursor.col + 1)
  else s.editLine fun row => row.deleteCells 0 1 s.eraser

/-! ## Lines -/

/-- Edit the lines from the cursor to the bottom of the region, and go to
the first column. Outside the region nothing happens at all. -/
def editLines (s : Screen) (count : Nat) (shift : Screen → Nat → Nat → Nat → Screen) :
    Screen :=
  let row := s.cursor.row
  let bottom := s.region.bottom
  if s.region.contains row then
    let s := s.cancelWrap
    let n := min count (bottom + 1 - row)
    if n = 0 then s else ((shift s row bottom n).atColumn 0).damaged row bottom
  else s

/-- Insert blank lines at the cursor. -/
def insertLines (s : Screen) (count : Nat) : Screen := s.editLines count shiftDown

/-- Delete lines at the cursor. -/
def deleteLines (s : Screen) (count : Nat) : Screen := s.editLines count shiftUp

end Screen

end VideoTerminal
