import VideoTerminal.Terminal.Basic
/-!
# The view

A display shows as many rows as the screen has, and may be scrolled back
into the history. Rows are marked where the display has to be drawn anew.
-/

namespace VideoTerminal

namespace Terminal

variable {π : Type}

/-- The line of the buffer that the view starts with. -/
def viewTop (t : Terminal π) : Nat :=
  t.screen.history.length - min t.viewOffset t.screen.history.length

/-- The row that is seen at a place of the view. -/
def visibleRow? (t : Terminal π) (i : Nat) : Option Row :=
  if i < t.screen.height then (t.bufferOf t.active).lines[t.viewTop + i]? else none

/-- The cursor is seen: it is switched on, and the view is not scrolled. -/
def cursorVisible (t : Terminal π) : Bool :=
  t.viewOffset == 0 && t.screen.modes.cursorVisible

/-- A row has to be drawn anew. -/
def isRowDirty (t : Terminal π) (row : Nat) : Bool := t.screen.grid.isDirty row

/-- The display was drawn. -/
def clearMarks (t : Terminal π) : Terminal π :=
  t.modifyScreen fun s => { s with grid := s.grid.clearMarks }

/-- Put the view to an offset. All rows are marked if that moves it. -/
def viewAt (t : Terminal π) (offset : Nat) : Terminal π :=
  if offset = t.viewOffset then t else { t with viewOffset := offset }.markAll

/-- Scroll the view, back into the history if the distance is positive. -/
def scrollView (t : Terminal π) (distance : Int) : Terminal π :=
  t.viewAt (min (t.viewOffset + distance).toNat t.screen.history.length)

/-- Bring the view back to the screen. -/
def snapView (t : Terminal π) : Terminal π := t.viewAt 0

/-- The text of a row without blanks at its end. -/
def trimmed (row : Row) : List Char :=
  (row.glyphs.reverse.dropWhile (· == ' ')).reverse

/-- The text of the screen, line by line. -/
def screenText (t : Terminal π) : List Char :=
  ['\n'].intercalate (t.screen.grid.rows.map trimmed)

end Terminal

end VideoTerminal
