import VideoTerminal.Screen.Scroll
/-!
# Resizing a screen

All rows get the new width. A lower screen first loses blank rows below the
cursor, then rows at its top, but never that of the cursor, and what is
still too much at its bottom. A higher one takes rows back from the history,
and only then gets blank ones.
-/

namespace VideoTerminal

/-- How the rows of a screen move when it is resized. -/
structure Reflow where
  /-- Rows that leave at the top. -/
  leaving : Nat
  /-- Rows that come back from the history. -/
  pulled : Nat
  deriving DecidableEq, Repr, Inhabited

/-- Number of blank rows at the end, not counting the first `keep` rows. -/
def blankTail (rows : List Row) (keep : Nat) : Nat :=
  ((rows.drop keep).reverse.takeWhile Row.isBlank).length

/-- A saved cursor moved into a screen of the given size. -/
def SavedCursor.clamped (saved : SavedCursor) (height cols : Nat) : SavedCursor :=
  { saved with cursor := ⟨min saved.cursor.row (height - 1), min saved.cursor.col (cols - 1)⟩ }

namespace Screen

/-- The rows that move between the screen and its history at another height.
The rows are given at their new width. -/
def reflow (s : Screen) (rows : List Row) (height : Nat) : Reflow where
  leaving :=
    let excess := s.height - height
    min (excess - min excess (blankTail rows (s.cursor.row + 1))) s.cursor.row
  pulled := if s.kind = .primary then min (height - s.height) s.history.length else 0

/-- The history at another width. At the same width it stays as it is. -/
def historyAt (s : Screen) (cols : Nat) : History :=
  if cols = s.cols then s.history else s.history.resized cols s.eraser

/-- The screen at another size. The cursor stays on its line. -/
def resize (s : Screen) (height cols : Nat) : Screen :=
  let rows := s.grid.rows.map (·.resized cols s.eraser)
  let history := s.historyAt cols
  let flow := s.reflow rows height
  let kept := history.length - flow.pulled
  let grid := history.lines.drop kept ++ (rows.drop flow.leaving).take height
  let padding := List.replicate (height - grid.length) (Row.blank cols s.eraser)
  let resized : Screen :=
    { s with
      grid := Grid.ofRows (grid ++ padding) cols
      history := { history with lines := history.lines.take kept }
      cursor :=
        ⟨min (s.cursor.row - flow.leaving + flow.pulled) (height - 1),
          min s.cursor.col (cols - 1)⟩
      region := ⟨0, height - 1⟩
      modes.wrapPending := false
      saved := s.saved.map (·.clamped height cols) }
  let resized :=
    if s.kind = .primary then resized.remember (rows.take flow.leaving) else resized
  resized.damaged 0 (height - 1)

end Screen

end VideoTerminal
