import VideoTerminal.Screen.Scroll
/-!
# Writing a glyph

A glyph is written at the cursor, and the cursor moves behind it. Behind the
last column there is no place for the cursor: it stays, and the wrap is put
off until another glyph comes. A wide glyph that does not fit into the row
wraps at once.
-/

namespace VideoTerminal

namespace Screen

/-- Go on in the next row, and mark this one as going on there. -/
def wrap (s : Screen) : Screen :=
  ((s.cancelWrap.modifyLine fun row => row.withEnd .wrapped).index).atColumn 0

/-- Move the cursor behind a glyph. -/
def advance (s : Screen) (width : Nat) : Screen :=
  let next := s.cursor.col + width
  if next < s.cols then s.atColumn next
  else
    { s.atColumn s.lastCol with modes.wrapPending := s.modes.wrapPending || s.modes.autowrap }

/-- Write a glyph into the row of the cursor. -/
def place [Glyph.Widths] (s : Screen) (glyph : Char) (width : Nat) (font : Flags) : Screen :=
  let col := s.cursor.col
  let line := fun (row : Row) =>
    (if s.modes.insert then row.insertBlanks col width s.eraser else row).write col glyph
      (s.rendition.withFlags font)
  (s.editLine line).advance width

/-- Write a character at the cursor, translated through the invoked set. One
that has no width is dropped, and so is a wide one for which no wrap makes
room. -/
def print [Glyph.Widths] (s : Screen) (c : Char) : Screen :=
  let set := s.charsets.current
  let glyph := set.translate c
  let width := Glyph.width glyph
  if width = 0 then s
  else
    let s := if s.modes.wrapPending then s.wrap else s
    if width = 2 ∧ s.cols ≤ s.cursor.col + 1 then
      if s.modes.autowrap ∧ 2 ≤ s.cols then s.wrap.place glyph width set.font else s
    else s.place glyph width set.font

/-- Write a text. -/
def printAll [Glyph.Widths] (s : Screen) (text : List Char) : Screen := text.foldl print s

end Screen

end VideoTerminal
