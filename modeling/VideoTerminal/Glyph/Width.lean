import VideoTerminal.Glyph.Combining
import VideoTerminal.Glyph.Wide
/-!
# Display width of a glyph

A terminal gives every character no column, one, or two. How many a
character fills is a matter of tables, and the tables change from one version
of Unicode to the next, so they are a parameter: control characters and
combining characters fill none, East Asian wide ones fill two, and all others
fill one.
-/

namespace VideoTerminal

namespace Glyph

/-- The columns that characters fill, as some tables have them. Characters
that are not drawn have no entry. -/
class Widths where
  columns? : Char → Option Nat

/-- The tables that a terminal runs with. Below U+00A0 only the printable part
of ASCII is drawn. They are no instance: what holds whatever the tables say is
said of all of them. -/
@[reducible] def unicode : Widths where
  columns? c :=
    let n := c.toNat
    if n < 0xA0 then
      if 0x20 ≤ n ∧ n < 0x7F then some 1 else none
    else if combining.contains n then some 0
    else if wide.contains n then some 2
    else some 1

/-- Columns that a character fills on the display. None fills more than
two. -/
def width [Widths] (c : Char) : Nat := min ((Widths.columns? c).getD 0) 2

/-- No character fills more than two columns. -/
theorem width_le_two [Widths] (c : Char) : width c ≤ 2 := Nat.min_le_right _ 2

/-- A character that is not drawn fills no column. -/
theorem width_of_none [Widths] {c : Char} (h : Widths.columns? c = none) : width c = 0 := by
  unfold width
  rw [h]
  rfl

/-- In the tables that a terminal runs with the blank fills one column. -/
theorem width_space : @width unicode ' ' = 1 := by decide

/-- So does the letter that a display is aligned by. -/
theorem width_letter : @width unicode 'E' = 1 := by decide

end Glyph

end VideoTerminal
