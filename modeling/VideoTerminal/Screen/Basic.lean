import VideoTerminal.Charset
import VideoTerminal.Grid
import VideoTerminal.History
/-!
# Screens

A screen is a grid with a cursor, a region of rows that scroll, modes, and
the rendition and character sets in use. A terminal has two of them; only
the primary one has a history.

Every operation keeps the cursor inside the grid: what points outside is
moved to the edge. A wrap is pending only while the cursor stands in the
last column and lines wrap.
-/

namespace VideoTerminal

/-- Which of the two screens. -/
inductive ScreenKind where
  | primary
  | alternate
  deriving DecidableEq, Repr, Inhabited

/-- The screen that is not shown while this one is. -/
def ScreenKind.other : ScreenKind → ScreenKind
  | .primary => .alternate
  | .alternate => .primary

/-- A row and a column, from zero. -/
structure Cursor where
  row : Nat := 0
  col : Nat := 0
  deriving DecidableEq, Repr, Inhabited

/-- The rows that scroll, both ends included. -/
structure Region where
  top : Nat
  bottom : Nat
  deriving DecidableEq, Repr, Inhabited

namespace Region

/-- Number of rows. -/
def height (r : Region) : Nat := r.bottom + 1 - r.top

/-- A row scrolls. -/
def contains (r : Region) (row : Nat) : Bool := r.top ≤ row && row ≤ r.bottom

end Region

/-- The modes of a screen. -/
structure ScreenModes where
  /-- Text that fills a row goes on in the next one. -/
  autowrap : Bool := true
  /-- Writing moves the rest of the row to the right. -/
  insert : Bool := false
  /-- Rows are counted from the top of the region. -/
  origin : Bool := false
  cursorVisible : Bool := true
  /-- The last column was written, and the next glyph wraps first. -/
  wrapPending : Bool := false
  deriving DecidableEq, Repr, Inhabited

/-- What is kept of the cursor to come back to. -/
structure SavedCursor where
  cursor : Cursor := {}
  rendition : Rendition := {}
  charsets : Charsets := {}
  autowrap : Bool := true
  origin : Bool := false
  deriving DecidableEq, Repr, Inhabited

/-- What happened to text that something outside the screen may point to. -/
structure Damage where
  /-- First and last of the rows whose text changed. -/
  rows : Option (Nat × Nat) := none
  /-- Number of rows that left the history at its old end. -/
  evicted : Nat := 0
  deriving DecidableEq, Repr, Inhabited

namespace Damage

/-- Rows from `top` to `bottom` changed as well. -/
def addRows (d : Damage) (top bottom : Nat) : Damage :=
  { d with rows := match d.rows with
    | none => some (top, bottom)
    | some (first, last) => some (min first top, max last bottom) }

/-- More rows left the history. -/
def addEvicted (d : Damage) (count : Nat) : Damage :=
  { d with evicted := d.evicted + count }

end Damage

/-- One of the two screens. -/
structure Screen where
  kind : ScreenKind
  grid : Grid
  history : History
  cursor : Cursor := {}
  region : Region
  modes : ScreenModes
  /-- Whether lines wrap after a reset. -/
  wrapsByDefault : Bool
  rendition : Rendition := {}
  charsets : Charsets := {}
  saved : Option SavedCursor := none
  damage : Damage := {}
  deriving DecidableEq, Repr, Inhabited

namespace Screen

/-- A screen on which nothing was written. The alternate screen has no
history, whatever its capacity would be. -/
def blank (kind : ScreenKind) (height cols capacity : Nat) (autowrap : Bool) : Screen where
  kind
  grid := Grid.blank height cols {}
  history := { capacity := match kind with
    | .primary => capacity
    | .alternate => 0 }
  region := ⟨0, height - 1⟩
  modes := { autowrap }
  wrapsByDefault := autowrap

/-- Number of rows. -/
def height (s : Screen) : Nat := s.grid.height

/-- Number of columns. -/
def cols (s : Screen) : Nat := s.grid.cols

/-- The last row. -/
def lastRow (s : Screen) : Nat := s.height - 1

/-- The last column. -/
def lastCol (s : Screen) : Nat := s.cols - 1

/-- The rendition that erasing leaves behind. -/
def eraser (s : Screen) : Rendition := s.rendition.blank

/-- The region that covers the screen. -/
def fullRegion (s : Screen) : Region := ⟨0, s.lastRow⟩

/-! ## Small changes -/

/-- No wrap is pending any more. -/
def cancelWrap (s : Screen) : Screen := { s with modes.wrapPending := false }

/-- Switch the wrapping of lines. Switching it off cancels a pending wrap. -/
def setAutowrap (s : Screen) (on : Bool) : Screen :=
  { s with modes.autowrap := on, modes.wrapPending := s.modes.wrapPending && on }

/-- Move the cursor within its row. -/
def atColumn (s : Screen) (col : Nat) : Screen := { s with cursor.col := col }

/-- Move the cursor within its column. -/
def atRow (s : Screen) (row : Nat) : Screen := { s with cursor.row := row }

/-- Note that the text of rows changed. -/
def damaged (s : Screen) (top bottom : Nat) : Screen :=
  { s with damage := s.damage.addRows top bottom }

/-- Change the row of the cursor. -/
def modifyLine (s : Screen) (f : Row → Row) : Screen :=
  { s with grid := s.grid.modifyRow s.cursor.row f }

/-- Change the text of the row of the cursor, and note it. -/
def editLine (s : Screen) (f : Row → Row) : Screen :=
  (s.modifyLine f).damaged s.cursor.row s.cursor.row

/-- Hand over the damage, and start anew. -/
def dropDamage (s : Screen) : Screen := { s with damage := {} }

end Screen

end VideoTerminal
