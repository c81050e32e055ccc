import VideoTerminal.Screen.Basic
import VideoTerminal.TabStops
/-!
# Moving the cursor

A place is given for each coordinate on its own, as such or from the cursor
on. Whatever it is, the cursor stays inside the screen: it goes as far as it
can. Every motion cancels a pending wrap.
-/

namespace VideoTerminal

/-- A coordinate to go to. -/
inductive Target where
  /-- Counted from the start. -/
  | absolute (place : Int)
  /-- Counted from the cursor. -/
  | relative (distance : Int)
  deriving DecidableEq, Repr, Inhabited

namespace Screen

/-- The place between two bounds that is nearest. -/
def clamp (low high : Nat) (place : Int) : Nat :=
  (max (low : Int) (min place high)).toNat

/-- The column that a target stands for. -/
def targetColumn (s : Screen) : Target → Nat
  | .absolute col => clamp 0 s.lastCol col
  | .relative n => clamp 0 s.lastCol (s.cursor.col + n)

/-- The row that a target stands for. Motion that starts inside the region
stops at its edges. Rows are counted from the top of the region in origin
mode, and none outside it can be reached. -/
def targetRow (s : Screen) : Target → Nat
  | .absolute row =>
    if s.modes.origin then clamp s.region.top s.region.bottom (row + s.region.top)
    else clamp 0 s.lastRow row
  | .relative n =>
    if s.region.contains s.cursor.row then
      clamp s.region.top s.region.bottom (s.cursor.row + n)
    else clamp 0 s.lastRow (s.cursor.row + n)

/-- Move the cursor. -/
def goto (s : Screen) (row col : Target) : Screen :=
  { s.cancelWrap with cursor := ⟨s.targetRow row, s.targetColumn col⟩ }

/-- Up by a count. -/
def cursorUp (s : Screen) (n : Nat) : Screen := s.goto (.relative (-n)) (.relative 0)

/-- Down by a count. -/
def cursorDown (s : Screen) (n : Nat) : Screen := s.goto (.relative n) (.relative 0)

/-- Right by a count. -/
def cursorRight (s : Screen) (n : Nat) : Screen := s.goto (.relative 0) (.relative n)

/-- Left by a count. -/
def cursorLeft (s : Screen) (n : Nat) : Screen := s.goto (.relative 0) (.relative (-n))

/-- To a column of the same row. -/
def toColumn (s : Screen) (col : Nat) : Screen := s.goto (.relative 0) (.absolute col)

/-- To a row, in the same column. -/
def toRow (s : Screen) (row : Nat) : Screen := s.goto (.absolute row) (.relative 0)

/-- To the first place, of the region in origin mode. -/
def home (s : Screen) : Screen := s.goto (.absolute 0) (.absolute 0)

/-- To the first column. -/
def carriageReturn (s : Screen) : Screen := s.cancelWrap.atColumn 0

/-- One column back. A pending wrap is only cancelled, since the cursor did
not leave its column yet. From the first column the cursor goes to the end
of the row before, if that row's text goes on here. -/
def backspace (s : Screen) : Screen :=
  if s.modes.wrapPending then s.cancelWrap
  else if 0 < s.cursor.col then s.atColumn (s.cursor.col - 1)
  else if 0 < s.cursor.row ∧ s.grid.rows[s.cursor.row - 1]?.any Row.isWrapped then
    { s with cursor := ⟨s.cursor.row - 1, s.lastCol⟩ }
  else s

/-- Over a number of tab stops, to the left if it is negative. -/
def tab (s : Screen) (count : Int) (stops : TabStops) : Screen :=
  s.cancelWrap.atColumn (min (stops.advance s.cursor.col count) s.lastCol)

/-- Set the region, as far as it lies in the screen. One whose top is below
its bottom stands for the whole screen. The cursor goes home. -/
def setRegion (s : Screen) (top bottom : Nat) : Screen :=
  let bottom := min bottom s.lastRow
  { s with region := if top ≤ bottom then ⟨top, bottom⟩ else s.fullRegion }.home

end Screen

end VideoTerminal
