import VideoTerminal.Screen.Basic
/-!
# Scrolling

Scrolling moves the rows of the region. Rows that leave the primary screen
at its top go into the history, but only if the whole screen scrolls: out of
a smaller region they are lost.
-/

namespace VideoTerminal

namespace Screen

/-- Rows that leave the screen at its top are kept. -/
def keepsRows (s : Screen) : Bool :=
  s.kind == .primary && 0 < s.history.capacity

/-- Put rows into the history, and note those that leave it. -/
def remember (s : Screen) (rows : List Row) : Screen :=
  { s with
    history := s.history.pushAll rows
    damage := s.damage.addEvicted (s.history.evictions rows.length) }

/-- Move rows up within `top` and `bottom`. What leaves is lost. -/
def shiftUp (s : Screen) (top bottom count : Nat) : Screen :=
  { s with grid := s.grid.scrollUp top bottom count s.eraser }

/-- Move rows down within `top` and `bottom`. What leaves is lost. -/
def shiftDown (s : Screen) (top bottom count : Nat) : Screen :=
  { s with grid := s.grid.scrollDown top bottom count s.eraser }

/-- Scroll the region up. Text that went into the history is as it was, so
then only the new rows count as changed. -/
def scrollUp (s : Screen) (count : Nat) : Screen :=
  let top := s.region.top
  let bottom := s.region.bottom
  let n := min count s.region.height
  if n = 0 then s
  else if s.region = s.fullRegion ∧ s.keepsRows then
    let scrolled := s.shiftUp top bottom n
    (scrolled.remember (s.grid.leaving top bottom n)).damaged (bottom + 1 - n) bottom
  else (s.shiftUp top bottom n).damaged top bottom

/-- Scroll the region down. -/
def scrollDown (s : Screen) (count : Nat) : Screen :=
  (s.shiftDown s.region.top s.region.bottom count).damaged s.region.top s.region.bottom

/-- The most rows that one scroll moves. -/
def maxScroll : Nat := 65535

/-- Scroll up by a positive count, down by a negative one. -/
def scrollBy (s : Screen) (count : Int) : Screen :=
  match count with
  | .ofNat 0 => s
  | .ofNat (n + 1) => s.scrollUp (min (n + 1) maxScroll)
  | .negSucc n => s.scrollDown (min (n + 1) maxScroll)

/-- One row down. At the bottom of the region the region scrolls instead. -/
def index (s : Screen) : Screen :=
  let s := s.cancelWrap
  if s.cursor.row = s.region.bottom then s.scrollUp 1
  else if s.cursor.row < s.lastRow then s.atRow (s.cursor.row + 1)
  else s

/-- One row up. At the top of the region the region scrolls instead. -/
def reverseIndex (s : Screen) : Screen :=
  let s := s.cancelWrap
  if s.cursor.row = s.region.top then s.scrollDown 1
  else s.atRow (s.cursor.row - 1)

end Screen

end VideoTerminal
