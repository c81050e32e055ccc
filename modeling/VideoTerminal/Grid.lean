import VideoTerminal.Row.Edit
/-!
# Grids

A grid is the rows that a screen shows, all of one width, with a mark on
every row that changed since the display was last drawn. Whatever may
change a row marks it; a scroll that moves nothing marks nothing.
-/

namespace VideoTerminal

/-- Rows from top to bottom and their marks. -/
structure Grid where
  rows : List Row
  /-- The width that blank rows get. -/
  cols : Nat
  /-- The marked rows differ from what was last drawn. -/
  dirty : List Bool
  deriving DecidableEq, Repr, Inhabited

namespace Grid

/-- A grid of the given rows, all of them marked. -/
def ofRows (rows : List Row) (cols : Nat) : Grid :=
  ⟨rows, cols, rows.map fun _ => true⟩

/-- A grid on which nothing was written, all of it marked. -/
def blank (height cols : Nat) (r : Rendition) : Grid :=
  ofRows (List.replicate height (Row.blank cols r)) cols

/-- Number of rows. -/
def height (g : Grid) : Nat := g.rows.length

/-- The cell in a row and column of the grid. -/
def cell? (g : Grid) (row col : Nat) : Option Cell := do
  (← g.rows[row]?).cells[col]?

/-! ## Marks -/

/-- Mark the rows from `start` up to `stop`. -/
def markRange (g : Grid) (start stop : Nat) : Grid :=
  { g with dirty := g.dirty.mapIdx fun i mark => mark || (start ≤ i && i < stop) }

/-- Mark every row. -/
def markAll (g : Grid) : Grid :=
  { g with dirty := g.dirty.map fun _ => true }

/-- Remove all marks: the display was drawn. -/
def clearMarks (g : Grid) : Grid :=
  { g with dirty := g.dirty.map fun _ => false }

/-- A row is marked. No row outside the grid is. -/
def isDirty (g : Grid) (row : Nat) : Bool := g.dirty[row]?.getD false

/-- The marked rows from top to bottom. -/
def dirtyRows (g : Grid) : List Nat :=
  (List.range g.dirty.length).filter g.isDirty

/-! ## Changing rows -/

/-- Change one row and mark it. -/
def modifyRow (g : Grid) (row : Nat) (f : Row → Row) : Grid :=
  { g with rows := g.rows.modify row f, dirty := g.dirty.set row true }

/-- Blank the rows from `start` up to `stop` and mark them. -/
def resetRows (g : Grid) (start stop : Nat) (r : Rendition) : Grid :=
  let rows := g.rows.mapIdx fun i row => if start ≤ i && i < stop then row.reset r else row
  { g with rows }.markRange start stop

/-- One glyph in every cell, all of it marked. -/
def fill (g : Grid) (glyph : Char) (r : Rendition) : Grid :=
  let rows := g.rows.map fun row => row.fill glyph r
  { g with rows }.markAll

/-! ## Scrolling

A region is given by its top and bottom row, both included, and is cut to
the grid. A scroll moves the rows of the region and leaves all others. -/

/-- Number of rows that the region has in the grid. -/
def extent (g : Grid) (top bottom : Nat) : Nat :=
  min (bottom + 1) g.height - top

/-- The rows with those of the region turned round to the left by `n`: those
that leave it at its top come in at its bottom. -/
def turnedUp (g : Grid) (top bottom n : Nat) : List Row :=
  onRange g.rows top (top + g.extent top bottom) (·.rotateLeft n)

/-- The rows with those of the region turned round to the right by `n`. -/
def turnedDown (g : Grid) (top bottom n : Nat) : List Row :=
  onRange g.rows top (top + g.extent top bottom) (·.rotateRight n)

/-- The rows that leave the region at its top, the uppermost first, when it
scrolls up by `n`. -/
def leaving (g : Grid) (top bottom n : Nat) : List Row :=
  let stop := top + g.extent top bottom
  let n := min n (g.extent top bottom)
  ((g.turnedUp top bottom n).take stop).drop (stop - n)

/-- Scroll the region up by `n`: its rows turn round, and blank rows replace
those that come in at its bottom. -/
def scrollUp (g : Grid) (top bottom n : Nat) (r : Rendition) : Grid :=
  let stop := top + g.extent top bottom
  let n := min n (g.extent top bottom)
  if n = 0 then g
  else
    let rows := onRange (g.turnedUp top bottom n) (stop - n) stop
      (·.map fun _ => Row.blank g.cols r)
    { g with rows }.markRange top stop

/-- Scroll the region down by `n`: its rows turn round, and those that come in
at its top are blanked. The rows that leave it at the bottom are lost. -/
def scrollDown (g : Grid) (top bottom n : Nat) (r : Rendition) : Grid :=
  let stop := top + g.extent top bottom
  let n := min n (g.extent top bottom)
  if n = 0 then g
  else
    let rows := onRange (g.turnedDown top bottom n) top (top + n) (·.map (·.reset r))
    { g with rows }.markRange top stop

/-- A scroll by no row, or of no row, changes nothing. -/
theorem scrollUp_eq_self {g : Grid} {top bottom n : Nat} (h : min n (g.extent top bottom) = 0)
    (r : Rendition) : g.scrollUp top bottom n r = g := if_pos h

theorem scrollDown_eq_self {g : Grid} {top bottom n : Nat} (h : min n (g.extent top bottom) = 0)
    (r : Rendition) : g.scrollDown top bottom n r = g := if_pos h

/-- A region that is not empty lies in the grid. -/
theorem extent_le (g : Grid) (top bottom : Nat) (h : g.extent top bottom ≠ 0) :
    top + g.extent top bottom ≤ g.rows.length ∧ top + g.extent top bottom ≤ bottom + 1 := by
  unfold extent height at *
  omega

/-- The rows before a region, in it and behind it. -/
theorem rows_eq_region (g : Grid) (top bottom : Nat) :
    g.rows = g.rows.take top ++ (g.rows.drop top).take (g.extent top bottom) ++
      g.rows.drop (top + g.extent top bottom) := by
  rw [List.append_assoc, ← List.drop_drop, List.take_append_drop, List.take_append_drop]

/-- The rows that leave a region are its first ones. -/
theorem leaving_eq (g : Grid) (top bottom n : Nat) :
    g.leaving top bottom n = (g.rows.drop top).take (min n (g.extent top bottom)) := by
  unfold leaving turnedUp
  dsimp only
  by_cases hnone : g.extent top bottom = 0
  · rw [hnone, Nat.min_zero, List.take_zero, Nat.add_zero, Nat.sub_zero]
    exact List.drop_of_length_le (List.length_take_le _ _)
  · have hin := (g.extent_le top bottom hnone).1
    have hle : min n (g.extent top bottom) ≤ g.extent top bottom := Nat.min_le_right _ _
    generalize min n (g.extent top bottom) = k at hle ⊢
    rw [onRange_rotateLeft (by omega) hin, List.take_left', List.drop_left'] <;>
      · simp only [List.length_append, List.length_take, List.length_drop]
        omega

/-- The rows after scrolling up: those before the region, those of it that stay,
blank ones, and those behind it. -/
theorem rows_scrollUp_eq (g : Grid) (top bottom : Nat) {n k : Nat}
    (hk : k = min n (g.extent top bottom)) (r : Rendition) :
    (g.scrollUp top bottom n r).rows =
      g.rows.take top ++ (g.rows.drop (top + k)).take (g.extent top bottom - k) ++
        List.replicate k (Row.blank g.cols r) ++ g.rows.drop (top + g.extent top bottom) := by
  subst hk
  unfold scrollUp turnedUp
  dsimp only
  split
  · rename_i hzero
    rw [hzero, List.replicate_zero, List.append_nil]
    exact g.rows_eq_region top bottom
  · rename_i hsome
    have hin := (g.extent_le top bottom (by omega)).1
    generalize hk : min n (g.extent top bottom) = k at hsome ⊢
    have hlength : ((g.rows.drop top).take k).length = k := by
      rw [List.length_take, List.length_drop]
      omega
    refine (onRange_onRange_rotateLeft (by omega) hin).trans ?_
    rw [List.map_const', hlength, Nat.add_sub_cancel_left]

/-- The rows after scrolling down: those before the region, as many of its last
ones, blanked, those of it that stay, and those behind it. -/
theorem rows_scrollDown_eq (g : Grid) (top bottom : Nat) {n k : Nat}
    (hk : k = min n (g.extent top bottom)) (r : Rendition) :
    (g.scrollDown top bottom n r).rows =
      g.rows.take top ++
        ((g.rows.drop (top + g.extent top bottom - k)).take k).map (·.reset r) ++
          (g.rows.drop top).take (g.extent top bottom - k) ++
            g.rows.drop (top + g.extent top bottom) := by
  subst hk
  unfold scrollDown turnedDown
  dsimp only
  split
  · rename_i hzero
    rw [hzero, List.take_zero, List.map_nil, List.append_nil]
    exact g.rows_eq_region top bottom
  · rename_i hsome
    have hin := (g.extent_le top bottom (by omega)).1
    refine (onRange_onRange_rotateRight (by omega) hin).trans ?_
    rw [Nat.add_sub_cancel_left]

/-! ## Heights -/

@[simp] theorem height_ofRows (rows : List Row) (cols : Nat) :
    (ofRows rows cols).height = rows.length := rfl

@[simp] theorem height_blank (height cols : Nat) (r : Rendition) :
    (blank height cols r).height = height := by
  simp [blank]

@[simp] theorem height_markRange (g : Grid) (start stop : Nat) :
    (g.markRange start stop).height = g.height := rfl

@[simp] theorem height_markAll (g : Grid) : g.markAll.height = g.height := rfl

@[simp] theorem height_clearMarks (g : Grid) : g.clearMarks.height = g.height := rfl

@[simp] theorem height_modifyRow (g : Grid) (row : Nat) (f : Row → Row) :
    (g.modifyRow row f).height = g.height := by
  simp [modifyRow, height]

@[simp] theorem height_resetRows (g : Grid) (start stop : Nat) (r : Rendition) :
    (g.resetRows start stop r).height = g.height := by
  simp [resetRows, height, markRange]

@[simp] theorem height_fill (g : Grid) (glyph : Char) (r : Rendition) :
    (g.fill glyph r).height = g.height := by
  simp [fill, height, markAll]

/-- Scrolling up keeps the number of rows. -/
@[simp] theorem height_scrollUp (g : Grid) (top bottom n : Nat) (r : Rendition) :
    (g.scrollUp top bottom n r).height = g.height := by
  by_cases hnone : g.extent top bottom = 0
  · rw [scrollUp_eq_self (by rw [hnone]; exact Nat.min_zero n)]
  · have hin := (g.extent_le top bottom hnone).1
    have hle : min n (g.extent top bottom) ≤ g.extent top bottom := Nat.min_le_right _ _
    unfold height
    rw [g.rows_scrollUp_eq top bottom rfl]
    generalize min n (g.extent top bottom) = k at hle ⊢
    simp only [List.length_append, List.length_take, List.length_drop, List.length_replicate]
    omega

/-- Scrolling down keeps the number of rows. -/
@[simp] theorem height_scrollDown (g : Grid) (top bottom n : Nat) (r : Rendition) :
    (g.scrollDown top bottom n r).height = g.height := by
  by_cases hnone : g.extent top bottom = 0
  · rw [scrollDown_eq_self (by rw [hnone]; exact Nat.min_zero n)]
  · have hin := (g.extent_le top bottom hnone).1
    have hle : min n (g.extent top bottom) ≤ g.extent top bottom := Nat.min_le_right _ _
    unfold height
    rw [g.rows_scrollDown_eq top bottom rfl]
    generalize min n (g.extent top bottom) = k at hle ⊢
    simp only [List.length_append, List.length_take, List.length_drop, List.length_map]
    omega

end Grid

end VideoTerminal
