import VideoTerminal.Row.Basic
import VideoTerminal.Glyph.Width
/-!
# Editing a row

Writing, inserting, deleting and blanking rearrange the cells of a row and
may cut a wide glyph in two. Cells that move turn round in a piece of the row,
and those that come in at its other end are blanked. A cut is mended on both
of its sides: the half that stays behind becomes a blank. The mending is kept
apart from the rearrangement.
-/

namespace VideoTerminal

/-! ## Pieces of a list -/

section Pieces

variable {α : Type} {xs : List α} {start stop n : Nat} {f : List α → List α}

/-- The elements from `start` up to `stop` changed, as a list of their own. -/
def onRange (xs : List α) (start stop : Nat) (f : List α → List α) : List α :=
  xs.take start ++ f ((xs.take stop).drop start) ++ xs.drop stop

theorem onRange_append {before piece after : List α} (hstart : before.length = start)
    (hstop : (before ++ piece).length = stop) :
    onRange (before ++ piece ++ after) start stop f = before ++ f piece ++ after := by
  have hbefore : (before ++ piece ++ after).take start = before := by
    rw [List.append_assoc, List.take_left' hstart]
  unfold onRange
  rw [hbefore, List.take_left' hstop, List.drop_left' hstart, List.drop_left' hstop]

theorem length_piece (start : Nat) (hstop : stop ≤ xs.length) :
    ((xs.take stop).drop start).length = stop - start := by
  rw [List.length_drop, List.length_take, Nat.min_eq_left hstop]

theorem rotateLeft_eq (h : n ≤ xs.length) : xs.rotateLeft n = xs.drop n ++ xs.take n := by
  unfold List.rotateLeft
  rcases Nat.eq_or_lt_of_le h with rfl | hlt
  · simp
  · dsimp only
    split
    · rw [show n = 0 by omega, List.drop_zero, List.take_zero, List.append_nil]
    · rw [Nat.mod_eq_of_lt hlt]

theorem rotateRight_eq (h : n ≤ xs.length) :
    xs.rotateRight n = xs.drop (xs.length - n) ++ xs.take (xs.length - n) := by
  unfold List.rotateRight
  rcases Nat.eq_or_lt_of_le h with rfl | hlt
  · simp
  · dsimp only
    split
    · rw [show n = 0 by omega, Nat.sub_zero, List.drop_length, List.take_length, List.nil_append]
    · rw [Nat.mod_eq_of_lt hlt]

/-- A piece turned round to the left by `n`: its first `n` elements stand last. -/
theorem onRange_rotateLeft (hroom : start + n ≤ stop) (hstop : stop ≤ xs.length) :
    onRange xs start stop (·.rotateLeft n) =
      xs.take start ++ (xs.drop (start + n)).take (stop - start - n) ++
        (xs.drop start).take n ++ xs.drop stop := by
  have hlength := length_piece start hstop
  have hstay : ((xs.take stop).drop start).drop n =
      (xs.drop (start + n)).take (stop - start - n) := by
    rw [List.drop_drop, List.drop_take, Nat.sub_sub]
  have hturn : ((xs.take stop).drop start).take n = (xs.drop start).take n := by
    rw [List.drop_take, List.take_take, Nat.min_eq_left (by omega)]
  unfold onRange
  dsimp only
  rw [rotateLeft_eq (by omega), hstay, hturn, ← List.append_assoc]

/-- A piece turned round to the right by `n`: its last `n` elements stand first. -/
theorem onRange_rotateRight (hroom : start + n ≤ stop) (hstop : stop ≤ xs.length) :
    onRange xs start stop (·.rotateRight n) =
      xs.take start ++ (xs.drop (stop - n)).take n ++
        ((xs.drop start).take (stop - start - n) ++ xs.drop stop) := by
  have hlength := length_piece start hstop
  have hturn : ((xs.take stop).drop start).drop (stop - start - n) =
      (xs.drop (stop - n)).take n := by
    rw [List.drop_drop, List.drop_take]
    congr 1
    · omega
    · congr 1
      omega
  have hstay : ((xs.take stop).drop start).take (stop - start - n) =
      (xs.drop start).take (stop - start - n) := by
    rw [List.drop_take, List.take_take, Nat.min_eq_left (Nat.sub_le _ _)]
  unfold onRange
  dsimp only
  rw [rotateRight_eq (by omega), hlength, hturn, hstay, ← List.append_assoc, List.append_assoc]

/-- The elements of a piece move `n` places to the left, over the first of them.
What stands last in it then is changed. -/
theorem onRange_onRange_rotateLeft (hroom : start + n ≤ stop) (hstop : stop ≤ xs.length) :
    onRange (onRange xs start stop (·.rotateLeft n)) (stop - n) stop f =
      xs.take start ++ (xs.drop (start + n)).take (stop - start - n) ++
        f ((xs.drop start).take n) ++ xs.drop stop := by
  rw [onRange_rotateLeft hroom hstop]
  refine onRange_append ?_ ?_ <;>
    · simp only [List.length_append, List.length_take, List.length_drop]
      omega

/-- The elements of a piece move `n` places to the right, over the last of them.
What stands first in it then is changed. -/
theorem onRange_onRange_rotateRight (hroom : start + n ≤ stop) (hstop : stop ≤ xs.length) :
    onRange (onRange xs start stop (·.rotateRight n)) start (start + n) f =
      xs.take start ++ f ((xs.drop (stop - n)).take n) ++
        (xs.drop start).take (stop - start - n) ++ xs.drop stop := by
  rw [onRange_rotateRight hroom hstop, List.append_assoc (_ ++ _)]
  refine onRange_append ?_ ?_ <;>
    · simp only [List.length_append, List.length_take, List.length_drop]
      omega

end Pieces

namespace Row

/-! ## Mending a cut

A cut at a column separates the cells before it from the cells from there
on. It goes through a wide glyph exactly if a right half starts there. -/

/-- The left half before a cut becomes a blank if its right half stands
behind the cut. -/
def mendBefore (row : Row) (cut : Nat) (r : Rendition) : Row :=
  if 0 < cut ∧ row.trailAt cut then row.eraseAt (cut - 1) r else row

/-- A right half behind a cut becomes a blank. -/
def mendAfter (row : Row) (cut : Nat) (r : Rendition) : Row :=
  if row.trailAt cut then row.eraseAt cut r else row

/-! ## Rearranging the cells -/

/-- Blanks in place of the cells from `start` up to `stop`. -/
def overlay (row : Row) (start stop : Nat) (r : Rendition) : Row :=
  { row with cells :=
    row.cells.take start ++ List.replicate (stop - start) (Cell.blank r) ++ row.cells.drop stop }

/-- Blanks at a column, the cells from there on moved right by `n`: they turn
round, and those that come in at the column are blanked. What leaves the row is
lost. -/
def shiftRight (row : Row) (col n : Nat) (r : Rendition) : Row :=
  let turned := onRange row.cells col row.cols (·.rotateRight n)
  { row with cells := onRange turned col (col + n) (·.map fun _ => Cell.blank r) }

/-- The cells behind a gap of `n` at a column moved left into it, blanks at
the end of the row: they turn round, and those that come in at the end are
blanked. -/
def shiftLeft (row : Row) (col n : Nat) (r : Rendition) : Row :=
  let turned := onRange row.cells col row.cols (·.rotateLeft n)
  { row with cells := onRange turned (row.cols - n) row.cols (·.map fun _ => Cell.blank r) }

theorem cells_shiftRight (row : Row) {col n : Nat} (r : Rendition) (h : col + n ≤ row.cols) :
    (row.shiftRight col n r).cells =
      row.cells.take col ++ List.replicate n (Cell.blank r) ++
        (row.cells.drop col).take (row.cols - col - n) := by
  have hlast : ((row.cells.drop (row.cols - n)).take n).length = n := by
    rw [List.length_take, List.length_drop]
    unfold cols at h ⊢
    omega
  refine (onRange_onRange_rotateRight h (Nat.le_refl _)).trans ?_
  have hnone : row.cells.drop row.cols = [] := List.drop_length
  rw [List.map_const', hlast, hnone, List.append_nil]

theorem cells_shiftLeft (row : Row) {col n : Nat} (r : Rendition) (h : col + n ≤ row.cols) :
    (row.shiftLeft col n r).cells =
      row.cells.take col ++ row.cells.drop (col + n) ++ List.replicate n (Cell.blank r) := by
  have hfirst : ((row.cells.drop col).take n).length = n := by
    rw [List.length_take, List.length_drop]
    unfold cols at h
    omega
  have hrest : (row.cells.drop (col + n)).take (row.cols - col - n) = row.cells.drop (col + n) := by
    refine List.take_of_length_le ?_
    rw [List.length_drop, Nat.sub_sub]
    exact Nat.le_refl _
  refine (onRange_onRange_rotateLeft h (Nat.le_refl _)).trans ?_
  have hnone : row.cells.drop row.cols = [] := List.drop_length
  rw [List.map_const', hfirst, hrest, hnone, List.append_nil]

/-! ## The edits -/

/-- Blank the cells from `start` up to `stop`, as far as they lie in the
row. The end of the text is not moved. -/
def blankRange (row : Row) (start stop : Nat) (r : Rendition) : Row :=
  let start := min start row.cols
  let stop := min stop row.cols
  if start < stop then ((row.mendBefore start r).mendAfter stop r).overlay start stop r else row

/-- Insert blanks at a column. Text behind the column moves with its cells,
as far as the row goes; a glyph pushed halfway over the margin is lost. -/
def insertBlanks (row : Row) (col count : Nat) (r : Rendition) : Row :=
  if row.cols ≤ col ∨ count = 0 then row
  else
    let n := min count (row.cols - col)
    let moved := ((row.mendBefore col r).shiftRight col n r).mendAfter (col + n) r
    let moved := moved.eraseLeadAt (row.cols - 1) r
    match row.ending with
    | .hard length =>
      if col < length then { moved with ending := .hard (min (length + n) row.cols) } else moved
    | .wrapped => moved

/-- Delete cells at a column. Text behind the column moves with its cells;
a row whose text wrapped has blanks at its end now, so its text ends where
they begin. -/
def deleteCells (row : Row) (col count : Nat) (r : Rendition) : Row :=
  if row.cols ≤ col ∨ count = 0 then row
  else
    let n := min count (row.cols - col)
    let moved := ((row.mendBefore col r).shiftLeft col n r).mendAfter col r
    { moved with ending := match row.ending with
      | .hard length => if col < length then .hard (max col (length - n)) else .hard length
      | .wrapped => .hard (row.cols - n) }

/-- Number of columns that writing a glyph at a column takes: none if the
glyph has no width, if the column lies outside the row, or if a wide glyph
does not fit. -/
def room [Glyph.Widths] (row : Row) (col : Nat) (glyph : Char) : Nat :=
  let width := Glyph.width glyph
  if col + width ≤ row.cols then width else 0

/-- The wide glyphs of which the columns from `col` on, `span` of them, hold
one half: the other half becomes a blank. -/
def mendSpan (row : Row) (col span : Nat) (r : Rendition) : Row :=
  if (row.mendBefore col r).leadAt (col + span - 1)
  then (row.mendBefore col r).eraseAt (col + span) r
  else row.mendBefore col r

/-- Put a glyph that is `span` columns wide into its cells. -/
def place (row : Row) (col span : Nat) (glyph : Char) (r : Rendition) : Row :=
  { row with cells :=
    if span = 1 then row.cells.set col (Cell.ofGlyph glyph r)
    else (row.cells.set col (Cell.leadOf glyph r)).set (col + 1) (Cell.trailOf r) }

/-- Write a glyph at a column, if there is room for it. Of a wide glyph that
it overwrites by half, the other half becomes a blank. -/
def write [Glyph.Widths] (row : Row) (col : Nat) (glyph : Char) (r : Rendition) : Row :=
  match row.room col glyph with
  | 0 => row
  | span => ((row.mendSpan col span r.blank).place col span glyph r).extendTo (col + span)

/-! ## Widths -/

@[simp] theorem cols_mendBefore (row : Row) (cut : Nat) (r : Rendition) :
    (row.mendBefore cut r).cols = row.cols := by
  unfold mendBefore
  split <;> simp

@[simp] theorem cols_mendAfter (row : Row) (cut : Nat) (r : Rendition) :
    (row.mendAfter cut r).cols = row.cols := by
  unfold mendAfter
  split <;> simp

theorem cols_overlay (row : Row) {start stop : Nat} (r : Rendition) (h : start ≤ stop)
    (h' : stop ≤ row.cols) : (row.overlay start stop r).cols = row.cols := by
  simp only [cols] at h'
  simp only [overlay, cols, List.length_append, List.length_take, List.length_replicate,
    List.length_drop]
  omega

theorem cols_shiftRight (row : Row) {col n : Nat} (r : Rendition) (h : col + n ≤ row.cols) :
    (row.shiftRight col n r).cols = row.cols := by
  unfold cols at h ⊢
  rw [cells_shiftRight row r h]
  simp only [cols, List.length_append, List.length_take, List.length_replicate, List.length_drop]
  omega

theorem cols_shiftLeft (row : Row) {col n : Nat} (r : Rendition) (h : col + n ≤ row.cols) :
    (row.shiftLeft col n r).cols = row.cols := by
  unfold cols at h ⊢
  rw [cells_shiftLeft row r h]
  simp only [List.length_append, List.length_take, List.length_replicate, List.length_drop]
  omega

@[simp] theorem cols_blankRange (row : Row) (start stop : Nat) (r : Rendition) :
    (row.blankRange start stop r).cols = row.cols := by
  unfold blankRange
  dsimp only
  split
  · rw [cols_overlay, cols_mendAfter, cols_mendBefore]
    · omega
    · simp only [cols_mendAfter, cols_mendBefore]
      omega
  · rfl

/-- Inserting keeps the width of the row. -/
@[simp] theorem cols_insertBlanks (row : Row) (col count : Nat) (r : Rendition) :
    (row.insertBlanks col count r).cols = row.cols := by
  have key : col < row.cols → ∀ e : RowEnd,
      ({ ((((row.mendBefore col r).shiftRight col (min count (row.cols - col)) r).mendAfter
        (col + min count (row.cols - col)) r).eraseLeadAt (row.cols - 1) r) with
          ending := e } : Row).cols = row.cols := by
    intro h e
    change ((((row.mendBefore col r).shiftRight col (min count (row.cols - col)) r).mendAfter
        (col + min count (row.cols - col)) r).eraseLeadAt (row.cols - 1) r).cols = row.cols
    rw [cols_eraseLeadAt, cols_mendAfter, cols_shiftRight, cols_mendBefore]
    simp only [cols_mendBefore]
    omega
  unfold insertBlanks
  split
  · rfl
  · rename_i h
    have h : col < row.cols := by omega
    dsimp only
    split
    · split
      · exact key h _
      · exact key h _
    · exact key h _

/-- Deleting keeps the width of the row. -/
@[simp] theorem cols_deleteCells (row : Row) (col count : Nat) (r : Rendition) :
    (row.deleteCells col count r).cols = row.cols := by
  unfold deleteCells
  split
  · rfl
  · change (((row.mendBefore col r).shiftLeft col (min count (row.cols - col)) r).mendAfter
      col r).cols = row.cols
    rw [cols_mendAfter, cols_shiftLeft, cols_mendBefore]
    simp only [cols_mendBefore]
    omega

@[simp] theorem cols_mendSpan (row : Row) (col span : Nat) (r : Rendition) :
    (row.mendSpan col span r).cols = row.cols := by
  unfold mendSpan
  split <;> simp

@[simp] theorem cols_place (row : Row) (col span : Nat) (glyph : Char) (r : Rendition) :
    (row.place col span glyph r).cols = row.cols := by
  unfold place cols
  split <;> simp

/-- Writing keeps the width of the row. -/
@[simp] theorem cols_write [Glyph.Widths] (row : Row) (col : Nat) (glyph : Char) (r : Rendition) :
    (row.write col glyph r).cols = row.cols := by
  unfold write
  split <;> simp

end Row

end VideoTerminal
