import VideoTerminal.Row.Edit
/-!
# Rows on a machine

A machine counts in numbers without sign and of bounded size, and looks for a
cell in a place that has to be there. Here the edits of a row are written with
every such step as one that may fail: a difference, an index, a piece of the
row (`Checked`). None of them does, whatever the row and the place (`Row`).
-/

namespace VideoTerminal

namespace Checked

variable {α : Type} {a b : Nat} {xs : List α} {start stop : Nat}

/-- A difference, which must not be negative. -/
def sub (a b : Nat) : Option Nat := if b ≤ a then some (a - b) else none

/-- A sum of 8 bits. -/
def add8 (a b : Nat) : Option Nat := if a + b < 256 then some (a + b) else none

/-- A sum of 16 bits. -/
def add16 (a b : Nat) : Option Nat := if a + b < 65536 then some (a + b) else none

/-- A sum of 32 bits. -/
def add32 (a b : Nat) : Option Nat := if a + b < 4294967296 then some (a + b) else none

/-- A sum with a sign, of 32 bits. -/
def addSigned (a b : Int) : Option Int :=
  if -2147483648 ≤ a + b ∧ a + b < 2147483648 then some (a + b) else none

/-- A number that has to fit into 16 bits. -/
def to16 (a : Nat) : Option Nat := if a < 65536 then some a else none

/-- A number that has to fit into 32 bits. -/
def to32 (a : Nat) : Option Nat := if a < 4294967296 then some a else none

/-- The piece from one place up to another, both in the list and in order. -/
def slice (xs : List α) (start stop : Nat) : Option (List α) :=
  if start ≤ stop ∧ stop ≤ xs.length then some ((xs.take stop).drop start) else none

/-- The piece from one place up to another changed. -/
def within (xs : List α) (start stop : Nat) (f : List α → Option (List α)) :
    Option (List α) := do
  let piece ← f (← slice xs start stop)
  pure (xs.take start ++ piece ++ xs.drop stop)

/-- A list turned round to the left, by no more places than there are. -/
def turnLeft (n : Nat) (xs : List α) : Option (List α) :=
  if n ≤ xs.length then some (xs.rotateLeft n) else none

/-- A list turned round to the right, by no more places than there are. -/
def turnRight (n : Nat) (xs : List α) : Option (List α) :=
  if n ≤ xs.length then some (xs.rotateRight n) else none

theorem sub_eq (h : b ≤ a) : sub a b = some (a - b) := if_pos h

theorem add8_eq (h : a + b < 256) : add8 a b = some (a + b) := if_pos h

theorem add16_eq (h : a + b < 65536) : add16 a b = some (a + b) := if_pos h

theorem add32_eq (h : a + b < 4294967296) : add32 a b = some (a + b) := if_pos h

theorem addSigned_eq {a b : Int} (h : -2147483648 ≤ a + b) (h' : a + b < 2147483648) :
    addSigned a b = some (a + b) := if_pos ⟨h, h'⟩

theorem to16_eq (h : a < 65536) : to16 a = some a := if_pos h

theorem to32_eq (h : a < 4294967296) : to32 a = some a := if_pos h

theorem slice_eq (h : start ≤ stop) (h' : stop ≤ xs.length) :
    slice xs start stop = some ((xs.take stop).drop start) := if_pos ⟨h, h'⟩

theorem within_eq {f : List α → Option (List α)} {f' : List α → List α} (h : start ≤ stop)
    (h' : stop ≤ xs.length)
    (hf : ∀ piece, piece.length = stop - start → f piece = some (f' piece)) :
    within xs start stop f = some (onRange xs start stop f') := by
  unfold within
  rw [slice_eq h h', Option.bind_eq_bind, Option.bind_some, hf _ (length_piece start h')]
  rfl

theorem within_map (h : start ≤ stop) (h' : stop ≤ xs.length) (f : α → α) :
    within xs start stop (fun piece => pure (piece.map f)) =
      some (onRange xs start stop (·.map f)) :=
  within_eq h h' fun _ _ => rfl

theorem within_turnLeft {n : Nat} (h : start + n ≤ stop) (h' : stop ≤ xs.length) :
    within xs start stop (turnLeft n) = some (onRange xs start stop (·.rotateLeft n)) :=
  within_eq (by omega) h' fun _ hlength => if_pos (by omega)

theorem within_turnRight {n : Nat} (h : start + n ≤ stop) (h' : stop ≤ xs.length) :
    within xs start stop (turnRight n) = some (onRange xs start stop (·.rotateRight n)) :=
  within_eq (by omega) h' fun _ hlength => if_pos (by omega)

theorem length_onRange_rotateLeft {n : Nat} (h : start + n ≤ stop) (h' : stop ≤ xs.length) :
    (onRange xs start stop (·.rotateLeft n)).length = xs.length := by
  rw [onRange_rotateLeft h h']
  simp only [List.length_append, List.length_take, List.length_drop]
  omega

theorem length_onRange_rotateRight {n : Nat} (h : start + n ≤ stop) (h' : stop ≤ xs.length) :
    (onRange xs start stop (·.rotateRight n)).length = xs.length := by
  rw [onRange_rotateRight h h']
  simp only [List.length_append, List.length_take, List.length_drop]
  omega

/-- What is done with every element of a list fails for none of them. -/
theorem mapM_eq {β : Type} {f : α → Option β} {f' : α → β}
    (hf : ∀ x ∈ xs, f x = some (f' x)) : xs.mapM f = some (xs.map f') := by
  induction xs with
  | nil => rfl
  | cons x xs ih =>
    rw [List.mapM_cons, hf x List.mem_cons_self, ih fun y hy => hf y (List.mem_cons_of_mem x hy)]
    rfl

/-- What is done step by step fails at no step, if each step can be done and
keeps what it takes to do the next one. -/
theorem foldlM_eq {β : Type} {p : β → Prop} {f : β → α → Option β} {f' : β → α → β}
    (hf : ∀ b x, p b → f b x = some (f' b x) ∧ p (f' b x)) {b : β} (hb : p b) (xs : List α) :
    xs.foldlM f b = some (xs.foldl f' b) := by
  induction xs generalizing b with
  | nil => rfl
  | cons x xs ih =>
    obtain ⟨hstep, hnext⟩ := hf b x hb
    rw [List.foldlM_cons, hstep]
    exact ih hnext

end Checked

namespace Row

open Checked

variable {row : Row} {col cut n : Nat}

/-! ## Single cells -/

/-- Replace the cell at a column, which has to be there, by a blank. -/
def eraseAtChecked (row : Row) (col : Nat) (r : Rendition) : Option Row := do
  let _ ← row.cells[col]?
  pure (row.eraseAt col r)

/-- Replace a left half at a column by a blank. -/
def eraseLeadAtChecked (row : Row) (col : Nat) (r : Rendition) : Option Row := do
  if (← row.cells[col]?).isLead then row.eraseAtChecked col r else pure row

/-- Mend what stands before a cut. -/
def mendBeforeChecked (row : Row) (cut : Nat) (r : Rendition) : Option Row := do
  if 0 < cut then
    if (← row.cells[cut]?).isTrail then row.eraseAtChecked (← sub cut 1) r else pure row
  else pure row

/-- Mend what stands behind a cut. -/
def mendAfterChecked (row : Row) (cut : Nat) (r : Rendition) : Option Row := do
  if (← row.cells[cut]?).isTrail then row.eraseAtChecked cut r else pure row

theorem eraseAtChecked_eq (h : col < row.cols) (r : Rendition) :
    row.eraseAtChecked col r = some (row.eraseAt col r) := by
  unfold eraseAtChecked
  rw [List.getElem?_eq_getElem h]
  rfl

theorem eraseLeadAtChecked_eq (h : col < row.cols) (r : Rendition) :
    row.eraseLeadAtChecked col r = some (row.eraseLeadAt col r) := by
  have hcell := List.getElem?_eq_getElem h
  have hlead : row.leadAt col = row.cells[col].isLead := by rw [leadAt, hcell]; rfl
  unfold eraseLeadAtChecked eraseLeadAt
  simp only [hcell, hlead, eraseAtChecked_eq h, Option.bind_eq_bind, Option.bind_some]
  split <;> rfl

theorem mendBeforeChecked_eq (h : cut < row.cols) (r : Rendition) :
    row.mendBeforeChecked cut r = some (row.mendBefore cut r) := by
  have hcell := List.getElem?_eq_getElem h
  have htrail : row.trailAt cut = row.cells[cut].isTrail := by rw [trailAt, hcell]; rfl
  unfold mendBeforeChecked mendBefore
  by_cases hpos : 0 < cut
  · simp only [hpos, hcell, htrail, sub_eq (Nat.succ_le_of_lt hpos),
      eraseAtChecked_eq (show cut - 1 < row.cols by omega), Option.bind_eq_bind, Option.bind_some,
      true_and, ite_true]
    split <;> rfl
  · rw [if_neg hpos, if_neg fun h => hpos h.1]
    rfl

theorem mendAfterChecked_eq (h : cut < row.cols) (r : Rendition) :
    row.mendAfterChecked cut r = some (row.mendAfter cut r) := by
  have hcell := List.getElem?_eq_getElem h
  have htrail : row.trailAt cut = row.cells[cut].isTrail := by rw [trailAt, hcell]; rfl
  unfold mendAfterChecked mendAfter
  simp only [hcell, htrail, eraseAtChecked_eq h, Option.bind_eq_bind, Option.bind_some]
  split <;> rfl

/-- Behind the row there is nothing to mend. -/
theorem mendAfter_of_cols_le (h : row.cols ≤ cut) (r : Rendition) : row.mendAfter cut r = row := by
  unfold mendAfter trailAt
  rw [List.getElem?_eq_none h]
  rfl

/-- Mend what stands behind a cut, if there is anything. -/
def mendTailChecked (row : Row) (cut : Nat) (r : Rendition) : Option Row :=
  if cut < row.cols then row.mendAfterChecked cut r else pure row

theorem mendTailChecked_eq (row : Row) (cut : Nat) (r : Rendition) :
    row.mendTailChecked cut r = some (row.mendAfter cut r) := by
  unfold mendTailChecked
  split
  · exact mendAfterChecked_eq (by assumption) r
  · rw [mendAfter_of_cols_le (by omega)]
    rfl

/-! ## The edits -/

/-- Blanks in place of the cells from `start` up to `stop`. -/
def overlayChecked (row : Row) (start stop : Nat) (r : Rendition) : Option Row := do
  let cells ← within row.cells start stop fun piece => pure (piece.map fun _ => Cell.blank r)
  pure { row with cells }

/-- Blanks at a column: the cells from there on turn round by `n`, and the first
`n` of them are blanked then. -/
def shiftRightChecked (row : Row) (col n : Nat) (r : Rendition) : Option Row := do
  let cells ← within row.cells col row.cols (turnRight n)
  { row with cells }.overlayChecked col (col + n) r

/-- Cells moved left: the cells from a column on turn round by `n`, and the last
`n` of the row are blanked then. -/
def shiftLeftChecked (row : Row) (col n : Nat) (r : Rendition) : Option Row := do
  let cells ← within row.cells col row.cols (turnLeft n)
  { row with cells }.overlayChecked (← sub row.cols n) row.cols r

/-- Blank the cells from `start` up to `stop`. -/
def blankRangeChecked (row : Row) (start stop : Nat) (r : Rendition) : Option Row := do
  let start := min start row.cols
  let stop := min stop row.cols
  if start < stop then
    let mended ← row.mendBeforeChecked start r
    let mended ← mended.mendTailChecked stop r
    mended.overlayChecked start stop r
  else pure row

/-- Insert blanks. -/
def insertBlanksChecked (row : Row) (col count : Nat) (r : Rendition) : Option Row := do
  if row.cols ≤ col ∨ count = 0 then pure row
  else
    let n := min count (← sub row.cols col)
    let _ ← row.cells[col]?
    let mended ← row.mendBeforeChecked col r
    let moved ← (← mended.shiftRightChecked col n r).mendTailChecked (col + n) r
    let moved ← moved.eraseLeadAtChecked (← sub row.cols 1) r
    match row.ending with
    | .hard length =>
      pure (if col < length then { moved with ending := .hard (min (length + n) row.cols) }
        else moved)
    | .wrapped => pure moved

/-- Delete cells. -/
def deleteCellsChecked (row : Row) (col count : Nat) (r : Rendition) : Option Row := do
  if row.cols ≤ col ∨ count = 0 then pure row
  else
    let n := min count (← sub row.cols col)
    let _ ← row.cells[col]?
    let mended ← row.mendBeforeChecked col r
    let moved ← (← mended.shiftLeftChecked col n r).mendAfterChecked col r
    match row.ending with
    | .hard length =>
      if col < length then
        pure { moved with ending := .hard (max col (← sub length (min n length))) }
      else pure { moved with ending := .hard length }
    | .wrapped => pure { moved with ending := .hard (← sub row.cols n) }

/-- Mend what a span cuts. Behind the margin there is nothing to mend. -/
def mendSpanChecked (row : Row) (col span : Nat) (r : Rendition) : Option Row := do
  let mended ← row.mendBeforeChecked col r
  let last ← sub (col + span) 1
  let cut := (← mended.cells[last]?).isLead
  if cut = true ∧ last + 1 < row.cols then mended.eraseAtChecked (last + 1) r else pure mended

/-- Write a glyph, if there is room for it. -/
def writeChecked [Glyph.Widths] (row : Row) (col : Nat) (glyph : Char) (r : Rendition) :
    Option Row := do
  let span := row.room col glyph
  if span = 0 then pure row
  else
    let _ ← row.cells[col]?
    let mended ← row.mendSpanChecked col span r.blank
    let _ ← mended.cells[col]?
    let _ ← mended.cells[col + span - 1]?
    pure ((mended.place col span glyph r).extendTo (col + span))

/-- The row at another width: as many cells as both have are copied. -/
def resizedChecked (row : Row) (cols : Nat) (r : Rendition) : Option Row := do
  let keep := min row.cols cols
  let cells ← within (Row.blank cols r).cells 0 keep fun _ => slice row.cells 0 keep
  let copied := { row.cutTo cols r with cells }
  if 0 < keep ∧ keep < row.cols then copied.eraseLeadAtChecked (← sub keep 1) r
  else pure copied

theorem overlayChecked_eq {start stop : Nat} (h : start ≤ stop) (h' : stop ≤ row.cols)
    (r : Rendition) :
    row.overlayChecked start stop r =
      some { row with cells := onRange row.cells start stop (·.map fun _ => Cell.blank r) } := by
  unfold overlayChecked
  rw [within_map h h']
  rfl

/-- The cells of a range, each of them blanked. -/
theorem onRange_blank {start stop : Nat} (h' : stop ≤ row.cols) (r : Rendition) :
    ({ row with cells := onRange row.cells start stop (·.map fun _ => Cell.blank r) } : Row) =
      row.overlay start stop r := by
  unfold onRange overlay
  dsimp only
  rw [List.map_const', length_piece start h']

theorem shiftRightChecked_eq (h : col + n ≤ row.cols) (r : Rendition) :
    row.shiftRightChecked col n r = some (row.shiftRight col n r) := by
  have hlength := length_onRange_rotateRight h (Nat.le_refl row.cols)
  unfold shiftRightChecked
  rw [within_turnRight h (Nat.le_refl _), Option.bind_eq_bind, Option.bind_some]
  refine overlayChecked_eq (Nat.le_add_right col n) ?_ r
  exact Nat.le_trans h (Nat.le_of_eq hlength.symm)

theorem shiftLeftChecked_eq (h : col + n ≤ row.cols) (r : Rendition) :
    row.shiftLeftChecked col n r = some (row.shiftLeft col n r) := by
  have hlength := length_onRange_rotateLeft h (Nat.le_refl row.cols)
  unfold shiftLeftChecked
  rw [within_turnLeft h (Nat.le_refl _), Option.bind_eq_bind, Option.bind_some,
    sub_eq (show n ≤ row.cols by omega)]
  exact overlayChecked_eq (Nat.sub_le _ _) (Nat.le_of_eq hlength.symm) r

theorem blankRangeChecked_eq (row : Row) (start stop : Nat) (r : Rendition) :
    row.blankRangeChecked start stop r = some (row.blankRange start stop r) := by
  unfold blankRangeChecked blankRange
  dsimp only
  split
  · rename_i hlt
    have hstop : min stop row.cols ≤
        ((row.mendBefore (min start row.cols) r).mendAfter (min stop row.cols) r).cols := by
      rw [cols_mendAfter, cols_mendBefore]
      exact Nat.min_le_right _ _
    simp only [mendBeforeChecked_eq (show min start row.cols < row.cols by omega),
      mendTailChecked_eq, overlayChecked_eq (Nat.le_of_lt hlt) hstop, onRange_blank hstop,
      Option.bind_eq_bind, Option.bind_some]
  · rfl

theorem insertBlanksChecked_eq (row : Row) (col count : Nat) (r : Rendition) :
    row.insertBlanksChecked col count r = some (row.insertBlanks col count r) := by
  unfold insertBlanksChecked insertBlanks
  split
  · rfl
  · rename_i hin
    have hcol : col < row.cols := by omega
    have hwidth : (row.mendBefore col r).cols = row.cols := cols_mendBefore row col r
    have hroom : col + min count (row.cols - col) ≤ row.cols := by omega
    simp only [sub_eq (Nat.le_of_lt hcol), Option.bind_eq_bind, Option.bind_some]
    generalize min count (row.cols - col) = n at hroom ⊢
    have hroom : col + n ≤ (row.mendBefore col r).cols := hwidth.symm ▸ hroom
    have hshift : ((row.mendBefore col r).shiftRight col n r).cols = row.cols :=
      (cols_shiftRight _ r hroom).trans hwidth
    have hlast : row.cols - 1 <
        (((row.mendBefore col r).shiftRight col n r).mendAfter (col + n) r).cols := by
      rw [cols_mendAfter, hshift]
      omega
    simp only [List.getElem?_eq_getElem hcol, mendBeforeChecked_eq hcol,
      shiftRightChecked_eq hroom, mendTailChecked_eq, sub_eq (show 1 ≤ row.cols by omega),
      eraseLeadAtChecked_eq hlast, Option.bind_some]
    cases row.ending with
    | hard length => rfl
    | wrapped => rfl

theorem deleteCellsChecked_eq (row : Row) (col count : Nat) (r : Rendition) :
    row.deleteCellsChecked col count r = some (row.deleteCells col count r) := by
  unfold deleteCellsChecked deleteCells
  split
  · rfl
  · rename_i hin
    have hcol : col < row.cols := by omega
    have hwidth : (row.mendBefore col r).cols = row.cols := cols_mendBefore row col r
    have hroom : col + min count (row.cols - col) ≤ row.cols := by omega
    simp only [sub_eq (Nat.le_of_lt hcol), Option.bind_eq_bind, Option.bind_some]
    generalize min count (row.cols - col) = n at hroom ⊢
    have hfits : col + n ≤ (row.mendBefore col r).cols := hwidth.symm ▸ hroom
    have hshift : ((row.mendBefore col r).shiftLeft col n r).cols = row.cols :=
      (cols_shiftLeft _ r hfits).trans hwidth
    simp only [List.getElem?_eq_getElem hcol, mendBeforeChecked_eq hcol,
      shiftLeftChecked_eq hfits, sub_eq (show n ≤ row.cols by omega),
      mendAfterChecked_eq (hshift.symm ▸ hcol), Option.bind_some]
    cases row.ending with
    | hard length =>
      dsimp only
      split
      · rw [sub_eq (Nat.min_le_right _ _)]
        have hless : length - min n length = length - n := by omega
        simp [hless]
      · rfl
    | wrapped => rfl

/-- There is room only within the row. -/
theorem add_room_le [Glyph.Widths] {glyph : Char} (h : row.room col glyph ≠ 0) :
    col + row.room col glyph ≤ row.cols := by
  unfold room at h ⊢
  dsimp only at h ⊢
  split at h
  · rename_i hle
    rwa [if_pos hle]
  · exact absurd rfl h

/-- What is behind the margin cannot be erased. -/
theorem eraseAt_of_cols_le (h : row.cols ≤ col) (r : Rendition) : row.eraseAt col r = row := by
  unfold eraseAt
  rw [List.set_eq_of_length_le h]

theorem mendSpanChecked_eq {span : Nat} (hpos : 0 < span) (hfits : col + span ≤ row.cols)
    (r : Rendition) : row.mendSpanChecked col span r = some (row.mendSpan col span r) := by
  have hwidth : (row.mendBefore col r).cols = row.cols := cols_mendBefore row col r
  have hlast : col + span - 1 < (row.mendBefore col r).cols := by omega
  have hcell := List.getElem?_eq_getElem hlast
  have hlead : (row.mendBefore col r).leadAt (col + span - 1) =
      ((row.mendBefore col r).cells[col + span - 1]).isLead := by rw [leadAt, hcell]; rfl
  have hnext : col + span - 1 + 1 = col + span := by omega
  unfold mendSpanChecked mendSpan
  simp only [mendBeforeChecked_eq (show col < row.cols by omega),
    sub_eq (show 1 ≤ col + span by omega), hcell, hlead, hnext, Option.bind_eq_bind,
    Option.bind_some]
  by_cases hout : col + span < row.cols
  · rw [eraseAtChecked_eq (hwidth.symm ▸ hout)]
    simp only [hout, and_true]
    split <;> rfl
  · rw [if_neg fun h => hout h.2, eraseAt_of_cols_le (by omega), ite_self]
    rfl

theorem writeChecked_eq [Glyph.Widths] (row : Row) (col : Nat) (glyph : Char) (r : Rendition) :
    row.writeChecked col glyph r = some (row.write col glyph r) := by
  unfold writeChecked write
  dsimp only
  cases hspan : row.room col glyph with
  | zero => rfl
  | succ n =>
    have hfits : col + (n + 1) ≤ row.cols := hspan ▸ add_room_le (hspan ▸ Nat.succ_ne_zero n)
    have hwidth := cols_mendSpan row col (n + 1) r.blank
    have hin : col < row.cols := by omega
    have hfirst : col < (row.mendSpan col (n + 1) r.blank).cols := by omega
    have hlast : col + (n + 1) - 1 < (row.mendSpan col (n + 1) r.blank).cols := by omega
    simp only [Nat.succ_ne_zero, ite_false, List.getElem?_eq_getElem hin,
      mendSpanChecked_eq (Nat.succ_pos n) hfits, List.getElem?_eq_getElem hfirst,
      List.getElem?_eq_getElem hlast, Option.bind_eq_bind, Option.bind_some]
    rfl

/-- The cells that both widths have are copied over blank ones. -/
theorem within_copied (row : Row) (cols : Nat) (r : Rendition) :
    within (Row.blank cols r).cells 0 (min row.cols cols)
      (fun _ => slice row.cells 0 (min row.cols cols)) = some (row.cutTo cols r).cells := by
  have hkeep : min row.cols cols ≤ (Row.blank cols r).cells.length := by
    rw [show (Row.blank cols r).cells.length = cols from cols_blank cols r]
    exact Nat.min_le_right _ _
  rw [within_eq (Nat.zero_le _) hkeep fun _ _ =>
    slice_eq (Nat.zero_le _) (Nat.min_le_left row.cols cols)]
  have htake : row.cells.take (min row.cols cols) = row.cells.take cols := by
    rw [Nat.min_comm]
    exact List.take_eq_take_min.symm
  have hrest : cols - min row.cols cols = cols - row.cols := by omega
  unfold onRange blank cutTo
  dsimp only
  rw [List.take_zero, List.nil_append, List.drop_zero, List.drop_replicate, htake, hrest]

theorem resizedChecked_eq (row : Row) (cols : Nat) (r : Rendition) :
    row.resizedChecked cols r = some (row.resized cols r) := by
  unfold resizedChecked resized
  simp only [within_copied, Option.bind_eq_bind, Option.bind_some]
  by_cases hcut : 0 < cols ∧ cols < row.cols
  · have hmin : min row.cols cols = cols := Nat.min_eq_right (Nat.le_of_lt hcut.2)
    have hlast : cols - 1 < (row.cutTo cols r).cols := by
      rw [cols_cutTo]
      omega
    rw [hmin, if_pos hcut, if_pos hcut, sub_eq (Nat.succ_le_of_lt hcut.1)]
    exact eraseLeadAtChecked_eq hlast r
  · rw [if_neg hcut, if_neg (by omega)]
    rfl

end Row

end VideoTerminal
