import VideoTerminal.Proofs.Row.Pieces
/-!
# Deleting what was inserted

Blanks that were inserted at a column are deleted again. The cells come back to
their places, but not those that were pushed over the right margin meanwhile:
they are blank now, as if they had been blanked, and so is a glyph that was
pushed over it by half. The text ends where these blanks begin, if it reached
that far.
-/

namespace VideoTerminal

namespace Row

/-! ## A column where a glyph starts -/

namespace Paired

variable {cells : List Cell} {col : Nat}

/-- No glyph is cut before a column that holds no right half. -/
theorem mendLast_take_of (h : Paired cells) (hcol : cells[col]?.any Cell.isTrail = false)
    (r : Rendition) : mendLast r (cells.take col) = cells.take col := by
  by_cases hin : col < cells.length
  · refine mendLast_of_last ?_ r
    rw [List.length_take, Nat.min_eq_left (Nat.le_of_lt hin)]
    cases col with
    | zero => rfl
    | succ col =>
      rw [Nat.add_sub_cancel, List.getElem?_take_of_lt (Nat.lt_succ_self col), h.next]
      exact hcol
  · rw [List.take_of_length_le (Nat.le_of_not_lt hin)]
    exact h.mendLast_eq r

/-- Nor behind it. -/
theorem mendHead_drop_of (hcol : cells[col]?.any Cell.isTrail = false) (r : Rendition) :
    mendHead r (cells.drop col) = cells.drop col := by
  refine List.ext_getElem? fun i => ?_
  rw [getElem?_mendHead, if_neg]
  rintro ⟨rfl, htrail⟩
  rw [List.getElem?_drop, Nat.add_zero, hcol] at htrail
  cases htrail

/-- So both sides of it are paired. -/
theorem take_of (h : Paired cells) (hcol : cells[col]?.any Cell.isTrail = false) :
    Paired (cells.take col) :=
  h.mendLast_take_of hcol {} ▸ h.mendLast_take {} col

theorem drop_of (h : Paired cells) (hcol : cells[col]?.any Cell.isTrail = false) :
    Paired (cells.drop col) :=
  mendHead_drop_of hcol {} ▸ h.mendHead_drop {} col

end Paired

variable {row : Row} (r : Rendition) {col count n : Nat}

/-! ## The cells -/

/-- Inserted at the start of a glyph, blanks cut nothing there. -/
theorem cells_insertBlanks_of (h : Paired row.cells) (hcol : col < row.cols)
    (htrail : row.trailAt col = false) (hcount : count ≠ 0) (hn : n = min count (row.cols - col)) :
    (row.insertBlanks col count r).cells =
      row.cells.take col ++ List.replicate n (Cell.blank r) ++
        mendLast r ((row.cells.drop col).take (row.cols - col - n)) := by
  rw [cells_insertBlanks r h hcol hcount hn, h.mendLast_take_of htrail, ← take_mendHead,
    Paired.mendHead_drop_of htrail]

theorem paired_insertBlanks_of (h : Paired row.cells) (hcol : col < row.cols)
    (htrail : row.trailAt col = false) (hcount : count ≠ 0) :
    Paired (row.insertBlanks col count r).cells := by
  rw [cells_insertBlanks_of r h hcol htrail hcount rfl]
  exact ((h.take_of htrail).append (.replicate r _)).append ((h.drop_of htrail).mendLast_take r _)

/-- Deleting the blanks puts the cells behind them to their old places, and as
many blanks behind those. -/
theorem cells_deleteCells_insertBlanks (h : Paired row.cells) (hcol : col < row.cols)
    (htrail : row.trailAt col = false) (hcount : count ≠ 0) (hn : n = min count (row.cols - col)) :
    ((row.insertBlanks col count r).deleteCells col count r).cells =
      row.cells.take col ++ mendLast r ((row.cells.drop col).take (row.cols - col - n)) ++
        List.replicate n (Cell.blank r) := by
  have hcols : (row.insertBlanks col count r).cols = row.cols := cols_insertBlanks row col count r
  have hbefore : (row.cells.take col).length = col := by
    rw [List.length_take]
    exact Nat.min_eq_left (Nat.le_of_lt hcol)
  have hgap : (row.cells.take col ++ List.replicate n (Cell.blank r)).length = col + n := by
    rw [List.length_append, hbefore, List.length_replicate]
  have hfront : (row.cells.take col ++ List.replicate n (Cell.blank r) ++
      mendLast r ((row.cells.drop col).take (row.cols - col - n))).take col =
        row.cells.take col := by
    rw [List.append_assoc, List.take_left' hbefore]
  have hend : mendHead r (mendLast r ((row.cells.drop col).take (row.cols - col - n))) =
      mendLast r ((row.cells.drop col).take (row.cols - col - n)) := by
    -- it starts with no right half, since none was at the column
    have hwhole := Paired.mendHead_drop_of
      ((h.drop_of htrail).mendLast_take r (row.cols - col - n)).first r
    exact hwhole
  have hn' : n = min count ((row.insertBlanks col count r).cols - col) := by rwa [hcols]
  have hpaired := paired_insertBlanks_of r h hcol htrail hcount
  rw [cells_deleteCells r hpaired (by rwa [hcols]) hcount hn',
    cells_insertBlanks_of r h hcol htrail hcount hn, hfront, List.drop_left' hgap,
    h.mendLast_take_of htrail, hend]

/-- Blanked at the right margin, the row loses the same cells. -/
theorem cells_blankRange_end (h : Paired row.cells) (hcol : col < row.cols)
    (htrail : row.trailAt col = false) (hn : n ≤ row.cols - col) (hpos : 0 < n) :
    (row.blankRange (row.cols - n) row.cols r).cells =
      row.cells.take col ++ mendLast r ((row.cells.drop col).take (row.cols - col - n)) ++
        List.replicate n (Cell.blank r) := by
  have hstart : min (row.cols - n) row.cols = row.cols - n := Nat.min_eq_left (Nat.sub_le _ _)
  have hlost : row.cols - (row.cols - n) = n := by omega
  have hcut : row.cells.take (row.cols - n) =
      row.cells.take col ++ (row.cells.drop col).take (row.cols - col - n) := by
    rw [← List.take_add]
    congr 1
    omega
  have hbehind : mendHead r (row.cells.drop row.cols) = [] := by
    have hnone : row.cells.drop row.cols = [] := List.drop_eq_nil_of_le (Nat.le_refl _)
    rw [hnone]
    rfl
  rw [cells_blankRange r h (by omega), Nat.min_self, hstart, hlost, hcut, hbehind, List.append_nil,
    mendLast_append_of fun _ => h.mendLast_take_of htrail r]

/-! ## The end of the text -/

theorem ending_insertBlanks (hcol : col < row.cols) (hcount : count ≠ 0)
    (hn : n = min count (row.cols - col)) :
    (row.insertBlanks col count r).ending =
      match row.ending with
      | .hard length => .hard (if col < length then min (length + n) row.cols else length)
      | .wrapped => .wrapped := by
  subst hn
  unfold insertBlanks
  rw [if_neg (by omega)]
  dsimp only
  cases hending : row.ending with
  | hard length =>
    dsimp only
    split
    · rfl
    · simp only [ending_eraseLeadAt, ending_mendAfter, ending_shiftRight, ending_mendBefore,
        hending]
  | wrapped =>
    simp only [ending_eraseLeadAt, ending_mendAfter, ending_shiftRight, ending_mendBefore, hending]

theorem ending_deleteCells (hcol : col < row.cols) (hcount : count ≠ 0)
    (hn : n = min count (row.cols - col)) :
    (row.deleteCells col count r).ending =
      match row.ending with
      | .hard length => .hard (if col < length then max col (length - n) else length)
      | .wrapped => .hard (row.cols - n) := by
  subst hn
  unfold deleteCells
  rw [if_neg (by omega)]
  dsimp only
  cases row.ending with
  | hard length => exact (apply_ite RowEnd.hard _ _ _).symm
  | wrapped => rfl

/-- The text grows by the blanks, as far as the margin, and shrinks by them
again. -/
theorem ending_deleteCells_insertBlanks (hcol : col < row.cols) (hcount : count ≠ 0)
    (hn : n = min count (row.cols - col)) :
    ((row.insertBlanks col count r).deleteCells col count r).ending =
      (row.clipTo (row.cols - n)).ending := by
  have hcols : (row.insertBlanks col count r).cols = row.cols := cols_insertBlanks row col count r
  have hmargin : min (row.cols - n) row.cols = row.cols - n := Nat.min_eq_left (Nat.sub_le _ _)
  have hn' : n = min count ((row.insertBlanks col count r).cols - col) := by rwa [hcols]
  rw [ending_deleteCells r (by rwa [hcols]) hcount hn', ending_insertBlanks r hcol hcount hn, hcols]
  unfold clipTo
  rw [hmargin]
  cases row.ending with
  | hard length =>
    refine congrArg RowEnd.hard ?_
    by_cases hlong : col < length
    · rw [if_pos hlong, if_pos (by omega)]
      omega
    · rw [if_neg hlong, if_neg hlong]
      omega
  | wrapped => rfl

/-! ## Both -/

/-- **Deleting what was inserted gives the row back up to the right margin**:
what was pushed over the margin is blank, and the text ends before it. -/
theorem deleteCells_insertBlanks (h : Paired row.cells) (hcol : col < row.cols)
    (htrail : row.trailAt col = false) (hcount : 1 ≤ count) :
    let n := min count (row.cols - col)
    (row.insertBlanks col count r).deleteCells col count r =
      (row.blankRange (row.cols - n) row.cols r).clipTo (row.cols - n) := by
  intro n
  have hcount' : count ≠ 0 := Nat.ne_of_gt hcount
  have hcells := (cells_deleteCells_insertBlanks r h hcol htrail hcount' rfl).trans
    (cells_blankRange_end r h hcol htrail (Nat.min_le_right _ _)
      (show 0 < min count (row.cols - col) by omega)).symm
  have hending : ((row.insertBlanks col count r).deleteCells col count r).ending =
      ((row.blankRange (row.cols - n) row.cols r).clipTo (row.cols - n)).ending := by
    rw [ending_deleteCells_insertBlanks r hcol hcount' rfl]
    unfold clipTo
    rw [ending_blankRange, cols_blankRange]
  exact congr (congrArg Row.mk hcells) hending

/-- A wide glyph at the end of a row that goes on in the next one is pushed over
the margin by half. The letter before it comes back, and it does not. -/
theorem deleteCells_insertBlanks_halved :
    let row : Row := ⟨[Cell.ofGlyph 'a' {}] ++ Cell.halves 2 '\u3042' {}, .wrapped⟩
    (Paired row.cells ∧ 0 < row.cols ∧ row.trailAt 0 = false) ∧
      (row.insertBlanks 0 1 {}).deleteCells 0 1 {} = (row.blankRange 2 3 {}).clipTo 2 ∧
      (row.blankRange 2 3 {}).clipTo 2 =
        ⟨[Cell.ofGlyph 'a' {}, Cell.blank {}, Cell.blank {}], .hard 2⟩ := by
  intro row
  have hpaired : Paired row.cells := (Paired.ofGlyph 'a' {}).append (.halves 2 '\u3042' {})
  have hcol : 0 < row.cols := by decide
  exact ⟨⟨hpaired, hcol, rfl⟩, deleteCells_insertBlanks {} hpaired hcol rfl (Nat.le_refl 1),
    by decide⟩

end Row

end VideoTerminal
