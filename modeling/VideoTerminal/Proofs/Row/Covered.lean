import VideoTerminal.Proofs.Row.Tiled
/-!
# Text covers its row

The end of the text of a row is kept beside its cells, and every edit moves
both on its own account. They never come apart: behind the end of the text a
row is bare (`Covered`). A cell is bare if it shows nothing and is half of
nothing, so the text never ends inside a glyph either. Edits only move cells
about and put blanks between them, and for each one it is enough to know from
which column on it leaves the row bare (`BareFrom`).
-/

namespace VideoTerminal

/-- The cell shows nothing, and is half of nothing. -/
structure Cell.Bare (c : Cell) : Prop where
  glyph : c.glyph = ' '
  lead : c.isLead = false
  trail : c.isTrail = false

theorem Cell.bare_blank (r : Rendition) : (Cell.blank r).Bare := ⟨rfl, rfl, rfl⟩

namespace Row

variable {row : Row} {col n k : Nat}

/-! ## Where the text ends -/

/-- The text of a row with the same cells and the same end is as long. -/
theorem textLength_congr {row' : Row} (hcols : row'.cols = row.cols)
    (hending : row'.ending = row.ending) : row'.textLength = row.textLength := by
  unfold textLength
  rw [hcols, hending]

theorem textLength_of_hard {row : Row} {n : Nat} (h : row.ending = .hard n) :
    row.textLength = min n row.cols := by
  unfold textLength
  rw [h]

theorem textLength_of_wrapped {row : Row} (h : row.ending = .wrapped) :
    row.textLength = row.cols := by
  unfold textLength
  rw [h]

theorem textLength_extendTo (row : Row) (n : Nat) :
    (row.extendTo n).textLength = max row.textLength (min n row.cols) := by
  cases h : row.ending with
  | hard m =>
    have hextend : row.extendTo n = { row with ending := .hard (max m (min n row.cols)) } := by
      unfold extendTo
      rw [h]
    rw [hextend, textLength_of_hard h]
    change min (max m (min n row.cols)) row.cols = _
    omega
  | wrapped =>
    have hextend : row.extendTo n = row := by
      unfold extendTo
      rw [h]
    rw [hextend, textLength_of_wrapped h]
    omega

theorem textLength_clipTo (row : Row) (n : Nat) :
    (row.clipTo n).textLength = min row.textLength n := by
  cases h : row.ending with
  | hard m =>
    have hclip : (row.clipTo n).ending = .hard (min m (min n row.cols)) := by
      unfold clipTo
      rw [h]
    rw [textLength_of_hard hclip, textLength_of_hard h, cols_clipTo]
    omega
  | wrapped =>
    have hclip : (row.clipTo n).ending = .hard (min n row.cols) := by
      unfold clipTo
      rw [h]
    rw [textLength_of_hard hclip, textLength_of_wrapped h, cols_clipTo]
    omega

/-! ## Bare from a column on -/

/-- Every cell from a column on is bare. -/
def BareFrom (row : Row) (n : Nat) : Prop :=
  ∀ (i : Nat) (c : Cell), n ≤ i → row.cells[i]? = some c → c.Bare

namespace BareFrom

theorem mono (h : row.BareFrom n) (hle : n ≤ k) : row.BareFrom k :=
  fun i c hi hc => h i c (Nat.le_trans hle hi) hc

/-- There are no cells behind a row. -/
theorem of_cols_le (h : row.cols ≤ n) : row.BareFrom n := by
  intro i c hi hc
  have hlt : i < row.cols := (List.getElem?_eq_some_iff.1 hc).1
  omega

/-- A row with the same cells. -/
theorem of_eq {row' : Row} (h : row.BareFrom n) (hcells : row'.cells = row.cells) :
    row'.BareFrom n := by
  intro i c hi hc
  rw [hcells] at hc
  exact h i c hi hc

theorem blank (cols : Nat) (r : Rendition) (n : Nat) : (Row.blank cols r).BareFrom n := by
  intro i c _ hc
  rw [List.eq_of_mem_replicate (List.mem_of_getElem? hc)]
  exact Cell.bare_blank r

/-! ### Mending -/

theorem eraseAt (h : row.BareFrom n) (col : Nat) (r : Rendition) :
    (row.eraseAt col r).BareFrom n := by
  intro i c hi hc
  change (row.cells.set col (Cell.blank r))[i]? = some c at hc
  rw [List.getElem?_set] at hc
  split at hc
  · split at hc
    · cases hc
      exact Cell.bare_blank r
    · cases hc
  · exact h i c hi hc

theorem eraseLeadAt (h : row.BareFrom n) (col : Nat) (r : Rendition) :
    (row.eraseLeadAt col r).BareFrom n := by
  unfold Row.eraseLeadAt
  split
  · exact h.eraseAt col r
  · exact h

theorem mendBefore (h : row.BareFrom n) (cut : Nat) (r : Rendition) :
    (row.mendBefore cut r).BareFrom n := by
  unfold Row.mendBefore
  split
  · exact h.eraseAt _ r
  · exact h

theorem mendAfter (h : row.BareFrom n) (cut : Nat) (r : Rendition) :
    (row.mendAfter cut r).BareFrom n := by
  unfold Row.mendAfter
  split
  · exact h.eraseAt cut r
  · exact h

theorem mendSpan (h : row.BareFrom n) (col span : Nat) (r : Rendition) :
    (row.mendSpan col span r).BareFrom n := by
  unfold Row.mendSpan
  split
  · exact (h.mendBefore col r).eraseAt _ r
  · exact h.mendBefore col r

/-! ### Moving cells -/

theorem overlay (h : row.BareFrom n) {start stop : Nat} (hle : start ≤ stop)
    (hstop : stop ≤ row.cols) (r : Rendition) : (row.overlay start stop r).BareFrom n := by
  intro i c hi hc
  have hstart : (row.cells.take start).length = start := by
    rw [List.length_take]
    exact Nat.min_eq_left (Nat.le_trans hle hstop)
  change (row.cells.take start ++ List.replicate (stop - start) (Cell.blank r) ++
    row.cells.drop stop)[i]? = some c at hc
  rw [List.append_assoc, List.getElem?_append, hstart] at hc
  split at hc
  · -- before the range
    rw [List.getElem?_take_of_lt (by assumption)] at hc
    exact h i c hi hc
  · rw [List.getElem?_append, List.length_replicate] at hc
    split at hc
    · rw [List.eq_of_mem_replicate (List.mem_of_getElem? hc)]
      exact Cell.bare_blank r
    · -- behind it no cell moved
      rw [List.getElem?_drop] at hc
      exact h _ c (by omega) hc

/-- Cells that move right take the bare ones along. -/
theorem shiftRight (h : row.BareFrom n) {k : Nat} (hroom : col + k ≤ row.cols) (r : Rendition) :
    (row.shiftRight col k r).BareFrom (if col < n then n + k else n) := by
  intro i c hi hc
  have hlen : (row.cells.take col).length = col := by
    rw [List.length_take]
    exact Nat.min_eq_left (Nat.le_trans (Nat.le_add_right col k) hroom)
  have hle : n ≤ if col < n then n + k else n := by
    split <;> omega
  rw [cells_shiftRight row r hroom, List.append_assoc, List.getElem?_append, hlen] at hc
  split at hc
  · rw [List.getElem?_take_of_lt (by assumption)] at hc
    exact h i c (Nat.le_trans hle hi) hc
  · rw [List.getElem?_append, List.length_replicate] at hc
    split at hc
    · rw [List.eq_of_mem_replicate (List.mem_of_getElem? hc)]
      exact Cell.bare_blank r
    · -- this cell stood `k` columns before
      obtain ⟨hlt, -⟩ := List.getElem?_eq_some_iff.1 hc
      rw [List.length_take] at hlt
      rw [List.getElem?_take_of_lt (by omega), List.getElem?_drop] at hc
      refine h _ c ?_ hc
      split at hi <;> omega

/-- Cells that move left bring the bare ones nearer, but not before the
column. -/
theorem shiftLeft (h : row.BareFrom n) {k : Nat} (hroom : col + k ≤ row.cols) (r : Rendition) :
    (row.shiftLeft col k r).BareFrom (if col < n then max col (n - k) else n) := by
  intro i c hi hc
  have hlen : (row.cells.take col).length = col := by
    rw [List.length_take]
    exact Nat.min_eq_left (Nat.le_trans (Nat.le_add_right col k) hroom)
  rw [cells_shiftLeft row r hroom, List.append_assoc, List.getElem?_append, hlen] at hc
  split at hc
  · rw [List.getElem?_take_of_lt (by assumption)] at hc
    refine h i c ?_ hc
    split at hi <;> omega
  · rw [List.getElem?_append] at hc
    split at hc
    · -- this cell stood `k` columns behind
      rw [List.getElem?_drop] at hc
      refine h _ c ?_ hc
      split at hi <;> omega
    · rw [List.eq_of_mem_replicate (List.mem_of_getElem? hc)]
      exact Cell.bare_blank r

theorem cutTo (h : row.BareFrom n) (cols : Nat) (r : Rendition) :
    (row.cutTo cols r).BareFrom n := by
  intro i c hi hc
  change (row.cells.take cols ++ List.replicate (cols - row.cols) (Cell.blank r))[i]? = some c at hc
  rw [List.getElem?_append] at hc
  split at hc
  · rename_i hlt
    rw [List.length_take] at hlt
    rw [List.getElem?_take_of_lt (by omega)] at hc
    exact h i c hi hc
  · rw [List.eq_of_mem_replicate (List.mem_of_getElem? hc)]
    exact Cell.bare_blank r

/-- A glyph is put before the bare cells. -/
theorem place (h : row.BareFrom n) {span : Nat} (hspan : col + span ≤ n) (hpos : 0 < span)
    (glyph : Char) (r : Rendition) : (row.place col span glyph r).BareFrom n := by
  intro i c hi hc
  unfold Row.place at hc
  dsimp only at hc
  split at hc
  · rw [List.getElem?_set_ne (by omega)] at hc
    exact h i c hi hc
  · rw [List.getElem?_set_ne (by omega), List.getElem?_set_ne (by omega)] at hc
    exact h i c hi hc

end BareFrom

/-! ## Covered rows -/

/-- Behind the end of its text the row is bare. -/
def Covered (row : Row) : Prop := row.BareFrom row.textLength

namespace Covered

/-- An edit that leaves the end of the text alone, and bare what was bare. -/
theorem of_bareFrom {row' : Row} (h : row'.BareFrom row.textLength)
    (hcols : row'.cols = row.cols) (hending : row'.ending = row.ending) : row'.Covered := by
  unfold Covered
  rw [textLength_congr hcols hending]
  exact h

theorem blankRange (h : row.Covered) (start stop : Nat) (r : Rendition) :
    (row.blankRange start stop r).Covered := by
  refine of_bareFrom ?_ (cols_blankRange row start stop r) (ending_blankRange row r start stop)
  unfold Row.blankRange
  dsimp only
  split
  · rename_i hlt
    refine BareFrom.overlay ((BareFrom.mendBefore h _ r).mendAfter _ r) (Nat.le_of_lt hlt) ?_ r
    rw [cols_mendAfter, cols_mendBefore]
    exact Nat.min_le_right _ _
  · exact h

/-- From the column where a row is blanked to its end, it is bare. -/
theorem bareFrom_blankRange (row : Row) (col : Nat) (r : Rendition) :
    (row.blankRange col row.cols r).BareFrom col := by
  unfold Row.blankRange
  dsimp only
  rw [Nat.min_self]
  split
  · rename_i hlt
    rw [Nat.min_eq_left (by omega)]
    intro i c hi hc
    generalize hmended : (row.mendBefore col r).mendAfter row.cols r = mended at hc
    have hlen : mended.cols = row.cols := by
      rw [← hmended, cols_mendAfter, cols_mendBefore]
    change (mended.cells.take col ++ List.replicate (row.cols - col) (Cell.blank r) ++
      mended.cells.drop row.cols)[i]? = some c at hc
    -- nothing stands behind the range
    have hnone : mended.cells.drop row.cols = [] := List.drop_eq_nil_of_le (Nat.le_of_eq hlen)
    rw [hnone, List.append_nil, List.getElem?_append_right (by rw [List.length_take]; omega)] at hc
    rw [List.eq_of_mem_replicate (List.mem_of_getElem? hc)]
    exact Cell.bare_blank r
  · exact BareFrom.of_cols_le (by omega)

theorem eraseToEnd (h : row.Covered) (col : Nat) (r : Rendition) :
    ((row.blankRange col row.cols r).clipTo col).Covered := by
  unfold Covered
  rw [textLength_clipTo]
  -- the text ends where it did, or where the blanks begin
  rcases Nat.le_total (row.blankRange col row.cols r).textLength col with hle | hle
  · rw [Nat.min_eq_left hle]
    exact BareFrom.of_eq (h.blankRange col row.cols r) rfl
  · rw [Nat.min_eq_right hle]
    exact BareFrom.of_eq (bareFrom_blankRange row col r) rfl

theorem insertBlanks (h : row.Covered) (col count : Nat) (r : Rendition) :
    (row.insertBlanks col count r).Covered := by
  have hcols := cols_insertBlanks row col count r
  unfold Row.insertBlanks at hcols ⊢
  split
  · exact h
  · rename_i hin
    rw [if_neg hin] at hcols
    dsimp only at hcols ⊢
    have hroom : col + min count (row.cols - col) ≤ (row.mendBefore col r).cols := by
      rw [cols_mendBefore]
      omega
    generalize min count (row.cols - col) = n at hcols hroom ⊢
    have hmoved : ((((row.mendBefore col r).shiftRight col n r).mendAfter (col + n)
        r).eraseLeadAt (row.cols - 1) r).BareFrom
          (if col < row.textLength then row.textLength + n else row.textLength) := by
      refine BareFrom.eraseLeadAt (BareFrom.mendAfter ?_ _ r) _ r
      exact BareFrom.shiftRight (BareFrom.mendBefore h col r) hroom r
    cases hending : row.ending with
    | hard length =>
      rw [hending] at hcols
      dsimp only at hcols ⊢
      have htext := textLength_of_hard hending
      split at hcols
      · rename_i hlt
        rw [if_pos hlt]
        unfold Covered
        rw [textLength_of_hard rfl, hcols]
        rw [if_pos (by omega)] at hmoved
        by_cases hroom : length + n ≤ row.cols
        · exact BareFrom.mono (BareFrom.of_eq hmoved rfl) (by omega)
        · exact BareFrom.of_cols_le (by omega)
      · rename_i hge
        rw [if_neg hge]
        rw [if_neg (by omega)] at hmoved
        exact of_bareFrom hmoved hcols (by simp)
    | wrapped =>
      rw [hending] at hcols
      dsimp only at hcols ⊢
      unfold Covered
      rw [textLength_of_wrapped (by simpa using hending)]
      exact BareFrom.of_cols_le (Nat.le_refl _)

theorem deleteCells (h : row.Covered) (col count : Nat) (r : Rendition) :
    (row.deleteCells col count r).Covered := by
  unfold Row.deleteCells
  split
  · exact h
  · rename_i hin
    dsimp only
    have hroom : col + min count (row.cols - col) ≤ row.cols := by omega
    generalize min count (row.cols - col) = n at hroom ⊢
    have hwidth : (((row.mendBefore col r).shiftLeft col n r).mendAfter col r).cols = row.cols := by
      rw [cols_mendAfter, cols_shiftLeft _ r (by rwa [cols_mendBefore]), cols_mendBefore]
    have hmoved : (((row.mendBefore col r).shiftLeft col n r).mendAfter col r).BareFrom
        (if col < row.textLength then max col (row.textLength - n) else row.textLength) := by
      refine BareFrom.mendAfter (BareFrom.shiftLeft (BareFrom.mendBefore h col r) ?_ r) _ r
      rwa [cols_mendBefore]
    generalize ((row.mendBefore col r).shiftLeft col n r).mendAfter col r = moved at hwidth hmoved
    -- wherever the text ends now, the row is bare from there on
    have hends : ∀ e : RowEnd,
        (if col < row.textLength then max col (row.textLength - n) else row.textLength) ≤
          ({ moved with ending := e } : Row).textLength →
        ({ moved with ending := e } : Row).Covered :=
      fun e hle => BareFrom.mono (BareFrom.of_eq hmoved rfl) hle
    have hlength : ∀ length, ({ moved with ending := .hard length } : Row).textLength =
        min length row.cols := fun length => hwidth ▸ textLength_of_hard rfl
    cases hending : row.ending with
    | hard length =>
      have htext := textLength_of_hard hending
      dsimp only
      split
      · refine hends _ ?_
        rw [hlength]
        split <;> omega
      · refine hends _ ?_
        rw [hlength]
        split <;> omega
    | wrapped =>
      have htext := textLength_of_wrapped hending
      refine hends _ ?_
      rw [hlength]
      split <;> omega

theorem write [Glyph.Widths] (h : row.Covered) (col : Nat) (glyph : Char) (r : Rendition) :
    (row.write col glyph r).Covered := by
  unfold Row.write
  split
  · exact h
  · rename_i span hspan
    have hpos : 0 < row.room col glyph := Nat.pos_of_ne_zero fun h0 => hspan h0
    have hfits : col + row.room col glyph ≤ row.cols := by
      unfold room at hpos ⊢
      dsimp only at hpos ⊢
      split at hpos
      · rename_i hle
        rw [if_pos hle]
        exact hle
      · cases hpos
    have htext : ((row.mendSpan col (row.room col glyph) r.blank).place col
        (row.room col glyph) glyph r).textLength = row.textLength :=
      textLength_congr (by simp) (by simp)
    have hcols : ((row.mendSpan col (row.room col glyph) r.blank).place col
        (row.room col glyph) glyph r).cols = row.cols := by simp
    unfold Covered
    rw [textLength_extendTo, htext, hcols]
    refine BareFrom.of_eq ?_ (cells_extendTo _ _)
    refine BareFrom.place (BareFrom.mono (BareFrom.mendSpan h col _ r.blank) ?_) ?_ hpos glyph r
    · exact Nat.le_max_left _ _
    · omega

theorem resized (h : row.Covered) (n : Nat) (r : Rendition) : (row.resized n r).Covered := by
  have hcut : (row.cutTo n r).Covered := by
    unfold Covered
    cases hending : row.ending with
    | hard length =>
      have htext := textLength_of_hard hending
      have hcutEnding : (row.cutTo n r).ending = .hard (min length n) := by
        unfold Row.cutTo
        rw [hending]
      rw [textLength_of_hard hcutEnding, cols_cutTo]
      by_cases hle : length ≤ n
      · exact BareFrom.mono (BareFrom.cutTo h n r) (by omega)
      · exact BareFrom.of_cols_le (by rw [cols_cutTo]; omega)
    | wrapped =>
      have hcutEnding : (row.cutTo n r).ending = .wrapped := by
        unfold Row.cutTo
        rw [hending]
      rw [textLength_of_wrapped hcutEnding]
      exact BareFrom.of_cols_le (Nat.le_refl _)
  unfold Row.resized
  split
  · exact of_bareFrom (BareFrom.eraseLeadAt hcut _ r) (by simp) (by simp)
  · exact hcut

end Covered

/-- **Every edit leaves a row bare behind its text**, whatever the tables say
about widths. -/
theorem law_covered [Glyph.Widths] : Law fun _ row => row.Covered where
  blank cols r := BareFrom.blank cols r _
  reset r _ := BareFrom.blank _ r _
  fill r _ := BareFrom.of_cols_le (by
    rw [textLength_of_hard rfl, cols_fill]
    exact Nat.le_of_eq (Nat.min_self _).symm)
  wrapped _ := BareFrom.of_cols_le (Nat.le_of_eq (textLength_of_wrapped rfl).symm)
  write col glyph r h := h.write col glyph r
  insertBlanks col n r h := h.insertBlanks col n r
  deleteCells col n r h := h.deleteCells col n r
  blankRange start stop r h := h.blankRange start stop r
  eraseToEnd col r h := h.eraseToEnd col r
  resized r _ h := h.resized _ r

/-! ## What covered rows are good for -/

namespace Covered

/-- The text does not end inside a glyph. -/
theorem trailAt_textLength (h : row.Covered) : row.trailAt row.textLength = false := by
  unfold trailAt
  cases hcell : row.cells[row.textLength]? with
  | none => rfl
  | some c => exact (h _ c (Nat.le_refl _) hcell).trail

/-- A row without text shows nothing. -/
theorem isBlank_iff_ending (h : row.Covered) : row.isBlank = true ↔ row.ending = .hard 0 := by
  unfold isBlank
  rw [Bool.and_eq_true, beq_iff_eq, and_iff_left_iff_imp]
  intro hending
  rw [List.all_eq_true]
  intro c hc
  obtain ⟨i, hi⟩ := List.getElem?_of_mem hc
  have htext : row.textLength = 0 := by
    rw [textLength_of_hard hending]
    exact Nat.zero_min _
  rw [(h i c (by omega) hi).glyph]
  rfl

end Covered

end Row

end VideoTerminal
