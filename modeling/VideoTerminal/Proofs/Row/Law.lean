import VideoTerminal.Row.Edit
/-!
# What holds of every row

A screen changes its rows by a handful of edits. A property of rows that
each of them keeps holds of every row a terminal ever shows or remembers:
`Row.Law` lists the edits, and what is proved of a run once holds of every
property that obeys the law. Two properties are shown to obey it here: that
a row has its width and ends within it (`Fits`), and that none of its cells
shows a line break (`Unbroken`).
-/

namespace VideoTerminal

namespace Row

/-- A property of rows of a given width that no edit of a screen breaks. The
one composite is erasing to the end, which blanks the cells and moves the
end of the text in front of them. -/
structure Law [Glyph.Widths] (P : Nat → Row → Prop) : Prop where
  blank (cols : Nat) (r : Rendition) : P cols (blank cols r)
  reset {cols : Nat} {row : Row} (r : Rendition) : P cols row → P cols (row.reset r)
  fill {cols : Nat} {row : Row} (r : Rendition) : P cols row → P cols (row.fill 'E' r)
  wrapped {cols : Nat} {row : Row} : P cols row → P cols (row.withEnd .wrapped)
  write {cols : Nat} {row : Row} (col : Nat) (glyph : Char) (r : Rendition) :
    P cols row → P cols (row.write col glyph r)
  insertBlanks {cols : Nat} {row : Row} (col n : Nat) (r : Rendition) :
    P cols row → P cols (row.insertBlanks col n r)
  deleteCells {cols : Nat} {row : Row} (col n : Nat) (r : Rendition) :
    P cols row → P cols (row.deleteCells col n r)
  blankRange {cols : Nat} {row : Row} (start stop : Nat) (r : Rendition) :
    P cols row → P cols (row.blankRange start stop r)
  eraseToEnd {cols : Nat} {row : Row} (col : Nat) (r : Rendition) :
    P cols row → P cols ((row.blankRange col row.cols r).clipTo col)
  resized {cols n : Nat} {row : Row} (r : Rendition) :
    0 < n → P cols row → P n (row.resized n r)

/-! ## Mending leaves the end of the text alone -/

section Ending

variable (row : Row) (r : Rendition)

@[simp] theorem ending_eraseAt (col : Nat) : (row.eraseAt col r).ending = row.ending := rfl

@[simp] theorem ending_eraseLeadAt (col : Nat) :
    (row.eraseLeadAt col r).ending = row.ending := by
  unfold eraseLeadAt
  split <;> rfl

@[simp] theorem ending_mendBefore (cut : Nat) : (row.mendBefore cut r).ending = row.ending := by
  unfold mendBefore
  split <;> rfl

@[simp] theorem ending_mendAfter (cut : Nat) : (row.mendAfter cut r).ending = row.ending := by
  unfold mendAfter
  split <;> rfl

@[simp] theorem ending_overlay (start stop : Nat) :
    (row.overlay start stop r).ending = row.ending := rfl

@[simp] theorem ending_shiftRight (col n : Nat) :
    (row.shiftRight col n r).ending = row.ending := rfl

@[simp] theorem ending_blankRange (start stop : Nat) :
    (row.blankRange start stop r).ending = row.ending := by
  unfold blankRange
  dsimp only
  split <;> simp

@[simp] theorem ending_mendSpan (col span : Nat) :
    (row.mendSpan col span r).ending = row.ending := by
  unfold mendSpan
  split <;> simp

@[simp] theorem ending_place (col span : Nat) (glyph : Char) :
    (row.place col span glyph r).ending = row.ending := rfl

end Ending

/-! ## Rows of their width -/

/-- The row is as wide as it should be, and its text ends within it. -/
structure Fits (cols : Nat) (row : Row) : Prop where
  width : row.cols = cols
  within : ∀ n, row.ending = .hard n → n ≤ cols

namespace Fits

variable {cols : Nat} {row row' : Row}

/-- An edit that moves no end keeps the text within the row. -/
theorem of_ending_eq (h : Fits cols row) (hw : row'.cols = row.cols)
    (he : row'.ending = row.ending) : Fits cols row' :=
  ⟨hw.trans h.width, fun n hn => h.within n (he ▸ hn)⟩

theorem blank (cols : Nat) (r : Rendition) : Fits cols (Row.blank cols r) := by
  refine ⟨cols_blank cols r, fun n hn => ?_⟩
  cases hn
  exact Nat.zero_le cols

theorem extendTo (h : Fits cols row) (col : Nat) : Fits cols (row.extendTo col) := by
  refine ⟨(cols_extendTo row col).trans h.width, fun n hn => ?_⟩
  have hw := h.width
  unfold Row.extendTo at hn
  split at hn
  · rename_i m hm
    cases hn
    have hm := h.within m hm
    omega
  · exact h.within n hn

theorem clipTo (h : Fits cols row) (col : Nat) : Fits cols (row.clipTo col) := by
  refine ⟨h.width, fun n hn => ?_⟩
  have hw := h.width
  unfold Row.clipTo at hn
  dsimp only at hn
  split at hn <;> cases hn <;> omega

theorem insertBlanks (h : Fits cols row) (col n : Nat) (r : Rendition) :
    Fits cols (row.insertBlanks col n r) := by
  refine ⟨(cols_insertBlanks row col n r).trans h.width, fun m hm => ?_⟩
  have hw := h.width
  unfold Row.insertBlanks at hm
  split at hm
  · exact h.within m hm
  · dsimp only at hm
    split at hm
    · split at hm
      · cases hm
        omega
      · exact h.within m (by simpa using hm)
    · exact h.within m (by simpa using hm)

theorem deleteCells (h : Fits cols row) (col n : Nat) (r : Rendition) :
    Fits cols (row.deleteCells col n r) := by
  refine ⟨(cols_deleteCells row col n r).trans h.width, fun m hm => ?_⟩
  have hw := h.width
  unfold Row.deleteCells at hm
  split at hm
  · exact h.within m hm
  · rename_i hcol
    dsimp only at hm
    split at hm
    · rename_i length hlength
      have hl := h.within length hlength
      split at hm <;> cases hm <;> omega
    · cases hm
      omega

theorem write [Glyph.Widths] (h : Fits cols row) (col : Nat) (glyph : Char) (r : Rendition) :
    Fits cols (row.write col glyph r) := by
  unfold Row.write
  split
  · exact h
  · exact (h.of_ending_eq (by simp) (by simp)).extendTo _

/-- Whatever a row was, at another width it fits. -/
theorem resized (row : Row) (n : Nat) (r : Rendition) : Fits n (row.resized n r) := by
  have hcut : Fits n (row.cutTo n r) := by
    refine ⟨cols_cutTo row n r, fun m hm => ?_⟩
    unfold Row.cutTo at hm
    dsimp only at hm
    split at hm <;> cases hm
    omega
  unfold Row.resized
  split
  · exact hcut.of_ending_eq (by simp) (by simp)
  · exact hcut

end Fits

/-- **Every edit leaves a row its width, with its text inside.** -/
theorem law_fits [Glyph.Widths] : Law Fits where
  blank := Fits.blank
  reset r h := by
    rw [← h.width]
    exact Fits.blank _ r
  fill r h := ⟨by rw [cols_fill, h.width], fun n hn => by
    cases hn
    exact Nat.le_of_eq h.width⟩
  wrapped h := ⟨h.width, fun n hn => by cases hn⟩
  write col glyph r h := h.write col glyph r
  insertBlanks col n r h := h.insertBlanks col n r
  deleteCells col n r h := h.deleteCells col n r
  blankRange start stop r h := h.of_ending_eq (by simp) (by simp)
  eraseToEnd col r h := (h.of_ending_eq (by simp) (by simp)).clipTo col
  resized r _ _ := Fits.resized _ _ r

/-! ## Cells that come from a row or are blank

Most edits only move cells about and put blanks between them, so what holds
of every blank and of every cell of a row holds of every cell afterwards. -/

/-- Every cell of the row has a property. -/
def Each (p : Cell → Prop) (row : Row) : Prop := ∀ c ∈ row.cells, p c

namespace Each

variable {p : Cell → Prop} {row : Row}

theorem blank (hp : ∀ r, p (Cell.blank r)) (cols : Nat) (r : Rendition) :
    (Row.blank cols r).Each p := by
  intro c hc
  rw [List.eq_of_mem_replicate hc]
  exact hp r

theorem eraseAt (hp : ∀ r, p (Cell.blank r)) (h : row.Each p) (col : Nat) (r : Rendition) :
    (row.eraseAt col r).Each p := by
  intro c hc
  rcases List.mem_or_eq_of_mem_set hc with hc | rfl
  · exact h c hc
  · exact hp r

theorem eraseLeadAt (hp : ∀ r, p (Cell.blank r)) (h : row.Each p) (col : Nat) (r : Rendition) :
    (row.eraseLeadAt col r).Each p := by
  unfold Row.eraseLeadAt
  split
  · exact h.eraseAt hp col r
  · exact h

theorem mendBefore (hp : ∀ r, p (Cell.blank r)) (h : row.Each p) (cut : Nat) (r : Rendition) :
    (row.mendBefore cut r).Each p := by
  unfold Row.mendBefore
  split
  · exact h.eraseAt hp (cut - 1) r
  · exact h

theorem mendAfter (hp : ∀ r, p (Cell.blank r)) (h : row.Each p) (cut : Nat) (r : Rendition) :
    (row.mendAfter cut r).Each p := by
  unfold Row.mendAfter
  split
  · exact h.eraseAt hp cut r
  · exact h

theorem overlay (hp : ∀ r, p (Cell.blank r)) (h : row.Each p) (start stop : Nat)
    (r : Rendition) : (row.overlay start stop r).Each p := by
  intro c hc
  rcases List.mem_append.1 hc with hc | hc
  · rcases List.mem_append.1 hc with hc | hc
    · exact h c (List.mem_of_mem_take hc)
    · rw [List.eq_of_mem_replicate hc]
      exact hp r
  · exact h c (List.mem_of_mem_drop hc)

theorem shiftRight (hp : ∀ r, p (Cell.blank r)) (h : row.Each p) {col n : Nat}
    (hroom : col + n ≤ row.cols) (r : Rendition) : (row.shiftRight col n r).Each p := by
  intro c hc
  rw [cells_shiftRight row r hroom] at hc
  rcases List.mem_append.1 hc with hc | hc
  · rcases List.mem_append.1 hc with hc | hc
    · exact h c (List.mem_of_mem_take hc)
    · rw [List.eq_of_mem_replicate hc]
      exact hp r
  · exact h c (List.mem_of_mem_drop (List.mem_of_mem_take hc))

theorem shiftLeft (hp : ∀ r, p (Cell.blank r)) (h : row.Each p) {col n : Nat}
    (hroom : col + n ≤ row.cols) (r : Rendition) : (row.shiftLeft col n r).Each p := by
  intro c hc
  rw [cells_shiftLeft row r hroom] at hc
  rcases List.mem_append.1 hc with hc | hc
  · rcases List.mem_append.1 hc with hc | hc
    · exact h c (List.mem_of_mem_take hc)
    · exact h c (List.mem_of_mem_drop hc)
  · rw [List.eq_of_mem_replicate hc]
    exact hp r

theorem blankRange (hp : ∀ r, p (Cell.blank r)) (h : row.Each p) (start stop : Nat)
    (r : Rendition) : (row.blankRange start stop r).Each p := by
  unfold Row.blankRange
  dsimp only
  split
  · exact ((h.mendBefore hp _ r).mendAfter hp _ r).overlay hp _ _ r
  · exact h

theorem insertBlanks (hp : ∀ r, p (Cell.blank r)) (h : row.Each p) (col n : Nat)
    (r : Rendition) : (row.insertBlanks col n r).Each p := by
  unfold Row.insertBlanks
  split
  · exact h
  · have hroom : col + min n (row.cols - col) ≤ (row.mendBefore col r).cols := by
      rw [cols_mendBefore]
      omega
    have hmoved := (((h.mendBefore hp col r).shiftRight hp hroom r).mendAfter hp
      (col + min n (row.cols - col)) r).eraseLeadAt hp (row.cols - 1) r
    dsimp only
    split
    · split
      · exact hmoved
      · exact hmoved
    · exact hmoved

theorem deleteCells (hp : ∀ r, p (Cell.blank r)) (h : row.Each p) (col n : Nat)
    (r : Rendition) : (row.deleteCells col n r).Each p := by
  unfold Row.deleteCells
  split
  · exact h
  · have hroom : col + min n (row.cols - col) ≤ (row.mendBefore col r).cols := by
      rw [cols_mendBefore]
      omega
    exact ((h.mendBefore hp col r).shiftLeft hp hroom r).mendAfter hp col r

theorem extendTo (h : row.Each p) (col : Nat) : (row.extendTo col).Each p := by
  unfold Row.extendTo
  split <;> exact h

theorem cutTo (hp : ∀ r, p (Cell.blank r)) (h : row.Each p) (n : Nat) (r : Rendition) :
    (row.cutTo n r).Each p := by
  intro c hc
  rcases List.mem_append.1 hc with hc | hc
  · exact h c (List.mem_of_mem_take hc)
  · rw [List.eq_of_mem_replicate hc]
    exact hp r

theorem resized (hp : ∀ r, p (Cell.blank r)) (h : row.Each p) (n : Nat) (r : Rendition) :
    (row.resized n r).Each p := by
  unfold Row.resized
  split
  · exact (h.cutTo hp n r).eraseLeadAt hp _ r
  · exact h.cutTo hp n r

end Each

/-! ## Rows without line breaks -/

/-- No cell shows a line break. -/
def Unbroken (row : Row) : Prop := row.Each fun c => c.glyph ≠ '\n'

theorem glyph_blank_ne_newline (r : Rendition) : (Cell.blank r).glyph ≠ '\n' := by
  rw [Cell.glyph_blank]
  decide

section LineBreaks

variable [Glyph.Widths]

/-- A glyph is only written if it fills some column, and a line break fills
none. -/
theorem Unbroken.write {row : Row} (hnewline : Glyph.width '\n' = 0) (h : row.Unbroken) (col : Nat)
    (glyph : Char) (r : Rendition) : (row.write col glyph r).Unbroken := by
  unfold Row.write
  split
  · exact h
  · rename_i span hspan
    have hglyph : glyph ≠ '\n' := by
      rintro rfl
      apply hspan
      unfold Row.room
      simp [hnewline]
    have hmend : (row.mendSpan col (row.room col glyph) r.blank).Unbroken := by
      unfold Row.mendSpan
      split
      · exact (Each.mendBefore glyph_blank_ne_newline h col r.blank).eraseAt
          glyph_blank_ne_newline _ _
      · exact Each.mendBefore glyph_blank_ne_newline h col r.blank
    refine Each.extendTo (fun c hc => ?_) _
    unfold Row.place at hc
    dsimp only at hc
    split at hc
    · rcases List.mem_or_eq_of_mem_set hc with hc | rfl
      · exact hmend c hc
      · exact hglyph
    · rcases List.mem_or_eq_of_mem_set hc with hc | rfl
      · rcases List.mem_or_eq_of_mem_set hc with hc | rfl
        · exact hmend c hc
        · exact hglyph
      · exact glyph_blank_ne_newline r

/-- **No line break ever stands in a row.** -/
theorem law_unbroken (hnewline : Glyph.width '\n' = 0) : Law fun _ row => row.Unbroken where
  blank cols r := Each.blank glyph_blank_ne_newline cols r
  reset r _ := Each.blank glyph_blank_ne_newline _ r
  fill r _ := by
    intro c hc
    rw [List.eq_of_mem_replicate hc]
    change 'E' ≠ '\n'
    decide
  wrapped h := h
  write col glyph r h := h.write hnewline col glyph r
  insertBlanks col n r h := Each.insertBlanks glyph_blank_ne_newline h col n r
  deleteCells col n r h := Each.deleteCells glyph_blank_ne_newline h col n r
  blankRange start stop r h := Each.blankRange glyph_blank_ne_newline h start stop r
  eraseToEnd col r h := Each.blankRange glyph_blank_ne_newline h col _ r
  resized r _ h := Each.resized glyph_blank_ne_newline h _ r

end LineBreaks

/-! ## The mark that a text goes on -/

/-- The same row, but for the mark that its text goes on in the next one. -/
def MarkedFrom (row' row : Row) : Prop := row' = row ∨ row' = row.withEnd .wrapped

theorem MarkedFrom.trans {row row' row'' : Row} (h : row'.MarkedFrom row)
    (h' : row''.MarkedFrom row') : row''.MarkedFrom row := by
  rcases h with rfl | rfl
  · exact h'
  · rcases h' with rfl | rfl
    · exact Or.inr rfl
    · exact Or.inr rfl

/-- A mark on a row that has it already changes nothing. -/
theorem withEnd_wrapped {row : Row} (h : row.isWrapped = true) : row.withEnd .wrapped = row := by
  obtain ⟨cells, ending⟩ := row
  have hending : ending = .wrapped := by simpa [isWrapped] using h
  subst hending
  rfl

end Row

end VideoTerminal
