import VideoTerminal.Grid
/-!
# What changes a grid

Each operation of a grid is described three times, once for each question
asked of it later: which rows the grid holds then (`Each`), which marks it
still lacks (`Clean`), and which of its rows are the ones it had. The last
two go together: a row that is still clean is the row it was.
-/

namespace VideoTerminal

namespace Grid

/-- Every row of the grid has a property. -/
def Each (p : Row → Prop) (g : Grid) : Prop := ∀ row ∈ g.rows, p row

/-- The row is known not to have changed since the display was drawn. -/
def Clean (g : Grid) (i : Nat) : Prop := g.dirty[i]? = some false

section Rows

variable {p : Row → Prop} {g : Grid}

theorem Each.blank {cols : Nat} {r : Rendition} (h : p (Row.blank cols r)) (height : Nat) :
    (Grid.blank height cols r).Each p := by
  intro row hrow
  rw [List.eq_of_mem_replicate hrow]
  exact h

theorem Each.modifyRow (h : g.Each p) (i : Nat) {f : Row → Row} (hf : ∀ row, p row → p (f row)) :
    (g.modifyRow i f).Each p := by
  intro row hrow
  obtain ⟨j, hj⟩ := List.mem_iff_getElem?.1 hrow
  simp only [Grid.modifyRow, List.getElem?_modify, Option.map_eq_map,
    Option.map_eq_some_iff] at hj
  obtain ⟨old, hold, rfl⟩ := hj
  have hp := h old (List.mem_of_getElem? hold)
  split
  · exact hf old hp
  · exact hp

theorem Each.resetRows (h : g.Each p) (start stop : Nat) {r : Rendition}
    (hr : ∀ row, p row → p (row.reset r)) : (g.resetRows start stop r).Each p := by
  intro row hrow
  simp only [Grid.resetRows, markRange] at hrow
  obtain ⟨i, hi, rfl⟩ := List.mem_mapIdx.1 hrow
  have hp := h _ (List.getElem_mem hi)
  split
  · exact hr _ hp
  · exact hp

theorem Each.fill (h : g.Each p) {glyph : Char} {r : Rendition}
    (hf : ∀ row, p row → p (row.fill glyph r)) : (g.fill glyph r).Each p := by
  intro row hrow
  obtain ⟨old, hold, rfl⟩ := List.mem_map.1 hrow
  exact hf old (h old hold)

theorem Each.scrollUp (h : g.Each p) (top bottom n : Nat) {r : Rendition}
    (hb : p (Row.blank g.cols r)) : (g.scrollUp top bottom n r).Each p := by
  intro row hrow
  rw [g.rows_scrollUp_eq top bottom rfl] at hrow
  simp only [List.mem_append] at hrow
  obtain ((hrow | hrow) | hrow) | hrow := hrow
  · exact h row (List.mem_of_mem_take hrow)
  · exact h row (List.mem_of_mem_drop (List.mem_of_mem_take hrow))
  · rw [List.eq_of_mem_replicate hrow]
    exact hb
  · exact h row (List.mem_of_mem_drop hrow)

theorem Each.scrollDown (h : g.Each p) (top bottom n : Nat) {r : Rendition}
    (hr : ∀ row, p row → p (row.reset r)) : (g.scrollDown top bottom n r).Each p := by
  intro row hrow
  rw [g.rows_scrollDown_eq top bottom rfl] at hrow
  simp only [List.mem_append] at hrow
  obtain ((hrow | hrow) | hrow) | hrow := hrow
  · exact h row (List.mem_of_mem_take hrow)
  · obtain ⟨old, hold, rfl⟩ := List.mem_map.1 hrow
    exact hr old (h old (List.mem_of_mem_drop (List.mem_of_mem_take hold)))
  · exact h row (List.mem_of_mem_drop (List.mem_of_mem_take hrow))
  · exact h row (List.mem_of_mem_drop hrow)

end Rows

/-! ## Marks -/

section Marks

variable (g : Grid)

@[simp] theorem length_dirty_markRange (start stop : Nat) :
    (g.markRange start stop).dirty.length = g.dirty.length := by
  simp [markRange]

@[simp] theorem length_dirty_markAll : g.markAll.dirty.length = g.dirty.length := by
  simp [markAll]

@[simp] theorem length_dirty_clearMarks : g.clearMarks.dirty.length = g.dirty.length := by
  simp [clearMarks]

@[simp] theorem length_dirty_modifyRow (i : Nat) (f : Row → Row) :
    (g.modifyRow i f).dirty.length = g.dirty.length := by
  simp [modifyRow]

@[simp] theorem length_dirty_resetRows (start stop : Nat) (r : Rendition) :
    (g.resetRows start stop r).dirty.length = g.dirty.length := by
  simp [resetRows]

@[simp] theorem length_dirty_fill (glyph : Char) (r : Rendition) :
    (g.fill glyph r).dirty.length = g.dirty.length := by
  simp [fill]

@[simp] theorem length_dirty_scrollUp (top bottom n : Nat) (r : Rendition) :
    (g.scrollUp top bottom n r).dirty.length = g.dirty.length := by
  unfold scrollUp
  dsimp only
  split <;> simp

@[simp] theorem length_dirty_scrollDown (top bottom n : Nat) (r : Rendition) :
    (g.scrollDown top bottom n r).dirty.length = g.dirty.length := by
  unfold scrollDown
  dsimp only
  split <;> simp

@[simp] theorem cols_scrollUp (top bottom n : Nat) (r : Rendition) :
    (g.scrollUp top bottom n r).cols = g.cols := by
  unfold scrollUp
  dsimp only
  split <;> rfl

@[simp] theorem cols_scrollDown (top bottom n : Nat) (r : Rendition) :
    (g.scrollDown top bottom n r).cols = g.cols := by
  unfold scrollDown
  dsimp only
  split <;> rfl

variable {g} {i : Nat}

/-- A row that is neither clean nor outside the marks is dirty. -/
theorem isDirty_of_not_clean (hi : i < g.dirty.length) (h : ¬ g.Clean i) : g.isDirty i = true := by
  unfold Clean at h
  unfold isDirty
  rw [List.getElem?_eq_getElem hi] at h ⊢
  simpa using h

/-- No row is clean once all are marked. -/
theorem not_clean_markAll : ¬ g.markAll.Clean i := by
  unfold Clean markAll
  dsimp only
  rw [List.getElem?_map]
  cases g.dirty[i]? <;> simp

/-- Clean rows were not marked. -/
theorem clean_markRange {start stop : Nat} (h : (g.markRange start stop).Clean i) :
    g.Clean i ∧ ¬ (start ≤ i ∧ i < stop) := by
  unfold Clean markRange at *
  simp only [List.getElem?_mapIdx, Option.map_eq_some_iff, Bool.or_eq_false_iff] at h
  obtain ⟨mark, hmark, rfl, hout⟩ := h
  refine ⟨hmark, fun hin => ?_⟩
  simp [hin] at hout

end Marks

/-! ## Rows that stay

Outside the rows that an operation is about, a grid keeps its rows; and what
it marks is at least what it changes. -/

section Stay

variable {g : Grid} {i : Nat}

theorem rows_modifyRow {row : Nat} {f : Row → Row} (h : i ≠ row) :
    (g.modifyRow row f).rows[i]? = g.rows[i]? := by
  simp only [modifyRow, List.getElem?_modify, if_neg (Ne.symm h), Option.map_eq_map,
    Option.map_id_fun', id]

theorem clean_modifyRow {row : Nat} {f : Row → Row} (h : (g.modifyRow row f).Clean i) :
    g.Clean i ∧ i ≠ row := by
  unfold Clean modifyRow at *
  rw [List.getElem?_set] at h
  split at h
  · split at h <;> simp at h
  · rename_i hne
    exact ⟨h, Ne.symm hne⟩

theorem rows_resetRows {start stop : Nat} {r : Rendition} (h : ¬ (start ≤ i ∧ i < stop)) :
    (g.resetRows start stop r).rows[i]? = g.rows[i]? := by
  simp only [resetRows, markRange, List.getElem?_mapIdx, Bool.and_eq_true, decide_eq_true_eq,
    if_neg h, Option.map_id_fun', id]

theorem clean_resetRows {start stop : Nat} {r : Rendition}
    (h : (g.resetRows start stop r).Clean i) : g.Clean i ∧ ¬ (start ≤ i ∧ i < stop) :=
  clean_markRange (g := { g with rows := _ }) h

/-- Nothing is clean after the whole grid was filled. -/
theorem not_clean_fill {glyph : Char} {r : Rendition} : ¬ (g.fill glyph r).Clean i :=
  not_clean_markAll (g := { g with rows := _ })

/-- Putting as many rows in place of others moves none of those around. -/
theorem getElem?_splice {rows mid : List Row} {top n : Nat} (hmid : mid.length = n)
    (hn : top + n ≤ rows.length) (h : i < top ∨ top + n ≤ i) :
    (rows.take top ++ mid ++ rows.drop (top + n))[i]? = rows[i]? := by
  rcases h with h | h
  · rw [List.append_assoc, List.getElem?_append_left (by rw [List.length_take]; omega),
      List.getElem?_take, if_pos h]
  · rw [List.getElem?_append_right (by rw [List.length_append, List.length_take]; omega),
      List.getElem?_drop]
    congr 1
    rw [List.length_append, List.length_take]
    omega

theorem rows_scrollUp {top bottom n : Nat} {r : Rendition}
    (h : i < top ∨ top + g.extent top bottom ≤ i) :
    (g.scrollUp top bottom n r).rows[i]? = g.rows[i]? := by
  by_cases hnone : g.extent top bottom = 0
  · rw [scrollUp_eq_self (by rw [hnone]; exact Nat.min_zero n)]
  · have hin := (g.extent_le top bottom hnone).1
    rw [g.rows_scrollUp_eq top bottom rfl, List.append_assoc (List.take _ _)]
    refine getElem?_splice ?_ hin h
    simp only [List.length_append, List.length_take, List.length_drop, List.length_replicate]
    omega

theorem rows_scrollDown {top bottom n : Nat} {r : Rendition}
    (h : i < top ∨ top + g.extent top bottom ≤ i) :
    (g.scrollDown top bottom n r).rows[i]? = g.rows[i]? := by
  by_cases hnone : g.extent top bottom = 0
  · rw [scrollDown_eq_self (by rw [hnone]; exact Nat.min_zero n)]
  · have hin := (g.extent_le top bottom hnone).1
    rw [g.rows_scrollDown_eq top bottom rfl, List.append_assoc (List.take _ _)]
    refine getElem?_splice ?_ hin h
    simp only [List.length_append, List.length_take, List.length_drop, List.length_map]
    omega

/-- A scroll that moves anything marks all that it moves. -/
theorem clean_scrollUp_out {top bottom n : Nat} {r : Rendition}
    (hn : min n (g.extent top bottom) ≠ 0) (h : (g.scrollUp top bottom n r).Clean i) :
    g.Clean i ∧ ¬ (top ≤ i ∧ i < top + g.extent top bottom) := by
  unfold scrollUp at h
  rw [if_neg hn] at h
  exact clean_markRange (g := { g with rows := _ }) h

theorem clean_scrollDown_out {top bottom n : Nat} {r : Rendition}
    (hn : min n (g.extent top bottom) ≠ 0) (h : (g.scrollDown top bottom n r).Clean i) :
    g.Clean i ∧ ¬ (top ≤ i ∧ i < top + g.extent top bottom) := by
  unfold scrollDown at h
  rw [if_neg hn] at h
  exact clean_markRange (g := { g with rows := _ }) h

/-- A row that is clean after scrolling up did not scroll. -/
theorem clean_scrollUp {top bottom n : Nat} {r : Rendition}
    (h : (g.scrollUp top bottom n r).Clean i) :
    g.Clean i ∧ (g.scrollUp top bottom n r).rows[i]? = g.rows[i]? := by
  by_cases hn : min n (g.extent top bottom) = 0
  · rw [scrollUp_eq_self hn] at h ⊢
    exact ⟨h, rfl⟩
  · obtain ⟨hclean, hout⟩ := clean_scrollUp_out hn h
    exact ⟨hclean, rows_scrollUp (by omega)⟩

/-- A row that is clean after scrolling down did not scroll. -/
theorem clean_scrollDown {top bottom n : Nat} {r : Rendition}
    (h : (g.scrollDown top bottom n r).Clean i) :
    g.Clean i ∧ (g.scrollDown top bottom n r).rows[i]? = g.rows[i]? := by
  by_cases hn : min n (g.extent top bottom) = 0
  · rw [scrollDown_eq_self hn] at h ⊢
    exact ⟨h, rfl⟩
  · obtain ⟨hclean, hout⟩ := clean_scrollDown_out hn h
    exact ⟨hclean, rows_scrollDown (by omega)⟩

end Stay

end Grid

end VideoTerminal
