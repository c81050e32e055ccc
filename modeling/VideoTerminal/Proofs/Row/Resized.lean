import VideoTerminal.Proofs.Row.Tiled
/-!
# Rows at another width

What a row keeps when its width changes: at its own width it is the row it
was, a blank row stays blank, and the text in the columns that it had before
and has afterwards is the same (`textBefore`).
-/

namespace VideoTerminal

namespace Row

/-- The text in the first `k` columns. Of a wide glyph that they cut in half
they show a blank. -/
def textBefore (row : Row) (k : Nat) : List Char :=
  ({ cells := mendLast {} (row.cells.take k) } : Row).glyphs

/-- A row at its own width is the row itself. -/
theorem resized_self {cols : Nat} {row : Row} (h : Fits cols row) (r : Rendition) :
    row.resized cols r = row := by
  have hw : row.cols = cols := h.width
  have hcells : (row.cutTo cols r).cells = row.cells := by
    change row.cells.take cols ++ List.replicate (cols - row.cols) (Cell.blank r) = _
    rw [hw, Nat.sub_self, List.replicate_zero, List.append_nil]
    exact List.take_of_length_le (Nat.le_of_eq hw)
  have hending : (row.cutTo cols r).ending = row.ending := by
    unfold cutTo
    dsimp only
    split
    · rename_i n hn
      rw [Nat.min_eq_left (h.within n hn), hn]
    · rename_i hn
      exact hn.symm
  unfold resized
  rw [if_neg (by omega)]
  obtain ⟨cells, ending⟩ := row
  exact congr (congrArg Row.mk hcells) hending

theorem isBlank_iff {row : Row} :
    row.isBlank = true ↔ row.ending = .hard 0 ∧ row.Each fun c => c.glyph = ' ' := by
  unfold isBlank Each
  rw [Bool.and_eq_true, List.all_eq_true]
  simp only [beq_iff_eq]

theorem isBlank_blank (cols : Nat) (r : Rendition) : (blank cols r).isBlank = true :=
  isBlank_iff.2 ⟨rfl, Each.blank (fun _ => rfl) cols r⟩

/-- A row on which nothing was written is such a row at every width. -/
theorem isBlank_resized {row : Row} (h : row.isBlank = true) (n : Nat) (r : Rendition) :
    (row.resized n r).isBlank = true := by
  obtain ⟨hending, hglyphs⟩ := isBlank_iff.1 h
  refine isBlank_iff.2 ⟨?_, hglyphs.resized (fun _ => rfl) n r⟩
  have hcut : (row.cutTo n r).ending = .hard 0 := by
    unfold cutTo
    dsimp only
    rw [hending]
    exact congrArg RowEnd.hard (Nat.zero_min n)
  unfold resized
  split
  · rw [ending_eraseLeadAt, hcut]
  · exact hcut

/-! ## Text in the first columns -/

/-- What mends the last cell does not show in the text, nor does mending it
twice. -/
theorem glyphs_mendLast_mendLast (r r' : Rendition) (cells : List Cell) :
    ({ cells := mendLast r (mendLast r' cells) } : Row).glyphs =
      ({ cells := mendLast r cells } : Row).glyphs := by
  fun_induction mendLast r' cells with
  | case1 => rfl
  | case2 c =>
    cases hlead : c.isLead with
    | true => simp [mendLast, hlead, glyphs]
    | false => simp [mendLast, hlead]
  | case3 c c' rest ih =>
    obtain ⟨d, tail, htail⟩ : ∃ d tail, mendLast r' (c' :: rest) = d :: tail := by
      cases rest with
      | nil => exact ⟨_, _, rfl⟩
      | cons c'' rest => exact ⟨_, _, rfl⟩
    rw [htail] at ih ⊢
    unfold glyphs at ih ⊢
    simp only [mendLast, List.filter_cons] at ih ⊢
    split
    · rw [List.map_cons, List.map_cons, ih]
    · exact ih

/-- **The columns that a row keeps show the same text** at its new width. -/
theorem textBefore_resized (row : Row) (r : Rendition) {n k : Nat} (hn : 0 < n) (hk : k ≤ n)
    (hcols : k ≤ row.cols) : (row.resized n r).textBefore k = row.textBefore k := by
  unfold textBefore
  rw [cells_resized row r hn]
  split
  · rename_i hlt
    have hlen : (row.cells.take n).length = n := by
      rw [List.length_take]
      exact Nat.min_eq_left (Nat.le_of_lt hlt)
    rcases Nat.lt_or_eq_of_le hk with hk | rfl
    · rw [take_mendLast r _ (by omega), List.take_take, Nat.min_eq_left (Nat.le_of_lt hk)]
    · have hall : (mendLast r (row.cells.take k)).take k = mendLast r (row.cells.take k) :=
        List.take_of_length_le (by rw [length_mendLast]; omega)
      rw [hall, glyphs_mendLast_mendLast]
  · rw [List.take_append_of_le_length hcols]

/-! ## Text of blank rows -/

/-- Without left halves there is nothing to mend. -/
theorem mendLast_eq_self (r : Rendition) {cells : List Cell}
    (h : ∀ c ∈ cells, c.isLead = false) : mendLast r cells = cells := by
  fun_induction mendLast r cells with
  | case1 => rfl
  | case2 c => rw [if_neg (by rw [h c List.mem_cons_self]; exact Bool.false_ne_true)]
  | case3 c c' rest ih => rw [ih fun d hd => h d (List.mem_cons_of_mem c hd)]

/-- A row without halves of glyphs, all of them blanks, shows blanks. -/
theorem textBefore_of_each {row : Row}
    (h : row.Each fun c => c.glyph = ' ' ∧ c.isLead = false ∧ c.isTrail = false) (k : Nat) :
    row.textBefore k = List.replicate (min k row.cols) ' ' := by
  have hcells : ∀ c ∈ row.cells.take k, c.glyph = ' ' ∧ c.isLead = false ∧ c.isTrail = false :=
    fun c hc => h c (List.mem_of_mem_take hc)
  have hall : (row.cells.take k).filter (!·.isTrail) = row.cells.take k :=
    List.filter_eq_self.2 fun c hc => by rw [(hcells c hc).2.2]; rfl
  unfold textBefore glyphs
  rw [mendLast_eq_self _ fun c hc => (hcells c hc).2.1, hall]
  refine List.eq_replicate_iff.2 ⟨?_, fun glyph hglyph => ?_⟩
  · rw [List.length_map, List.length_take]
    rfl
  · obtain ⟨c, hc, rfl⟩ := List.mem_map.1 hglyph
    exact (hcells c hc).1

theorem textBefore_blank (cols : Nat) (r : Rendition) (k : Nat) :
    (blank cols r).textBefore k = List.replicate (min k cols) ' ' := by
  rw [textBefore_of_each (Each.blank (fun r => ⟨rfl, rfl, rfl⟩) cols r), cols_blank]

/-- The cells of a row of whole glyphs that shows only blanks are no halves:
the left one would hold a glyph that is wider than a blank. -/
theorem Tiled.no_halves [Glyph.Widths] (hspace : Glyph.width ' ' = 1) {cells : List Cell}
    (h : Tiled cells) (hglyphs : ∀ c ∈ cells, c.glyph = ' ') :
    ∀ c ∈ cells, c.isLead = false ∧ c.isTrail = false := by
  induction h with
  | nil => exact fun c hc => by cases hc
  | @narrow c rest hc _ ih =>
    intro c' hc'
    rcases List.mem_cons.1 hc' with rfl | hc'
    · exact ⟨hc.lead, hc.trail⟩
    · exact ih (fun c hc => hglyphs c (List.mem_cons_of_mem _ hc)) c' hc'
  | @wide left right rest hc _ ih =>
    have hwidth := hc.width
    rw [hglyphs left List.mem_cons_self, hspace] at hwidth
    cases hwidth

/-- **A row on which nothing was written shows blanks**, as many as asked
for. -/
theorem textBefore_isBlank [Glyph.Widths] (hspace : Glyph.width ' ' = 1) {row : Row}
    (htiled : Tiled row.cells) (hblank : row.isBlank = true) (k : Nat) :
    row.textBefore k = List.replicate (min k row.cols) ' ' :=
  have hglyphs := (isBlank_iff.1 hblank).2
  textBefore_of_each (fun c hc => ⟨hglyphs c hc, htiled.no_halves hspace hglyphs c hc⟩) k

end Row

end VideoTerminal
