import VideoTerminal.Proofs.Row.Law
import VideoTerminal.Proofs.Row.Pieces
/-!
# Rows of whole glyphs

A row shows whole glyphs if it is put together from cells that hold a narrow
glyph and from pairs of cells that hold the two halves of a wide one
(`Tiled`). Such rows may be put side by side, and a cut through one leaves
two that are tiled again, once a half glyph on either side of the cut has
become a blank. Every edit of a row is no more than that: a cut or two, some
cells dropped or put in, and the pieces joined. So no edit ever tears a glyph,
whatever the tables say about widths, as long as the blank and the letter of
the alignment pattern are narrow.
-/

namespace VideoTerminal

/-- Number of columns that glyphs fill together. -/
def Glyph.columns [Glyph.Widths] (glyphs : List Char) : Nat :=
  (glyphs.map Glyph.width).foldr (· + ·) 0

/-! ## Cells -/

namespace Cell

/-- The cell holds a glyph of one column. -/
structure Narrow [Glyph.Widths] (c : Cell) : Prop where
  lead : c.isLead = false
  trail : c.isTrail = false
  width : Glyph.width c.glyph = 1

/-- The two cells hold the halves of one wide glyph. -/
structure Halves [Glyph.Widths] (left right : Cell) : Prop where
  lead : left.isLead = true
  leftTrail : left.isTrail = false
  width : Glyph.width left.glyph = 2
  trail : right.isTrail = true
  rightLead : right.isLead = false
  space : right.glyph = ' '

section

variable [Glyph.Widths]

theorem Narrow.ofGlyph {glyph : Char} (h : Glyph.width glyph = 1) (r : Rendition) :
    (Cell.ofGlyph glyph r).Narrow :=
  ⟨isLead_ofGlyph glyph r, isTrail_ofGlyph glyph r, h⟩

theorem Narrow.blank (hspace : Glyph.width ' ' = 1) (r : Rendition) : (Cell.blank r).Narrow :=
  .ofGlyph hspace r

theorem Halves.of {glyph : Char} (h : Glyph.width glyph = 2) (r : Rendition) :
    Halves (leadOf glyph r) (trailOf r) :=
  ⟨isLead_leadOf glyph r, isTrail_leadOf glyph r, h, isTrail_trailOf r, isLead_trailOf r, rfl⟩

end

end Cell

namespace Row

/-! ## Tiles -/

/-- The cells are put together from narrow ones and from halves side by
side. -/
inductive Tiled [Glyph.Widths] : List Cell → Prop where
  | nil : Tiled []
  | narrow {c : Cell} {rest : List Cell} (hc : c.Narrow) (h : Tiled rest) : Tiled (c :: rest)
  | wide {left right : Cell} {rest : List Cell} (hc : Cell.Halves left right) (h : Tiled rest) :
      Tiled (left :: right :: rest)

namespace Tiled

variable [Glyph.Widths] {cells cells' : List Cell}

/-- **Tiled pieces put side by side are tiled.** -/
theorem append (h : Tiled cells) (h' : Tiled cells') : Tiled (cells ++ cells') := by
  induction h with
  | nil => exact h'
  | narrow hc _ ih => exact .narrow hc ih
  | wide hc _ ih => exact .wide hc ih

theorem replicate {c : Cell} (hc : c.Narrow) (n : Nat) : Tiled (List.replicate n c) := by
  induction n with
  | zero => exact .nil
  | succ n ih => exact .narrow hc ih

/-- No row ends in a left half, so mending the end of a row that goes on is
mending the end of what follows. -/
theorem mendLast_append (h : Tiled cells) (r : Rendition) (cells' : List Cell) :
    mendLast r (cells ++ cells') = cells ++ mendLast r cells' := by
  induction h with
  | nil => rfl
  | @narrow c rest hc _ ih =>
    rw [List.cons_append, List.cons_append, ← ih]
    cases rest ++ cells' with
    | nil => simp [mendLast, hc.lead]
    | cons d tail => rfl
  | @wide left right rest hc _ ih =>
    simp only [List.cons_append]
    rw [← ih]
    cases rest ++ cells' with
    | nil => simp [mendLast, hc.rightLead]
    | cons d tail => rfl

/-- **What stands before a cut is tiled** once a glyph that the cut goes
through has become a blank there. -/
theorem mendLast_take (hspace : Glyph.width ' ' = 1) (h : Tiled cells) (r : Rendition) (n : Nat) :
    Tiled (mendLast r (cells.take n)) := by
  induction h generalizing n with
  | nil =>
    rw [List.take_nil]
    exact .nil
  | @narrow c rest hc _ ih =>
    cases n with
    | zero => exact .nil
    | succ n =>
      have hsplit := (Tiled.narrow hc .nil).mendLast_append r (rest.take n)
      rw [List.take_succ_cons]
      change Tiled (mendLast r ([c] ++ rest.take n))
      rw [hsplit]
      exact .narrow hc (ih n)
  | @wide left right rest hc _ ih =>
    match n with
    | 0 => exact .nil
    | 1 =>
      -- the cut goes through the glyph
      change Tiled [if left.isLead = true then Cell.blank r else left]
      rw [if_pos hc.lead]
      exact .narrow (.blank hspace r) .nil
    | n + 2 =>
      have hsplit := (Tiled.wide hc .nil).mendLast_append r (rest.take n)
      rw [List.take_succ_cons, List.take_succ_cons]
      change Tiled (mendLast r ([left, right] ++ rest.take n))
      rw [hsplit]
      exact .wide hc (ih n)

/-- **What stands behind a cut is tiled** once a glyph that the cut goes
through has become a blank there. -/
theorem mendHead_drop (hspace : Glyph.width ' ' = 1) (h : Tiled cells) (r : Rendition) (n : Nat) :
    Tiled (mendHead r (cells.drop n)) := by
  induction h generalizing n with
  | nil =>
    rw [List.drop_nil]
    exact .nil
  | @narrow c rest hc hrest ih =>
    cases n with
    | zero =>
      change Tiled ((if c.isTrail = true then Cell.blank r else c) :: rest)
      rw [hc.trail]
      exact .narrow hc hrest
    | succ n => exact ih n
  | @wide left right rest hc hrest ih =>
    match n with
    | 0 =>
      change Tiled ((if left.isTrail = true then Cell.blank r else left) :: right :: rest)
      rw [hc.leftTrail]
      exact .wide hc hrest
    | 1 =>
      -- the cut goes through the glyph
      change Tiled ((if right.isTrail = true then Cell.blank r else right) :: rest)
      rw [if_pos hc.trail]
      exact .narrow (.blank hspace r) hrest
    | n + 2 => exact ih n

/-! ### What it means cell by cell -/

/-- No row starts in a right half. -/
theorem trail_zero (h : Tiled cells) : cells[0]?.any Cell.isTrail = false := by
  cases h with
  | nil => rfl
  | narrow hc _ => exact hc.trail
  | wide hc _ => exact hc.leftTrail

/-- A cell is a left half exactly if the next one is a right half. -/
theorem lead_eq_trail (h : Tiled cells) (i : Nat) :
    cells[i]?.any Cell.isLead = cells[i + 1]?.any Cell.isTrail := by
  induction h generalizing i with
  | nil => rfl
  | narrow hc hrest ih =>
    cases i with
    | zero => exact hc.lead.trans hrest.trail_zero.symm
    | succ i => exact ih i
  | wide hc hrest ih =>
    match i with
    | 0 => exact hc.lead.trans hc.trail.symm
    | 1 => exact hc.rightLead.trans hrest.trail_zero.symm
    | i + 2 => exact ih i

/-- Each cell is at most one half of a glyph, and its glyph fills as many
columns as that says. -/
theorem of_mem (h : Tiled cells) {c : Cell} (hc : c ∈ cells) :
    ¬ (c.isLead = true ∧ c.isTrail = true) ∧
      (c.isLead = true → Glyph.width c.glyph = 2) ∧
      (c.isTrail = true → c.glyph = ' ') ∧
      (c.isLead = false → c.isTrail = false → Glyph.width c.glyph = 1) := by
  induction h with
  | nil => cases hc
  | narrow hn _ ih =>
    rcases List.mem_cons.1 hc with rfl | hc
    · simp [hn.lead, hn.trail, hn.width]
    · exact ih hc
  | wide hw _ ih =>
    rcases List.mem_cons.1 hc with rfl | hc
    · simp [hw.lead, hw.leftTrail, hw.width]
    · rcases List.mem_cons.1 hc with rfl | hc
      · simp [hw.trail, hw.rightLead, hw.space]
      · exact ih hc

/-- **The glyphs of a row fill it exactly.** -/
theorem columns_glyphs (h : Tiled cells) (ending : RowEnd) :
    Glyph.columns (Row.glyphs ⟨cells, ending⟩) = cells.length := by
  unfold Glyph.columns glyphs
  induction h with
  | nil => rfl
  | @narrow c rest hc _ ih =>
    simp only [List.filter_cons, hc.trail, Bool.not_false, if_true, List.map_cons,
      List.foldr_cons, ih, hc.width, List.length_cons]
    omega
  | @wide left right rest hc _ ih =>
    simp only [List.filter_cons, hc.leftTrail, hc.trail, Bool.not_false, Bool.not_true, if_true,
      Bool.false_eq_true, if_false, List.map_cons, List.foldr_cons, ih, hc.width,
      List.length_cons]
    omega

end Tiled

/-! ## Edits keep the tiles -/

section Edits

variable [Glyph.Widths] {row : Row} (r : Rendition)

namespace Tiled

/-- The halves of glyphs stand beside each other. -/
theorem paired {cells : List Cell} (h : Tiled cells) : Paired cells where
  next := h.lead_eq_trail
  first := h.trail_zero
  single _ hc := (h.of_mem hc).1

theorem halves {glyph : Char} (h : Glyph.width glyph ≠ 0) :
    Tiled (Cell.halves (Glyph.width glyph) glyph r) := by
  have htwo := Glyph.width_le_two glyph
  unfold Cell.halves
  split
  · rename_i hone
    exact .narrow (.ofGlyph hone r) .nil
  · exact .wide (.of (by omega) r) .nil

theorem blankRange (hspace : Glyph.width ' ' = 1) (h : Tiled row.cells) (start stop : Nat) :
    Tiled (row.blankRange start stop r).cells := by
  by_cases hlt : min start row.cols < min stop row.cols
  · rw [cells_blankRange r h.paired hlt]
    exact ((h.mendLast_take hspace r _).append (.replicate (.blank hspace r) _)).append
      (h.mendHead_drop hspace r _)
  · rwa [blankRange_eq_self r hlt]

theorem insertBlanks (hspace : Glyph.width ' ' = 1) (h : Tiled row.cells) (col count : Nat) :
    Tiled (row.insertBlanks col count r).cells := by
  by_cases hout : row.cols ≤ col ∨ count = 0
  · rwa [insertBlanks_eq_self r hout]
  · rw [cells_insertBlanks r h.paired (by omega) (by omega) rfl, ← take_mendHead]
    exact ((h.mendLast_take hspace r _).append (.replicate (.blank hspace r) _)).append
      ((h.mendHead_drop hspace r col).mendLast_take hspace r _)

theorem deleteCells (hspace : Glyph.width ' ' = 1) (h : Tiled row.cells) (col count : Nat) :
    Tiled (row.deleteCells col count r).cells := by
  by_cases hout : row.cols ≤ col ∨ count = 0
  · rwa [deleteCells_eq_self r hout]
  · rw [cells_deleteCells r h.paired (by omega) (by omega) rfl]
    exact ((h.mendLast_take hspace r _).append (h.mendHead_drop hspace r _)).append
      (.replicate (.blank hspace r) _)

theorem write (hspace : Glyph.width ' ' = 1) (h : Tiled row.cells) (col : Nat) (glyph : Char) :
    Tiled (row.write col glyph r).cells := by
  by_cases hroom : row.room col glyph = 0
  · rwa [write_eq_self r hroom]
  · have hwidth : Glyph.width glyph ≠ 0 := fun h0 =>
      hroom ((room_eq_zero_iff row col glyph).2 (.inl h0))
    rw [cells_write r h.paired hroom]
    exact ((h.mendLast_take hspace r.blank _).append (halves r hwidth)).append
      (h.mendHead_drop hspace r.blank _)

/-- A row that is cut loses the half of a glyph that its new edge cuts. -/
theorem resized (hspace : Glyph.width ' ' = 1) (h : Tiled row.cells) {n : Nat} (hn : 0 < n) :
    Tiled (row.resized n r).cells := by
  rw [cells_resized row r hn]
  split
  · exact h.mendLast_take hspace r n
  · exact h.append (.replicate (.blank hspace r) _)

end Tiled

end Edits

/-- **No edit tears a glyph**, under any tables in which the blank and the
letter of the alignment pattern fill one column. -/
theorem law_tiled [Glyph.Widths] (hspace : Glyph.width ' ' = 1) (hletter : Glyph.width 'E' = 1) :
    Law fun _ row => Tiled row.cells where
  blank _ r := .replicate (.blank hspace r) _
  reset r _ := .replicate (.blank hspace r) _
  fill r _ := .replicate (.ofGlyph hletter r) _
  wrapped h := h
  write col glyph r h := h.write r hspace col glyph
  insertBlanks col n r h := h.insertBlanks r hspace col n
  deleteCells col n r h := h.deleteCells r hspace col n
  blankRange start stop r h := h.blankRange r hspace start stop
  eraseToEnd col r h := h.blankRange r hspace col _
  resized r hn h := h.resized r hspace hn

end Row

end VideoTerminal
