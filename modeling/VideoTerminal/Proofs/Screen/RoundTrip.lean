import VideoTerminal.Proofs.Screen.Resize
/-!
# Resizing there and back

Where nothing is written below the cursor, a resize loses nothing: every line
of the buffer keeps its number and, in the columns that it has before and
afterwards, its text (`Calm.textAt_resize`). Only the border between the
history and the screen moves. It need not move back to where it was when the
old size comes back: blank rows may go below the cursor for lines that came
back from the history, which then stay on the screen (`Calm.resize_back`).
-/

namespace VideoTerminal

namespace Screen

/-- The line of the buffer that the cursor is on. -/
def cursorLine (s : Screen) : Nat := s.history.length + s.cursor.row

/-- The text of a line of the buffer in the first `k` columns. There are
blanks where there is no line. -/
def textAt (s : Screen) (k line : Nat) : List Char :=
  (s.lines[line]?.map (·.textBefore k)).getD (List.replicate k ' ')

/-- A primary screen of whole glyphs on which nothing is written below the
cursor. -/
structure Calm [Glyph.Widths] (rows cols : Nat) (s : Screen) : Prop where
  fits : s.Sound Row.Fits .primary rows cols
  tiled : s.Sound (fun _ row => Row.Tiled row.cells) .primary rows cols
  bare : ∀ row ∈ s.grid.rows.drop (s.cursor.row + 1), row.isBlank = true

section

variable {P : Nat → Row → Prop} {kind : ScreenKind} {rows cols height width k : Nat} {s : Screen}

theorem Sound.of_getElem?_lines (h : s.Sound P kind rows cols) {line : Nat} {row : Row}
    (hrow : s.lines[line]? = some row) : P cols row :=
  h.of_mem_lines (List.mem_of_getElem? hrow)

/-- The text of lines that are there, read off line by line. -/
theorem map_textBefore (h : s.Sound P kind rows cols) (k : Nat) {first : Nat}
    (hfirst : first ≤ s.history.length) :
    ((s.lines.drop first).take rows).map (·.textBefore k) =
      (List.range rows).map fun i => s.textAt k (first + i) := by
  have hlen := length_lines h
  refine List.ext_getElem? fun i => ?_
  rw [List.getElem?_map, List.getElem?_map]
  by_cases hi : i < rows
  · have hin : first + i < s.lines.length := by omega
    rw [List.getElem?_take_of_lt hi, List.getElem?_drop, List.getElem?_range hi, Option.map_some,
      textAt, List.getElem?_eq_getElem hin]
    rfl
  · rw [List.getElem?_eq_none (by rw [List.length_take]; omega),
      List.getElem?_eq_none (by rw [List.length_range]; omega)]
    rfl

/-- So it is for the rows of the screen. -/
theorem map_textBefore_rows (h : s.Sound P kind rows cols) (k : Nat) :
    s.grid.rows.map (·.textBefore k) =
      (List.range rows).map fun i => s.textAt k (s.history.length + i) := by
  have hgrid : s.grid.rows = (s.lines.drop s.history.length).take rows := by
    unfold lines History.length
    rw [List.drop_left, List.take_of_length_le (Nat.le_of_eq h.height)]
  rw [hgrid, map_textBefore h k (Nat.le_refl _)]

end

namespace Calm

variable [Glyph.Widths] {rows cols height width k : Nat} {s : Screen}

theorem isBlank_below (h : s.Calm rows cols) {line : Nat} {row : Row}
    (hbelow : s.cursorLine < line) (hrow : s.lines[line]? = some row) : row.isBlank = true := by
  unfold cursorLine at hbelow
  have hplace : line =
      s.history.length + (s.cursor.row + 1 + (line - (s.history.length + s.cursor.row + 1))) := by
    omega
  rw [hplace, getElem?_lines, ← List.getElem?_drop] at hrow
  exact h.bare row (List.mem_of_getElem? hrow)

theorem textAt_below (hspace : Glyph.width ' ' = 1) (h : s.Calm rows cols) (hk : k ≤ cols)
    {line : Nat} (hbelow : s.cursorLine < line) : s.textAt k line = List.replicate k ' ' := by
  unfold textAt
  cases hrow : s.lines[line]? with
  | none => rfl
  | some row =>
    have hcols : row.cols = cols := (h.fits.of_getElem?_lines hrow).width
    rw [Option.map_some, Row.textBefore_isBlank hspace
      (h.tiled.of_getElem?_lines hrow) (h.isBlank_below hbelow hrow), hcols, Nat.min_eq_left hk]
    rfl

/-! ## One resize -/

theorem blankTail_rowsAt (h : s.Calm rows cols) (width : Nat) :
    s.cursor.row + 1 + blankTail (s.rowsAt width) (s.cursor.row + 1) = rows := by
  have hrow := h.fits.row
  have hlen := length_rowsAt h.fits width
  rw [← hlen]
  refine blankTail_eq (by omega) fun row hmem => ?_
  rw [rowsAt, ← List.map_drop] at hmem
  obtain ⟨old, hold, rfl⟩ := List.mem_map.1 hmem
  exact Row.isBlank_resized (h.bare old hold) _ _

/-- Only rows that would put the cursor out of sight leave the screen. -/
theorem leaving_flowTo (h : s.Calm rows cols) (hheight : 0 < height) (width : Nat) :
    (s.flowTo height width).leaving = s.cursor.row + 1 - height := by
  have hrow := h.fits.row
  have htail := h.blankTail_rowsAt width
  rw [Screen.leaving_flowTo h.fits]
  omega

section Once

variable (h : s.Calm rows cols) (hcap : 0 < s.history.capacity) (hheight : 0 < height)
  (hroom : s.cursorLine + 1 ≤ height + s.history.capacity)

include h hheight hroom

/-- The history has room for the rows that leave. -/
theorem evictions_eq_zero (width : Nat) :
    s.history.evictions (s.flowTo height width).leaving = 0 := by
  have hleaving := h.leaving_flowTo hheight width
  have hle := h.fits.capacity
  unfold cursorLine at hroom
  unfold History.evictions
  split <;> omega

include hcap

theorem length_history_resize (width : Nat) :
    (s.resize height width).history.length =
      s.history.length + (s.cursor.row + 1 - height) - (height - rows) := by
  have hrow := h.fits.row
  have hleaving := h.leaving_flowTo hheight width
  have hpulled := pulled_flowTo h.fits height width
  have hgone := h.evictions_eq_zero hheight hroom width
  have hlength := Screen.length_history_resize h.fits hcap hheight width
  omega

/-- The line of the cursor keeps its number. -/
theorem cursorLine_resize (width : Nat) :
    (s.resize height width).cursorLine = s.cursorLine := by
  have hgone := h.evictions_eq_zero hheight hroom width
  have hlength := Screen.length_history_resize h.fits hcap hheight width
  have hcursor := cursor_row_resize h.fits hheight width
  obtain ⟨hleaving, -, hpulled, -⟩ := flowTo_bounds h.fits hheight width
  unfold cursorLine
  omega

/-- Each line is found under its number at the new width. Only below the
cursor, where all lines are blank, some may be missing and some be new. -/
theorem line_resize (width line : Nat) :
    (∃ row, s.lines[line]? = some row ∧
        (s.resize height width).lines[line]? = some (row.resized width s.eraser)) ∨
      s.cursorLine < line ∧ ∀ row, (s.resize height width).lines[line]? = some row →
        row = Row.blank width s.eraser := by
  have hrow := h.fits.row
  have hleaving := h.leaving_flowTo hheight width
  have hlines := lines_resize h.fits hcap hheight width
  have hlen := length_lines h.fits
  have hlenAt := length_linesAt h.fits width
  rw [h.evictions_eq_zero hheight hroom, List.drop_zero] at hlines
  rw [hlines]
  by_cases hkept : line <
      s.history.length + min rows ((s.flowTo height width).leaving + height)
  · have hin : line < s.lines.length := by omega
    refine Or.inl ⟨s.lines[line], List.getElem?_eq_getElem hin, ?_⟩
    rw [List.getElem?_append_left (by rw [List.length_take]; omega),
      List.getElem?_take_of_lt hkept, linesAt, List.getElem?_map, List.getElem?_eq_getElem hin]
    rfl
  · refine Or.inr ⟨by unfold cursorLine; omega, fun row hnew => ?_⟩
    rw [List.getElem?_append_right (by rw [List.length_take]; omega)] at hnew
    exact List.eq_of_mem_replicate (List.mem_of_getElem? hnew)

/-- **The text of every line stays**, in the columns that the screen has
before and after. -/
theorem textAt_resize (hspace : Glyph.width ' ' = 1) (hwidth : 0 < width)
    (hk : k ≤ min cols width) (line : Nat) :
    (s.resize height width).textAt k line = s.textAt k line := by
  rcases h.line_resize hcap hheight hroom width line with ⟨row, hrow, hnew⟩ | ⟨hbelow, hnew⟩
  · have hcols : row.cols = cols := (h.fits.of_getElem?_lines hrow).width
    rw [textAt, textAt, hrow, hnew, Option.map_some, Option.map_some,
      Row.textBefore_resized row s.eraser hwidth (by omega) (by omega)]
  · rw [h.textAt_below hspace (by omega) hbelow, textAt]
    cases hrow : (s.resize height width).lines[line]? with
    | none => rfl
    | some row =>
      rw [hnew row hrow, Option.map_some, Row.textBefore_blank, Nat.min_eq_left (by omega)]
      rfl

/-- And there is still nothing below the cursor. -/
theorem resize (hspace : Glyph.width ' ' = 1) (hletter : Glyph.width 'E' = 1)
    (hwidth : 0 < width) : (s.resize height width).dropDamage.Calm height width where
  fits := (h.fits.resize Row.law_fits hheight hwidth).dropDamage
  tiled := (h.tiled.resize (Row.law_tiled hspace hletter) hheight hwidth).dropDamage
  bare := by
    intro row hmem
    change row ∈ (s.resize height width).grid.rows.drop
      ((s.resize height width).cursor.row + 1) at hmem
    obtain ⟨i, hrow⟩ := List.mem_iff_getElem?.1 hmem
    rw [List.getElem?_drop, ← getElem?_lines] at hrow
    have hline := h.cursorLine_resize hcap hheight hroom width
    rcases h.line_resize hcap hheight hroom width _ with ⟨old, hold, hnew⟩ | ⟨-, hnew⟩
    · rw [hnew] at hrow
      cases hrow
      refine Row.isBlank_resized (h.isBlank_below ?_ hold) _ _
      unfold cursorLine at hline ⊢
      omega
    · rw [hnew row hrow]
      exact Row.isBlank_blank _ _

end Once

/-! ## There and back -/

/-- **After a resize and another one back to the old size** the screen shows
lines of the same text, but it may start with an earlier one. -/
theorem resize_back (hspace : Glyph.width ' ' = 1) (hletter : Glyph.width 'E' = 1)
    (h : s.Calm rows cols) (hheight : 0 < height) (hwidth : 0 < width)
    (hroom : s.history.length + max rows height ≤ s.history.capacity) :
    let k := min cols width
    let lifted := min (max rows height - min rows height) (rows - 1 - s.cursor.row)
    let away := (s.resize height width).dropDamage
    (away.resize rows cols).grid.rows.map (·.textBefore k) =
      ((s.lines.drop (s.history.length - lifted)).take rows).map (·.textBefore k) := by
  intro k lifted away
  have hrows := h.fits.rows_pos
  have hcols := h.fits.cols_pos
  have hrow := h.fits.row
  have hcap : 0 < s.history.capacity := by omega
  have hroom₁ : s.cursorLine + 1 ≤ height + s.history.capacity := by
    unfold cursorLine
    omega
  have hcalm : away.Calm height width := h.resize hcap hheight hroom₁ hspace hletter hwidth
  have hline : away.cursorLine = s.cursorLine := h.cursorLine_resize hcap hheight hroom₁ width
  have hcap₁ : away.history.capacity = s.history.capacity := capacity_resize h.fits height width
  have hlength₁ : away.history.length =
      s.history.length + (s.cursor.row + 1 - height) - (height - rows) :=
    h.length_history_resize hcap hheight hroom₁ width
  have hroom₂ : away.cursorLine + 1 ≤ rows + away.history.capacity := by
    rw [hline, hcap₁]
    unfold cursorLine
    omega
  have hlength₂ := hcalm.length_history_resize (by omega) hrows hroom₂ cols
  have hfirst : (away.resize rows cols).history.length = s.history.length - lifted := by
    unfold cursorLine at hline
    rcases Nat.le_total rows height with hhigher | hlower
    · have hlifted : lifted = min (height - rows) (rows - 1 - s.cursor.row) := by
        unfold lifted
        rw [Nat.max_eq_right hhigher, Nat.min_eq_left hhigher]
      have hstays : s.cursor.row + 1 - height = 0 :=
        Nat.sub_eq_zero_of_le (Nat.le_trans hrow hhigher)
      rw [hstays, Nat.add_zero] at hlength₁
      rw [hlength₂, Nat.sub_eq_zero_of_le hhigher, Nat.sub_zero, hlifted]
      omega
    · have hlifted : lifted = min (rows - height) (rows - 1 - s.cursor.row) := by
        unfold lifted
        rw [Nat.max_eq_left hlower, Nat.min_eq_right hlower]
      rw [Nat.sub_eq_zero_of_le hlower, Nat.sub_zero] at hlength₁
      rw [hlength₂, hlifted]
      omega
  have htext : ∀ line, (away.resize rows cols).textAt k line = s.textAt k line := fun line =>
    (hcalm.textAt_resize (by omega) hrows hroom₂ hspace hcols (by omega) line).trans
      (h.textAt_resize hcap hheight hroom₁ hspace hwidth (Nat.le_refl _) line)
  rw [map_textBefore h.fits k (Nat.sub_le _ _),
    map_textBefore_rows (hcalm.fits.resize Row.law_fits hrows hcols) k, hfirst]
  exact List.map_congr_left fun i _ => htext _

/-! ## Starting with an earlier line -/

omit [Glyph.Widths] in
/-- If what is seen is the same from two lines on, and nothing comes after a
certain line, then there is nothing to be seen from the first of the two on:
each line looks as one does that comes later. -/
theorem all_eq_of_shifted {α : Type} {f : Nat → α} {a : α} {first shift rows last : Nat}
    (hshift : 0 < shift) (hin : last < first + rows) (hend : ∀ line, last < line → f line = a)
    (hsame : ∀ i, i < rows → f (first + i) = f (first + shift + i)) (line : Nat)
    (hline : first ≤ line) : f line = a := by
  induction hdist : last + 1 - line using Nat.strongRecOn generalizing line with
  | ind dist ih =>
    rcases Nat.lt_or_ge last line with hafter | hbefore
    · exact hend line hafter
    · have hstep := hsame (line - first) (by omega)
      have hplace : first + (line - first) = line := by omega
      have hlater : first + shift + (line - first) = line + shift := by omega
      rw [hplace, hlater] at hstep
      rw [hstep]
      exact ih (last + 1 - (line + shift)) (by omega) (line + shift) (by omega) rfl

/-- A screen that starts with an earlier line looks the same only if nothing
is to be seen from that line on. -/
theorem text_earlier_iff (hspace : Glyph.width ' ' = 1) (h : s.Calm rows cols) (hk : k ≤ cols)
    {first : Nat} (hfirst : first ≤ s.history.length) (hin : s.cursorLine < first + rows) :
    ((s.lines.drop first).take rows).map (·.textBefore k) = s.grid.rows.map (·.textBefore k) ↔
      first = s.history.length ∨
        ∀ row ∈ s.lines.drop first, row.textBefore k = List.replicate k ' ' := by
  have htext : ∀ {line : Nat} {row : Row}, s.lines[line]? = some row →
      s.textAt k line = row.textBefore k := by
    intro line row hrow
    rw [textAt, hrow]
    rfl
  rw [map_textBefore h.fits k hfirst, map_textBefore_rows h.fits k, List.map_inj_left]
  constructor
  · intro hsame
    rcases Nat.lt_or_eq_of_le hfirst with hlt | heq
    · refine Or.inr fun row hrow => ?_
      obtain ⟨j, hj⟩ := List.mem_iff_getElem?.1 hrow
      rw [List.getElem?_drop] at hj
      rw [← htext hj]
      refine all_eq_of_shifted (Nat.sub_pos_of_lt hlt) hin (fun line => h.textAt_below hspace hk)
        (fun i hi => ?_) _ (Nat.le_add_right _ _)
      rw [Nat.add_sub_of_le hfirst]
      exact hsame i (List.mem_range.2 hi)
    · exact Or.inl heq
  · rintro (rfl | hblank) i -
    · rfl
    · have hall : ∀ line, first ≤ line → s.textAt k line = List.replicate k ' ' := by
        intro line hline
        cases hrow : s.lines[line]? with
        | none =>
          rw [textAt, hrow]
          rfl
        | some row =>
          have hmem : (s.lines.drop first)[line - first]? = some row := by
            rw [List.getElem?_drop, Nat.add_sub_of_le hline, hrow]
          rw [htext hrow, hblank row (List.mem_of_getElem? hmem)]
      rw [hall _ (Nat.le_add_right _ _), hall _ (by omega)]

end Calm

end Screen

end VideoTerminal
