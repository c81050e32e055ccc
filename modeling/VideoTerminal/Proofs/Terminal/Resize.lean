import VideoTerminal.Proofs.Screen.RoundTrip
import VideoTerminal.Proofs.Terminal.Reach
/-!
# What a resize keeps

No line of the buffer gets lost in a resize, unless the history is full or
the screen too low for what is written below the cursor. What the screen
shows after it got its old size back need not be what it showed before, and
of the two copies of the cursor only one goes with its line: the one that is
saved does not.
-/

namespace VideoTerminal

namespace Terminal

variable {π : Type} [Printer π] {rows cols height width : Nat} {t : Terminal π}

/-- **Resizing keeps the text and the line of the cursor.** Afterwards the
buffer holds the lines it held before, at their new width, less some of the
oldest (`gone`) and less some after the first `kept`, and then some that are
blank (`added`). Lines are gone only from a full history, and as many as are
reported. The line of the cursor is kept with all before it; what is cut off
after it is blank, unless the rows from the cursor down to something written
are more than the screen has. Blank lines are added only when nothing is left
in the history. The screen has the height asked for, and the cursor is on its
line. -/
theorem resize_lines_of_reach [Glyph.Widths] (h : Reach rows cols t)
    (hcap : 0 < t.primary.history.capacity) (hheight : 0 < height) (hwidth : 0 < width) :
    let s := t.primary
    let s' := s.resize height width
    let here := s.history.length + s.cursor.row
    ∃ gone kept added : Nat,
      s'.lines = ((s.linesAt width).take kept).drop gone ++
          List.replicate added (Row.blank width s.eraser) ∧
        (gone ≤ kept ∧ kept ≤ (s.linesAt width).length) ∧
        s'.damage.evicted = s.damage.evicted + gone ∧
        (gone ≠ 0 → s'.history.length = s'.history.capacity) ∧
        here + 1 ≤ kept ∧
        ((∀ row ∈ (s.linesAt width).drop kept, row.isBlank = true) ∨
          ∃ i row, here + height ≤ i ∧ (s.linesAt width)[i]? = some row ∧ row.isBlank = false) ∧
        (added ≠ 0 → s'.history.lines = []) ∧
        s'.grid.rows.length = height ∧
        s'.history.length + s'.cursor.row + gone = here := by
  intro s s' here
  have hs : s.Sound Row.Fits .primary rows cols := (h.sound Row.law_fits).primary
  have hs' : s'.Sound Row.Fits .primary height width := hs.resize Row.law_fits hheight hwidth
  have hrow := hs.row
  have hfull := hs.capacity
  have hev := s.history.evictions_le (s.flowTo height width).leaving
  have hlength : s'.history.length + (s.history.evictions (s.flowTo height width).leaving +
      (s.flowTo height width).pulled) = s.history.length + (s.flowTo height width).leaving :=
    Screen.length_history_resize hs hcap hheight width
  have hcursor : s'.cursor.row =
      s.cursor.row - (s.flowTo height width).leaving + (s.flowTo height width).pulled :=
    Screen.cursor_row_resize hs hheight width
  have hcapacity : s'.history.capacity = s.history.capacity :=
    Screen.capacity_resize hs height width
  have hpulled : (s.flowTo height width).pulled = min (height - rows) s.history.length :=
    Screen.pulled_flowTo hs height width
  obtain ⟨hleaving, hlower, -, -, hsight⟩ := Screen.flowTo_bounds hs hheight width
  have hlines : (s.linesAt width).length = s.history.length + rows :=
    Screen.length_linesAt hs width
  have hevictions : s.history.evictions (s.flowTo height width).leaving =
      (s.flowTo height width).leaving - (s.history.capacity - s.history.length) :=
    if_neg (Nat.ne_of_gt hcap)
  refine ⟨s.history.evictions (s.flowTo height width).leaving,
    s.history.length + min rows ((s.flowTo height width).leaving + height),
    height - (rows + (s.flowTo height width).pulled), Screen.lines_resize hs hcap hheight width,
    ⟨by omega, by omega⟩, Screen.evicted_resize hs hheight width, fun hgone => by omega, by omega,
    Screen.cut_resize hs hheight width, fun hadded => ?_, hs'.height, by omega⟩
  -- all lines of the history were pulled back, and still there was room
  exact List.length_eq_zero_iff.1 (by change s'.history.length = 0; omega)

section Example

attribute [local instance] Glyph.unicode

/-- Of three lines, the oldest of them in the history, a screen of one row
shows the last; the other two are in its history. -/
theorem resize_lines_of_reach_lower :
    let t := ((plain 2 3).feed [0x61, 0x0D, 0x0A, 0x62, 0x0D, 0x0A, 0x63]).terminal
    let s' := t.primary.resize 1 3
    (Reach 2 3 t ∧ 0 < t.primary.history.capacity) ∧
      s'.lines.map Row.glyphs = [['a', ' ', ' '], ['b', ' ', ' '], ['c', ' ', ' ']] ∧
      s'.grid.rows.length = 1 ∧ ∃ gone, s'.history.length + s'.cursor.row + gone = 2 := by
  intro t s'
  have hreach : Reach 2 3 t := (reach_plain 2 3 (by decide) (by decide)).feed _
  have hcap : 0 < t.primary.history.capacity := by decide
  have hlines : s'.lines.map Row.glyphs = [['a', ' ', ' '], ['b', ' ', ' '], ['c', ' ', ' ']] := by
    decide +kernel
  have hhere : t.primary.history.length + t.primary.cursor.row = 2 := by decide
  obtain ⟨gone, _, _, -, -, -, -, -, -, -, hrows, hcursor⟩ :=
    resize_lines_of_reach hreach hcap (by decide : 0 < 1) (by decide : 0 < 3)
  exact ⟨⟨hreach, hcap⟩, hlines, hrows, gone, hcursor.trans hhere⟩

end Example

/-! ## There and back -/

omit [Printer π] in
/-- Any size with rows and columns is granted. -/
theorem resize_eq (t : Terminal π) (hheight : 0 < height) (hwidth : 0 < width) :
    ∃ t', t.resize height width = .ok t' ∧
      t'.primary = (t.primary.resize height width).dropDamage ∧ t'.active = t.active := by
  have hsize : Config.sizeFault? height width = none := by
    unfold Config.sizeFault?
    exact if_neg (by omega)
  unfold resize
  rw [hsize]
  exact ⟨_, rfl, rfl, rfl⟩

/-- **Resizing there and back**, where nothing is written below the cursor and
the history has room, as long as the blank and the letter of the alignment
pattern fill one column. In the columns that the screen has all the time it
shows the text of lines of the buffer again, but it may start with an earlier
one: for every blank row below the cursor that goes because the screen gets
lower, one line stays that came back from the history when it got higher
(`lifted`), as long as there are any. So all rows show what they showed before
exactly if no line comes back so, or if nothing is to be seen from that
earlier line on. -/
theorem text_resize_back_iff [Glyph.Widths] (hspace : Glyph.width ' ' = 1)
    (hletter : Glyph.width 'E' = 1) (h : Reach rows cols t)
    (hbare : ∀ row ∈ t.primary.grid.rows.drop (t.primary.cursor.row + 1), row.isBlank = true)
    (hroom : t.primary.history.length + max rows height ≤ t.primary.history.capacity)
    (hheight : 0 < height) (hwidth : 0 < width) :
    let s := t.primary
    let k := min cols width
    let lifted := min (max rows height - min rows height) (rows - 1 - s.cursor.row)
    let earlier := s.lines.drop (s.history.length - lifted)
    ∃ away back, t.resize height width = .ok away ∧ away.resize rows cols = .ok back ∧
      back.primary.grid.rows.map (·.textBefore k) =
          (earlier.take rows).map (·.textBefore k) ∧
        (back.primary.grid.rows.map (·.textBefore k) = s.grid.rows.map (·.textBefore k) ↔
          height = rows ∨ s.cursor.row + 1 = rows ∨ s.history.lines = [] ∨
            ∀ row ∈ earlier, row.textBefore k = List.replicate k ' ') := by
  intro s k lifted earlier
  have hs : s.Calm rows cols := ⟨(h.sound Row.law_fits).primary,
    (h.sound (Row.law_tiled hspace hletter)).primary, hbare⟩
  have hrow := hs.fits.row
  obtain ⟨away, haway, hprimary, -⟩ := t.resize_eq hheight hwidth
  obtain ⟨back, hback, hprimary', -⟩ := away.resize_eq hs.fits.rows_pos hs.fits.cols_pos
  have hrows : back.primary.grid.rows.map (·.textBefore k) =
      (earlier.take rows).map (·.textBefore k) := by
    rw [hprimary', hprimary]
    exact hs.resize_back hspace hletter hheight hwidth hroom
  refine ⟨away, back, haway, hback, hrows, ?_⟩
  rw [hrows, hs.text_earlier_iff hspace (Nat.min_le_left _ _) (Nat.sub_le _ _) ?_]
  · have hempty : s.history.lines = [] ↔ s.history.length = 0 := List.length_eq_zero_iff.symm
    have hstay : s.history.length - lifted = s.history.length ↔
        height = rows ∨ s.cursor.row + 1 = rows ∨ s.history.length = 0 := by omega
    rw [hempty, hstay, or_assoc, or_assoc]
  · unfold Screen.cursorLine
    omega

section Example

attribute [local instance] Glyph.unicode

/-- With the cursor in the last row nothing can be put below it for good. -/
theorem text_resize_back_iff_last :
    let t := ((plain 2 3).feed [0x61, 0x0D, 0x0A, 0x62, 0x0D, 0x0A, 0x63]).terminal
    (Glyph.width ' ' = 1 ∧ Glyph.width 'E' = 1 ∧ Reach 2 3 t ∧
        (∀ row ∈ t.primary.grid.rows.drop (t.primary.cursor.row + 1), row.isBlank = true) ∧
        t.primary.history.length + max 2 4 ≤ t.primary.history.capacity) ∧
      ∃ away back, t.resize 4 2 = .ok away ∧ away.resize 2 3 = .ok back ∧
        away.primary.history.lines = [] ∧
        back.primary.grid.rows.map (·.textBefore 2) = t.primary.grid.rows.map (·.textBefore 2) := by
  intro t
  have hreach : Reach 2 3 t := (reach_plain 2 3 (by decide) (by decide)).feed _
  have hbare : ∀ row ∈ t.primary.grid.rows.drop (t.primary.cursor.row + 1),
      row.isBlank = true := by decide
  have hroom : t.primary.history.length + max 2 4 ≤ t.primary.history.capacity := by decide
  obtain ⟨away, back, haway, hback, -, hiff⟩ :=
    text_resize_back_iff Glyph.width_space Glyph.width_letter hreach hbare hroom
      (by decide : 0 < 4) (by decide : 0 < 2)
  have hempty : away.primary.history.lines = [] := by
    cases haway
    decide +kernel
  exact ⟨⟨Glyph.width_space, Glyph.width_letter, hreach, hbare, hroom⟩, away, back, haway, hback,
    hempty, hiff.2 (Or.inr (Or.inl (by decide)))⟩

/-- With the cursor above the last row, a row comes back from the history while
the screen is higher, and stays: the blank row below the cursor is what goes
when the screen is lower again. -/
theorem not_text_resize_back :
    let t := ((plain 2 3).feed [0x61, 0x0D, 0x0A, 0x62, 0x0D, 0x0A, 0x1B, 0x5B, 0x41]).terminal
    (Reach 2 3 t ∧ t.active = .primary ∧
        (∀ row ∈ t.primary.grid.rows.drop (t.primary.cursor.row + 1), row.isBlank = true) ∧
        t.primary.history.length + max 2 3 ≤ t.primary.history.capacity) ∧
      ∃ away back, t.resize 3 3 = .ok away ∧ away.resize 2 3 = .ok back ∧
        t.primary.grid.rows.map (·.textBefore 3) = [['b', ' ', ' '], [' ', ' ', ' ']] ∧
        back.primary.grid.rows.map (·.textBefore 3) = [['a', ' ', ' '], ['b', ' ', ' ']] := by
  intro t
  have hreach : Reach 2 3 t := (reach_plain 2 3 (by decide) (by decide)).feed _
  exact ⟨⟨hreach, by decide, by decide, by decide⟩, _, _, rfl, rfl, by decide +kernel,
    by decide +kernel⟩

end Example

/-! ## Resizing while the alternate screen is shown -/

/-- All that entering the alternate screen does to the primary one is to save
its cursor. -/
theorem apply_enter [Glyph.Widths] (hactive : t.active = .primary) :
    (t.apply (.setPrivate [1049])).terminal.primary = t.primary.saveCursor ∧
      (t.apply (.setPrivate [1049])).terminal.active = .alternate := by
  have hother : ({ t with primary := t.primary.saveCursor } : Terminal π).active ≠ .alternate := by
    rw [hactive]
    decide
  change (t.setAlternateSaved true).absorbDamage.primary = _ ∧
    (t.setAlternateSaved true).absorbDamage.active = _
  unfold setAlternateSaved changeScreen
  rw [if_pos rfl, if_neg hother]
  exact ⟨rfl, rfl⟩

/-- And leaving it, to come back to that cursor. -/
theorem apply_leave [Glyph.Widths] (hactive : t.active = .alternate) :
    (t.apply (.resetPrivate [1049])).terminal.primary.cursor = t.primary.restoreCursor.cursor := by
  have hother : t.active ≠ .primary := by
    rw [hactive]
    decide
  change (t.setAlternateSaved false).absorbDamage.primary.cursor = _
  unfold setAlternateSaved changeScreen
  rw [if_neg Bool.false_ne_true, if_neg hother]
  rfl

/-- **The saved cursor does not go with its line.** If the screen is resized
between entering the alternate screen and leaving it, the cursor that was
saved is only moved into the screen. It comes back to where the resize alone
puts the cursor exactly if the height stays; or the screen gets higher and
the history is empty; or the screen gets lower, and it has as many blank rows
below the cursor as have to go, or nothing but blank rows there, or the cursor
in its first row, or afterwards only one row. -/
theorem cursor_leave_resize_iff [Glyph.Widths] (h : Reach rows cols t)
    (hactive : t.active = .primary) (hheight : 0 < height) (hwidth : 0 < width) :
    let s := t.primary
    let blanks := blankTail (s.rowsAt width) (s.cursor.row + 1)
    ∃ away alone,
      (t.apply (.setPrivate [1049])).terminal.resize height width = .ok away ∧
        t.resize height width = .ok alone ∧
        let back := (away.apply (.resetPrivate [1049])).terminal
        back.primary.cursor = (s.saveCursor.resize height width).restoreCursor.cursor ∧
          alone.primary.cursor = (s.resize height width).cursor ∧
          (back.primary.cursor = alone.primary.cursor ↔
            height = rows ∨ (rows < height ∧ s.history.lines = []) ∨
              (height < rows ∧ (rows ≤ height + blanks ∨ s.cursor.row + 1 + blanks = rows ∨
                s.cursor.row = 0 ∨ height = 1))) := by
  intro s blanks
  have hs : s.Sound Row.Fits .primary rows cols := (h.sound Row.law_fits).primary
  obtain ⟨hsaved, halternate⟩ := apply_enter hactive
  obtain ⟨away, haway, hprimary, hactive'⟩ :=
    (t.apply (.setPrivate [1049])).terminal.resize_eq hheight hwidth
  obtain ⟨alone, halone, hprimary', -⟩ := t.resize_eq hheight hwidth
  have hback : (away.apply (.resetPrivate [1049])).terminal.primary.cursor =
      (s.saveCursor.resize height width).restoreCursor.cursor := by
    rw [apply_leave (hactive'.trans halternate), hprimary, hsaved]
    rfl
  have hresized : alone.primary.cursor = (s.resize height width).cursor := by
    rw [hprimary']
    rfl
  refine ⟨away, alone, haway, halone, hback, hresized, ?_⟩
  rw [hback, hresized]
  exact Screen.cursor_restoreCursor_resize_iff hs hheight hwidth

section Example

attribute [local instance] Glyph.unicode

/-- With nothing below the cursor a lower screen has its line in the last row,
and there the saved cursor ends up as well. -/
theorem cursor_leave_resize_iff_last :
    let t := ((plain 3 3).feed [0x61, 0x0D, 0x0A, 0x62, 0x0D, 0x0A, 0x63]).terminal
    (Reach 3 3 t ∧ t.active = .primary) ∧
      ∃ away alone,
        (t.apply (.setPrivate [1049])).terminal.resize 2 3 = .ok away ∧
          t.resize 2 3 = .ok alone ∧ alone.primary.cursor = ⟨1, 1⟩ ∧
          (away.apply (.resetPrivate [1049])).terminal.primary.cursor = alone.primary.cursor := by
  intro t
  have hreach : Reach 3 3 t := (reach_plain 3 3 (by decide) (by decide)).feed _
  have hactive : t.active = .primary := by decide
  obtain ⟨away, alone, haway, halone, -, hresized, hiff⟩ :=
    cursor_leave_resize_iff hreach hactive (by decide : 0 < 2) (by decide : 0 < 3)
  have hcursor : (t.primary.resize 2 3).cursor = ⟨1, 1⟩ := by decide +kernel
  exact ⟨⟨hreach, hactive⟩, away, alone, haway, halone, hresized.trans hcursor,
    hiff.2 (Or.inr (Or.inr ⟨by decide, Or.inr (Or.inl (by decide +kernel))⟩))⟩

/-- On a higher screen a line comes back from the history, and the line of the
cursor is one row further down. The saved cursor is not. -/
theorem not_cursor_leave_resize :
    let t := ((plain 2 3).feed [0x61, 0x0D, 0x0A, 0x62, 0x0D, 0x0A, 0x63]).terminal
    (Reach 2 3 t ∧ t.active = .primary) ∧
      ∃ away alone,
        (t.apply (.setPrivate [1049])).terminal.resize 3 3 = .ok away ∧
          t.resize 3 3 = .ok alone ∧ alone.primary.cursor = ⟨2, 1⟩ ∧
          (away.apply (.resetPrivate [1049])).terminal.primary.cursor = ⟨1, 1⟩ := by
  intro t
  have hreach : Reach 2 3 t := (reach_plain 2 3 (by decide) (by decide)).feed _
  exact ⟨⟨hreach, by decide⟩, _, _, rfl, rfl, by decide +kernel, by decide +kernel⟩

end Example

end Terminal

end VideoTerminal
