import VideoTerminal.Proofs.Selection.Whole
import VideoTerminal.Proofs.Terminal.Reach
/-!
# Copying from a wider screen

A screen that gets wider keeps all its lines, and every line that ends keeps
its text. A line that goes on in the next one counts as written up to its last
column, so that the blanks it is padded with come between its text and that of
the next line. This is the only way in which the text of the whole buffer
changes.
-/

namespace VideoTerminal

namespace Screen

/-- **At the same height no line moves**: each is the same at its new width. -/
theorem lines_resize_width {kind : ScreenKind} {rows cols : Nat} {s : Screen}
    (h : s.Sound Row.Fits kind rows cols) (width : Nat) :
    (s.resize rows width).lines = s.linesAt width := by
  obtain ⟨-, hleaving, -, hpulled, -⟩ := flowTo_bounds h h.rows_pos width
  have hleaving : (s.flowTo rows width).leaving = 0 := by omega
  have hpulled : (s.flowTo rows width).pulled = 0 := by omega
  have hlength : (s.rowsAt width).length = rows := length_rowsAt h width
  have hkept : s.keptRows rows width = s.rowsAt width := by
    unfold keptRows
    dsimp only
    rw [hleaving, hpulled, Nat.sub_zero, List.drop_length, List.nil_append, List.drop_zero,
      List.take_of_length_le (Nat.le_of_eq hlength)]
  have hrows : (s.resize rows width).grid.rows = s.rowsAt width := by
    rw [rows_resize, hkept, hlength, Nat.sub_self, List.replicate_zero, List.append_nil]
  have hhistory : (s.resize rows width).history.lines = (s.historyAt width).lines := by
    have hall : (s.historyAt width).lines.take ((s.historyAt width).lines.length -
        (s.flowTo rows width).pulled) = (s.historyAt width).lines := by
      rw [hpulled, Nat.sub_zero, List.take_length]
    have hnone : (s.rowsAt width).take (s.flowTo rows width).leaving = [] := by
      rw [hleaving, List.take_zero]
    unfold resize
    dsimp only
    split
    · change ((s.remaining rows width).pushAll
        ((s.rowsAt width).take (s.flowTo rows width).leaving)).lines = _
      rw [hnone]
      exact hall
    · exact hall
  rw [lines, hhistory, hrows, linesAt_eq h]

end Screen

namespace Terminal

variable {π : Type} [Printer π] {rows cols width : Nat} {t : Terminal π}

/-- **Widening a screen changes the text of its buffer exactly if some line
goes on in the next one**, be it in the history or on the screen. The text is
that of a selection from the first cell of the buffer to the last one. -/
theorem text_resize_width_iff [Glyph.Widths] (h : Reach rows cols t) (kind : ScreenKind)
    (hwidth : cols ≤ width) :
    let s := t.screenOf kind
    let s' := s.resize rows width
    let before := Buffer.of s.history s.grid
    let after := Buffer.of s'.history s'.grid
    (Selection.through after (after.total - 1) kind).text after =
        (Selection.through before (before.total - 1) kind).text before ↔
      width = cols ∨ ∀ row ∈ before.lines, row.isWrapped = false := by
  intro s s' before after
  have hs : s.Sound Row.Fits kind rows cols := (h.sound Row.law_fits).screenOf kind
  have hpos : 0 < width := Nat.lt_of_lt_of_le hs.cols_pos hwidth
  have hs' : s'.Sound Row.Fits kind rows width := hs.resize Row.law_fits hs.rows_pos hpos
  have hlines : s'.lines = s.lines.map (·.resized width s.eraser) :=
    Screen.lines_resize_width hs width
  have htotal : s'.lines.length = s.lines.length := by
    rw [hlines, List.length_map]
  have hsome : 0 < s.lines.length := by
    have hrows := hs.rows_pos
    rw [Screen.length_lines hs]
    omega
  obtain ⟨row, hlast⟩ : ∃ row, s.lines[s.lines.length - 1]? = some row :=
    ⟨_, List.getElem?_eq_getElem (Nat.sub_lt hsome Nat.one_pos)⟩
  have hlast' : s'.lines[s'.lines.length - 1]? = some (row.resized width s.eraser) := by
    rw [htotal, hlines, List.getElem?_map, hlast]
    rfl
  have hbefore : (Selection.through before (before.total - 1) kind).text before ++ row.lineBreak =
      (s.lines.take (s.lines.length - 1 + 1)).flatMap Row.withBreak :=
    hs.text_append_lineBreak rfl rfl hlast
  have hafter : (Selection.through after (after.total - 1) kind).text after ++
      (row.resized width s.eraser).lineBreak =
        (s'.lines.take (s'.lines.length - 1 + 1)).flatMap Row.withBreak :=
    hs'.text_append_lineBreak rfl rfl hlast'
  -- both texts lack the same line break behind the last line
  have hbreak : (row.resized width s.eraser).lineBreak = row.lineBreak := by
    unfold Row.lineBreak
    rw [Row.isWrapped_resized]
  rw [Nat.sub_add_cancel hsome, List.take_length] at hbefore
  rw [hbreak, Nat.sub_add_cancel (htotal ▸ hsome), List.take_length, hlines] at hafter
  change _ ↔ width = cols ∨ ∀ row ∈ s.lines, row.isWrapped = false
  rw [← Row.flatMap_withBreak_resized_iff (fun _ => hs.of_mem_lines) hwidth hpos s.eraser,
    ← hafter, ← hbefore, List.append_left_inj]

attribute [local instance] Glyph.unicode

/-- Lines that end keep their text, one in the history among them. -/
theorem text_resize_width_iff_ended :
    let t := ((plain 2 3).feed [0x61, 0x0D, 0x0A, 0x62, 0x63, 0x0D, 0x0A, 0x64]).terminal
    let s := t.primary
    let before := Buffer.of s.history s.grid
    let after := Buffer.of (s.resize 2 5).history (s.resize 2 5).grid
    (Reach 2 3 t ∧ 3 ≤ 5) ∧ s.history.length = 1 ∧
      (Selection.through before (before.total - 1) .primary).text before =
        ['a', '\n', 'b', 'c', '\n', 'd'] ∧
      (Selection.through after (after.total - 1) .primary).text after =
        (Selection.through before (before.total - 1) .primary).text before := by
  intro t s before after
  have hreach : Reach 2 3 t := (reach_plain 2 3 (by decide) (by decide)).feed _
  have hended : ∀ row ∈ before.lines, row.isWrapped = false := by decide +kernel
  exact ⟨⟨hreach, by decide⟩, by decide +kernel, by decide +kernel,
    (text_resize_width_iff hreach .primary (by decide)).2 (Or.inr hended)⟩

/-- A line that goes on gets a blank between its text and the rest. -/
theorem not_text_resize_width :
    let t := ((plain 2 3).feed [0x61, 0x62, 0x63, 0x64]).terminal
    let s := t.primary
    let before := Buffer.of s.history s.grid
    let after := Buffer.of (s.resize 2 4).history (s.resize 2 4).grid
    (Reach 2 3 t ∧ 3 ≤ 4) ∧
      (Selection.through before (before.total - 1) .primary).text before = ['a', 'b', 'c', 'd'] ∧
      (Selection.through after (after.total - 1) .primary).text after =
        ['a', 'b', 'c', ' ', 'd'] := by
  intro t s before after
  exact ⟨⟨(reach_plain 2 3 (by decide) (by decide)).feed _, by decide⟩, by decide +kernel⟩

end Terminal

end VideoTerminal
