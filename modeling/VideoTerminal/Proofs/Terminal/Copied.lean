import VideoTerminal.Proofs.Terminal.Typed
/-!
# Copying what was typed

Lines of narrow glyphs are copied as they were typed, however they wrapped and
scrolled (`text_of_typed_lines`). A text with wide glyphs is not always: where
a wide glyph found one free column at the end of a row, that column is copied
as a blank (`selectedText?_of_typed_iff`).
-/

namespace VideoTerminal

/-- Lines with a line break behind each of them. -/
theorem intercalate_append_newline {lines : List (List Char)} (hne : lines ≠ []) :
    ['\n'].intercalate lines ++ ['\n'] = lines.flatMap (· ++ ['\n']) := by
  induction lines with
  | nil => exact absurd rfl hne
  | cons line lines ih =>
    cases lines with
    | nil => simp
    | cons next lines =>
      rw [List.intercalate_cons_cons, List.append_assoc, ih (List.cons_ne_nil _ _)]
      rfl

namespace Terminal

section Narrow

variable [Glyph.Widths] {π : Type} [Printer π] {rows cols capacity : Nat} {t : Terminal π}
  {above : List Row} {cur : List Char}

/-- Narrow lines are cut by their number of glyphs. -/
theorem rowsOf_narrow {cols : Nat} (hcols : 0 < cols) {lines : List (List Char)}
    (h : ∀ line ∈ lines, ∀ c ∈ line, Glyph.width c = 1) :
    rowsOf cols lines = lines.flatMap (Row.ofLine cols) := by
  rw [rowsOf, List.flatMap_def, List.flatMap_def]
  exact congrArg List.flatten
    (List.map_congr_left fun line hline => Row.ofPieces_cut_narrow hcols (h line hline))

/-- They read as the lines that they are. -/
theorem flatMap_withBreak_rowsOf {cols : Nat} (hcols : 0 < cols) {lines : List (List Char)}
    (h : ∀ line ∈ lines, ∀ c ∈ line, Glyph.width c = 1) :
    (rowsOf cols lines).flatMap Row.withBreak = lines.flatMap (· ++ ['\n']) := by
  rw [rowsOf, List.flatMap_assoc, List.flatMap_def, List.flatMap_def]
  exact congrArg List.flatten
    (List.map_congr_left fun line hline => Row.flatMap_withBreak_narrow hcols (h line hline))

/-- The same for at least one line, so that the last row is that of a line. -/
theorem text_of_typed_lines_of_ne
    (hcontrol : ∀ c, ¬ Reader.Plain c → Glyph.Widths.columns? c = none)
    {config : Config} (hcreate : create config = .ok t) (hwraps : config.autowrap = true)
    {lines : List (List Char)} (hne : lines ≠ [])
    (hnarrow : ∀ line ∈ lines, ∀ c ∈ line, Glyph.width c = 1)
    (hroom : (lines.flatMap (Row.ofLine config.cols)).length ≤ config.rows + config.capacity) :
    let o := t.feed (Utf8.encode (['\r', '\n'].intercalate lines))
    let b := o.terminal.bufferOf .primary
    o.fault = none ∧
      (∃ below, b.lines = lines.flatMap (Row.ofLine config.cols) ++
        List.replicate below (Row.blank config.cols {})) ∧
      o.terminal.primary.cursorLine = (lines.flatMap (Row.ofLine config.cols)).length - 1 ∧
      (Selection.through b o.terminal.primary.cursorLine .primary).text b =
        ['\n'].intercalate lines := by
  intro o b
  have hcols : 0 < config.cols := (typed_create hcreate hwraps).1.screen.sound.cols_pos
  have hrows := rowsOf_narrow hcols hnarrow
  rw [← hrows] at hroom ⊢
  obtain ⟨t', above, cur, hfeed, htyped, hwritten⟩ := feed_lines hcontrol hcreate hwraps hne
    (fun line hline c hc => by rw [hnarrow line hline c hc]; exact ⟨Nat.one_pos, hcols⟩) hroom
  have hterminal : o.terminal = t' := congrArg Outcome.terminal hfeed
  have hb : b = t'.bufferOf .primary := congrArg (·.bufferOf .primary) hterminal
  have hline : t'.primary.cursorLine = above.length := htyped.screen.line
  have hlength : above.length + 1 = (rowsOf config.cols lines).length := by
    rw [← hwritten, List.length_append, List.length_singleton]
  have hextent : (Selection.through b t'.primary.cursorLine .primary).extent =
      ⟨above.length, (t'.bufferOf .primary).lastCol⟩ := by
    rw [← hline, ← hb]
    rfl
  have htext := htyped.text_append rfl hextent
  rw [hterminal, hb]
  refine ⟨congrArg Outcome.fault hfeed, ?_, by omega, ?_⟩
  · rw [← hwritten]
    exact htyped.buffer_lines
  · rw [hwritten, flatMap_withBreak_rowsOf hcols hnarrow, ← intercalate_append_newline hne,
      List.append_left_inj, hb] at htext
    exact htext

/-- **Copying gives back what was typed**, as long as the tables have no
columns for controls. Lines of narrow glyphs are fed to a new terminal, and
the history has room for the rows that leave the screen. Then the buffer holds
the rows of each line in turn, cut every `cols` glyphs, and the rows that go
on are those after which more of the line comes; below there is nothing. What
is selected from the first cell to the last one of the row of the cursor reads
as the lines, with a line break between each of them and the next. -/
theorem text_of_typed_lines (hcontrol : ∀ c, ¬ Reader.Plain c → Glyph.Widths.columns? c = none)
    {config : Config} (hcreate : create config = .ok t) (hwraps : config.autowrap = true)
    {lines : List (List Char)}
    (hnarrow : ∀ line ∈ lines, ∀ c ∈ line, Glyph.width c = 1)
    (hroom : (lines.flatMap (Row.ofLine config.cols)).length ≤ config.rows + config.capacity) :
    let o := t.feed (Utf8.encode (['\r', '\n'].intercalate lines))
    let b := o.terminal.bufferOf .primary
    o.fault = none ∧
      (∃ below, b.lines = lines.flatMap (Row.ofLine config.cols) ++
        List.replicate below (Row.blank config.cols {})) ∧
      o.terminal.primary.cursorLine = (lines.flatMap (Row.ofLine config.cols)).length - 1 ∧
      (Selection.through b o.terminal.primary.cursorLine .primary).text b =
        ['\n'].intercalate lines := by
  by_cases hne : lines = []
  · -- no line at all is one empty line, on a row of its own
    subst hne
    have hsound := (typed_create hcreate hwraps).1.screen.sound
    have hrows := hsound.rows_pos
    have hempty : [([] : List Char)].flatMap (Row.ofLine config.cols) =
        [Row.blank config.cols {}] := by
      rw [List.flatMap_singleton]
      exact (Row.ofPieces_cut_narrow hsound.cols_pos fun _ hc => absurd hc List.not_mem_nil).symm
    have hone := text_of_typed_lines_of_ne hcontrol hcreate hwraps (List.cons_ne_nil [] [])
      (fun line hline c hc => by
        rw [List.mem_singleton.1 hline] at hc
        exact absurd hc List.not_mem_nil)
      (by rw [hempty, List.length_singleton]; omega)
    rw [hempty] at hone
    obtain ⟨hfault, ⟨below, hlines⟩, hline, htext⟩ := hone
    exact ⟨hfault, ⟨below + 1, hlines⟩, hline, htext⟩
  · exact text_of_typed_lines_of_ne hcontrol hcreate hwraps hne hnarrow hroom

end Narrow

section Example

attribute [local instance] Glyph.unicode

/-- A line that wraps with a blank at its end, and an empty one: the first row
is in the history then. -/
theorem text_of_typed_lines_wrapped :
    let lines := [['a', 'b', 'c', ' '], []]
    let t := (shallow.feed (Utf8.encode (['\r', '\n'].intercalate lines))).terminal
    let b := t.bufferOf .primary
    ((∀ c, ¬ Reader.Plain c → Glyph.Widths.columns? c = none) ∧
        create { rows := 2, cols := 3, capacity := 1 } = .ok shallow ∧
        (∀ line ∈ lines, ∀ c ∈ line, Glyph.width c = 1) ∧
        (lines.flatMap (Row.ofLine 3)).length ≤ 2 + 1) ∧
      t.primary.history.lines.map Row.isWrapped = [true] ∧
      (Selection.through b t.primary.cursorLine .primary).text b = ['a', 'b', 'c', ' ', '\n'] := by
  intro lines t b
  have hcreate : create { rows := 2, cols := 3, capacity := 1 } = .ok shallow := rfl
  have hnarrow : ∀ line ∈ lines, ∀ c ∈ line, Glyph.width c = 1 := by
    simp only [lines, List.forall_mem_cons, List.not_mem_nil, false_implies, implies_true]
    decide
  have hroom : (lines.flatMap (Row.ofLine 3)).length ≤ 2 + 1 := by decide
  obtain ⟨-, -, -, htext⟩ := text_of_typed_lines columns?_control hcreate rfl hnarrow hroom
  exact ⟨⟨columns?_control, hcreate, hnarrow, hroom⟩, by decide +kernel, htext⟩

end Example

section Wide

variable [Glyph.Widths] {π : Type} {rows cols capacity : Nat} {t : Terminal π} {above : List Row}
  {cur : List Char}

namespace Typed

/-- Where all rows above that of the cursor go on, the text starts with the
buffer, and ends in the row of the cursor. -/
theorem text_bounds (h : t.Typed rows cols capacity above cur)
    (hwrapped : ∀ row ∈ above, row.isWrapped = true) {line : Nat} (hline : line ≤ above.length) :
    (t.bufferOf .primary).textStart line = 0 ∧
      (t.bufferOf .primary).textEnd line = above.length ∧
      above.length < (t.bufferOf .primary).total := by
  obtain ⟨below, hlines⟩ := h.buffer_lines
  rw [List.append_assoc] at hlines
  have hin : above.length < (t.bufferOf .primary).total := by
    rw [Buffer.total, hlines, List.length_append, List.length_append, List.length_singleton]
    omega
  have hgoes : ∀ i, i < above.length → (t.bufferOf .primary).continues i = true := by
    intro i hi
    unfold Buffer.continues
    rw [hlines, List.getElem?_append_left hi, List.getElem?_eq_getElem hi]
    exact hwrapped _ (List.getElem_mem hi)
  have hends : (t.bufferOf .primary).continues above.length = false := by
    unfold Buffer.continues
    rw [hlines, List.getElem?_append_right (Nat.le_refl _), Nat.sub_self]
    rfl
  exact ⟨Buffer.textStart_eq_zero fun i hi => hgoes i (Nat.lt_of_lt_of_le hi hline),
    Buffer.textEnd_eq hin hends hline fun i _ hi => hgoes i hi, hin⟩

/-- **Three clicks at any of these rows take the whole text.** -/
theorem selectedText?_line (h : t.Typed rows cols capacity above cur)
    (hwrapped : ∀ row ∈ above, row.isWrapped = true) (x y col : Nat) {line : Nat}
    (hline : line ≤ above.length) :
    ∃ text, (t.selectAt ⟨.left, .press 3, x, y⟩ ⟨line, col⟩).selectedText? = some text ∧
      text ++ ['\n'] =
        (above ++ [Row.ofText cols cur (.hard (Glyph.columns cur))]).flatMap Row.withBreak := by
  obtain ⟨hfirst, hlast, hin⟩ := h.text_bounds hwrapped hline
  have hb : (t.bufferOf .primary).isEmpty = false := h.screen.sound.isEmpty_buffer
  have hstart := Selection.start_line hb t.selector.delimiters (p := ⟨line, col⟩)
    (Nat.lt_of_le_of_lt hline hin) .primary
  dsimp only at hstart
  rw [hfirst, hlast] at hstart
  generalize hsel : Selection.start _ t.selector.delimiters ⟨line, col⟩ .line .primary = sel
    at hstart
  have hcurrent : (t.selectAt ⟨.left, .press 3, x, y⟩ ⟨line, col⟩).selector.current = some sel := by
    rw [← hsel]
    change some (Selection.start (t.bufferOf t.active) _ _ _ t.active) = _
    rw [h.active]
    rfl
  refine ⟨sel.text (t.bufferOf .primary), ?_, ?_⟩
  · rw [selectedText?_eq hcurrent, hstart]
    rfl
  · exact h.text_append (by rw [hstart]) (by rw [hstart])

end Typed

/-- **When a text with wide glyphs is copied as it was typed**, as long as the
tables have no columns for controls. A text of narrow and wide glyphs is fed
to a new terminal, and the history has room for the rows that leave the
screen. Three clicks at any place of a row that it takes select the whole
text, and what is read then are its rows, those that go on padded with blanks.
So it reads as the text if and only if all rows but the last are filled: no
wide glyph found one free column at the end of a row. -/
theorem selectedText?_of_typed_iff [Printer π]
    (hcontrol : ∀ c, ¬ Reader.Plain c → Glyph.Widths.columns? c = none)
    {config : Config} (hcreate : create config = .ok t) (hwraps : config.autowrap = true)
    (hcols : 2 ≤ config.cols) {text : List Char}
    (htext : ∀ c ∈ text, Glyph.width c = 1 ∨ Glyph.width c = 2)
    (hroom : (Glyph.cut config.cols [] text).length ≤ config.rows + config.capacity)
    (x y col : Nat) {line : Nat} (hline : line < (Glyph.cut config.cols [] text).length) :
    let o := t.feed (Utf8.encode text)
    let pieces := Glyph.cut config.cols [] text
    let copied := (o.terminal.selectAt ⟨.left, .press 3, x, y⟩ ⟨line, col⟩).selectedText?
    o.fault = none ∧
      copied = some (pieces.dropLast.flatMap (Row.padded config.cols) ++
        pieces.getLast (Glyph.cut_ne_nil _ _ _)) ∧
      (copied = some text ↔ ∀ piece ∈ pieces.dropLast, Glyph.columns piece = config.cols) := by
  intro o pieces copied
  have hne : pieces ≠ [] := Glyph.cut_ne_nil _ _ _
  have hseen : ∀ c ∈ text, 0 < Glyph.width c ∧ Glyph.width c ≤ config.cols := by
    intro c hc
    have hwidth := htext c hc
    omega
  have hrows : rowsOf config.cols [text] = Row.ofPieces config.cols pieces := List.append_nil _
  have hcount : (Row.ofPieces config.cols pieces).length = pieces.length := Row.length_ofPieces hne
  obtain ⟨t', above, cur, hfeed, htyped, hwritten⟩ := feed_lines hcontrol hcreate hwraps
    (List.cons_ne_nil text []) (fun line hmem c hc => hseen c (List.mem_singleton.1 hmem ▸ hc))
    (by rw [hrows, hcount]; exact hroom)
  rw [List.intercalate_singleton] at hfeed
  rw [hrows] at hwritten
  have hlength : above.length + 1 = pieces.length := by
    rw [← hcount, ← hwritten, List.length_append, List.length_singleton]
  obtain ⟨read, hread, hbreak⟩ := htyped.selectedText?_line
    (Row.isWrapped_of_ofPieces hne hwritten) x y col (Nat.le_of_lt_succ (hlength ▸ hline))
  have hterminal : o.terminal = t' := congrArg Outcome.terminal hfeed
  have hcopied : copied = some read := by
    rw [← hread, ← hterminal]
  have hfits : ∀ piece ∈ pieces, Glyph.columns piece ≤ config.cols :=
    Glyph.columns_cut_le (Nat.zero_le _) fun c hc => (hseen c hc).2
  have hdrawn : ∀ piece ∈ pieces, ∀ c ∈ piece, 0 < Glyph.width c :=
    fun piece hpiece c hc => (hseen c (Glyph.mem_of_mem_cut hpiece hc)).1
  rw [hwritten, Row.flatMap_withBreak_ofPieces hne hdrawn hfits, List.append_left_inj] at hbreak
  have hflatten : pieces.flatten = text := Glyph.flatten_cut _ _ _
  rw [hcopied, hbreak]
  refine ⟨congrArg Outcome.fault hfeed, rfl, ?_⟩
  rw [Option.some_inj, ← Row.flatMap_padded_eq_iff hne hfits, hflatten]

end Wide

attribute [local instance] Glyph.unicode

/-- Two rows, each filled by two letters and a wide glyph. -/
theorem selectedText?_of_typed_iff_filled :
    let text := ['a', 'b', '\u3042', 'c', 'd', '\u3044']
    let t := ((plain 2 4).feed (Utf8.encode text)).terminal
    ((∀ c, ¬ Reader.Plain c → Glyph.Widths.columns? c = none) ∧
        create (Config.ofSize 2 4) = .ok (plain 2 4) ∧
        (∀ c ∈ text, Glyph.width c = 1 ∨ Glyph.width c = 2) ∧
        Glyph.cut 4 [] text = [['a', 'b', '\u3042'], ['c', 'd', '\u3044']]) ∧
      (t.selectAt ⟨.left, .press 3, 2, 1⟩ ⟨1, 2⟩).selectedText? = some text := by
  intro text t
  have hcreate : create (Config.ofSize 2 4) = .ok (plain 2 4) := rfl
  have htext : ∀ c ∈ text, Glyph.width c = 1 ∨ Glyph.width c = 2 := by
    simp only [text, List.forall_mem_cons, List.not_mem_nil, false_implies, implies_true]
    decide +kernel
  have hcut : Glyph.cut 4 [] text = [['a', 'b', '\u3042'], ['c', 'd', '\u3044']] := by
    decide +kernel
  have hroom : (Glyph.cut 4 [] text).length ≤ 2 + 64 := by
    rw [hcut]
    decide
  have hline : 1 < (Glyph.cut 4 [] text).length := by
    rw [hcut]
    decide
  obtain ⟨-, -, hsame⟩ := selectedText?_of_typed_iff columns?_control hcreate rfl (by decide) htext
    hroom 2 1 2 hline
  exact ⟨⟨columns?_control, hcreate, htext, hcut⟩, hsame.2 (by decide +kernel)⟩

/-- The wide glyph finds one free column and moves to the next row, and a blank
is copied in its place. -/
theorem selectedText?_of_typed_moved :
    let text := ['a', 'b', 'c', '\u3042']
    let t := ((plain 2 4).feed (Utf8.encode text)).terminal
    (create (Config.ofSize 2 4) = .ok (plain 2 4) ∧
        (∀ c ∈ text, Glyph.width c = 1 ∨ Glyph.width c = 2) ∧
        (Glyph.cut 4 [] text).length = 2) ∧
      (t.point ⟨.left, .press 3, 0, 0⟩).selectedText? = some ['a', 'b', 'c', ' ', '\u3042'] := by
  intro text t
  have htext : ∀ c ∈ text, Glyph.width c = 1 ∨ Glyph.width c = 2 := by
    simp only [text, List.forall_mem_cons, List.not_mem_nil, false_implies, implies_true]
    decide +kernel
  exact ⟨⟨rfl, htext, by decide +kernel⟩, by decide +kernel⟩

end Terminal

end VideoTerminal
