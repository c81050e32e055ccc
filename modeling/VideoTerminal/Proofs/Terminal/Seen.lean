import VideoTerminal.Proofs.Selection.Seen
import VideoTerminal.Proofs.Selection.Whole
import VideoTerminal.Proofs.Terminal.Consistent
/-!
# What is seen is what is selected

The display reads the rows of the view, and the pointer selects in the buffer.
Both count from the same line, so that what is selected can be read off the
display alone, however far the view is scrolled back.
-/

namespace VideoTerminal

namespace Terminal

variable {π : Type} [Printer π] {rows cols : Nat} {t : Terminal π}

/-- The rows of the buffer are whole, whatever was done to them. -/
theorem Reach.whole [Glyph.Widths] (hspace : Glyph.width ' ' = 1) (hletter : Glyph.width 'E' = 1)
    (h : Reach rows cols t) : (t.bufferOf t.active).Whole := by
  have hs := (h.sound Row.law_fits).screen
  have htiled := (h.sound (Row.law_tiled hspace hletter)).screen
  refine ⟨fun row hrow => ?_, fun row hrow => ?_⟩
  · have hwidth : (t.bufferOf t.active).cols = cols := hs.width
    rw [hwidth]
    rcases List.mem_append.1 hrow with hrow | hrow
    · exact (hs.kept row hrow).width
    · exact (hs.shown row hrow).width
  · rcases List.mem_append.1 hrow with hrow | hrow
    · exact htiled.kept row hrow
    · exact htiled.shown row hrow

omit [Printer π] in
/-- The rows of the view stand one below the other in the buffer. -/
theorem visibleRow?_eq_lines (hs : t.Sound Row.Fits rows cols) {i : Nat} (hi : i < rows) :
    t.visibleRow? i = (t.bufferOf t.active).lines[t.viewTop + i]? := by
  have hheight : t.screen.height = rows := hs.screen.height
  unfold visibleRow?
  rw [if_pos (by omega)]

omit [Printer π] in
/-- The view lies in the buffer. -/
theorem viewTop_add_lt (hs : t.Sound Row.Fits rows cols) {i : Nat} (hi : i < rows) :
    t.viewTop + i < (t.bufferOf t.active).total := by
  have hsome := visibleRow?_isSome hs hi
  rw [visibleRow?_eq_lines hs hi, Option.isSome_iff_exists] at hsome
  obtain ⟨row, hrow⟩ := hsome
  exact (List.getElem?_eq_some_iff.1 hrow).1

/-- The selection that a press at a place of the view and a drag to another
one make. -/
def draggedTo (t : Terminal π) (p q : Position) : Selection :=
  let b := t.bufferOf t.active
  (Selection.start b t.selector.delimiters ⟨t.viewTop + p.line, p.col⟩ .glyph t.active).extendTo b
    t.selector.delimiters ⟨t.viewTop + q.line, q.col⟩

omit [Printer π] in
/-- A press and a drag in cells of the view, where the child program does not
read the pointer, select and change nothing else. -/
theorem point_drag_eq (hs : t.Sound Row.Fits rows cols) (hpress : t.modes.pressReports = false)
    (hbutton : t.modes.buttonReports = false) {p q : Position} (hp : p.line < rows)
    (hp' : p.col < cols) (hq : q.line < rows) (hq' : q.col < cols) :
    (t.point ⟨.left, .press 1, p.col, p.line⟩).point ⟨.left, .drag, q.col, q.line⟩ =
      { t with selector := { t.selector with current := some (t.draggedTo p q) } } := by
  have hrow := hs.screen.lastRow_eq
  have hcol := hs.screen.lastCol_eq
  have hmodes : ¬ (t.modes.pressReports || t.modes.buttonReports) = true := by
    rw [hpress, hbutton]
    exact Bool.false_ne_true
  have hfirst : t.point ⟨.left, .press 1, p.col, p.line⟩ =
      { t with
        selector := t.selector.click (t.bufferOf t.active) ⟨t.viewTop + p.line, p.col⟩ 1
          t.active } := by
    unfold point
    dsimp only
    rw [if_neg hmodes, Nat.min_eq_left (by omega), Nat.min_eq_left (by omega)]
    rfl
  rw [hfirst]
  generalize hclicked : t.selector.click (t.bufferOf t.active) ⟨t.viewTop + p.line, p.col⟩ 1
    t.active = clicked
  -- the press moved neither the screen nor the view
  change (if (t.modes.pressReports || t.modes.buttonReports) = true then _ else
    { t with
      selector := clicked.extend (t.bufferOf t.active)
        ⟨t.viewTop + min q.line t.screen.lastRow, min q.col t.screen.lastCol⟩ }) = _
  rw [if_neg hmodes, Nat.min_eq_left (by omega), Nat.min_eq_left (by omega), ← hclicked]
  rfl

/-- What such a selection reads as is what the view shows between both places. -/
theorem text_draggedTo [Glyph.Widths] (hspace : Glyph.width ' ' = 1) (hletter : Glyph.width 'E' = 1)
    (h : Reach rows cols t) {p q : Position} (hp : p.line < rows) (hp' : p.col < cols)
    (hq : q.line < rows) (hq' : q.col < cols) :
    (t.draggedTo p q).text (t.bufferOf t.active) =
      Row.seenBetween t.visibleRow? (min p q) (max p q) := by
  have hs := h.sound Row.law_fits
  have hwhole := h.whole hspace hletter
  have hcols : (t.bufferOf t.active).cols = cols := hs.screen.width
  rw [← hcols] at hp' hq'
  -- the places of the view and those of the buffer have the same order
  let place : Position → Position := fun p => ⟨t.viewTop + p.line, p.col⟩
  have hplace : ∀ {p q : Position}, p ≤ q → place p ≤ place q := by
    intro p q hle
    change t.viewTop + p.line < t.viewTop + q.line ∨
      t.viewTop + p.line = t.viewTop + q.line ∧ p.col ≤ q.col
    rw [Position.le_def] at hle
    omega
  have hmin : place (min p q) = min (place p) (place q) := Position.map_min hplace hplace
  have hmax : place (max p q) = max (place p) (place q) := Position.map_max hplace hplace
  have hlast : (max p q).line < rows := by
    change (if p ≤ q then q else p).line < rows
    split
    · exact hq
    · exact hp
  obtain ⟨hanchor, hextent⟩ := Selection.ends_drag (p := place p) (q := place q) hwhole
    (viewTop_add_lt hs hp) hp' (viewTop_add_lt hs hq) hq' t.selector.delimiters t.active
  rw [← hmin] at hanchor
  rw [← hmax] at hextent
  unfold draggedTo
  rw [Selection.text_eq_seenBetween hwhole (isEmpty_bufferOf hs) (viewTop_add_lt hs hlast) hanchor
    hextent, Row.seenBetween_add]
  refine Row.seenBetween_congr fun line _ hle => ?_
  exact (visibleRow?_eq_lines hs (Nat.lt_of_le_of_lt hle hlast)).symm

/-- **What is seen is what is selected**, as long as the blank and the letter
of the alignment pattern fill one column. The child program does not read the
pointer, and the left button is pressed once in a cell of the view and dragged
to another. What is exported then can be read off the rows of the view, from
the first of both places to the last: of each row the glyphs that have a
column there, as far as the text of the row goes, and a line break behind each
row but the last whose text does not go on in the next one. The view may be
scrolled back, the drag may go either way, and it may end on either half of a
wide glyph. -/
theorem selectedText?_drag_of_reach [Glyph.Widths] (hspace : Glyph.width ' ' = 1)
    (hletter : Glyph.width 'E' = 1) (h : Reach rows cols t) (hpress : t.modes.pressReports = false)
    (hbutton : t.modes.buttonReports = false) {c₁ r₁ c₂ r₂ : Nat} (hr₁ : r₁ < rows)
    (hc₁ : c₁ < cols) (hr₂ : r₂ < rows) (hc₂ : c₂ < cols) :
    let t' := (t.point ⟨.left, .press 1, c₁, r₁⟩).point ⟨.left, .drag, c₂, r₂⟩
    (∀ i, t'.visibleRow? i = t.visibleRow? i) ∧ (∀ i < rows, (t.visibleRow? i).isSome = true) ∧
      t'.selectedText? =
        some (Row.seenBetween t.visibleRow? (min ⟨r₁, c₁⟩ ⟨r₂, c₂⟩) (max ⟨r₁, c₁⟩ ⟨r₂, c₂⟩)) := by
  have hs := h.sound Row.law_fits
  intro t'
  have ht' : t' = { t with selector :=
      { t.selector with current := some (t.draggedTo ⟨r₁, c₁⟩ ⟨r₂, c₂⟩) } } :=
    point_drag_eq hs hpress hbutton (p := ⟨r₁, c₁⟩) (q := ⟨r₂, c₂⟩) hr₁ hc₁ hr₂ hc₂
  rw [ht']
  refine ⟨fun i => rfl, fun i hi => visibleRow?_isSome hs hi, ?_⟩
  rw [selectedText?_eq rfl]
  exact congrArg some
    (text_draggedTo hspace hletter h (p := ⟨r₁, c₁⟩) (q := ⟨r₂, c₂⟩) hr₁ hc₁ hr₂ hc₂)

section Example

attribute [local instance] Glyph.unicode

/-- Three lines on a screen of two rows, the view scrolled back to the first
two: a drag backwards from the left half of a wide glyph to the right half of
another takes both glyphs whole. -/
theorem selectedText?_drag_of_reach_back :
    let t := ((plain 2 4).feed [0x61, 0xE3, 0x81, 0x82, 0x0D, 0x0A, 0xE3, 0x81, 0x84, 0x62, 0x0D,
      0x0A, 0x63]).terminal.scrollView 1
    (Glyph.width ' ' = 1 ∧ Glyph.width 'E' = 1 ∧ Reach 2 4 t ∧ t.modes.pressReports = false ∧
        t.modes.buttonReports = false) ∧
      ((t.point ⟨.left, .press 1, 0, 1⟩).point ⟨.left, .drag, 2, 0⟩).selectedText? =
        some ['\u3042', '\n', '\u3044'] := by
  intro t
  have hreach : Reach 2 4 t :=
    ((reach_plain 2 4 (by decide) (by decide)).feed _).scrollView 1
  have hpress : t.modes.pressReports = false := by decide +kernel
  have hbutton : t.modes.buttonReports = false := by decide +kernel
  refine ⟨⟨Glyph.width_space, Glyph.width_letter, hreach, hpress, hbutton⟩, ?_⟩
  obtain ⟨-, -, htext⟩ := selectedText?_drag_of_reach Glyph.width_space Glyph.width_letter hreach
    hpress hbutton (show 1 < 2 by decide) (show 0 < 4 by decide) (show 0 < 2 by decide)
    (show 2 < 4 by decide)
  rw [htext]
  decide +kernel

end Example

/-! ## Nothing is lost -/

/-- **The text covers all that is seen.** In every row that a terminal shows or
remembers only blanks stand behind the end of the text, and the text does not
end between the halves of a wide glyph. So what is copied of any part of a row
is all that is seen there, but for blanks behind it, and the rows that count as
blank are those that end where they begin. -/
theorem text_covers_of_reach [Glyph.Widths] (h : Reach rows cols t) (kind : ScreenKind) {row : Row}
    (hrow : row ∈ (t.screenOf kind).grid.rows ∨ row ∈ (t.screenOf kind).history.lines) :
    (∀ (col : Nat) (c : Cell), row.textLength ≤ col → row.cells[col]? = some c → c.glyph = ' ') ∧
      row.textLength ≤ cols ∧ row.trailAt row.textLength = false ∧
      (∀ (sel : Selection) (line : Nat),
        ∃ n, sel.rowSeen row line = sel.rowText row line ++ List.replicate n ' ') ∧
      (row.isBlank = true ↔ row.ending = .hard 0) := by
  have hcovers := (h.sound Row.law_covered).screenOf kind
  have hfits := (h.sound Row.law_fits).screenOf kind
  have hcovered : row.Covered := by
    rcases hrow with hrow | hrow
    · exact hcovers.shown row hrow
    · exact hcovers.kept row hrow
  have hwidth : row.cols = cols := by
    rcases hrow with hrow | hrow
    · exact (hfits.shown row hrow).width
    · exact (hfits.kept row hrow).width
  refine ⟨fun col c hcol hc => (hcovered col c hcol hc).glyph, ?_, hcovered.trailAt_textLength,
    fun sel line => sel.rowSeen_eq hcovered line, hcovered.isBlank_iff_ending⟩
  exact hwidth ▸ row.textLength_le

attribute [local instance] Glyph.unicode

/-- Of two wide glyphs the second one is erased from its right half on: its left
half goes too, though the text still ends behind it, and never between both. -/
theorem text_covers_of_reach_halved :
    let t := ((plain 2 4).feed [0xE3, 0x81, 0x82, 0xE3, 0x81, 0x84, 0x1B, 0x5B, 0x34, 0x47, 0x1B,
      0x5B, 0x4B]).terminal
    let row : Row := t.primary.grid.rows.headD default
    (Reach 2 4 t ∧ row ∈ t.primary.grid.rows) ∧ row.textLength = 3 ∧
      row.glyphs = ['\u3042', ' ', ' '] ∧ row.trailAt row.textLength = false := by
  intro t row
  have hreach : Reach 2 4 t := (reach_plain 2 4 (by decide) (by decide)).feed _
  have hrow : row ∈ t.primary.grid.rows := by decide +kernel
  obtain ⟨-, -, htrail, -⟩ := text_covers_of_reach hreach .primary (Or.inl hrow)
  exact ⟨⟨hreach, hrow⟩, by decide +kernel, by decide +kernel, htrail⟩

end Terminal

end VideoTerminal
