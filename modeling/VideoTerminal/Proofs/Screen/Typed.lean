import VideoTerminal.Proofs.Row.Typed
import VideoTerminal.Proofs.Screen.RoundTrip
/-!
# Typing on a screen

On a screen as it is after switching on, text goes behind the text that is
there (`Typed`). A glyph goes on the row, or on the next one if the row has no
room for it (`Typed.print`), and a line break ends the row where its text ends
(`Typed.lineBreak`). As long as the history has room no line is lost when the
screen scrolls.
-/

namespace VideoTerminal

namespace Screen

/-- A primary screen on which the whole screen scrolls, lines wrap, and nothing
is selected for the glyphs to come. -/
structure Usual (rows cols capacity : Nat) (s : Screen) : Prop where
  sound : s.Sound Row.Fits .primary rows cols
  region : s.region = s.fullRegion
  autowrap : s.modes.autowrap = true
  insert : s.modes.insert = false
  rendition : s.rendition = {}
  charsets : s.charsets = {}
  capacity_eq : s.history.capacity = capacity

/-- A screen whose buffer holds the given rows, and then the row of the cursor
with a text up to the cursor. Nothing is written below. -/
structure Typed [Glyph.Widths] (rows cols capacity : Nat) (above : List Row) (cur : List Char)
    (s : Screen) : Prop extends s.Usual rows cols capacity where
  seen : ∀ c ∈ cur, 0 < Glyph.width c
  fits : Glyph.columns cur ≤ cols
  lines : ∃ below, s.lines = above ++ Row.ofText cols cur (.hard (Glyph.columns cur)) ::
    List.replicate below (Row.blank cols {})
  line : s.cursorLine = above.length
  column : s.cursor.col = min (Glyph.columns cur) (cols - 1)
  pending : s.modes.wrapPending = decide (Glyph.columns cur = cols)

section

variable {rows cols capacity : Nat} {s : Screen} {above : List Row} {row : Row}

/-! ## The next row -/

/-- Scrolling leaves alone what the next glyph depends on. -/
theorem rest_scrollUp (s : Screen) (count : Nat) :
    (s.scrollUp count).cursor = s.cursor ∧ (s.scrollUp count).region = s.region ∧
      (s.scrollUp count).rendition = s.rendition ∧ (s.scrollUp count).charsets = s.charsets ∧
      (s.scrollUp count).history.capacity = s.history.capacity := by
  unfold scrollUp
  dsimp only
  split
  · exact ⟨rfl, rfl, rfl, rfl, rfl⟩
  · split
    · exact ⟨rfl, rfl, rfl, rfl, History.capacity_pushAll _ _⟩
    · exact ⟨rfl, rfl, rfl, rfl, rfl⟩

namespace Usual

theorem cancelWrap (h : s.Usual rows cols capacity) : s.cancelWrap.Usual rows cols capacity :=
  { h with sound := h.sound.cancelWrap }

theorem atColumn (h : s.Usual rows cols capacity) (hw : s.modes.wrapPending = false) {col : Nat}
    (hcol : col < cols) : (s.atColumn col).Usual rows cols capacity :=
  { h with sound := h.sound.atColumn hw hcol }

theorem atRow (h : s.Usual rows cols capacity) (hw : s.modes.wrapPending = false) {row : Nat}
    (hrow : row < rows) : (s.atRow row).Usual rows cols capacity :=
  { h with sound := h.sound.atRow hw hrow }

/-- Another screen that is the same in all that matters here. -/
theorem of_eq (h : s.Usual rows cols capacity) {s' : Screen}
    (hsound : s'.Sound Row.Fits .primary rows cols) (hregion : s'.region = s.region)
    (hautowrap : s'.modes.autowrap = s.modes.autowrap) (hinsert : s'.modes.insert = s.modes.insert)
    (hrendition : s'.rendition = s.rendition) (hcharsets : s'.charsets = s.charsets)
    (hcapacity : s'.history.capacity = s.history.capacity) : s'.Usual rows cols capacity := by
  refine ⟨hsound, ?_, hautowrap.trans h.autowrap, hinsert.trans h.insert,
    hrendition.trans h.rendition, hcharsets.trans h.charsets, hcapacity.trans h.capacity_eq⟩
  unfold Screen.fullRegion
  rw [hregion, hsound.lastRow_eq, ← h.sound.lastRow_eq]
  exact h.region

theorem scrollUp [Glyph.Widths] (h : s.Usual rows cols capacity) (count : Nat) :
    (s.scrollUp count).Usual rows cols capacity := by
  obtain ⟨-, hregion, hrendition, hcharsets, hcapacity⟩ := s.rest_scrollUp count
  have hmodes := Sound.modes_scrollUp s count
  exact h.of_eq (h.sound.scrollUp Row.law_fits count) hregion (by rw [hmodes]) (by rw [hmodes])
    hrendition hcharsets hcapacity

theorem index [Glyph.Widths] (h : s.Usual rows cols capacity) :
    s.index.Usual rows cols capacity := by
  have hlast := h.sound.lastRow_eq
  unfold Screen.index
  dsimp only
  split
  · exact h.cancelWrap.scrollUp 1
  · split
    · rename_i hlt
      change s.cursor.row < s.lastRow at hlt
      refine h.cancelWrap.atRow rfl ?_
      change s.cursor.row + 1 < rows
      omega
    · exact h.cancelWrap

theorem bottom_eq (h : s.Usual rows cols capacity) : s.region.bottom = rows - 1 := by
  rw [h.region]
  exact h.sound.lastRow_eq

/-- On the last row of the screen the next row is a new one, and the first row
goes to the history. -/
theorem index_at_end (h : s.Usual rows cols capacity) (hend : s.cursor.row = s.region.bottom)
    (hroom : s.history.length < capacity) :
    s.index.lines = s.lines ++ [Row.blank cols {}] ∧ s.index.cursorLine = s.cursorLine + 1 ∧
      s.index.cursor.col = s.cursor.col := by
  have hrows := h.sound.rows_pos
  have hindex : s.index = s.cancelWrap.scrollUp 1 := if_pos hend
  have hnone : s.history.evictions 1 = 0 := by
    unfold History.evictions
    rw [h.capacity_eq]
    split <;> omega
  have hkeeps : s.cancelWrap.keepsRows = true := by
    change (s.kind == .primary && decide (0 < s.history.capacity)) = true
    rw [h.sound.kind_eq, h.capacity_eq, Bool.and_eq_true, decide_eq_true_eq]
    exact ⟨rfl, by omega⟩
  have hone : min 1 s.cancelWrap.region.height = 1 := by
    rw [(extent_full h.cancelWrap.sound h.cancelWrap.region).1]
    omega
  obtain ⟨-, hgrown, hscrolled⟩ :=
    scrollUp_full h.cancelWrap.sound h.cancelWrap.region hkeeps 1 hone
  change _ = s.history.length + 1 - s.history.evictions 1 at hgrown
  change _ = s.lines.drop (s.history.evictions 1) ++
    List.replicate 1 (Row.blank s.grid.cols s.rendition.blank) at hscrolled
  rw [hnone, List.drop_zero, h.sound.width, h.rendition] at hscrolled
  have hcursor := (s.cancelWrap.rest_scrollUp 1).1
  unfold cursorLine
  rw [hindex, hcursor, hgrown, hnone]
  refine ⟨hscrolled, ?_, rfl⟩
  change s.history.length + 1 - 0 + s.cursor.row = s.history.length + s.cursor.row + 1
  omega

/-- On all other rows only the cursor moves. -/
theorem index_above_end (h : s.Usual rows cols capacity) (habove : s.cursor.row ≠ s.region.bottom) :
    s.index.lines = s.lines ∧ s.index.cursorLine = s.cursorLine + 1 ∧
      s.index.cursor.col = s.cursor.col := by
  have hrow := h.sound.row
  have hbottom := h.bottom_eq
  have hlast := h.sound.lastRow_eq
  have hindex : s.index = s.cancelWrap.atRow (s.cursor.row + 1) := by
    have hhigher : s.cancelWrap.cursor.row < s.cancelWrap.lastRow := by
      change s.cursor.row < s.lastRow
      omega
    exact (if_neg habove).trans (if_pos hhigher)
  rw [hindex]
  exact ⟨rfl, rfl, rfl⟩

/-- **The next row is a blank one**, and no line is lost while the history has
room. -/
theorem lines_index (h : s.Usual rows cols capacity) {below : Nat}
    (hlines : s.lines = above ++ row :: List.replicate below (Row.blank cols {}))
    (hline : s.cursorLine = above.length) (hroom : above.length + 2 ≤ rows + capacity) :
    (∃ below', s.index.lines =
        above ++ row :: Row.blank cols {} :: List.replicate below' (Row.blank cols {})) ∧
      s.index.cursorLine = above.length + 1 ∧ s.index.cursor.col = s.cursor.col := by
  have hlength : s.history.length + rows = above.length + 1 + below := by
    rw [← length_lines h.sound, hlines, List.length_append, List.length_cons,
      List.length_replicate]
    omega
  have hrow := h.sound.row
  have hbottom := h.bottom_eq
  have hat : s.history.length + s.cursor.row = above.length := hline
  rw [← hline]
  by_cases hend : s.cursor.row = s.region.bottom
  · -- the row of the cursor is the last line
    obtain ⟨hindex, hrest⟩ := h.index_at_end hend (by omega)
    obtain rfl : below = 0 := by omega
    refine ⟨⟨0, ?_⟩, hrest⟩
    rw [hindex, hlines, List.append_assoc]
    rfl
  · obtain ⟨hindex, hrest⟩ := h.index_above_end hend
    obtain ⟨below', rfl⟩ : ∃ below', below = below' + 1 := Nat.exists_eq_add_one.2 (by omega)
    exact ⟨⟨below', hindex.trans hlines⟩, hrest⟩

end Usual

/-! ## One glyph -/

theorem modify_append {α : Type} (l rest : List α) (i : Nat) (f : α → α) :
    (l ++ rest).modify (l.length + i) f = l ++ rest.modify i f := by
  induction l with
  | nil => simp
  | cons a l ih =>
    rw [List.cons_append, List.length_cons, Nat.add_right_comm, List.modify_succ_cons, ih]
    rfl

/-- The row of the cursor is the line of the buffer that the cursor is on. -/
theorem lines_modifyLine {rest : List Row} (hlines : s.lines = above ++ row :: rest)
    (hline : s.cursorLine = above.length) (f : Row → Row) :
    (s.modifyLine f).lines = above ++ f row :: rest := by
  have hmodify : (s.modifyLine f).lines = s.lines.modify s.cursorLine f :=
    (modify_append s.history.lines s.grid.rows s.cursor.row f).symm
  rw [hmodify, hline, hlines]
  exact modify_append above (row :: rest) 0 f

/-- Where the cursor goes behind a glyph that fits, and when a wrap is put
off. -/
theorem cursor_advance (h : s.Usual rows cols capacity) (hw : s.modes.wrapPending = false)
    {width : Nat} (hfits : s.cursor.col + width ≤ cols) :
    (s.advance width).cursor = ⟨s.cursor.row, min (s.cursor.col + width) (cols - 1)⟩ ∧
      (s.advance width).modes.wrapPending = decide (s.cursor.col + width = cols) := by
  have hcols := h.sound.cols_eq
  have hlast := h.sound.lastCol_eq
  unfold advance
  dsimp only
  rw [hcols]
  split
  · rename_i hlt
    refine ⟨?_, hw.trans (decide_eq_false (Nat.ne_of_lt hlt)).symm⟩
    rw [Nat.min_eq_left (by omega)]
    rfl
  · have hend : s.cursor.col + width = cols := by omega
    refine ⟨?_, ?_⟩
    · rw [Nat.min_eq_right (by omega), ← hlast]
      rfl
    · dsimp only
      rw [hw, h.autowrap, decide_eq_true hend]
      rfl

/-- All else stays. -/
theorem rest_advance (s : Screen) (width : Nat) :
    (s.advance width).grid = s.grid ∧ (s.advance width).history = s.history ∧
      (s.advance width).region = s.region ∧ (s.advance width).rendition = s.rendition ∧
      (s.advance width).charsets = s.charsets ∧
      (s.advance width).modes.autowrap = s.modes.autowrap ∧
      (s.advance width).modes.insert = s.modes.insert := by
  unfold advance
  dsimp only
  split <;> exact ⟨rfl, rfl, rfl, rfl, rfl, rfl, rfl⟩

/-! ## Text -/

variable [Glyph.Widths] {cur text : List Char} {c : Char}

/-- Nothing is typed on a blank screen. -/
theorem typed_blank (hrows : 0 < rows) (hcols : 0 < cols) (capacity : Nat) :
    (blank .primary rows cols capacity true).Typed rows cols capacity [] [] where
  sound := Sound.blank Row.law_fits .primary hrows hcols capacity true
  region := by
    rw [fullRegion, (Sound.blank Row.law_fits .primary hrows hcols capacity true).lastRow_eq]
    rfl
  autowrap := rfl
  insert := rfl
  rendition := rfl
  charsets := rfl
  capacity_eq := rfl
  seen := fun _ hc => absurd hc List.not_mem_nil
  fits := Nat.zero_le _
  lines := by
    obtain ⟨below, rfl⟩ : ∃ below, rows = below + 1 := Nat.exists_eq_add_one.2 hrows
    exact ⟨below, rfl⟩
  line := rfl
  column := (Nat.zero_min _).symm
  pending := (decide_eq_false (Nat.ne_of_lt hcols)).symm

/-- On the next row nothing is typed yet. -/
theorem Usual.typed_index (h : s.Usual rows cols capacity) {below : Nat}
    (hlines : s.lines = above ++ row :: List.replicate below (Row.blank cols {}))
    (hline : s.cursorLine = above.length) (hroom : above.length + 2 ≤ rows + capacity) :
    (s.index.atColumn 0).Typed rows cols capacity (above ++ [row]) [] := by
  have hpos := h.sound.cols_pos
  have hpending := Sound.wrapPending_index s
  obtain ⟨⟨below', hlines'⟩, hline', -⟩ := h.lines_index hlines hline hroom
  refine { h.index.atColumn hpending hpos with
    seen := fun _ hc => absurd hc List.not_mem_nil
    fits := Nat.zero_le _
    lines := ⟨below', ?_⟩
    line := ?_
    column := ?_
    pending := ?_ }
  · rw [List.append_assoc]
    exact hlines'
  · rw [List.length_append]
    exact hline'
  · exact (Nat.zero_min _).symm
  · refine hpending.trans (decide_eq_false ?_).symm
    exact Nat.ne_of_lt hpos

namespace Typed

/-- A wrap marks the row, and goes on in the next one. -/
theorem wrap (h : s.Typed rows cols capacity above cur)
    (hroom : above.length + 2 ≤ rows + capacity) :
    s.wrap.Typed rows cols capacity (above ++ [Row.ofText cols cur .wrapped]) [] := by
  obtain ⟨below, hlines⟩ := h.lines
  have hsound := h.sound.cancelWrap.modifyLine fun _ hp => Row.law_fits.wrapped hp
  have hready := h.toUsual.of_eq hsound rfl rfl rfl rfl rfl rfl
  exact hready.typed_index (lines_modifyLine hlines h.line fun row => row.withEnd .wrapped) h.line
    hroom

/-- A line break ends the row where its text ends. Between its two motions the
reports are taken. -/
theorem lineBreak (h : s.Typed rows cols capacity above cur)
    (hroom : above.length + 2 ≤ rows + capacity) :
    s.carriageReturn.dropDamage.index.Typed rows cols capacity
      (above ++ [Row.ofText cols cur (.hard (Glyph.columns cur))]) [] := by
  obtain ⟨below, hlines⟩ := h.lines
  have hready : s.carriageReturn.dropDamage.Usual rows cols capacity :=
    h.toUsual.of_eq h.sound.carriageReturn.dropDamage rfl rfl rfl rfl rfl rfl
  have hcolumn : s.carriageReturn.dropDamage.index.cursor.col = 0 :=
    (hready.lines_index hlines h.line hroom).2.2
  have hsame : s.carriageReturn.dropDamage.index =
      s.carriageReturn.dropDamage.index.atColumn 0 := by
    conv => rhs; rw [← hcolumn]
    rfl
  rw [hsame]
  exact hready.typed_index hlines h.line hroom

/-- Before the last column there is no wrap to be done. -/
theorem before_end (h : s.Typed rows cols capacity above cur) (hlt : Glyph.columns cur < cols) :
    s.cursor.col = Glyph.columns cur ∧ s.modes.wrapPending = false := by
  refine ⟨?_, ?_⟩
  · rw [h.column]
    exact Nat.min_eq_left (by omega)
  · rw [h.pending]
    exact decide_eq_false (Nat.ne_of_lt hlt)

/-- A glyph is placed by writing it at the end of the text. -/
theorem place_eq (h : s.Typed rows cols capacity above cur) (hlt : Glyph.columns cur < cols)
    (c : Char) :
    s.place c (Glyph.width c) {} =
      (s.editLine (·.write (Glyph.columns cur) c {})).advance (Glyph.width c) := by
  unfold Screen.place
  rw [h.insert, h.rendition, (h.before_end hlt).1]
  rfl

/-- The text has one glyph more then. -/
theorem editLine_write (h : s.Typed rows cols capacity above cur) (hc : 0 < Glyph.width c)
    (hfits : Glyph.columns (cur ++ [c]) ≤ cols) :
    (s.editLine (·.write (Glyph.columns cur) c {})).Usual rows cols capacity ∧
      ∃ below, (s.editLine (·.write (Glyph.columns cur) c {})).lines = above ++
        Row.ofText cols (cur ++ [c]) (.hard (Glyph.columns (cur ++ [c]))) ::
          List.replicate below (Row.blank cols {}) := by
  obtain ⟨below, hlines⟩ := h.lines
  constructor
  · exact h.toUsual.of_eq (h.sound.editLine fun _ hp => Row.law_fits.write _ _ _ hp)
      rfl rfl rfl rfl rfl rfl
  · rw [← Row.write_ofText h.seen hc hfits]
    exact ⟨below, lines_modifyLine hlines h.line _⟩

/-- **A glyph goes behind the text**, if there is room for it on the row. -/
theorem place (h : s.Typed rows cols capacity above cur) (hc : 0 < Glyph.width c)
    (hfits : Glyph.columns (cur ++ [c]) ≤ cols) :
    (s.place c (Glyph.width c) {}).Typed rows cols capacity above (cur ++ [c]) := by
  have hsum : Glyph.columns (cur ++ [c]) = Glyph.columns cur + Glyph.width c := by simp
  obtain ⟨hcol, hpending⟩ := h.before_end (by omega)
  obtain ⟨hedited, below, hwritten⟩ := h.editLine_write hc hfits
  obtain ⟨hmoved, hpending'⟩ := cursor_advance hedited hpending
    (show s.cursor.col + Glyph.width c ≤ cols by omega)
  change _ = (⟨s.cursor.row, min (s.cursor.col + Glyph.width c) (cols - 1)⟩ : Cursor) at hmoved
  change _ = decide (s.cursor.col + Glyph.width c = cols) at hpending'
  obtain ⟨hgrid, hhistory, hregion, hrendition, hcharsets, hautowrap, hinsert⟩ :=
    rest_advance (s.editLine (·.write (Glyph.columns cur) c {})) (Glyph.width c)
  have hsound := h.sound.place Row.law_fits hpending c (Glyph.width c) {}
  rw [h.place_eq (by omega)] at hsound ⊢
  refine { hedited.of_eq hsound hregion hautowrap hinsert hrendition hcharsets
      (congrArg History.capacity hhistory) with
    seen := List.forall_mem_append.2 ⟨h.seen, List.forall_mem_singleton.2 hc⟩
    fits := hfits
    lines := ⟨below, ?_⟩
    line := ?_
    column := by rw [hmoved, hsum, hcol]
    pending := by rw [hpending', hsum, hcol] }
  · unfold Screen.lines
    rw [hgrid, hhistory]
    exact hwritten
  · unfold cursorLine
    rw [hhistory, hmoved]
    exact h.line

/-- A glyph that is printed is placed on the row, or on the next one if there
is no room. -/
theorem print_eq (h : s.Typed rows cols capacity above cur) (hc : 0 < Glyph.width c)
    (hwidth : Glyph.width c ≤ cols) :
    s.print c = if Glyph.columns (cur ++ [c]) ≤ cols then s.place c (Glyph.width c) {}
      else s.wrap.place c (Glyph.width c) {} := by
  have hsum : Glyph.columns (cur ++ [c]) = Glyph.columns cur + Glyph.width c := by simp
  have htwo := Glyph.width_le_two c
  have hfit := h.fits
  have hcols := h.sound.cols_eq
  have hcurrent : s.charsets.current = .ascii := by
    rw [h.charsets]
    rfl
  unfold print
  rw [hcurrent]
  dsimp only [Charset.translate, Charset.font]
  rw [if_neg (Nat.ne_of_gt hc)]
  by_cases hlt : Glyph.columns cur < cols
  · obtain ⟨hcol, hpending⟩ := h.before_end hlt
    rw [hpending, if_neg Bool.false_ne_true, hcol, hcols]
    by_cases hfits : Glyph.columns (cur ++ [c]) ≤ cols
    · rw [if_neg (by omega), if_pos hfits]
    · -- a glyph that is too wide for the last column wraps at once
      rw [if_pos (by omega), if_neg hfits, if_pos ⟨h.autowrap, by omega⟩]
  · have hpending : s.modes.wrapPending = true := by
      rw [h.pending]
      exact decide_eq_true (by omega)
    have hfirst : s.wrap.cursor.col = 0 := rfl
    rw [hpending, if_pos rfl, hfirst, (h.sound.wrap_screen Row.law_fits).cols_eq,
      if_neg (by omega), if_neg (by omega)]

/-- What one glyph makes of the rows and the text before the cursor. -/
theorem print (h : s.Typed rows cols capacity above cur) (hc : 0 < Glyph.width c)
    (hwidth : Glyph.width c ≤ cols)
    (hroom : ¬ Glyph.columns (cur ++ [c]) ≤ cols → above.length + 2 ≤ rows + capacity) :
    if Glyph.columns (cur ++ [c]) ≤ cols
    then (s.print c).Typed rows cols capacity above (cur ++ [c])
    else (s.print c).Typed rows cols capacity (above ++ [Row.ofText cols cur .wrapped]) [c] := by
  rw [h.print_eq hc hwidth]
  split
  · rename_i hfits
    exact h.place hc hfits
  · rename_i hfull
    exact (h.wrap (hroom hfull)).place hc (by simpa using hwidth)

/-- Marks and reports do not matter. -/
theorem of_eq (h : s.Typed rows cols capacity above cur) {s' : Screen}
    (hsound : s'.Sound Row.Fits .primary rows cols) (hrows : s'.grid.rows = s.grid.rows)
    (hhistory : s'.history = s.history) (hcursor : s'.cursor = s.cursor)
    (hregion : s'.region = s.region) (hmodes : s'.modes = s.modes)
    (hrendition : s'.rendition = s.rendition) (hcharsets : s'.charsets = s.charsets) :
    s'.Typed rows cols capacity above cur := by
  have husual := h.toUsual.of_eq hsound hregion (by rw [hmodes]) (by rw [hmodes]) hrendition
    hcharsets (by rw [hhistory])
  refine { husual with
    seen := h.seen
    fits := h.fits
    lines := ?_
    line := ?_
    column := by rw [hcursor]; exact h.column
    pending := by rw [hmodes]; exact h.pending }
  · unfold Screen.lines
    rw [hrows, hhistory]
    exact h.lines
  · unfold cursorLine
    rw [hhistory, hcursor]
    exact h.line

theorem dropDamage (h : s.Typed rows cols capacity above cur) :
    s.dropDamage.Typed rows cols capacity above cur :=
  h.of_eq h.sound.dropDamage rfl rfl rfl rfl rfl rfl rfl

theorem markAll (h : s.Typed rows cols capacity above cur) :
    ({ s with grid := s.grid.markAll } : Screen).Typed rows cols capacity above cur :=
  h.of_eq h.sound.markAll rfl rfl rfl rfl rfl rfl rfl

end Typed

end

end Screen

end VideoTerminal
