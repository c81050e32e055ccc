import VideoTerminal.Proofs.Grid.Change
import VideoTerminal.Proofs.Row.Law
import VideoTerminal.Screen.Motion
import VideoTerminal.Screen.Print
import VideoTerminal.Screen.Resize
import VideoTerminal.Screen.Save
/-!
# Sound screens

A screen is sound at a size if everything it points to lies in it: the
cursor, the saved cursor and the region; if a wrap is pending only where one
may be; if its rows and those of its history obey a law; and if its history
keeps to its capacity. Every operation keeps a screen sound, one lemma for
each, and a resize makes it sound at the new size.
-/

namespace VideoTerminal

namespace Screen

/-- The screen is of the given kind and size, all it points to lies in it, and
its rows have the property `P`. -/
structure Sound (P : Nat → Row → Prop) (kind : ScreenKind) (rows cols : Nat) (s : Screen) :
    Prop where
  kind_eq : s.kind = kind
  height : s.grid.rows.length = rows
  width : s.grid.cols = cols
  marks : s.grid.dirty.length = rows
  row : s.cursor.row < rows
  col : s.cursor.col < cols
  ordered : s.region.top ≤ s.region.bottom
  bottom : s.region.bottom < rows
  saved : ∀ c, s.saved = some c → c.cursor.row < rows ∧ c.cursor.col < cols
  wrap : s.modes.wrapPending = true → s.cursor.col = cols - 1 ∧ s.modes.autowrap = true
  shown : s.grid.Each (P cols)
  kept : ∀ row ∈ s.history.lines, P cols row
  capacity : s.history.length ≤ s.history.capacity
  alternate : kind = .alternate → s.history.capacity = 0

namespace Sound

variable {P : Nat → Row → Prop} {kind : ScreenKind} {rows cols : Nat} {s : Screen}

/-! ## Sizes -/

theorem height_eq (h : s.Sound P kind rows cols) : s.height = rows := h.height

theorem cols_eq (h : s.Sound P kind rows cols) : s.cols = cols := h.width

theorem lastRow_eq (h : s.Sound P kind rows cols) : s.lastRow = rows - 1 := by
  unfold lastRow
  rw [h.height_eq]

theorem lastCol_eq (h : s.Sound P kind rows cols) : s.lastCol = cols - 1 := by
  unfold lastCol
  rw [h.cols_eq]

theorem rows_pos (h : s.Sound P kind rows cols) : 0 < rows := Nat.zero_lt_of_lt h.row

theorem cols_pos (h : s.Sound P kind rows cols) : 0 < cols := Nat.zero_lt_of_lt h.col

/-- The alternate screen keeps no rows. -/
theorem history_nil (h : s.Sound P .alternate rows cols) : s.history.lines = [] := by
  have hlen := h.capacity
  rw [h.alternate rfl] at hlen
  exact List.eq_nil_of_length_eq_zero (Nat.le_zero.1 hlen)

/-! ## Small changes -/

/-- A screen on which nothing was written is sound. -/
theorem blank [Glyph.Widths] (law : Row.Law P) (kind : ScreenKind) (hrows : 0 < rows)
    (hcols : 0 < cols) (capacity : Nat) (autowrap : Bool) :
    (Screen.blank kind rows cols capacity autowrap).Sound P kind rows cols where
  kind_eq := rfl
  height := by simp [Screen.blank, Grid.blank, Grid.ofRows]
  width := rfl
  marks := by simp [Screen.blank, Grid.blank, Grid.ofRows]
  row := hrows
  col := hcols
  ordered := Nat.zero_le _
  bottom := Nat.sub_lt hrows Nat.one_pos
  saved := fun _ hc => by cases hc
  wrap := fun hw => by cases hw
  shown := Grid.Each.blank (law.blank cols {}) rows
  kept := fun _ hrow => by cases hrow
  capacity := Nat.zero_le _
  alternate := fun hk => by
    cases hk
    rfl

/-- Another grid of the same size, with rows of the same property. -/
theorem withGrid (h : s.Sound P kind rows cols) {g : Grid} (hheight : g.rows.length = rows)
    (hwidth : g.cols = cols) (hmarks : g.dirty.length = rows) (hshown : g.Each (P cols)) :
    ({ s with grid := g } : Screen).Sound P kind rows cols :=
  { h with height := hheight, width := hwidth, marks := hmarks, shown := hshown }

theorem damaged (h : s.Sound P kind rows cols) (top bottom : Nat) :
    (s.damaged top bottom).Sound P kind rows cols :=
  { h with }

theorem dropDamage (h : s.Sound P kind rows cols) : s.dropDamage.Sound P kind rows cols :=
  { h with }

theorem cancelWrap (h : s.Sound P kind rows cols) : s.cancelWrap.Sound P kind rows cols :=
  { h with wrap := fun hw => by cases hw }

theorem setAutowrap (h : s.Sound P kind rows cols) (on : Bool) :
    (s.setAutowrap on).Sound P kind rows cols :=
  { h with
    wrap := fun hw => by
      obtain ⟨hpending, rfl⟩ := (Bool.and_eq_true _ _).mp hw
      exact ⟨(h.wrap hpending).1, rfl⟩ }

/-- The cursor may go anywhere in the screen while no wrap is pending. -/
theorem place_cursor (h : s.Sound P kind rows cols) (hw : s.modes.wrapPending = false) {c : Cursor}
    (hrow : c.row < rows) (hcol : c.col < cols) :
    ({ s with cursor := c } : Screen).Sound P kind rows cols :=
  { h with
    row := hrow
    col := hcol
    wrap := fun hp => absurd hp (by rw [hw]; decide) }

theorem atColumn (h : s.Sound P kind rows cols) (hw : s.modes.wrapPending = false) {col : Nat}
    (hcol : col < cols) : (s.atColumn col).Sound P kind rows cols :=
  h.place_cursor hw h.row hcol

theorem atRow (h : s.Sound P kind rows cols) (hw : s.modes.wrapPending = false) {row : Nat}
    (hrow : row < rows) : (s.atRow row).Sound P kind rows cols :=
  h.place_cursor hw hrow h.col

theorem withRegion (h : s.Sound P kind rows cols) {region : Region}
    (hordered : region.top ≤ region.bottom) (hbottom : region.bottom < rows) :
    ({ s with region } : Screen).Sound P kind rows cols :=
  { h with ordered := hordered, bottom := hbottom }

theorem lastRow_lt (h : s.Sound P kind rows cols) : s.lastRow < rows := by
  have hlast := h.lastRow_eq
  have hpos := h.rows_pos
  omega

theorem lastCol_lt (h : s.Sound P kind rows cols) : s.lastCol < cols := by
  have hlast := h.lastCol_eq
  have hpos := h.cols_pos
  omega

theorem fullRegion (h : s.Sound P kind rows cols) :
    ({ s with region := s.fullRegion } : Screen).Sound P kind rows cols :=
  h.withRegion (Nat.zero_le _) h.lastRow_lt

theorem markAll (h : s.Sound P kind rows cols) :
    ({ s with grid := s.grid.markAll } : Screen).Sound P kind rows cols :=
  h.withGrid h.height h.width (by rw [Grid.length_dirty_markAll, h.marks]) h.shown

theorem clearMarks (h : s.Sound P kind rows cols) :
    ({ s with grid := s.grid.clearMarks } : Screen).Sound P kind rows cols :=
  h.withGrid h.height h.width (by rw [Grid.length_dirty_clearMarks, h.marks]) h.shown

/-! ## Rows -/

theorem modifyLine (h : s.Sound P kind rows cols) {f : Row → Row}
    (hf : ∀ row, P cols row → P cols (f row)) : (s.modifyLine f).Sound P kind rows cols :=
  h.withGrid ((Grid.height_modifyRow _ _ _).trans h.height) h.width
    (by rw [Grid.length_dirty_modifyRow, h.marks]) (h.shown.modifyRow _ hf)

theorem editLine (h : s.Sound P kind rows cols) {f : Row → Row}
    (hf : ∀ row, P cols row → P cols (f row)) : (s.editLine f).Sound P kind rows cols :=
  (h.modifyLine hf).damaged _ _

theorem resetRows [Glyph.Widths] (law : Row.Law P) (h : s.Sound P kind rows cols) (start stop : Nat)
    (r : Rendition) : (s.resetRows start stop r).Sound P kind rows cols :=
  h.withGrid ((Grid.height_resetRows _ _ _ _).trans h.height) h.width
    (by rw [Grid.length_dirty_resetRows, h.marks])
    (h.shown.resetRows start stop fun _ hp => law.reset r hp)

theorem shiftUp [Glyph.Widths] (law : Row.Law P) (h : s.Sound P kind rows cols)
    (top bottom count : Nat) : (s.shiftUp top bottom count).Sound P kind rows cols :=
  h.withGrid ((Grid.height_scrollUp _ _ _ _ _).trans h.height)
    (by rw [Grid.cols_scrollUp, h.width]) (by rw [Grid.length_dirty_scrollUp, h.marks])
    (h.shown.scrollUp _ _ _ (by rw [h.width]; exact law.blank cols _))

theorem shiftDown [Glyph.Widths] (law : Row.Law P) (h : s.Sound P kind rows cols)
    (top bottom count : Nat) : (s.shiftDown top bottom count).Sound P kind rows cols :=
  h.withGrid ((Grid.height_scrollDown _ _ _ _ _).trans h.height)
    (by rw [Grid.cols_scrollDown, h.width]) (by rw [Grid.length_dirty_scrollDown, h.marks])
    (h.shown.scrollDown _ _ _ fun _ hp => law.reset s.eraser hp)

/-! ## Motion -/

theorem clamp_le {low high : Nat} (h : low ≤ high) (place : Int) : clamp low high place ≤ high := by
  unfold clamp
  omega

theorem targetColumn_lt (h : s.Sound P kind rows cols) (col : Target) :
    s.targetColumn col < cols := by
  have hlast := h.lastCol_eq
  have hpos := h.cols_pos
  cases col with
  | absolute place =>
    have := clamp_le (Nat.zero_le s.lastCol) place
    simp only [targetColumn]
    omega
  | relative n =>
    have := clamp_le (Nat.zero_le s.lastCol) (s.cursor.col + n)
    simp only [targetColumn]
    omega

theorem targetRow_lt (h : s.Sound P kind rows cols) (row : Target) : s.targetRow row < rows := by
  have hlast := h.lastRow_eq
  have hpos := h.rows_pos
  have hbottom := h.bottom
  -- a place between two bounds is below the upper one, be it the region's or the screen's
  have hregion := fun place => clamp_le h.ordered place
  have hscreen := fun place => clamp_le (Nat.zero_le s.lastRow) place
  cases row with
  | absolute place =>
    simp only [targetRow]
    split
    · have := hregion (place + s.region.top)
      omega
    · have := hscreen place
      omega
  | relative n =>
    simp only [targetRow]
    split
    · have := hregion (s.cursor.row + n)
      omega
    · have := hscreen (s.cursor.row + n)
      omega

theorem goto (h : s.Sound P kind rows cols) (row col : Target) :
    (s.goto row col).Sound P kind rows cols :=
  h.cancelWrap.place_cursor rfl (h.targetRow_lt row) (h.targetColumn_lt col)

theorem carriageReturn (h : s.Sound P kind rows cols) : s.carriageReturn.Sound P kind rows cols :=
  h.cancelWrap.atColumn rfl h.cols_pos

theorem backspace (h : s.Sound P kind rows cols) : s.backspace.Sound P kind rows cols := by
  have hrow := h.row
  have hcol := h.col
  have hlast := h.lastCol_eq
  unfold Screen.backspace
  split
  · exact h.cancelWrap
  · rename_i hw
    have hw : s.modes.wrapPending = false := by simpa using hw
    split
    · exact h.atColumn hw (by omega)
    · split
      · refine h.place_cursor hw ?_ ?_
        · change s.cursor.row - 1 < rows
          omega
        · change s.lastCol < cols
          omega
      · exact h

theorem tab (h : s.Sound P kind rows cols) (count : Int) (stops : TabStops) :
    (s.tab count stops).Sound P kind rows cols := by
  have hlast := h.lastCol_eq
  have hpos := h.cols_pos
  refine h.cancelWrap.atColumn rfl ?_
  omega

theorem setRegion (h : s.Sound P kind rows cols) (top bottom : Nat) :
    (s.setRegion top bottom).Sound P kind rows cols := by
  have hlast := h.lastRow_lt
  unfold Screen.setRegion home
  dsimp only
  split
  · rename_i hle
    exact (h.withRegion hle (Nat.lt_of_le_of_lt (Nat.min_le_right _ _) hlast)).goto _ _
  · exact h.fullRegion.goto _ _

/-! ## Scrolling -/

/-- The rows that leave the screen are rows of the screen. -/
theorem leaving (h : s.Sound P kind rows cols) (top bottom n : Nat) :
    ∀ row ∈ s.grid.leaving top bottom n, P cols row := by
  intro row hrow
  rw [Grid.leaving_eq] at hrow
  exact h.shown row (List.mem_of_mem_drop (List.mem_of_mem_take hrow))

/-- What a history holds after a push it held before, or it was pushed. -/
theorem mem_push {history : History} {row line : Row} (h : line ∈ (history.push row).lines) :
    line ∈ history.lines ∨ line = row := by
  unfold History.push at h
  split at h
  · exact Or.inl h
  · simp only [List.mem_append, List.mem_singleton] at h
    rcases h with h | rfl
    · split at h
      · exact Or.inl (List.mem_of_mem_tail h)
      · exact Or.inl h
    · exact Or.inr rfl

theorem mem_pushAll {history : History} {pushed : List Row} {line : Row}
    (h : line ∈ (history.pushAll pushed).lines) : line ∈ history.lines ∨ line ∈ pushed := by
  unfold History.pushAll at h
  induction pushed generalizing history with
  | nil => exact Or.inl h
  | cons row pushed ih =>
    rcases ih h with h | h
    · rcases mem_push h with h | rfl
      · exact Or.inl h
      · exact Or.inr List.mem_cons_self
    · exact Or.inr (List.mem_cons_of_mem row h)

theorem remember (h : s.Sound P kind rows cols) {pushed : List Row}
    (hp : ∀ row ∈ pushed, P cols row) : (s.remember pushed).Sound P kind rows cols :=
  { h with
    kept := fun row hrow => by
      rcases mem_pushAll hrow with hrow | hrow
      · exact h.kept row hrow
      · exact hp row hrow
    capacity := History.length_pushAll_le pushed h.capacity
    alternate := fun hk => (History.capacity_pushAll _ _).trans (h.alternate hk) }

theorem scrollUp [Glyph.Widths] (law : Row.Law P) (h : s.Sound P kind rows cols) (count : Nat) :
    (s.scrollUp count).Sound P kind rows cols := by
  unfold Screen.scrollUp
  dsimp only
  split
  · exact h
  · split
    · exact ((h.shiftUp law _ _ _).remember (h.leaving _ _ _)).damaged _ _
    · exact (h.shiftUp law _ _ _).damaged _ _

theorem scrollDown [Glyph.Widths] (law : Row.Law P) (h : s.Sound P kind rows cols) (count : Nat) :
    (s.scrollDown count).Sound P kind rows cols :=
  (h.shiftDown law _ _ _).damaged _ _

theorem scrollBy [Glyph.Widths] (law : Row.Law P) (h : s.Sound P kind rows cols) (count : Int) :
    (s.scrollBy count).Sound P kind rows cols := by
  unfold Screen.scrollBy
  split
  · exact h
  · exact h.scrollUp law _
  · exact h.scrollDown law _

theorem index [Glyph.Widths] (law : Row.Law P) (h : s.Sound P kind rows cols) :
    s.index.Sound P kind rows cols := by
  have hlast := h.lastRow_eq
  unfold Screen.index
  dsimp only
  split
  · exact h.cancelWrap.scrollUp law 1
  · split
    · rename_i hlt
      refine h.cancelWrap.atRow rfl ?_
      change s.cursor.row < s.lastRow at hlt
      change s.cursor.row + 1 < rows
      omega
    · exact h.cancelWrap

theorem reverseIndex [Glyph.Widths] (law : Row.Law P) (h : s.Sound P kind rows cols) :
    s.reverseIndex.Sound P kind rows cols := by
  have hrow := h.row
  unfold Screen.reverseIndex
  dsimp only
  split
  · exact h.cancelWrap.scrollDown law 1
  · refine h.cancelWrap.atRow rfl ?_
    change s.cursor.row - 1 < rows
    omega

/-! ## Erasing, inserting and deleting -/

theorem eraseLine [Glyph.Widths] (law : Row.Law P) (h : s.Sound P kind rows cols) (part : Erasure) :
    (s.eraseLine part).Sound P kind rows cols := by
  refine h.cancelWrap.editLine fun row hp => ?_
  cases part with
  | toEnd => exact law.eraseToEnd _ _ hp
  | toStart => exact law.blankRange _ _ _ hp
  | all => exact law.reset _ hp

theorem eraseScreen [Glyph.Widths] (law : Row.Law P) (h : s.Sound P kind rows cols)
    (part : Erasure) : (s.eraseScreen part).Sound P kind rows cols := by
  cases part with
  | toEnd => exact ((h.eraseLine law .toEnd).resetRows law _ _ _).damaged _ _
  | toStart => exact ((h.eraseLine law .toStart).resetRows law _ _ _).damaged _ _
  | all => exact (h.cancelWrap.resetRows law _ _ _).damaged _ _

theorem editCells (h : s.Sound P kind rows cols) (count : Nat)
    {edit : Row → Nat → Nat → Rendition → Row}
    (hedit : ∀ row col n r, P cols row → P cols (edit row col n r)) :
    (s.editCells count edit).Sound P kind rows cols := by
  unfold Screen.editCells
  dsimp only
  split
  · exact h.cancelWrap
  · exact h.cancelWrap.editLine fun row hp => hedit row _ _ _ hp

theorem insertCells [Glyph.Widths] (law : Row.Law P) (h : s.Sound P kind rows cols) (count : Nat) :
    (s.insertCells count).Sound P kind rows cols :=
  h.editCells count fun _ col n r hp => law.insertBlanks col n r hp

theorem deleteCells [Glyph.Widths] (law : Row.Law P) (h : s.Sound P kind rows cols) (count : Nat) :
    (s.deleteCells count).Sound P kind rows cols :=
  h.editCells count fun _ col n r hp => law.deleteCells col n r hp

theorem eraseCells [Glyph.Widths] (law : Row.Law P) (h : s.Sound P kind rows cols) (count : Nat) :
    (s.eraseCells count).Sound P kind rows cols :=
  h.editCells count fun _ col n r hp => law.blankRange col (col + n) r hp

theorem backIndex [Glyph.Widths] (law : Row.Law P) (h : s.Sound P kind rows cols) :
    s.backIndex.Sound P kind rows cols := by
  have hcol := h.col
  unfold Screen.backIndex
  dsimp only
  split
  · refine h.cancelWrap.atColumn rfl ?_
    change s.cursor.col - 1 < cols
    omega
  · exact h.cancelWrap.editLine fun _ hp => law.insertBlanks _ _ _ hp

theorem forwardIndex [Glyph.Widths] (law : Row.Law P) (h : s.Sound P kind rows cols) :
    s.forwardIndex.Sound P kind rows cols := by
  have hlast := h.lastCol_eq
  unfold Screen.forwardIndex
  dsimp only
  split
  · rename_i hlt
    refine h.cancelWrap.atColumn rfl ?_
    change s.cursor.col < s.lastCol at hlt
    change s.cursor.col + 1 < cols
    omega
  · exact h.cancelWrap.editLine fun _ hp => law.deleteCells _ _ _ hp

theorem editLines (h : s.Sound P kind rows cols) (count : Nat)
    {shift : Screen → Nat → Nat → Nat → Screen}
    (hshift : ∀ {s : Screen} top bottom n, s.Sound P kind rows cols →
      (shift s top bottom n).Sound P kind rows cols)
    (hwrap : ∀ s top bottom n,
      (shift s top bottom n).modes.wrapPending = s.modes.wrapPending) :
    (s.editLines count shift).Sound P kind rows cols := by
  unfold Screen.editLines
  dsimp only
  split
  · split
    · exact h.cancelWrap
    · refine Sound.damaged (Sound.atColumn (hshift _ _ _ h.cancelWrap) ?_ h.cols_pos) _ _
      rw [hwrap]
      rfl
  · exact h

theorem insertLines [Glyph.Widths] (law : Row.Law P) (h : s.Sound P kind rows cols) (count : Nat) :
    (s.insertLines count).Sound P kind rows cols :=
  h.editLines count (fun top bottom n h => h.shiftDown law top bottom n) fun _ _ _ _ => rfl

theorem deleteLines [Glyph.Widths] (law : Row.Law P) (h : s.Sound P kind rows cols) (count : Nat) :
    (s.deleteLines count).Sound P kind rows cols :=
  h.editLines count (fun top bottom n h => h.shiftUp law top bottom n) fun _ _ _ _ => rfl

/-! ## Writing -/

@[simp] theorem modes_scrollUp (s : Screen) (count : Nat) : (s.scrollUp count).modes = s.modes := by
  unfold Screen.scrollUp
  dsimp only
  split
  · rfl
  · split <;> rfl

/-- No wrap is pending after a wrap. -/
theorem wrapPending_index (s : Screen) : s.index.modes.wrapPending = false := by
  unfold Screen.index
  dsimp only
  split
  · rw [modes_scrollUp]
    rfl
  · split <;> rfl

theorem wrap_screen [Glyph.Widths] (law : Row.Law P) (h : s.Sound P kind rows cols) :
    s.wrap.Sound P kind rows cols :=
  ((h.cancelWrap.modifyLine fun _ hp => law.wrapped hp).index law).atColumn
    (wrapPending_index _) h.cols_pos

theorem advance (h : s.Sound P kind rows cols) (hw : s.modes.wrapPending = false) (width : Nat) :
    (s.advance width).Sound P kind rows cols := by
  have hcols := h.cols_eq
  unfold Screen.advance
  dsimp only
  split
  · exact h.atColumn hw (by omega)
  · have hlast := h.lastCol_eq
    refine { h.atColumn hw h.lastCol_lt with wrap := fun hp => ⟨hlast, ?_⟩ }
    -- the wrap is put off only where lines wrap
    change (s.modes.wrapPending || s.modes.autowrap) = true at hp
    rw [hw, Bool.false_or] at hp
    exact hp

theorem place [Glyph.Widths] (law : Row.Law P) (h : s.Sound P kind rows cols)
    (hw : s.modes.wrapPending = false) (glyph : Char) (width : Nat) (font : Flags) :
    (s.place glyph width font).Sound P kind rows cols := by
  refine advance (h.editLine fun row hp => law.write _ _ _ ?_) hw width
  split
  · exact law.insertBlanks _ _ _ hp
  · exact hp

theorem print [Glyph.Widths] (law : Row.Law P) (h : s.Sound P kind rows cols) (c : Char) :
    (s.print c).Sound P kind rows cols := by
  unfold Screen.print
  dsimp only
  split
  · exact h
  · -- the pending wrap is over, whether there was one or not
    have hready : (if s.modes.wrapPending then s.wrap else s).Sound P kind rows cols ∧
        (if s.modes.wrapPending then s.wrap else s).modes.wrapPending = false := by
      split
      · exact ⟨h.wrap_screen law, wrapPending_index _⟩
      · rename_i hw
        exact ⟨h, by simpa using hw⟩
    generalize (if s.modes.wrapPending then s.wrap else s) = ready at hready
    obtain ⟨hs, hw⟩ := hready
    split
    · split
      · exact (hs.wrap_screen law).place law (wrapPending_index _) _ _ _
      · exact hs
    · exact hs.place law hw _ _ _

/-! ## Saving and resetting -/

theorem saveCursor (h : s.Sound P kind rows cols) : s.saveCursor.Sound P kind rows cols :=
  { h with
    saved := fun c hc => by
      cases hc
      exact ⟨h.row, h.col⟩ }

theorem restoreCursor (h : s.Sound P kind rows cols) : s.restoreCursor.Sound P kind rows cols :=
  { h with
    row := Nat.lt_of_le_of_lt (Nat.min_le_right _ _) h.lastRow_lt
    col := Nat.lt_of_le_of_lt (Nat.min_le_right _ _) h.lastCol_lt
    wrap := fun hw => by cases hw }

theorem align [Glyph.Widths] (law : Row.Law P) (h : s.Sound P kind rows cols) :
    s.align.Sound P kind rows cols :=
  { h with
    height := (Grid.height_fill _ _ _).trans h.height
    marks := by
      change (s.grid.fill 'E' {}).dirty.length = rows
      rw [Grid.length_dirty_fill, h.marks]
    row := h.rows_pos
    col := h.cols_pos
    ordered := Nat.zero_le _
    bottom := h.lastRow_lt
    wrap := fun hw => by cases hw
    shown := h.shown.fill fun _ hp => law.fill {} hp }

theorem reset [Glyph.Widths] (law : Row.Law P) (h : s.Sound P kind rows cols) :
    s.reset.Sound P kind rows cols :=
  { h.resetRows law 0 s.height {} with
    row := h.rows_pos
    col := h.cols_pos
    ordered := Nat.zero_le _
    bottom := h.lastRow_lt
    saved := fun _ hc => by cases hc
    wrap := fun hw => by cases hw }

/-! ## Resizing -/

@[simp] theorem length_historyAt (s : Screen) (width : Nat) :
    (s.historyAt width).lines.length = s.history.length := by
  unfold historyAt
  split
  · rfl
  · simp [History.resized, History.length]

@[simp] theorem capacity_historyAt (s : Screen) (width : Nat) :
    (s.historyAt width).capacity = s.history.capacity := by
  unfold historyAt
  split <;> rfl

/-- The history keeps to the law at its new width. -/
theorem kept_historyAt [Glyph.Widths] (law : Row.Law P) (h : s.Sound P kind rows cols) {width : Nat}
    (hwidth : 0 < width) : ∀ row ∈ (s.historyAt width).lines, P width row := by
  intro row hrow
  unfold historyAt at hrow
  split at hrow
  · rename_i hsame
    rw [hsame, h.cols_eq]
    exact h.kept row hrow
  · obtain ⟨old, hold, rfl⟩ := List.mem_map.1 hrow
    exact law.resized _ hwidth (h.kept old hold)

theorem shown_resized [Glyph.Widths] (law : Row.Law P) (h : s.Sound P kind rows cols) {width : Nat}
    (hwidth : 0 < width) (r : Rendition) :
    ∀ row ∈ s.grid.rows.map (·.resized width r), P width row := by
  intro row hrow
  obtain ⟨old, hold, rfl⟩ := List.mem_map.1 hrow
  exact law.resized _ hwidth (h.shown old hold)

/-- What comes back from the history finds room in the higher screen, and
what stays of the screen finds room with it. -/
theorem reflow_le (h : s.Sound P kind rows cols) (lines : List Row) (height : Nat) :
    (s.reflow lines height).pulled ≤ s.history.length ∧
      (s.reflow lines height).pulled + min height (rows - (s.reflow lines height).leaving) ≤
        height := by
  have hheight := h.height_eq
  unfold reflow
  dsimp only
  split <;> omega

theorem resize [Glyph.Widths] (law : Row.Law P) (h : s.Sound P kind rows cols) {height width : Nat}
    (hheight : 0 < height) (hwidth : 0 < width) :
    (s.resize height width).Sound P kind height width := by
  unfold Screen.resize
  dsimp only
  generalize hflow : s.reflow (s.grid.rows.map (·.resized width s.eraser)) height = flow
  have hroom := h.reflow_le (s.grid.rows.map (·.resized width s.eraser)) height
  rw [hflow] at hroom
  have hshown := h.shown_resized law hwidth s.eraser
  have hkept := h.kept_historyAt law hwidth
  -- the rows that are shown: those pulled back, those that stay, and blank ones below
  have hgrid : ((s.historyAt width).lines.drop ((s.historyAt width).length - flow.pulled) ++
      ((s.grid.rows.map (·.resized width s.eraser)).drop flow.leaving).take height).length ≤
        height := by
    rw [List.length_append, List.length_drop, List.length_take, List.length_drop, List.length_map,
      length_historyAt, h.height]
    simp only [History.length, length_historyAt]
    omega
  have hrows : ∀ row ∈ ((s.historyAt width).lines.drop ((s.historyAt width).length - flow.pulled) ++
      ((s.grid.rows.map (·.resized width s.eraser)).drop flow.leaving).take height),
      P width row := by
    intro row hrow
    rcases List.mem_append.1 hrow with hrow | hrow
    · exact hkept row (List.mem_of_mem_drop hrow)
    · exact hshown row (List.mem_of_mem_drop (List.mem_of_mem_take hrow))
  generalize ((s.historyAt width).lines.drop ((s.historyAt width).length - flow.pulled) ++
    ((s.grid.rows.map (·.resized width s.eraser)).drop flow.leaving).take height) = grid
    at hgrid hrows
  apply Sound.damaged
  have hsound : ({ s with
      grid := Grid.ofRows
        (grid ++ List.replicate (height - grid.length) (Row.blank width s.eraser)) width
      history := { s.historyAt width with
        lines := (s.historyAt width).lines.take ((s.historyAt width).length - flow.pulled) }
      cursor :=
        ⟨min (s.cursor.row - flow.leaving + flow.pulled) (height - 1),
          min s.cursor.col (width - 1)⟩
      region := ⟨0, height - 1⟩
      modes.wrapPending := false
      saved := s.saved.map (·.clamped height width) } : Screen).Sound P kind height width := by
    constructor
    case kind_eq => exact h.kind_eq
    case height | marks =>
      simp only [Grid.ofRows, List.length_map, List.length_append, List.length_replicate]
      omega
    case width => rfl
    case row | col | bottom => dsimp only; omega
    case ordered => exact Nat.zero_le _
    case saved =>
      intro c hc
      obtain ⟨old, -, rfl⟩ := Option.map_eq_some_iff.1 hc
      simp only [SavedCursor.clamped]
      omega
    case wrap => exact fun hw => by cases hw
    case shown =>
      intro row hrow
      rcases List.mem_append.1 hrow with hrow | hrow
      · exact hrows row hrow
      · rw [List.eq_of_mem_replicate hrow]
        exact law.blank width _
    case kept => exact fun row hrow => hkept row (List.mem_of_mem_take hrow)
    case capacity =>
      have hcap := h.capacity
      simp only [History.length, List.length_take, capacity_historyAt, length_historyAt] at hcap ⊢
      omega
    case alternate => exact fun hk => (capacity_historyAt s width).trans (h.alternate hk)
  split
  · exact hsound.remember fun row hrow => hshown row (List.mem_of_mem_take hrow)
  · exact hsound

end Sound

end Screen

end VideoTerminal
