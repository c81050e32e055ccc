import VideoTerminal.Proofs.Row.Resized
import VideoTerminal.Proofs.Screen.Report
/-!
# Resizing and the lines of the buffer

A resize moves the border between the history and the rows of the screen, and
may drop lines at either end of the buffer or put blank ones at its end. The
lines between keep their order, at their new width (`lines_resize`). How many
lines move is decided by the cursor and by the blank rows at the end of the
screen (`blankTail`), and the cursor goes with its line.
-/

namespace VideoTerminal

/-! ## Blank rows at the end -/

section BlankTail

variable {rows : List Row} {keep : Nat}

/-- The blank rows at the end are as many as there are: the row before them,
if it may be counted, is not blank. -/
theorem blankTail_spec (rows : List Row) (keep : Nat) :
    ∃ front tail, rows.drop keep = front ++ tail ∧ tail.length = blankTail rows keep ∧
      (∀ row ∈ tail, row.isBlank = true) ∧
        ∀ row, front.getLast? = some row → row.isBlank = false := by
  refine ⟨((rows.drop keep).reverse.dropWhile Row.isBlank).reverse,
    ((rows.drop keep).reverse.takeWhile Row.isBlank).reverse, ?_, List.length_reverse, ?_, ?_⟩
  · rw [← List.reverse_append, List.takeWhile_append_dropWhile, List.reverse_reverse]
  · exact fun row hrow => List.all_eq_true.1 List.all_takeWhile row (List.mem_reverse.1 hrow)
  · intro row hrow
    have hhead := List.head?_dropWhile_not Row.isBlank (rows.drop keep).reverse
    rw [List.getLast?_reverse] at hrow
    rw [hrow] at hhead
    exact hhead

theorem blankTail_le (rows : List Row) (keep : Nat) : blankTail rows keep ≤ rows.length - keep := by
  obtain ⟨front, tail, hsplit, hlen, -, -⟩ := blankTail_spec rows keep
  rw [← List.length_drop, hsplit, List.length_append]
  omega

/-- The rows that are counted are blank. -/
theorem isBlank_of_blankTail {i : Nat} {row : Row} (hrow : rows[i]? = some row)
    (hi : rows.length ≤ i + blankTail rows keep) : row.isBlank = true := by
  obtain ⟨front, tail, hsplit, hlen, hblank, -⟩ := blankTail_spec rows keep
  have hbound := blankTail_le rows keep
  have hdrop : (rows.drop keep).length = front.length + tail.length := by
    rw [hsplit, List.length_append]
  rw [List.length_drop] at hdrop
  have hin : i < rows.length := (List.getElem?_eq_some_iff.1 hrow).1
  have hmem : (rows.drop keep)[i - keep]? = some row := by
    rw [List.getElem?_drop, Nat.add_sub_of_le (by omega), hrow]
  rw [hsplit, List.getElem?_append_right (by omega)] at hmem
  exact hblank row (List.mem_of_getElem? hmem)

/-- The row before those that are counted is not blank. -/
theorem exists_not_isBlank (h : keep + blankTail rows keep < rows.length) :
    ∃ row, rows[rows.length - blankTail rows keep - 1]? = some row ∧ row.isBlank = false := by
  obtain ⟨front, tail, hsplit, hlen, -, hlast⟩ := blankTail_spec rows keep
  have hdrop : (rows.drop keep).length = front.length + tail.length := by
    rw [hsplit, List.length_append]
  rw [List.length_drop] at hdrop
  have hrow : rows[rows.length - blankTail rows keep - 1]? = front.getLast? := by
    have hplace : rows.length - blankTail rows keep - 1 = keep + (front.length - 1) := by omega
    rw [hplace, ← List.getElem?_drop, hsplit, List.getElem?_append_left (by omega),
      List.getLast?_eq_getElem?]
  have hne : front ≠ [] := by
    rintro rfl
    rw [List.length_nil] at hdrop
    omega
  have hget := List.getLast?_eq_some_getLast hne
  exact ⟨front.getLast hne, hrow.trans hget, hlast _ hget⟩

/-- If all rows that may be counted are blank, they all are counted. -/
theorem blankTail_eq (hkeep : keep ≤ rows.length)
    (hblank : ∀ row ∈ rows.drop keep, row.isBlank = true) :
    keep + blankTail rows keep = rows.length := by
  have hbound := blankTail_le rows keep
  refine Nat.le_antisymm (by omega) (Nat.le_of_not_lt fun hlt => ?_)
  obtain ⟨row, hrow, hnot⟩ := exists_not_isBlank hlt
  have hmem : (rows.drop keep)[rows.length - blankTail rows keep - 1 - keep]? = some row := by
    rw [List.getElem?_drop, Nat.add_sub_of_le (by omega), hrow]
  rw [hblank row (List.mem_of_getElem? hmem)] at hnot
  cases hnot

end BlankTail

namespace Screen

/-- The rows of the screen at another width. -/
def rowsAt (s : Screen) (width : Nat) : List Row :=
  s.grid.rows.map (·.resized width s.eraser)

/-- The lines of the buffer at another width. -/
def linesAt (s : Screen) (width : Nat) : List Row :=
  s.lines.map (·.resized width s.eraser)

/-- How the rows move when the screen gets another size. -/
def flowTo (s : Screen) (height width : Nat) : Reflow :=
  s.reflow (s.rowsAt width) height

/-- The history without the lines that come back from it. -/
def remaining (s : Screen) (height width : Nat) : History :=
  let old := (s.historyAt width).lines
  { s.historyAt width with lines := old.take (old.length - (s.flowTo height width).pulled) }

/-- The rows that a resized screen shows above the blank ones: those that come
back from the history and those that stay. -/
def keptRows (s : Screen) (height width : Nat) : List Row :=
  let old := (s.historyAt width).lines
  old.drop (old.length - (s.flowTo height width).pulled) ++
    ((s.rowsAt width).drop (s.flowTo height width).leaving).take height

section Resize

variable {P : Nat → Row → Prop} {kind : ScreenKind} {rows cols height width : Nat} {s : Screen}

theorem length_rowsAt (h : s.Sound P kind rows cols) (width : Nat) :
    (s.rowsAt width).length = rows := by
  rw [rowsAt, List.length_map, h.height]

theorem length_lines (h : s.Sound P kind rows cols) :
    s.lines.length = s.history.length + rows := by
  rw [lines, List.length_append, h.height]
  rfl

theorem Sound.of_mem_lines (h : s.Sound P kind rows cols) {row : Row} (hrow : row ∈ s.lines) :
    P cols row :=
  (List.mem_append.1 hrow).elim (h.kept row) (h.shown row)

theorem length_linesAt (h : s.Sound P kind rows cols) (width : Nat) :
    (s.linesAt width).length = s.history.length + rows := by
  rw [linesAt, List.length_map, length_lines h]

/-! ## The parts of a resized screen -/

theorem history_resize (h : s.Sound P .primary rows cols) (height width : Nat) :
    (s.resize height width).history = (s.remaining height width).pushAll
      ((s.rowsAt width).take (s.flowTo height width).leaving) := by
  unfold resize
  dsimp only
  rw [if_pos h.kind_eq]
  rfl

theorem capacity_resize (h : s.Sound P .primary rows cols) (height width : Nat) :
    (s.resize height width).history.capacity = s.history.capacity := by
  rw [history_resize h, History.capacity_pushAll, remaining, Sound.capacity_historyAt]

theorem rows_resize (s : Screen) (height width : Nat) :
    (s.resize height width).grid.rows = s.keptRows height width ++
      List.replicate (height - (s.keptRows height width).length) (Row.blank width s.eraser) := by
  unfold resize
  dsimp only
  split <;> rfl

theorem cursor_resize (s : Screen) (height width : Nat) :
    (s.resize height width).cursor =
      ⟨min (s.cursor.row - (s.flowTo height width).leaving + (s.flowTo height width).pulled)
          (height - 1), min s.cursor.col (width - 1)⟩ := by
  unfold resize
  dsimp only
  split <;> rfl

/-! ## How far the border moves -/

theorem leaving_flowTo (h : s.Sound P kind rows cols) (height width : Nat) :
    (s.flowTo height width).leaving =
      min (rows - height - min (rows - height) (blankTail (s.rowsAt width) (s.cursor.row + 1)))
        s.cursor.row := by
  rw [← h.height_eq]
  rfl

theorem pulled_flowTo (h : s.Sound P .primary rows cols) (height width : Nat) :
    (s.flowTo height width).pulled = min (height - rows) s.history.length := by
  rw [← h.height_eq]
  exact if_pos h.kind_eq

/-- A lower screen loses rows, a higher one takes some back, and the cursor
stays in sight. -/
theorem flowTo_bounds (h : s.Sound P kind rows cols) (hheight : 0 < height) (width : Nat) :
    (s.flowTo height width).leaving ≤ s.cursor.row ∧
      (s.flowTo height width).leaving ≤ rows - height ∧
      (s.flowTo height width).pulled ≤ s.history.length ∧
      (s.flowTo height width).pulled ≤ height - rows ∧
      s.cursor.row - (s.flowTo height width).leaving + (s.flowTo height width).pulled < height := by
  have hrow := h.row
  have hleaving := leaving_flowTo h height width
  have htail := blankTail_le (s.rowsAt width) (s.cursor.row + 1)
  rw [length_rowsAt h] at htail
  have hpulled : (s.flowTo height width).pulled ≤ s.history.length ∧
      (s.flowTo height width).pulled ≤ height - rows := by
    rw [← h.height_eq]
    unfold flowTo reflow
    dsimp only
    split <;> omega
  omega

/-- The cursor goes with its line. -/
theorem cursor_row_resize (h : s.Sound P kind rows cols) (hheight : 0 < height) (width : Nat) :
    (s.resize height width).cursor.row =
      s.cursor.row - (s.flowTo height width).leaving + (s.flowTo height width).pulled := by
  have hbounds := flowTo_bounds h hheight width
  rw [cursor_resize]
  exact Nat.min_eq_left (by omega)

/-- Lines leave the history only while rows leave the screen, and then none
comes back. -/
theorem evictions_remaining (h : s.Sound P kind rows cols) (hheight : 0 < height) (width : Nat) :
    (s.remaining height width).evictions (s.flowTo height width).leaving =
      s.history.evictions (s.flowTo height width).leaving := by
  obtain ⟨-, hleaving, -, hpulled, -⟩ := flowTo_bounds h hheight width
  unfold History.evictions History.length remaining
  dsimp only
  rw [Sound.capacity_historyAt, List.length_take, Sound.length_historyAt, History.length]
  split <;> omega

theorem length_take_rowsAt (h : s.Sound P kind rows cols) (hheight : 0 < height) (width : Nat) :
    ((s.rowsAt width).take (s.flowTo height width).leaving).length =
      (s.flowTo height width).leaving := by
  have hleaving := (flowTo_bounds h hheight width).2.1
  rw [List.length_take, length_rowsAt h]
  omega

theorem evicted_resize (h : s.Sound P .primary rows cols) (hheight : 0 < height) (width : Nat) :
    (s.resize height width).damage.evicted =
      s.damage.evicted + s.history.evictions (s.flowTo height width).leaving := by
  have hpushed : (s.resize height width).damage.evicted = s.damage.evicted +
      (s.remaining height width).evictions
        ((s.rowsAt width).take (s.flowTo height width).leaving).length := by
    unfold resize
    dsimp only
    rw [if_pos h.kind_eq]
    rfl
  rw [hpushed, length_take_rowsAt h hheight, evictions_remaining h hheight]

/-! ## What becomes of the lines -/

theorem lines_historyAt (h : s.Sound Row.Fits kind rows cols) (width : Nat) :
    (s.historyAt width).lines = s.history.lines.map (·.resized width s.eraser) := by
  unfold historyAt
  split
  · rename_i hsame
    have hself : ∀ row ∈ s.history.lines, row.resized width s.eraser = row := by
      intro row hrow
      rw [hsame, h.cols_eq]
      exact Row.resized_self (h.kept row hrow) _
    rw [List.map_congr_left hself, List.map_id']
  · rfl

theorem linesAt_eq (h : s.Sound Row.Fits kind rows cols) (width : Nat) :
    s.linesAt width = (s.historyAt width).lines ++ s.rowsAt width := by
  rw [lines_historyAt h, linesAt, lines, List.map_append, rowsAt]

/-- The rows of the screen are the lines after those of the history. -/
theorem getElem?_lines (s : Screen) (i : Nat) :
    s.lines[s.history.length + i]? = s.grid.rows[i]? := by
  rw [lines, History.length, List.getElem?_append_right (Nat.le_add_right _ _),
    Nat.add_sub_cancel_left]

theorem getElem?_linesAt (s : Screen) (width i : Nat) :
    (s.linesAt width)[s.history.length + i]? = (s.rowsAt width)[i]? := by
  rw [linesAt, rowsAt, List.getElem?_map, List.getElem?_map, getElem?_lines]

/-- Moving the border between two lists, where lines go over it in one
direction only. -/
theorem append_moved {α : Type} (old rows : List α) {pulled leaving gone height : Nat}
    (hpulled : pulled ≤ old.length) (hone : pulled = 0 ∨ leaving = 0 ∧ gone = 0)
    (hgone : gone ≤ leaving) (hleaving : leaving ≤ rows.length) :
    (old.take (old.length - pulled) ++ rows.take leaving).drop gone ++
        (old.drop (old.length - pulled) ++ (rows.drop leaving).take height) =
      ((old ++ rows).take (old.length + min rows.length (leaving + height))).drop gone := by
  have htake : (old ++ rows).take (old.length + min rows.length (leaving + height)) =
      old ++ rows.take (leaving + height) := by
    rw [List.take_length_add_append]
    congr 1
    rw [List.take_eq_take_iff]
    omega
  rw [htake]
  rcases hone with rfl | ⟨rfl, rfl⟩
  · rw [Nat.sub_zero, List.take_length, List.drop_length, List.nil_append, List.take_add,
      ← List.append_assoc, ← List.drop_append_of_le_length]
    rw [List.length_append, List.length_take]
    omega
  · rw [List.drop_zero, List.drop_zero, List.drop_zero, List.take_zero, List.append_nil,
      ← List.append_assoc, List.take_append_drop, Nat.zero_add]

/-- What a resized screen remembers. -/
theorem history_lines_resize (h : s.Sound P .primary rows cols) (hcap : 0 < s.history.capacity)
    (hheight : 0 < height) (width : Nat) :
    (s.resize height width).history.lines =
      ((s.remaining height width).lines ++
        (s.rowsAt width).take (s.flowTo height width).leaving).drop
          (s.history.evictions (s.flowTo height width).leaving) := by
  have hpos : 0 < (s.remaining height width).capacity := by
    rw [remaining, Sound.capacity_historyAt]
    exact hcap
  have hroom : (s.remaining height width).length ≤ (s.remaining height width).capacity := by
    have hle := h.capacity
    have hold := Sound.length_historyAt s width
    unfold History.length remaining at *
    dsimp only
    rw [Sound.capacity_historyAt, List.length_take]
    omega
  rw [history_resize h, History.lines_pushAll hpos hroom, length_take_rowsAt h hheight,
    evictions_remaining h hheight]

/-- As many lines as leave the screen move into the history, less those that
leave it in turn and those that come back. -/
theorem length_history_resize (h : s.Sound P .primary rows cols) (hcap : 0 < s.history.capacity)
    (hheight : 0 < height) (width : Nat) :
    (s.resize height width).history.length +
        (s.history.evictions (s.flowTo height width).leaving + (s.flowTo height width).pulled) =
      s.history.length + (s.flowTo height width).leaving := by
  have hev := s.history.evictions_le (s.flowTo height width).leaving
  have hlen := length_rowsAt h width
  have hold := Sound.length_historyAt s width
  obtain ⟨-, hleaving, hpulled, -, -⟩ := flowTo_bounds h hheight width
  rw [History.length, history_lines_resize h hcap hheight, List.length_drop, List.length_append,
    List.length_take, remaining, List.length_take, hlen, hold]
  omega

/-- **The lines of the buffer keep their order.** Some leave at either end,
and blank ones are put at the end. -/
theorem lines_resize (h : s.Sound Row.Fits .primary rows cols) (hcap : 0 < s.history.capacity)
    (hheight : 0 < height) (width : Nat) :
    (s.resize height width).lines =
      ((s.linesAt width).take
          (s.history.length + min rows ((s.flowTo height width).leaving + height))).drop
          (s.history.evictions (s.flowTo height width).leaving) ++
        List.replicate (height - (rows + (s.flowTo height width).pulled))
          (Row.blank width s.eraser) := by
  have hev := s.history.evictions_le (s.flowTo height width).leaving
  have hlen := length_rowsAt h width
  have hold := Sound.length_historyAt s width
  obtain ⟨-, hleaving, hpulled, hpulled', -⟩ := flowTo_bounds h hheight width
  have hpadding : height - (s.keptRows height width).length =
      height - (rows + (s.flowTo height width).pulled) := by
    unfold keptRows
    dsimp only
    rw [List.length_append, List.length_drop, List.length_take, List.length_drop, hlen, hold]
    omega
  rw [lines, history_lines_resize h hcap hheight, rows_resize, hpadding, ← List.append_assoc,
    linesAt_eq h, ← hold, ← hlen, ← append_moved]
  · rfl
  all_goals omega

/-- Lines that are cut off at the end are blank, unless something is written
so far below the cursor that the screen is too low for both. -/
theorem cut_resize (h : s.Sound P kind rows cols) (hheight : 0 < height) (width : Nat) :
    (∀ row ∈ (s.linesAt width).drop
        (s.history.length + min rows ((s.flowTo height width).leaving + height)),
        row.isBlank = true) ∨
      ∃ i row, s.history.length + s.cursor.row + height ≤ i ∧
        (s.linesAt width)[i]? = some row ∧ row.isBlank = false := by
  have hlen := length_rowsAt h width
  have hleaving := leaving_flowTo h height width
  by_cases hcut : rows ≤
      (s.flowTo height width).leaving + height + blankTail (s.rowsAt width) (s.cursor.row + 1)
  · -- no more is cut off than blank rows
    left
    intro row hrow
    obtain ⟨j, hj⟩ := List.mem_iff_getElem?.1 hrow
    rw [List.getElem?_drop, Nat.add_assoc, getElem?_linesAt] at hj
    have hin := (List.getElem?_eq_some_iff.1 hj).1
    have hcounted : (s.rowsAt width).length ≤
        min rows ((s.flowTo height width).leaving + height) + j +
          blankTail (s.rowsAt width) (s.cursor.row + 1) := by omega
    exact isBlank_of_blankTail hj hcounted
  · -- all rows above the cursor left, and those below it are still too many
    right
    have hbefore : s.cursor.row + 1 + blankTail (s.rowsAt width) (s.cursor.row + 1) <
        (s.rowsAt width).length := by omega
    obtain ⟨row, hrow, hnot⟩ := exists_not_isBlank hbefore
    exact ⟨_, row, by omega, (s.getElem?_linesAt width _).trans hrow, hnot⟩

/-! ## The saved cursor -/

/-- A cursor that was saved is only moved into the screen, whatever becomes of
its line. -/
theorem cursor_restoreCursor_resize [Glyph.Widths] (h : s.Sound Row.Fits kind rows cols)
    (hheight : 0 < height) (hwidth : 0 < width) :
    (s.saveCursor.resize height width).restoreCursor.cursor =
      ⟨min s.cursor.row (height - 1), min s.cursor.col (width - 1)⟩ := by
  have hresized := h.saveCursor.resize Row.law_fits hheight hwidth
  have hsaved : (s.saveCursor.resize height width).saved =
      s.saveCursor.saved.map (·.clamped height width) := by
    unfold resize
    dsimp only
    split <;> rfl
  unfold restoreCursor
  dsimp only
  rw [hresized.lastRow_eq, hresized.lastCol_eq, hsaved]
  simp only [saveCursor, SavedCursor.clamped, Option.map_some, Option.getD_some, Nat.min_assoc,
    Nat.min_self]

/-- **When the saved cursor is still on its line**, which the other one always
is: at the same height; on a higher screen if nothing comes back from the
history; on a lower one if the blank rows at its end are as many as have to
go, or all that are below the cursor, or if no row can leave above the cursor,
or if there is no place for it but one. -/
theorem cursor_restoreCursor_resize_iff [Glyph.Widths] (h : s.Sound Row.Fits .primary rows cols)
    (hheight : 0 < height) (hwidth : 0 < width) :
    let blanks := blankTail (s.rowsAt width) (s.cursor.row + 1)
    (s.saveCursor.resize height width).restoreCursor.cursor = (s.resize height width).cursor ↔
      height = rows ∨ (rows < height ∧ s.history.lines = []) ∨
        (height < rows ∧ (rows ≤ height + blanks ∨ s.cursor.row + 1 + blanks = rows ∨
          s.cursor.row = 0 ∨ height = 1)) := by
  intro blanks
  have hrow := h.row
  have hleaving : (s.flowTo height width).leaving =
      min (rows - height - min (rows - height) blanks) s.cursor.row :=
    leaving_flowTo h height width
  have hpulled := pulled_flowTo h height width
  have hblanks : blanks ≤ (s.rowsAt width).length - (s.cursor.row + 1) := blankTail_le _ _
  rw [length_rowsAt h] at hblanks
  have hempty : s.history.lines = [] ↔ s.history.length = 0 := List.length_eq_zero_iff.symm
  rw [cursor_restoreCursor_resize h hheight hwidth, cursor_resize, Cursor.mk.injEq, hempty,
    hpulled, and_iff_left rfl]
  rcases Nat.lt_trichotomy height rows with hlower | hsame | hhigher
  · -- rows leave, and none comes back
    have hnone : height - rows = 0 := Nat.sub_eq_zero_of_le (Nat.le_of_lt hlower)
    rw [hnone, Nat.zero_min, Nat.add_zero]
    omega
  · omega
  · omega

end Resize

end Screen

end VideoTerminal
