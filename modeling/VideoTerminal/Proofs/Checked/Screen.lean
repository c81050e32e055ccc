import VideoTerminal.Proofs.Checked.Grid
import VideoTerminal.Proofs.Checked.TabStops
import VideoTerminal.Proofs.Screen.Sound
/-!
# Screens on a machine

What is done at the cursor of a screen finds the row of the cursor, and counts
from the cursor to the edges of the screen and of its region. A screen whose
cursor and region lie in its grid, and whose size fits into 16 bits, never
counts below zero, beyond 16 bits or beyond the grid.
-/

namespace VideoTerminal

/-- The place or the distance has at most 16 bits and a sign. -/
def Target.Small : Target → Prop
  | .absolute place => place.natAbs < 65536
  | .relative distance => distance.natAbs < 65536

namespace Screen

open Checked

/-! ## What a machine does -/

/-- Change the row of the cursor. -/
def modifyLineChecked (s : Screen) (f : Row → Option Row) : Option Screen := do
  pure { s with grid := ← s.grid.modifyRowChecked s.cursor.row f }

/-- Change the text of the row of the cursor, and note it. -/
def editLineChecked (s : Screen) (f : Row → Option Row) : Option Screen := do
  pure ((← s.modifyLineChecked f).damaged s.cursor.row s.cursor.row)

/-- Blank the rows from `start` up to `stop`. -/
def resetRowsChecked (s : Screen) (start stop : Nat) (r : Rendition) : Option Screen := do
  pure { s with grid := ← s.grid.resetRowsChecked start stop r }

/-- Move rows up or down within `top` and `bottom`. -/
def shiftChecked (s : Screen) (up : Bool) (top bottom count : Nat) : Option Screen := do
  pure { s with grid := ← s.grid.scrollChecked up top bottom count s.eraser }

/-- Scroll the region up. -/
def scrollUpChecked (s : Screen) (count : Nat) : Option Screen := do
  let top := s.region.top
  let bottom := s.region.bottom
  let n := min count (← add16 (← sub bottom top) 1)
  if n = 0 then pure s
  else
    let scrolled ← s.shiftChecked true top bottom n
    if s.region = s.fullRegion ∧ s.keepsRows then
      let first ← sub (← add16 bottom 1) n
      pure ((scrolled.remember (s.grid.leaving top bottom n)).damaged first bottom)
    else pure (scrolled.damaged top bottom)

/-- Scroll the region down. -/
def scrollDownChecked (s : Screen) (count : Nat) : Option Screen := do
  pure ((← s.shiftChecked false s.region.top s.region.bottom count).damaged s.region.top
    s.region.bottom)

/-- Scroll up by a positive count, down by a negative one. -/
def scrollByChecked (s : Screen) (count : Int) : Option Screen :=
  match count with
  | .ofNat 0 => pure s
  | .ofNat (n + 1) => s.scrollUpChecked (min (n + 1) maxScroll)
  | .negSucc n => s.scrollDownChecked (min (n + 1) maxScroll)

/-- One row down. -/
def indexChecked (s : Screen) : Option Screen := do
  let s := s.cancelWrap
  if s.cursor.row = s.region.bottom then s.scrollUpChecked 1
  else if s.cursor.row < s.lastRow then pure (s.atRow (← add16 s.cursor.row 1))
  else pure s

/-- One row up. -/
def reverseIndexChecked (s : Screen) : Option Screen := do
  let s := s.cancelWrap
  if s.cursor.row = s.region.top then s.scrollDownChecked 1
  else if 0 < s.cursor.row then pure (s.atRow (← sub s.cursor.row 1))
  else pure s

/-- One column back. -/
def backspaceChecked (s : Screen) : Option Screen := do
  if s.modes.wrapPending then pure s.cancelWrap
  else if 0 < s.cursor.col then pure (s.atColumn (← sub s.cursor.col 1))
  else if 0 < s.cursor.row then
    if (← s.grid.rows[← sub s.cursor.row 1]?).isWrapped then
      pure { s with cursor := ⟨← sub s.cursor.row 1, s.lastCol⟩ }
    else pure s
  else pure s

/-- The place between two bounds, the lower one first, that is nearest. -/
def clampChecked (low high : Nat) (place : Int) : Option Nat :=
  if low ≤ high then to16 (clamp low high place) else none

/-- The column that a target stands for. -/
def targetColumnChecked (s : Screen) : Target → Option Nat
  | .absolute col => clampChecked 0 s.lastCol col
  | .relative n => do clampChecked 0 s.lastCol (← addSigned s.cursor.col n)

/-- The row that a target stands for. -/
def targetRowChecked (s : Screen) : Target → Option Nat
  | .absolute row => do
    if s.modes.origin then
      clampChecked s.region.top s.region.bottom (← addSigned row s.region.top)
    else clampChecked 0 s.lastRow row
  | .relative n => do
    let place ← addSigned s.cursor.row n
    if s.region.contains s.cursor.row then clampChecked s.region.top s.region.bottom place
    else clampChecked 0 s.lastRow place

/-- Move the cursor. -/
def gotoChecked (s : Screen) (row col : Target) : Option Screen := do
  let col ← s.targetColumnChecked col
  let row ← s.targetRowChecked row
  pure { s.cancelWrap with cursor := ⟨row, col⟩ }

/-- To the first place. -/
def homeChecked (s : Screen) : Option Screen := s.gotoChecked (.absolute 0) (.absolute 0)

/-- Set the region. -/
def setRegionChecked (s : Screen) (top bottom : Nat) : Option Screen :=
  let bottom := min bottom s.lastRow
  { s with region := if top ≤ bottom then ⟨top, bottom⟩ else s.fullRegion }.homeChecked

/-- Over a number of tab stops. -/
def tabChecked (s : Screen) (count : Int) (stops : TabStops) : Option Screen := do
  pure (s.cancelWrap.atColumn (min (← stops.advanceChecked s.cursor.col count) s.lastCol))

/-- Erase a part of the row of the cursor. -/
def eraseLineChecked (s : Screen) (part : Erasure) : Option Screen :=
  let col := s.cursor.col
  s.cancelWrap.editLineChecked fun row =>
    match part with
    | .toEnd => do pure ((← row.blankRangeChecked col row.cols s.eraser).clipTo col)
    | .toStart => row.blankRangeChecked 0 (col + 1) s.eraser
    | .all => pure (row.reset s.eraser)

/-- Erase a part of the screen. -/
def eraseScreenChecked (s : Screen) (part : Erasure) : Option Screen := do
  let row := s.cursor.row
  match part with
  | .toEnd =>
    let erased ← s.eraseLineChecked .toEnd
    pure ((← erased.resetRowsChecked (← add16 row 1) s.height s.eraser).damaged row s.lastRow)
  | .toStart =>
    let erased ← s.eraseLineChecked .toStart
    pure ((← erased.resetRowsChecked 0 row s.eraser).damaged 0 row)
  | .all => pure ((← s.cancelWrap.resetRowsChecked 0 s.height s.eraser).damaged 0 s.lastRow)

/-- Edit the cells from the cursor on. -/
def editCellsChecked (s : Screen) (count : Nat)
    (edit : Row → Nat → Nat → Rendition → Option Row) : Option Screen := do
  let s := s.cancelWrap
  let n := min count (← sub s.cols s.cursor.col)
  if n = 0 then pure s else s.editLineChecked fun row => edit row s.cursor.col n s.eraser

/-- One column to the left. -/
def backIndexChecked (s : Screen) : Option Screen := do
  let s := s.cancelWrap
  if 0 < s.cursor.col then pure (s.atColumn (← sub s.cursor.col 1))
  else s.editLineChecked fun row => row.insertBlanksChecked 0 1 s.eraser

/-- One column to the right. -/
def forwardIndexChecked (s : Screen) : Option Screen := do
  let s := s.cancelWrap
  if s.cursor.col < s.lastCol then pure (s.atColumn (← add16 s.cursor.col 1))
  else s.editLineChecked fun row => row.deleteCellsChecked 0 1 s.eraser

/-- Edit the lines from the cursor to the bottom of the region. -/
def editLinesChecked (s : Screen) (count : Nat) (up : Bool) : Option Screen := do
  let row := s.cursor.row
  let bottom := s.region.bottom
  if s.region.contains row then
    let s := s.cancelWrap
    let n := min count (← add16 (← sub bottom row) 1)
    if n = 0 then pure s
    else pure (((← s.shiftChecked up row bottom n).atColumn 0).damaged row bottom)
  else pure s

/-- Go on in the next row. -/
def wrapChecked (s : Screen) : Option Screen := do
  let marked ← s.cancelWrap.modifyLineChecked fun row => pure (row.withEnd .wrapped)
  pure ((← marked.indexChecked).atColumn 0)

/-- Write a glyph into the row of the cursor. The cursor moves by as many
columns as were written. -/
def placeChecked [Glyph.Widths] (s : Screen) (glyph : Char) (width : Nat) (font : Flags) :
    Option Screen := do
  let col := s.cursor.col
  let edited ← s.editLineChecked fun row => do
    let row ← if s.modes.insert then row.insertBlanksChecked col width s.eraser else pure row
    row.writeChecked col glyph (s.rendition.withFlags font)
  let written := (← s.grid.rows[s.cursor.row]?).room col glyph
  let _ ← add16 col written
  pure (edited.advance written)

/-- Go on in the next row, if that was put off. -/
def resumeChecked (s : Screen) : Option Screen :=
  if s.modes.wrapPending then s.wrapChecked else pure s

/-- Write a character at the cursor. -/
def printChecked [Glyph.Widths] (s : Screen) (c : Char) : Option Screen := do
  let set := s.charsets.current
  let glyph := set.translate c
  let width := Glyph.width glyph
  if width = 0 then pure s
  else
    let s ← s.resumeChecked
    if width = 2 then
      if s.cols ≤ (← add16 s.cursor.col 1) then
        if s.modes.autowrap ∧ 2 ≤ s.cols then (← s.wrapChecked).placeChecked glyph width set.font
        else pure s
      else s.placeChecked glyph width set.font
    else s.placeChecked glyph width set.font

/-- The state after switching on. -/
def resetChecked (s : Screen) : Option Screen := do
  let _ ← s.resetRowsChecked 0 s.height {}
  pure s.reset

/-! ## Nothing of it fails -/

variable {P : Nat → Row → Prop} {kind : ScreenKind} {rows cols : Nat} {s : Screen}

theorem modifyLineChecked_eq (h : s.Sound P kind rows cols) {f : Row → Option Row}
    {g : Row → Row} (hf : ∀ line, f line = some (g line)) :
    s.modifyLineChecked f = some (s.modifyLine g) := by
  unfold modifyLineChecked
  rw [Grid.modifyRowChecked_eq (h.marks.trans h.height.symm)
    (Nat.lt_of_lt_of_eq h.row h.height.symm) fun line _ => hf line]
  rfl

theorem editLineChecked_eq (h : s.Sound P kind rows cols) {f : Row → Option Row}
    {g : Row → Row} (hf : ∀ line, f line = some (g line)) :
    s.editLineChecked f = some (s.editLine g) := by
  unfold editLineChecked
  rw [modifyLineChecked_eq h hf]
  rfl

theorem resetRowsChecked_eq (h : s.Sound P kind rows cols) (start stop : Nat) (r : Rendition) :
    s.resetRowsChecked start stop r = some (s.resetRows start stop r) := by
  unfold resetRowsChecked
  rw [Grid.resetRowsChecked_eq (h.marks.trans h.height.symm)]
  rfl

theorem shiftChecked_eq (h : s.Sound P kind rows cols) (hrows : rows < 65536) (up : Bool)
    (top bottom count : Nat) :
    s.shiftChecked up top bottom count =
      some (if up then s.shiftUp top bottom count else s.shiftDown top bottom count) := by
  unfold shiftChecked
  rw [Grid.scrollChecked_eq (h.marks.trans h.height.symm)
    (Nat.lt_of_le_of_lt (Nat.le_of_eq h.height) hrows)]
  cases up <;> rfl

/-! ### Scrolling -/

theorem scrollUpChecked_eq (h : s.Sound P kind rows cols) (hrows : rows < 65536) (count : Nat) :
    s.scrollUpChecked count = some (s.scrollUp count) := by
  have hordered := h.ordered
  have hbottom := h.bottom
  have hheight : s.region.bottom - s.region.top + 1 = s.region.height := by
    unfold Region.height
    omega
  unfold scrollUpChecked scrollUp
  simp only [sub_eq hordered,
    add16_eq (show s.region.bottom - s.region.top + 1 < 65536 by omega), hheight,
    Option.bind_eq_bind, Option.bind_some]
  split
  · rfl
  · rw [shiftChecked_eq h hrows, Option.bind_some, if_pos rfl]
    split
    · have hless : min count s.region.height ≤ s.region.bottom + 1 := by omega
      rw [add16_eq (show s.region.bottom + 1 < 65536 by omega), Option.bind_some, sub_eq hless]
      rfl
    · rfl

theorem scrollDownChecked_eq (h : s.Sound P kind rows cols) (hrows : rows < 65536) (count : Nat) :
    s.scrollDownChecked count = some (s.scrollDown count) := by
  unfold scrollDownChecked
  rw [shiftChecked_eq h hrows]
  rfl

theorem scrollByChecked_eq (h : s.Sound P kind rows cols) (hrows : rows < 65536) (count : Int) :
    s.scrollByChecked count = some (s.scrollBy count) := by
  unfold scrollByChecked scrollBy
  split
  · rfl
  · exact scrollUpChecked_eq h hrows _
  · exact scrollDownChecked_eq h hrows _

theorem indexChecked_eq (h : s.Sound P kind rows cols) (hrows : rows < 65536) :
    s.indexChecked = some s.index := by
  have hlast := h.lastRow_eq
  unfold indexChecked index
  dsimp only
  split
  · exact scrollUpChecked_eq h.cancelWrap hrows 1
  · split
    · rename_i hlt
      have hlt : s.cancelWrap.cursor.row < rows - 1 := hlast ▸ hlt
      rw [add16_eq (show s.cancelWrap.cursor.row + 1 < 65536 by omega)]
      rfl
    · rfl

theorem reverseIndexChecked_eq (h : s.Sound P kind rows cols) (hrows : rows < 65536) :
    s.reverseIndexChecked = some s.reverseIndex := by
  unfold reverseIndexChecked reverseIndex
  dsimp only
  split
  · exact scrollDownChecked_eq h.cancelWrap hrows 1
  · by_cases hpos : 0 < s.cancelWrap.cursor.row
    · rw [if_pos hpos, sub_eq (Nat.succ_le_of_lt hpos)]
      rfl
    · have hzero : s.cancelWrap.cursor.row = 0 := by omega
      have hstay : s.cancelWrap.atRow (s.cancelWrap.cursor.row - 1) = s.cancelWrap := by
        rw [hzero]
        exact congrArg s.cancelWrap.atRow hzero.symm
      rw [if_neg hpos, hstay]
      rfl

/-! ### Motion -/

theorem backspaceChecked_eq (h : s.Sound P kind rows cols) :
    s.backspaceChecked = some s.backspace := by
  unfold backspaceChecked backspace
  by_cases hwrap : s.modes.wrapPending
  · rw [if_pos hwrap, if_pos hwrap]
    rfl
  rw [if_neg hwrap, if_neg hwrap]
  by_cases hcol : 0 < s.cursor.col
  · rw [if_pos hcol, if_pos hcol, sub_eq (Nat.succ_le_of_lt hcol)]
    rfl
  rw [if_neg hcol, if_neg hcol]
  by_cases hrow : 0 < s.cursor.row
  · have hin : s.cursor.row - 1 < s.grid.rows.length := by
      have hlt := h.row
      have hheight := h.height
      omega
    simp only [hrow, ite_true, sub_eq (Nat.succ_le_of_lt hrow), List.getElem?_eq_getElem hin,
      Option.bind_eq_bind, Option.bind_some, Option.any_some, true_and]
    split <;> rfl
  · rw [if_neg hrow, if_neg fun hboth => hrow hboth.1]
    rfl

theorem clampChecked_eq {low high : Nat} (h : low ≤ high) (hhigh : high < 65536) (place : Int) :
    clampChecked low high place = some (clamp low high place) := by
  have hle := Sound.clamp_le h place
  unfold clampChecked
  rw [if_pos h, to16_eq (by omega)]

theorem targetColumnChecked_eq (h : s.Sound P kind rows cols) (hcols : cols < 65536)
    {target : Target} (hsmall : target.Small) :
    s.targetColumnChecked target = some (s.targetColumn target) := by
  have hcol := h.col
  have hlast := h.lastCol_lt
  have hclamp := fun place => clampChecked_eq (Nat.zero_le s.lastCol) (by omega) place
  cases target with
  | absolute place => exact hclamp place
  | relative n =>
    have hn : n.natAbs < 65536 := hsmall
    unfold targetColumnChecked
    dsimp only
    rw [addSigned_eq (by omega) (by omega)]
    exact hclamp _

theorem targetRowChecked_eq (h : s.Sound P kind rows cols) (hrows : rows < 65536)
    {target : Target} (hsmall : target.Small) :
    s.targetRowChecked target = some (s.targetRow target) := by
  have hrow := h.row
  have hlast := h.lastRow_lt
  have hordered := h.ordered
  have hbottom := h.bottom
  have hregion := fun place => clampChecked_eq hordered (by omega) place
  have hscreen := fun place => clampChecked_eq (Nat.zero_le s.lastRow) (by omega) place
  cases target with
  | absolute place =>
    have hplace : place.natAbs < 65536 := hsmall
    unfold targetRowChecked targetRow
    dsimp only
    split
    · rw [addSigned_eq (by omega) (by omega)]
      exact hregion _
    · exact hscreen _
  | relative n =>
    have hn : n.natAbs < 65536 := hsmall
    unfold targetRowChecked targetRow
    dsimp only
    rw [addSigned_eq (by omega) (by omega), Option.bind_eq_bind, Option.bind_some]
    split
    · exact hregion _
    · exact hscreen _

theorem gotoChecked_eq (h : s.Sound P kind rows cols) (hrows : rows < 65536)
    (hcols : cols < 65536) {row col : Target} (hrow : row.Small) (hcol : col.Small) :
    s.gotoChecked row col = some (s.goto row col) := by
  unfold gotoChecked
  rw [targetColumnChecked_eq h hcols hcol, targetRowChecked_eq h hrows hrow]
  rfl

theorem homeChecked_eq (h : s.Sound P kind rows cols) (hrows : rows < 65536)
    (hcols : cols < 65536) : s.homeChecked = some s.home :=
  have hzero : (Target.absolute 0).Small := show (0 : Int).natAbs < 65536 by decide
  gotoChecked_eq h hrows hcols hzero hzero

theorem setRegionChecked_eq (h : s.Sound P kind rows cols) (hrows : rows < 65536)
    (hcols : cols < 65536) (top bottom : Nat) :
    s.setRegionChecked top bottom = some (s.setRegion top bottom) := by
  have hlast := h.lastRow_lt
  have hregion : ({ s with region := if top ≤ min bottom s.lastRow then ⟨top, min bottom s.lastRow⟩
      else s.fullRegion } : Screen).Sound P kind rows cols := by
    split
    · rename_i hle
      exact h.withRegion hle (Nat.lt_of_le_of_lt (Nat.min_le_right _ _) hlast)
    · exact h.fullRegion
  exact homeChecked_eq hregion hrows hcols

theorem tabChecked_eq {stops : TabStops} (hstops : stops.cols < 65536) (count : Int) :
    s.tabChecked count stops = some (s.tab count stops) := by
  unfold tabChecked
  rw [TabStops.advanceChecked_eq hstops]
  rfl

/-! ### Erasing, inserting and deleting -/

theorem eraseLineChecked_eq (h : s.Sound P kind rows cols) (part : Erasure) :
    s.eraseLineChecked part = some (s.eraseLine part) := by
  refine editLineChecked_eq h.cancelWrap fun line => ?_
  cases part with
  | toEnd =>
    dsimp only
    rw [Row.blankRangeChecked_eq]
    rfl
  | toStart => exact Row.blankRangeChecked_eq _ _ _ _
  | all => rfl

theorem eraseScreenChecked_eq [Glyph.Widths] (law : Row.Law P) (h : s.Sound P kind rows cols)
    (hrows : rows < 65536) (part : Erasure) :
    s.eraseScreenChecked part = some (s.eraseScreen part) := by
  have hrow := h.row
  unfold eraseScreenChecked eraseScreen
  cases part with
  | toEnd =>
    dsimp only
    rw [eraseLineChecked_eq h, add16_eq (show s.cursor.row + 1 < 65536 by omega),
      Option.bind_eq_bind, Option.bind_some, Option.bind_eq_bind, Option.bind_some,
      resetRowsChecked_eq (h.eraseLine law .toEnd)]
    rfl
  | toStart =>
    dsimp only
    rw [eraseLineChecked_eq h, Option.bind_eq_bind, Option.bind_some,
      resetRowsChecked_eq (h.eraseLine law .toStart)]
    rfl
  | all =>
    dsimp only
    rw [resetRowsChecked_eq h.cancelWrap]
    rfl

theorem editCellsChecked_eq (h : s.Sound P kind rows cols) (count : Nat)
    {edit : Row → Nat → Nat → Rendition → Option Row} {edit' : Row → Nat → Nat → Rendition → Row}
    (hedit : ∀ row col n r, edit row col n r = some (edit' row col n r)) :
    s.editCellsChecked count edit = some (s.editCells count edit') := by
  have hcol : s.cancelWrap.cursor.col ≤ s.cancelWrap.cols :=
    Nat.le_of_lt (Nat.lt_of_lt_of_eq h.cancelWrap.col h.cancelWrap.cols_eq.symm)
  unfold editCellsChecked editCells
  dsimp only
  rw [sub_eq hcol, Option.bind_eq_bind, Option.bind_some]
  split
  · rfl
  · exact editLineChecked_eq h.cancelWrap fun row => hedit row _ _ _

theorem backIndexChecked_eq (h : s.Sound P kind rows cols) :
    s.backIndexChecked = some s.backIndex := by
  unfold backIndexChecked backIndex
  dsimp only
  split
  · rename_i hpos
    rw [sub_eq (Nat.succ_le_of_lt hpos)]
    rfl
  · exact editLineChecked_eq h.cancelWrap fun row => Row.insertBlanksChecked_eq _ _ _ _

theorem forwardIndexChecked_eq (h : s.Sound P kind rows cols) (hcols : cols < 65536) :
    s.forwardIndexChecked = some s.forwardIndex := by
  have hlast := h.lastCol_eq
  unfold forwardIndexChecked forwardIndex
  dsimp only
  split
  · rename_i hlt
    have hlt : s.cancelWrap.cursor.col < cols - 1 := hlast ▸ hlt
    rw [add16_eq (show s.cancelWrap.cursor.col + 1 < 65536 by omega)]
    rfl
  · exact editLineChecked_eq h.cancelWrap fun row => Row.deleteCellsChecked_eq _ _ _ _

theorem editLinesChecked_eq (h : s.Sound P kind rows cols) (hrows : rows < 65536) (count : Nat)
    (up : Bool) :
    s.editLinesChecked count up =
      some (if up then s.deleteLines count else s.insertLines count) := by
  have hbottom := h.bottom
  have hboth : (if up then s.deleteLines count else s.insertLines count) =
      s.editLines count fun s top bottom n =>
        if up then s.shiftUp top bottom n else s.shiftDown top bottom n := by
    cases up <;> rfl
  rw [hboth]
  unfold editLinesChecked editLines
  dsimp only
  split
  · rename_i hin
    have hle : s.cursor.row ≤ s.region.bottom := by
      unfold Region.contains at hin
      simp only [Bool.and_eq_true, decide_eq_true_eq] at hin
      exact hin.2
    have hextent : s.region.bottom - s.cursor.row + 1 = s.region.bottom + 1 - s.cursor.row := by
      omega
    simp only [sub_eq hle, add16_eq (show s.region.bottom - s.cursor.row + 1 < 65536 by omega),
      hextent, Option.bind_eq_bind, Option.bind_some]
    split
    · rfl
    · rw [shiftChecked_eq h.cancelWrap hrows]
      rfl
  · rfl

/-! ### Writing -/

theorem wrapChecked_eq [Glyph.Widths] (law : Row.Law P) (h : s.Sound P kind rows cols)
    (hrows : rows < 65536) : s.wrapChecked = some s.wrap := by
  have hmark : s.cancelWrap.modifyLineChecked (fun row => pure (row.withEnd .wrapped)) =
      some (s.cancelWrap.modifyLine fun row => row.withEnd .wrapped) :=
    modifyLineChecked_eq h.cancelWrap fun _ => rfl
  unfold wrapChecked
  rw [hmark, Option.bind_eq_bind, Option.bind_some,
    indexChecked_eq (h.cancelWrap.modifyLine fun _ hp => law.wrapped hp) hrows]
  rfl

theorem placeChecked_eq [Glyph.Widths] (h : s.Sound Row.Fits kind rows cols)
    (hcols : cols < 65536) {glyph : Char} (hfits : s.cursor.col + Glyph.width glyph ≤ cols)
    (font : Flags) :
    s.placeChecked glyph (Glyph.width glyph) font =
      some (s.place glyph (Glyph.width glyph) font) := by
  have hin : s.cursor.row < s.grid.rows.length := Nat.lt_of_lt_of_eq h.row h.height.symm
  -- the width of the glyph is what is written of it
  have hwritten : s.grid.rows[s.cursor.row].room s.cursor.col glyph = Glyph.width glyph :=
    if_pos (Nat.le_trans hfits (Nat.le_of_eq (h.shown _ (List.getElem_mem hin)).width.symm))
  unfold placeChecked place
  dsimp only
  rw [editLineChecked_eq h (g := fun row =>
    (if s.modes.insert then row.insertBlanks s.cursor.col (Glyph.width glyph) s.eraser
      else row).write s.cursor.col glyph (s.rendition.withFlags font)) fun row => ?_]
  · simp only [List.getElem?_eq_getElem hin, hwritten,
      add16_eq (show s.cursor.col + Glyph.width glyph < 65536 by omega), Option.bind_eq_bind,
      Option.bind_some]
    rfl
  · split
    · rw [Row.insertBlanksChecked_eq, Option.bind_eq_bind, Option.bind_some, Row.writeChecked_eq]
    · exact Row.writeChecked_eq _ _ _ _

theorem printChecked_eq [Glyph.Widths] (h : s.Sound Row.Fits kind rows cols)
    (hrows : rows < 65536) (hcols : cols < 65536) (c : Char) :
    s.printChecked c = some (s.print c) := by
  have htwo := Glyph.width_le_two (s.charsets.current.translate c)
  unfold printChecked print
  dsimp only
  split
  · rfl
  rename_i hpos
  have hresume : s.resumeChecked = some (if s.modes.wrapPending then s.wrap else s) := by
    unfold resumeChecked
    split
    · exact wrapChecked_eq Row.law_fits h hrows
    · rfl
  have hready : (if s.modes.wrapPending then s.wrap else s).Sound Row.Fits kind rows cols := by
    split
    · exact h.wrap_screen Row.law_fits
    · exact h
  rw [hresume, Option.bind_eq_bind, Option.bind_some]
  generalize (if s.modes.wrapPending then s.wrap else s) = ready at hready ⊢
  have hcol := hready.col
  have hwidth := hready.cols_eq
  by_cases hwide : Glyph.width (s.charsets.current.translate c) = 2
  · rw [if_pos hwide, add16_eq (show ready.cursor.col + 1 < 65536 by omega), Option.bind_eq_bind,
      Option.bind_some]
    by_cases hroom : ready.cols ≤ ready.cursor.col + 1
    · rw [if_pos hroom, if_pos (show _ = 2 ∧ ready.cols ≤ ready.cursor.col + 1 from
        ⟨hwide, hroom⟩)]
      split
      · rename_i hwraps
        have htwice : ready.wrap.cursor.col + 2 ≤ cols := by
          change 0 + 2 ≤ cols
          omega
        rw [wrapChecked_eq Row.law_fits hready hrows, Option.bind_some]
        exact placeChecked_eq (hready.wrap_screen Row.law_fits) hcols (by omega) _
      · rfl
    · rw [if_neg hroom, if_neg fun hboth => hroom hboth.2]
      exact placeChecked_eq hready hcols (by omega) _
  · rw [if_neg hwide, if_neg fun hboth => hwide hboth.1]
    exact placeChecked_eq hready hcols (by omega) _

/-! ### The whole screen -/

theorem resetChecked_eq (h : s.Sound P kind rows cols) : s.resetChecked = some s.reset := by
  unfold resetChecked
  rw [resetRowsChecked_eq h]
  rfl

end Screen

end VideoTerminal
