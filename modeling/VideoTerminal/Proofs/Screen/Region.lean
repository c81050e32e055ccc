import VideoTerminal.Proofs.Terminal.Reach
/-!
# Work in a region

A child program sets a region and works at the cursor inside it: it writes,
moves step by step, edits and scrolls. None of this leaves the region or
changes a row outside it, with one exception. A backspace in the first column
goes to the end of the row before, if that row's text goes on in the next one,
and does not ask whether the row before is in the region.
-/

namespace VideoTerminal

namespace Screen

/-- What is done at the cursor, without saying where that is. -/
inductive Work where
  | print (c : Char)
  | carriageReturn
  /-- A line feed does the same. -/
  | index
  | reverseIndex
  | backspace
  | tab (count : Int) (stops : TabStops)
  | cursorUp (n : Nat)
  | cursorDown (n : Nat)
  | cursorRight (n : Nat)
  | cursorLeft (n : Nat)
  | backIndex
  | forwardIndex
  | scrollBy (count : Int)
  | insertLines (count : Nat)
  | deleteLines (count : Nat)
  | insertCells (count : Nat)
  | deleteCells (count : Nat)
  | eraseCells (count : Nat)
  | eraseLine (part : Erasure)
  deriving DecidableEq

/-- Do it. -/
def Work.run [Glyph.Widths] (work : Work) (s : Screen) : Screen :=
  match work with
  | .print c => s.print c
  | .carriageReturn => s.carriageReturn
  | .index => s.index
  | .reverseIndex => s.reverseIndex
  | .backspace => s.backspace
  | .tab count stops => s.tab count stops
  | .cursorUp n => s.cursorUp n
  | .cursorDown n => s.cursorDown n
  | .cursorRight n => s.cursorRight n
  | .cursorLeft n => s.cursorLeft n
  | .backIndex => s.backIndex
  | .forwardIndex => s.forwardIndex
  | .scrollBy count => s.scrollBy count
  | .insertLines count => s.insertLines count
  | .deleteLines count => s.deleteLines count
  | .insertCells count => s.insertCells count
  | .deleteCells count => s.deleteCells count
  | .eraseCells count => s.eraseCells count
  | .eraseLine part => s.eraseLine part

/-- Do one thing after the other. -/
def workAll [Glyph.Widths] (s : Screen) (works : List Work) : Screen :=
  works.foldl (fun s work => work.run s) s

/-- The cursor is in a row of the region. -/
def Inside (s : Screen) : Prop := s.region.top ≤ s.cursor.row ∧ s.cursor.row ≤ s.region.bottom

/-- The cursor is in a row of the same region as before, and all rows outside
the region are as they were. -/
structure Keeps (s s' : Screen) : Prop where
  region : s'.region = s.region
  inside : s'.Inside
  outside : ∀ i, ¬ (s.region.top ≤ i ∧ i ≤ s.region.bottom) →
    s'.grid.rows[i]? = s.grid.rows[i]?

/-- The text of the row above the region goes on in the region. -/
def ContinuedAbove (s : Screen) : Prop :=
  0 < s.region.top ∧ s.grid.rows[s.region.top - 1]?.any Row.isWrapped = true

/-- A backspace goes from the first place of the region to the row above. -/
def BacksOut (s : Screen) : Prop :=
  s.modes.wrapPending = false ∧ s.cursor = ⟨s.region.top, 0⟩ ∧ s.ContinuedAbove

instance (s : Screen) : Decidable s.Inside := inferInstanceAs (Decidable (_ ∧ _))

instance (s : Screen) : Decidable s.ContinuedAbove := inferInstanceAs (Decidable (_ ∧ _))

instance (s : Screen) : Decidable s.BacksOut := inferInstanceAs (Decidable (_ ∧ _ ∧ _))

variable {s s' s'' : Screen}

theorem Inside.contains (h : s.Inside) : s.region.contains s.cursor.row = true := by
  unfold Region.contains
  simp only [Bool.and_eq_true, decide_eq_true_eq]
  exact h

theorem le_clamp (low high : Nat) (place : Int) : low ≤ clamp low high place := by
  unfold clamp
  omega

/-- What is scrolled from a row of the region to its bottom is in the region. -/
theorem apart_extent {top i : Nat} (htop : s.region.top ≤ top)
    (hi : ¬ (s.region.top ≤ i ∧ i ≤ s.region.bottom)) :
    i < top ∨ top + s.grid.extent top s.region.bottom ≤ i := by
  have hextent := s.grid.extent_le top s.region.bottom
  omega

namespace Keeps

theorem trans (h : s.Keeps s') (h' : s'.Keeps s'') : s.Keeps s'' where
  region := h'.region.trans h.region
  inside := h'.inside
  outside i hi := by
    have hi' := hi
    rw [← h.region] at hi'
    exact (h'.outside i hi').trans (h.outside i hi)

/-- A change that leaves the row of the cursor, the region and all rows. -/
theorem of_eq (h : s.Inside) (hregion : s'.region = s.region)
    (hrow : s'.cursor.row = s.cursor.row) (hrows : s'.grid.rows = s.grid.rows) : s.Keeps s' := by
  refine ⟨hregion, ?_, fun i _ => by rw [hrows]⟩
  unfold Inside
  rw [hregion, hrow]
  exact h

theorem cancelWrap (h : s.Inside) : s.Keeps s.cancelWrap := of_eq h rfl rfl rfl

theorem atColumn (h : s.Inside) (col : Nat) : s.Keeps (s.atColumn col) := of_eq h rfl rfl rfl

/-- The row of the cursor is in the region. -/
theorem modifyLine (h : s.Inside) (f : Row → Row) : s.Keeps (s.modifyLine f) :=
  ⟨rfl, h, fun _ hi => Grid.rows_modifyRow fun hrow => hi (hrow ▸ h)⟩

theorem editLine (h : s.Inside) (f : Row → Row) : s.Keeps (s.editLine f) :=
  have hline := modifyLine h f
  ⟨hline.region, hline.inside, hline.outside⟩

theorem cancelWrap_editLine (h : s.Inside) (f : Row → Row) : s.Keeps (s.cancelWrap.editLine f) :=
  (cancelWrap h).trans (editLine (s := s.cancelWrap) h f)

/-- Whether the row above goes on in the region does not change by work that
keeps to it. -/
theorem continuedAbove (h : s.Keeps s') (habove : s'.ContinuedAbove) : s.ContinuedAbove := by
  obtain ⟨hpos, hwrapped⟩ := habove
  rw [h.region] at hpos hwrapped
  have hrow := h.outside (s.region.top - 1) (by omega)
  exact ⟨hpos, hrow ▸ hwrapped⟩

/-! ## Motion -/

/-- Motion from the cursor on stops at the edges of the region. -/
theorem goto (h : s.Inside) (n : Int) (col : Target) : s.Keeps (s.goto (.relative n) col) := by
  have hordered : s.region.top ≤ s.region.bottom := Nat.le_trans h.1 h.2
  have htarget : s.targetRow (.relative n) =
      clamp s.region.top s.region.bottom (s.cursor.row + n) := by
    unfold targetRow
    exact if_pos h.contains
  refine ⟨rfl, ?_, fun i _ => rfl⟩
  change s.region.top ≤ s.targetRow (.relative n) ∧ s.targetRow (.relative n) ≤ s.region.bottom
  rw [htarget]
  exact ⟨le_clamp _ _ _, Sound.clamp_le hordered _⟩

theorem backIndex (h : s.Inside) : s.Keeps s.backIndex := by
  unfold Screen.backIndex
  dsimp only
  split
  · exact of_eq h rfl rfl rfl
  · exact cancelWrap_editLine h _

theorem forwardIndex (h : s.Inside) : s.Keeps s.forwardIndex := by
  unfold Screen.forwardIndex
  dsimp only
  split
  · exact of_eq h rfl rfl rfl
  · exact cancelWrap_editLine h _

/-! ## Scrolling -/

theorem shiftUp (h : s.Inside) {top : Nat} (htop : s.region.top ≤ top) (n : Nat) :
    s.Keeps (s.shiftUp top s.region.bottom n) :=
  ⟨rfl, h, fun _ hi => Grid.rows_scrollUp (apart_extent htop hi)⟩

theorem shiftDown (h : s.Inside) {top : Nat} (htop : s.region.top ≤ top) (n : Nat) :
    s.Keeps (s.shiftDown top s.region.bottom n) :=
  ⟨rfl, h, fun _ hi => Grid.rows_scrollDown (apart_extent htop hi)⟩

theorem scrollUp (h : s.Inside) (count : Nat) : s.Keeps (s.scrollUp count) := by
  have hshift := shiftUp h (Nat.le_refl _) (min count s.region.height)
  unfold Screen.scrollUp
  dsimp only
  split
  · exact of_eq h rfl rfl rfl
  · split <;> exact ⟨hshift.region, hshift.inside, hshift.outside⟩

theorem scrollDown (h : s.Inside) (count : Nat) : s.Keeps (s.scrollDown count) :=
  have hshift := shiftDown h (Nat.le_refl _) count
  ⟨hshift.region, hshift.inside, hshift.outside⟩

theorem scrollBy (h : s.Inside) (count : Int) : s.Keeps (s.scrollBy count) := by
  unfold Screen.scrollBy
  split
  · exact of_eq h rfl rfl rfl
  · exact scrollUp h _
  · exact scrollDown h _

/-- One row down stays in the region, since its last row does not have one
below it. -/
theorem index (h : s.Inside) : s.Keeps s.index := by
  unfold Screen.index
  dsimp only
  split
  · exact (cancelWrap h).trans (scrollUp (s := s.cancelWrap) h 1)
  · rename_i hne
    split
    · refine ⟨rfl, ?_, fun i _ => rfl⟩
      obtain ⟨htop, hbottom⟩ := h
      change s.cursor.row ≠ s.region.bottom at hne
      change s.region.top ≤ s.cursor.row + 1 ∧ s.cursor.row + 1 ≤ s.region.bottom
      omega
    · exact cancelWrap h

theorem reverseIndex (h : s.Inside) : s.Keeps s.reverseIndex := by
  unfold Screen.reverseIndex
  dsimp only
  split
  · exact (cancelWrap h).trans (scrollDown (s := s.cancelWrap) h 1)
  · rename_i hne
    refine ⟨rfl, ?_, fun i _ => rfl⟩
    obtain ⟨htop, hbottom⟩ := h
    change s.cursor.row ≠ s.region.top at hne
    change s.region.top ≤ s.cursor.row - 1 ∧ s.cursor.row - 1 ≤ s.region.bottom
    omega

/-! ## Editing and writing -/

theorem editCells (h : s.Inside) (count : Nat) (edit : Row → Nat → Nat → Rendition → Row) :
    s.Keeps (s.editCells count edit) := by
  unfold Screen.editCells
  dsimp only
  split
  · exact cancelWrap h
  · exact cancelWrap_editLine h _

/-- Lines are edited from the cursor to the bottom of the region. -/
theorem editLines (h : s.Inside) (count : Nat) {shift : Screen → Nat → Nat → Nat → Screen}
    (hshift : ∀ {s : Screen} (n : Nat), s.Inside →
      s.Keeps (shift s s.cursor.row s.region.bottom n)) : s.Keeps (s.editLines count shift) := by
  have hshifted := (cancelWrap h).trans (hshift (s := s.cancelWrap)
    (min count (s.region.bottom + 1 - s.cursor.row)) h)
  unfold Screen.editLines
  dsimp only
  rw [if_pos h.contains]
  split
  · exact cancelWrap h
  · exact ⟨hshifted.region, hshifted.inside, hshifted.outside⟩

theorem wrap (h : s.Inside) : s.Keeps s.wrap := by
  have hmark := (cancelWrap h).trans (modifyLine (s := s.cancelWrap) h fun row =>
    row.withEnd .wrapped)
  have hindex := hmark.trans (index hmark.inside)
  exact hindex.trans (atColumn hindex.inside 0)

theorem place [Glyph.Widths] (h : s.Inside) (glyph : Char) (width : Nat) (font : Flags) :
    s.Keeps (s.place glyph width font) := by
  have hadvance : ∀ {s : Screen}, s.Inside → s.Keeps (s.advance width) := by
    intro s h
    unfold Screen.advance
    dsimp only
    split <;> exact of_eq h rfl rfl rfl
  have hedit := editLine h fun row =>
    (if s.modes.insert then row.insertBlanks s.cursor.col width s.eraser else row).write
      s.cursor.col glyph (s.rendition.withFlags font)
  exact hedit.trans (hadvance hedit.inside)

theorem print [Glyph.Widths] (h : s.Inside) (c : Char) : s.Keeps (s.print c) := by
  unfold Screen.print
  dsimp only
  split
  · exact of_eq h rfl rfl rfl
  · -- a pending wrap stays in the region, and so does the wrap of a wide glyph
    have hready : s.Keeps (if s.modes.wrapPending then s.wrap else s) := by
      split
      · exact wrap h
      · exact of_eq h rfl rfl rfl
    generalize (if s.modes.wrapPending then s.wrap else s) = ready at hready
    split
    · split
      · have hwrap := hready.trans (wrap hready.inside)
        exact hwrap.trans (place hwrap.inside _ _ _)
      · exact hready
    · exact hready.trans (place hready.inside _ _ _)

/-! ## Backspaces -/

/-- A backspace that goes to the row before stays in the region, unless it
starts in its first row. -/
theorem backspace (h : s.Inside) (hback : ¬ s.BacksOut) : s.Keeps s.backspace := by
  unfold Screen.backspace
  split
  · exact cancelWrap h
  · rename_i hpending
    split
    · exact of_eq h rfl rfl rfl
    · rename_i hcol
      split
      · rename_i hwrapped
        obtain ⟨hpos, hwrapped⟩ := hwrapped
        have hcol : s.cursor.col = 0 := Nat.eq_zero_of_not_pos hcol
        have hne : s.cursor.row ≠ s.region.top := by
          intro hrow
          refine hback ⟨by simpa using hpending, ?_, hrow ▸ hpos, hrow ▸ hwrapped⟩
          rw [← hrow, ← hcol]
        refine ⟨rfl, ?_, fun i _ => rfl⟩
        obtain ⟨htop, hbottom⟩ := h
        change s.region.top ≤ s.cursor.row - 1 ∧ s.cursor.row - 1 ≤ s.region.bottom
        omega
      · exact of_eq h rfl rfl rfl

end Keeps

/-- A backspace that goes to the row above the region is outside it. -/
theorem not_inside_backspace (h : s.BacksOut) : ¬ s.backspace.Inside := by
  obtain ⟨hpending, hcursor, hpos, hwrapped⟩ := h
  have hback : s.backspace = { s with cursor := ⟨s.region.top - 1, s.lastCol⟩ } := by
    have hcond : 0 < s.cursor.row ∧
        s.grid.rows[s.cursor.row - 1]?.any Row.isWrapped = true := by
      rw [hcursor]
      exact ⟨hpos, hwrapped⟩
    have hcol : ¬ 0 < s.cursor.col := by
      rw [hcursor]
      exact Nat.lt_irrefl 0
    unfold backspace
    rw [if_neg (by rw [hpending]; exact Bool.false_ne_true), if_neg hcol, if_pos hcond, hcursor]
  rw [hback]
  rintro ⟨htop, -⟩
  change s.region.top ≤ s.region.top - 1 at htop
  omega

/-! ## One thing after the other -/

section Works

variable [Glyph.Widths]

/-- **One thing that is done keeps to the region**, unless it is a backspace
to the row above it. -/
theorem keeps_run (h : s.Inside) (work : Work) (hback : work = .backspace → ¬ s.BacksOut) :
    s.Keeps (work.run s) := by
  cases work with
  | print c => exact Keeps.print h c
  | carriageReturn => exact Keeps.of_eq h rfl rfl rfl
  | index => exact Keeps.index h
  | reverseIndex => exact Keeps.reverseIndex h
  | backspace => exact Keeps.backspace h (hback rfl)
  | tab count stops => exact Keeps.of_eq h rfl rfl rfl
  | cursorUp n => exact Keeps.goto h _ _
  | cursorDown n => exact Keeps.goto h _ _
  | cursorRight n => exact Keeps.goto h _ _
  | cursorLeft n => exact Keeps.goto h _ _
  | backIndex => exact Keeps.backIndex h
  | forwardIndex => exact Keeps.forwardIndex h
  | scrollBy count => exact Keeps.scrollBy h count
  | insertLines count => exact Keeps.editLines h count fun n h => Keeps.shiftDown h h.1 n
  | deleteLines count => exact Keeps.editLines h count fun n h => Keeps.shiftUp h h.1 n
  | insertCells count => exact Keeps.editCells h count _
  | deleteCells count => exact Keeps.editCells h count _
  | eraseCells count =>
    exact Keeps.editCells h count fun row col n r => row.blankRange col (col + n) r
  | eraseLine part => exact Keeps.cancelWrap_editLine h _

/-- What is done keeps to the region, as long as no backspace goes to the row
above it. -/
theorem keeps_workAll (h : s.Inside) {works : List Work}
    (hback : ∀ n, works[n]? = some .backspace → ¬ (s.workAll (works.take n)).BacksOut) :
    s.Keeps (s.workAll works) := by
  induction works generalizing s with
  | nil => exact Keeps.of_eq h rfl rfl rfl
  | cons work works ih =>
    have hfirst : s.Keeps (work.run s) := by
      refine keeps_run h work fun heq => ?_
      exact hback 0 (congrArg some heq)
    exact hfirst.trans (ih hfirst.inside fun n hn => hback (n + 1) hn)

/-- If the row above the region does not go on in it, then no backspace can
leave it, since that does not change. -/
theorem keeps_workAll_of_ended (h : s.Inside) (hended : ¬ s.ContinuedAbove) (works : List Work) :
    s.Keeps (s.workAll works) := by
  induction works generalizing s with
  | nil => exact Keeps.of_eq h rfl rfl rfl
  | cons work works ih =>
    have hfirst : s.Keeps (work.run s) := keeps_run h work fun _ hback => hended hback.2.2
    exact hfirst.trans (ih hfirst.inside fun habove => hended (hfirst.continuedAbove habove))

/-- After each thing that is done, if none of them is a backspace out of the
region. -/
theorem keeps_workAll_take (h : s.Inside) {works : List Work}
    (hback : ∀ n, works[n]? = some .backspace → ¬ (s.workAll (works.take n)).BacksOut) (n : Nat) :
    s.Keeps (s.workAll (works.take n)) := by
  refine keeps_workAll h fun m hm => ?_
  rw [List.getElem?_take] at hm
  split at hm
  · rename_i hlt
    rw [List.take_take, Nat.min_eq_left (Nat.le_of_lt hlt)]
    exact hback m hm
  · cases hm

theorem workAll_take_succ {works : List Work} {work : Work} {n : Nat}
    (h : works[n]? = some work) :
    s.workAll (works.take (n + 1)) = work.run (s.workAll (works.take n)) := by
  unfold workAll
  rw [List.take_add_one, h, List.foldl_append]
  rfl

/-- The way from anywhere in the region to its first place, and a step back
from there. -/
def wayOut (s : Screen) : List Work := [.carriageReturn, .cursorUp s.cursor.row, .backspace]

theorem backsOut_wayOut (h : s.Inside) (habove : s.ContinuedAbove) :
    (s.workAll (s.wayOut.take 2)).BacksOut := by
  have hrow : s.carriageReturn.targetRow (.relative (-s.cursor.row)) = s.region.top := by
    change (if s.region.contains s.cursor.row then
      clamp s.region.top s.region.bottom (s.cursor.row + -s.cursor.row) else _) = _
    obtain ⟨htop, hbottom⟩ := h
    rw [if_pos (Inside.contains ⟨htop, hbottom⟩)]
    unfold clamp
    omega
  have hcol : s.carriageReturn.targetColumn (.relative 0) = 0 := by
    change clamp 0 s.lastCol ((0 : Nat) + 0) = 0
    unfold clamp
    omega
  refine ⟨rfl, ?_, habove⟩
  change Cursor.mk (s.carriageReturn.targetRow _) (s.carriageReturn.targetColumn _) = _
  rw [hrow, hcol]
  rfl

/-- **Work in a region stays in the region**, as long as no backspace starts
in its first place while the row above goes on there: after each thing that is
done the cursor is in the region, and all rows outside it are as they were. If
the row above does go on there, then there is work that leaves the region, and
otherwise there is none. -/
theorem keeps_iff (h : s.Inside) :
    (∀ works : List Work, (∀ n, s.Keeps (s.workAll (works.take n))) ↔
      ∀ n, works[n]? = some .backspace → ¬ (s.workAll (works.take n)).BacksOut) ∧
    ((∀ works : List Work, ∀ n, s.Keeps (s.workAll (works.take n))) ↔ ¬ s.ContinuedAbove) := by
  have hsteps : ∀ works : List Work, (∀ n, s.Keeps (s.workAll (works.take n))) ↔
      ∀ n, works[n]? = some .backspace → ¬ (s.workAll (works.take n)).BacksOut := by
    refine fun works => ⟨fun hkeeps n hn hback => ?_, keeps_workAll_take h⟩
    have hnext := (hkeeps (n + 1)).inside
    rw [workAll_take_succ hn] at hnext
    exact not_inside_backspace hback hnext
  refine ⟨hsteps, fun hkeeps habove => ?_, fun hended works n => keeps_workAll_of_ended h hended _⟩
  exact (hsteps s.wayOut).1 (hkeeps s.wayOut) 2 rfl (backsOut_wayOut h habove)

end Works

attribute [local instance] Glyph.unicode

/-- A terminal of three rows and two columns on which "abc" wrapped, then the
lower two rows became the region and scrolled. The cursor is in its first
place; the row above it is still marked as going on, though it went on in a
row that is gone. -/
def wrappedAbove : Terminal Spool :=
  ((Terminal.plain 3 2).feed [0x61, 0x62, 0x63, 0x1B, 0x5B, 0x32, 0x3B, 0x33, 0x72, 0x1B, 0x5B,
    0x32, 0x3B, 0x31, 0x48, 0x1B, 0x5B, 0x53]).terminal

/-- A backspace after something that was written stays in the region, and so
does all that wraps and scrolls in it. -/
theorem keeps_iff_written :
    let s := wrappedAbove.primary
    let works : List Work := [.print 'x', .backspace, .print 'y', .print 'z', .print 'x', .index]
    s.Inside ∧ (∀ n, s.Keeps (s.workAll (works.take n))) ∧
      (s.workAll works).grid.rows.map Row.glyphs = [['a', 'b'], ['x', ' '], [' ', ' ']] := by
  intro s works
  have hinside : s.Inside := by decide
  have hback : ∀ n < 6, works[n]? = some .backspace →
      ¬ (s.workAll (works.take n)).BacksOut := by
    decide +kernel
  refine ⟨hinside, ((keeps_iff hinside).1 works).2 fun n hn => ?_, by decide +kernel⟩
  exact hback n (List.getElem?_eq_some_iff.1 hn).1 hn

/-- A backspace from there goes to the row above the region, and what is
written next is written over its text. -/
theorem not_keeps_wrappedAbove :
    let s := wrappedAbove.primary
    Terminal.Reach 3 2 wrappedAbove ∧ s.Inside ∧ ¬ (s.workAll [.backspace]).Inside ∧
      s.grid.rows[0]?.map Row.glyphs = some ['a', 'b'] ∧
      (s.workAll [.backspace, .print 'x']).grid.rows[0]?.map Row.glyphs = some ['a', 'x'] := by
  intro s
  have hreach : Terminal.Reach 3 2 wrappedAbove :=
    (Terminal.reach_plain 3 2 (by decide) (by decide)).feed _
  exact ⟨hreach, by decide, by decide +kernel, by decide +kernel, by decide +kernel⟩

end Screen

end VideoTerminal
