import VideoTerminal.Proofs.Checked.Row
import VideoTerminal.Proofs.Selection.Order
import VideoTerminal.Proofs.Selection.Whole
import VideoTerminal.Selection.Selector
/-!
# Selections on a machine

A line of the buffer is a number of 32 bits, and below the history it is made
the number of a row, of 16 bits. A click walks over the cells from one to the
next, and reads what it finds at each of them; a walk that takes more turns
than there are places to walk over, or a step that would leave these numbers,
yields nothing. In a buffer that these numbers can count every walk ends in
time and every text is found.
-/

namespace VideoTerminal

namespace Buffer

open Checked

/-! ## What a machine does -/

/-- The number of lines. -/
def totalChecked (b : Buffer) : Option Nat := to32 b.total

/-- The row of a line. Below the `above` lines of the history it is a row of
the screen. -/
def rowChecked (b : Buffer) (above line : Nat) : Option (Option Row) := do
  let above ← to32 above
  if line < above then pure b.lines[line]?
  else
    let _ ← to16 (← sub line above)
    pure b.lines[line]?

/-- The cell at a position. -/
def cellChecked (b : Buffer) (above : Nat) (p : Position) : Option (Option Cell) := do
  pure ((← b.rowChecked above p.line).bind fun row => row.cells[p.col]?)

/-- The text of a line goes on in the next one. -/
def continuesChecked (b : Buffer) (above line : Nat) : Option Bool := do
  pure ((← b.rowChecked above line).any Row.isWrapped)

/-- The position where the glyph at this position starts. -/
def leadChecked (b : Buffer) (above : Nat) (p : Position) : Option Position := do
  if (← b.cellChecked above p).any Cell.isTrail ∧ 0 < p.col then
    pure ⟨p.line, ← sub p.col 1⟩
  else pure p

/-- The position where the glyph that starts at this position ends. -/
def glyphEndChecked (b : Buffer) (above : Nat) (p : Position) : Option Position := do
  if (← b.cellChecked above p).any Cell.isLead ∧ p.col < b.lastCol then
    pure ⟨p.line, ← add16 p.col 1⟩
  else pure p

/-- The position before this one, if there is one. -/
def prevChecked (b : Buffer) (above : Nat) (p : Position) : Option (Option Position) := do
  if 0 < p.col then pure (some ⟨p.line, ← sub p.col 1⟩)
  else if 0 < p.line then
    if ← b.continuesChecked above (← sub p.line 1) then
      pure (some ⟨← sub p.line 1, b.lastCol⟩)
    else pure none
  else pure none

/-- The position behind this one, if there is one. -/
def nextChecked (b : Buffer) (above : Nat) (p : Position) : Option (Option Position) := do
  if p.col < b.lastCol then pure (some ⟨p.line, ← add16 p.col 1⟩)
  else if (← add32 p.line 1) < (← b.totalChecked) then
    if ← b.continuesChecked above p.line then pure (some ⟨← add32 p.line 1, 0⟩) else pure none
  else pure none

/-- The class of the glyph at a position. -/
def classChecked (b : Buffer) (above : Nat) (delimiters : List Char) (p : Position) :
    Option GlyphClass := do
  let cell ← b.cellChecked above (← b.leadChecked above p)
  pure (GlyphClass.of delimiters ((cell.map (·.glyph)).getD ' '))

/-- Go back from a position as long as the class stays, in so many turns. -/
def wordStartChecked (b : Buffer) (above : Nat) (delimiters : List Char) (kind : GlyphClass) :
    Nat → Position → Option Position
  | 0, _ => none
  | turns + 1, p => do
    match ← b.prevChecked above p with
    | none => pure p
    | some q =>
      if (← b.classChecked above delimiters q) = kind then
        b.wordStartChecked above delimiters kind turns (← b.leadChecked above q)
      else pure p

/-- Go on from a position as long as the class stays, in so many turns. -/
def wordEndChecked (b : Buffer) (above : Nat) (delimiters : List Char) (kind : GlyphClass) :
    Nat → Position → Option Position
  | 0, _ => none
  | turns + 1, p => do
    match ← b.nextChecked above p with
    | none => pure p
    | some q =>
      if (← b.classChecked above delimiters q) = kind then
        b.wordEndChecked above delimiters kind turns (← b.glyphEndChecked above q)
      else pure p

/-- The first line of the text that a line belongs to, found in so many turns. -/
def textStartChecked (b : Buffer) (above : Nat) : Nat → Nat → Option Nat
  | 0, _ => none
  | turns + 1, line => do
    if 0 < line then
      if ← b.continuesChecked above (← sub line 1) then
        b.textStartChecked above turns (← sub line 1)
      else pure line
    else pure line

/-- The last line of the text that a line belongs to, found in so many turns. -/
def textEndChecked (b : Buffer) (above : Nat) : Nat → Nat → Option Nat
  | 0, _ => none
  | turns + 1, line => do
    if (← add32 line 1) < (← b.totalChecked) then
      if ← b.continuesChecked above line then b.textEndChecked above turns (← add32 line 1)
      else pure line
    else pure line

/-- What a click at a glyph takes. A walk turns once at each place from where it
starts to the end of the buffer it goes to. -/
def spanOfChecked (b : Buffer) (above : Nat) (delimiters : List Char) (depth : Depth)
    (p : Position) : Option Span := do
  match depth with
  | .glyph => pure ⟨p, ← b.glyphEndChecked above p⟩
  | .word =>
    let kind ← b.classChecked above delimiters p
    let start ← b.wordStartChecked above delimiters kind (b.before p + 1) p
    let stop ← b.glyphEndChecked above p
    pure ⟨start, ← b.wordEndChecked above delimiters kind (b.behind stop + 1) stop⟩
  | .line =>
    let first ← b.textStartChecked above (p.line + 1) p.line
    pure ⟨⟨first, 0⟩, ⟨← b.textEndChecked above (b.total - p.line) p.line, b.lastCol⟩⟩

/-- What a click takes. -/
def spanAtChecked (b : Buffer) (above : Nat) (delimiters : List Char) (depth : Depth)
    (p : Position) : Option Span := do
  let total ← b.totalChecked
  if total = 0 ∨ b.cols = 0 then pure ⟨p, p⟩
  else
    let p : Position := ⟨min p.line (total - 1), min p.col b.lastCol⟩
    b.spanOfChecked above delimiters depth (← b.leadChecked above p)

/-! ## Nothing of it fails -/

/-- The lines, the rows of the screen below the history and the columns can be
counted. -/
structure Counted (b : Buffer) (above : Nat) : Prop where
  lines : b.total < 4294967296
  within : above ≤ b.total
  shown : b.total < above + 65536
  cols : b.cols < 65536

variable {b : Buffer} {above line : Nat} {p : Position} {delimiters : List Char}

theorem totalChecked_eq (h : b.Counted above) : b.totalChecked = some b.total := to32_eq h.lines

theorem rowChecked_eq (h : b.Counted above) (hline : line < b.total) :
    b.rowChecked above line = some b.lines[line]? := by
  have habove := h.within
  have hlines := h.lines
  have hshown := h.shown
  unfold rowChecked
  rw [to32_eq (by omega), Option.bind_eq_bind, Option.bind_some]
  split
  · rfl
  · rw [sub_eq (by omega), Option.bind_some, to16_eq (by omega)]
    rfl

theorem cellChecked_eq (h : b.Counted above) (hp : p.line < b.total) :
    b.cellChecked above p = some (b.cell? p) := by
  unfold cellChecked
  rw [rowChecked_eq h hp]
  rfl

theorem continuesChecked_eq (h : b.Counted above) (hline : line < b.total) :
    b.continuesChecked above line = some (b.continues line) := by
  unfold continuesChecked
  rw [rowChecked_eq h hline]
  rfl

theorem leadChecked_eq (h : b.Counted above) (hp : p.line < b.total) :
    b.leadChecked above p = some (b.lead p) := by
  unfold leadChecked lead
  rw [cellChecked_eq h hp, Option.bind_eq_bind, Option.bind_some]
  by_cases htrail : (b.cell? p).any Cell.isTrail
  · by_cases hcol : 0 < p.col
    · rw [if_pos ⟨htrail, hcol⟩, if_pos htrail, sub_eq (Nat.succ_le_of_lt hcol)]
      rfl
    · have hzero : p.col - 1 = p.col := by omega
      rw [if_neg fun hboth => hcol hboth.2, if_pos htrail, hzero]
      rfl
  · rw [if_neg fun hboth => htrail hboth.1, if_neg htrail]
    rfl

theorem glyphEndChecked_eq (h : b.Counted above) (hp : p.line < b.total) :
    b.glyphEndChecked above p = some (b.glyphEnd p) := by
  have hcols := h.cols
  unfold glyphEndChecked glyphEnd
  rw [cellChecked_eq h hp, Option.bind_eq_bind, Option.bind_some]
  split
  · rename_i hboth
    have hlast : p.col < b.cols - 1 := hboth.2
    rw [add16_eq (by omega)]
    rfl
  · rfl

theorem prevChecked_eq (h : b.Counted above) (hp : p.line < b.total) :
    b.prevChecked above p = some (b.prev? p) := by
  unfold prevChecked prev?
  by_cases hcol : 0 < p.col
  · rw [if_pos hcol, if_pos hcol, sub_eq (Nat.succ_le_of_lt hcol)]
    rfl
  rw [if_neg hcol, if_neg hcol]
  by_cases hline : 0 < p.line
  · have hbefore : p.line - 1 < b.total := by omega
    simp only [hline, ite_true, sub_eq (Nat.succ_le_of_lt hline), continuesChecked_eq h hbefore,
      Option.bind_eq_bind, Option.bind_some, true_and]
    split <;> rfl
  · rw [if_neg hline, if_neg fun hboth => hline hboth.1]
    rfl

theorem nextChecked_eq (h : b.Counted above) (hp : p.line < b.total) :
    b.nextChecked above p = some (b.next? p) := by
  have hcols := h.cols
  have hlines := h.lines
  unfold nextChecked next?
  by_cases hcol : p.col < b.lastCol
  · have hlast : p.col < b.cols - 1 := hcol
    rw [if_pos hcol, if_pos hcol, add16_eq (by omega)]
    rfl
  rw [if_neg hcol, if_neg hcol, add32_eq (by omega), totalChecked_eq h, Option.bind_eq_bind,
    Option.bind_some, Option.bind_eq_bind, Option.bind_some]
  by_cases hline : p.line + 1 < b.total
  · simp only [hline, ite_true, continuesChecked_eq h hp, Option.bind_some, true_and]
    split <;> rfl
  · rw [if_neg hline, if_neg fun hboth => hline hboth.1]
    rfl

theorem classChecked_eq (h : b.Counted above) (hp : p.line < b.total) (delimiters : List Char) :
    b.classChecked above delimiters p = some (b.classAt delimiters p) := by
  have hlead : (b.lead p).line < b.total := by rwa [line_lead]
  unfold classChecked
  rw [leadChecked_eq h hp, Option.bind_eq_bind, Option.bind_some, cellChecked_eq h hlead]
  rfl

/-! ### Walks

Each is by induction on the walk as the buffer has it. Every turn leaves a
place behind, so the places that are left bound the turns. -/

theorem wordStartChecked_eq (h : b.Counted above) (kind : GlyphClass) {turns : Nat}
    (hturns : b.before p < turns) (hp : p.line < b.total) :
    b.wordStartChecked above delimiters kind turns p =
      some (b.wordStart delimiters kind p) := by
  obtain ⟨turns, rfl⟩ := Nat.exists_eq_succ_of_ne_zero (Nat.ne_zero_of_lt hturns)
  fun_induction Buffer.wordStart b delimiters kind p generalizing turns with
  | case1 p hnone =>
    rw [wordStartChecked, prevChecked_eq h hp, hnone]
    rfl
  | case2 p q hprev _ hkind ih =>
    have hq : q.line < b.total := Nat.lt_of_le_of_lt (line_le_of_prev? hprev) hp
    have hback : b.before (b.lead q) < turns :=
      Nat.lt_of_le_of_lt (b.before_lead_le q)
        (Nat.lt_of_lt_of_le (before_lt_of_prev? hprev) (Nat.le_of_lt_succ hturns))
    obtain ⟨turns, rfl⟩ := Nat.exists_eq_succ_of_ne_zero (Nat.ne_zero_of_lt hback)
    rw [wordStartChecked, prevChecked_eq h hp, hprev]
    simp only [classChecked_eq h hq, leadChecked_eq h hq, hkind, ite_true, Option.bind_eq_bind,
      Option.bind_some]
    exact ih (by rwa [line_lead]) turns hback
  | case3 p q hprev _ hkind =>
    have hq : q.line < b.total := Nat.lt_of_le_of_lt (line_le_of_prev? hprev) hp
    rw [wordStartChecked, prevChecked_eq h hp, hprev]
    simp only [classChecked_eq h hq, hkind, ite_false, Option.bind_eq_bind, Option.bind_some]
    rfl

theorem wordEndChecked_eq (h : b.Counted above) (kind : GlyphClass) {turns : Nat}
    (hturns : b.behind p < turns) (hp : p.line < b.total) :
    b.wordEndChecked above delimiters kind turns p = some (b.wordEnd delimiters kind p) := by
  obtain ⟨turns, rfl⟩ := Nat.exists_eq_succ_of_ne_zero (Nat.ne_zero_of_lt hturns)
  fun_induction Buffer.wordEnd b delimiters kind p generalizing turns with
  | case1 p hnone =>
    rw [wordEndChecked, nextChecked_eq h hp, hnone]
    rfl
  | case2 p q hnext _ hkind ih =>
    have hq : q.line < b.total := (line_of_next? hnext).2 hp
    have hon : b.behind (b.glyphEnd q) < turns :=
      Nat.lt_of_le_of_lt (b.behind_glyphEnd_le q)
        (Nat.lt_of_lt_of_le (behind_lt_of_next? hnext) (Nat.le_of_lt_succ hturns))
    obtain ⟨turns, rfl⟩ := Nat.exists_eq_succ_of_ne_zero (Nat.ne_zero_of_lt hon)
    rw [wordEndChecked, nextChecked_eq h hp, hnext]
    simp only [classChecked_eq h hq, glyphEndChecked_eq h hq, hkind, ite_true,
      Option.bind_eq_bind, Option.bind_some]
    exact ih (by rwa [line_glyphEnd]) turns hon
  | case3 p q hnext _ hkind =>
    have hq : q.line < b.total := (line_of_next? hnext).2 hp
    rw [wordEndChecked, nextChecked_eq h hp, hnext]
    simp only [classChecked_eq h hq, hkind, ite_false, Option.bind_eq_bind, Option.bind_some]
    rfl

theorem textStartChecked_eq (h : b.Counted above) (hline : line < b.total) :
    b.textStartChecked above (line + 1) line = some (b.textStart line) := by
  induction line with
  | zero => rfl
  | succ line ih =>
    have hbefore : line < b.total := Nat.lt_of_succ_lt hline
    rw [textStartChecked, if_pos (Nat.succ_pos line), sub_eq (show 1 ≤ line + 1 by omega),
      Option.bind_eq_bind, Option.bind_some, Nat.add_sub_cancel, continuesChecked_eq h hbefore,
      Option.bind_eq_bind, Option.bind_some, textStart]
    split
    · exact ih hbefore
    · rfl

theorem textEndChecked_eq (h : b.Counted above) {turns : Nat} (hturns : b.total ≤ line + turns)
    (hline : line < b.total) :
    b.textEndChecked above turns line = some (b.textEnd line) := by
  have hlines := h.lines
  obtain ⟨turns, rfl⟩ : ∃ n, turns = n + 1 := ⟨turns - 1, by omega⟩
  fun_induction Buffer.textEnd b line generalizing turns with
  | case1 line hgo ih =>
    obtain ⟨turns, rfl⟩ : ∃ n, turns = n + 1 := ⟨turns - 1, by omega⟩
    rw [textEndChecked]
    simp only [add32_eq (show line + 1 < 4294967296 by omega), totalChecked_eq h,
      continuesChecked_eq h hline, hgo, ite_true, Option.bind_eq_bind, Option.bind_some]
    exact ih hgo.1 turns (by omega)
  | case2 line hstop =>
    rw [textEndChecked]
    simp only [add32_eq (show line + 1 < 4294967296 by omega), totalChecked_eq h,
      continuesChecked_eq h hline, Option.bind_eq_bind, Option.bind_some]
    by_cases hin : line + 1 < b.total
    · rw [if_pos hin, if_neg fun hgo => hstop ⟨hin, hgo⟩]
      rfl
    · rw [if_neg hin]
      rfl

theorem spanOfChecked_eq (h : b.Counted above) (delimiters : List Char) (depth : Depth)
    (hp : p.line < b.total) :
    b.spanOfChecked above delimiters depth p = some (b.spanOf delimiters depth p) := by
  have hend : (b.glyphEnd p).line < b.total := by rwa [line_glyphEnd]
  unfold spanOfChecked spanOf
  cases depth with
  | glyph =>
    dsimp only
    rw [glyphEndChecked_eq h hp]
    rfl
  | word =>
    simp only [classChecked_eq h hp, wordStartChecked_eq h _ (Nat.lt_succ_self _) hp,
      glyphEndChecked_eq h hp, wordEndChecked_eq h _ (Nat.lt_succ_self _) hend,
      Option.bind_eq_bind, Option.bind_some]
    rfl
  | line =>
    have hturns : b.total ≤ p.line + (b.total - p.line) := by omega
    simp only [textStartChecked_eq h hp, textEndChecked_eq h hturns hp, Option.bind_eq_bind,
      Option.bind_some]
    rfl

/-- **A click finds what it takes.** -/
theorem spanAtChecked_eq (h : b.Counted above) (delimiters : List Char) (depth : Depth)
    (p : Position) : b.spanAtChecked above delimiters depth p =
      some (b.spanAt delimiters depth p) := by
  unfold spanAtChecked spanAt
  rw [totalChecked_eq h, Option.bind_eq_bind, Option.bind_some]
  by_cases hempty : b.total = 0 ∨ b.cols = 0
  · have hnone : b.isEmpty = true := by simpa [isEmpty] using hempty
    rw [if_pos hempty, if_pos hnone]
    rfl
  · have hsome : ¬ b.isEmpty = true := by simpa [isEmpty] using hempty
    have hclamp : (b.clamp p).line < b.total := by
      unfold clamp
      dsimp only
      omega
    have hlead : (b.lead (b.clamp p)).line < b.total := by rwa [line_lead]
    rw [if_neg hempty, if_neg hsome]
    change (b.leadChecked above (b.clamp p)).bind _ = _
    rw [leadChecked_eq h hclamp, Option.bind_some]
    exact spanOfChecked_eq h delimiters depth hlead

end Buffer

namespace Selection

open Checked

/-! ## What a machine does -/

/-- The selection after lines were dropped at the start of the buffer, if none
of it was among them. -/
def shiftUpChecked (s : Selection) (count : Nat) : Option (Option Selection) := do
  if s.anchor.line < count then pure none
  else
    let anchor ← sub s.anchor.line count
    let extent ← sub s.extent.line count
    let first ← sub s.origin.first.line count
    let last ← sub s.origin.last.line count
    pure (some { s with
      anchor.line := anchor
      extent.line := extent
      origin.first.line := first
      origin.last.line := last })

/-- The selected part of the text of a row. -/
def rowTextChecked (s : Selection) (row : Row) (line : Nat) : Option (List Char) := do
  let start := if line = s.anchor.line then s.anchor.col else 0
  let stop := min (if line = s.extent.line then s.extent.col + 1 else row.cols) row.textLength
  if start < stop then
    pure (((← slice row.cells start stop).filter (!·.isTrail)).map (·.glyph))
  else pure []

/-- The selected text of a line, with the break behind it. -/
def lineTextChecked (s : Selection) (b : Buffer) (above last line : Nat) :
    Option (List Char) := do
  match ← b.rowChecked above line with
  | none => pure []
  | some row =>
    pure ((← s.rowTextChecked row line) ++ if line ≠ last ∧ !row.isWrapped then ['\n'] else [])

/-- The selected text. -/
def textChecked (s : Selection) (b : Buffer) (above : Nat) : Option (List Char) := do
  let total ← b.totalChecked
  if total = 0 ∨ b.cols = 0 then pure []
  else
    let last := min s.extent.line (← sub total 1)
    let lines := List.range' s.anchor.line (last + 1 - s.anchor.line)
    pure (← lines.mapM (s.lineTextChecked b above last)).flatten

/-! ## Nothing of it fails -/

variable {b : Buffer} {above cols : Nat} {s : Selection}

/-- A selection in order moves up as a whole. -/
theorem shiftUpChecked_eq (h : s.Laid cols) (count : Nat) :
    s.shiftUpChecked count = some (s.shiftUp? count) := by
  unfold shiftUpChecked shiftUp?
  split
  · rfl
  · rename_i hin
    have hanchor : count ≤ s.anchor.line := Nat.le_of_not_lt hin
    have hfirst := Nat.le_trans hanchor (Position.line_le h.covers_first)
    have hlast := Nat.le_trans hfirst (Position.line_le h.origin.ordered)
    have hextent := Nat.le_trans hlast (Position.line_le h.covers_last)
    rw [sub_eq hanchor, sub_eq hextent, sub_eq hfirst, sub_eq hlast]
    rfl

theorem rowTextChecked_eq (s : Selection) (row : Row) (line : Nat) :
    s.rowTextChecked row line = some (s.rowText row line) := by
  have hlength := row.textLength_le
  unfold rowTextChecked rowText
  dsimp only
  generalize (if line = s.anchor.line then s.anchor.col else 0) = start
  generalize (if line = s.extent.line then s.extent.col + 1 else row.cols) = stop
  split
  · rename_i hlt
    have hin : min stop row.textLength ≤ row.cells.length :=
      Nat.le_trans (Nat.min_le_right _ _) hlength
    rw [slice_eq (Nat.le_of_lt hlt) hin]
    rfl
  · have hnone : (row.cells.take (min stop row.textLength)).drop start = [] := by
      refine List.drop_eq_nil_of_le ?_
      rw [List.length_take]
      omega
    rw [hnone]
    rfl

theorem lineTextChecked_eq (h : b.Counted above) {last line : Nat} (hline : line < b.total) :
    s.lineTextChecked b above last line = some (s.lineText b last line) := by
  unfold lineTextChecked lineText
  rw [Buffer.rowChecked_eq h hline, Option.bind_eq_bind, Option.bind_some]
  cases b.lines[line]? with
  | none => rfl
  | some row =>
    dsimp only
    rw [rowTextChecked_eq]
    rfl

/-- **A selected text is found**, whatever is selected. -/
theorem textChecked_eq (h : b.Counted above) (s : Selection) :
    s.textChecked b above = some (s.text b) := by
  unfold textChecked text
  rw [Buffer.totalChecked_eq h, Option.bind_eq_bind, Option.bind_some]
  by_cases hempty : b.total = 0 ∨ b.cols = 0
  · have hnone : b.isEmpty = true := by simpa [Buffer.isEmpty] using hempty
    rw [if_pos hempty, if_pos hnone]
    rfl
  · have hsome : ¬ b.isEmpty = true := by simpa [Buffer.isEmpty] using hempty
    rw [if_neg hempty, if_neg hsome, sub_eq (by omega), Option.bind_eq_bind, Option.bind_some]
    dsimp only
    rw [mapM_eq fun line hline => lineTextChecked_eq h ?_]
    · rfl
    · have hrange := List.mem_range'_1.1 hline
      omega

end Selection

namespace Selector

/-! ## What a machine does -/

/-- A press starts a new selection. -/
def clickChecked (s : Selector) (b : Buffer) (above : Nat) (p : Position) (clicks : Nat)
    (screen : ScreenKind) : Option Selector := do
  let depth := Depth.ofClicks clicks
  let span ← b.spanAtChecked above s.delimiters depth p
  pure { s with
    current := some
      { anchor := span.first, extent := span.last, origin := span, depth, screen } }

/-- A drag extends the selection, if there is one. -/
def extendChecked (s : Selector) (b : Buffer) (above : Nat) (p : Position) : Option Selector := do
  match s.current with
  | none => pure s
  | some selection =>
    let span ← b.spanAtChecked above s.delimiters selection.depth p
    pure { s with
      current := some { selection with
        anchor := min selection.origin.first span.first
        extent := max selection.origin.last span.last
        extended := true } }

/-- Lines were dropped at the start of the buffer. -/
def evictedChecked (s : Selector) (count : Nat) : Option Selector := do
  if count = 0 then pure s
  else
    match s.current with
    | none => pure s
    | some selection =>
      pure { s with current := ← selection.shiftUpChecked (min count Position.maxLine) }

/-- The selected text, if anything is selected. -/
def textChecked (s : Selector) (b : Buffer) (above : Nat) : Option (Option (List Char)) := do
  match s.current.filter (!·.isEmpty) with
  | none => pure none
  | some selection => pure (some (← selection.textChecked b above))

/-! ## Nothing of it fails -/

variable {b : Buffer} {above cols : Nat} {s : Selector}

theorem clickChecked_eq (h : b.Counted above) (s : Selector) (p : Position) (clicks : Nat)
    (screen : ScreenKind) :
    s.clickChecked b above p clicks screen = some (s.click b p clicks screen) := by
  unfold clickChecked
  dsimp only
  rw [Buffer.spanAtChecked_eq h]
  rfl

theorem extendChecked_eq (h : b.Counted above) (s : Selector) (p : Position) :
    s.extendChecked b above p = some (s.extend b p) := by
  obtain ⟨delimiters, current⟩ := s
  cases current with
  | none => rfl
  | some selection =>
    unfold extendChecked
    dsimp only
    rw [Buffer.spanAtChecked_eq h]
    rfl

theorem evictedChecked_eq (h : ∀ selection, s.current = some selection → selection.Laid cols)
    (count : Nat) : s.evictedChecked count = some (s.evicted count) := by
  obtain ⟨delimiters, current⟩ := s
  unfold evictedChecked evicted
  split
  · rfl
  · cases current with
    | none => rfl
    | some selection =>
      dsimp only
      rw [Selection.shiftUpChecked_eq (h selection rfl)]
      rfl

theorem textChecked_eq (h : b.Counted above) (s : Selector) :
    s.textChecked b above = some (s.text? b) := by
  unfold textChecked text?
  cases s.current.filter (!·.isEmpty) with
  | none => rfl
  | some selection =>
    dsimp only
    rw [Selection.textChecked_eq h]
    rfl

end Selector

end VideoTerminal
