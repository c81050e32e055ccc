import Mathlib.Data.List.Induction
import VideoTerminal.Proofs.Checked.Screen
import VideoTerminal.Proofs.Screen.Resize
/-!
# A resize on a machine

A lower screen drops blank rows one by one, and counts down how many are still
too many; a higher one counts what it takes back from its history, and moves
its cursor down by as much. None of these counts is negative or too large.
-/

namespace VideoTerminal

namespace Screen

open Checked

/-! ## What a machine does -/

/-- Drop blank rows at the end one by one, as long as there are too many and
more than the first `keep`. What is left, and how many are still too many. -/
def trimChecked (keep excess : Nat) (rows : List Row) : Option (List Row × Nat) :=
  if _h : 0 < excess ∧ keep < rows.length ∧ rows.getLast?.any Row.isBlank then do
    let left ← sub excess 1
    trimChecked keep left rows.dropLast
  else pure (rows, excess)
termination_by rows.length
decreasing_by
  rw [List.length_dropLast]
  omega

/-- The rows that move between the screen and its history, and the row of the
cursor after that. -/
def reflowChecked (s : Screen) (rows : List Row) (height : Nat) : Option (Reflow × Nat) := do
  let row := min s.cursor.row (s.height - 1)
  if height < s.height then
    let (left, excess) ← trimChecked (row + 1) (← sub s.height height) rows
    let leaving := min excess row
    let _ ← slice left 0 leaving
    pure (⟨leaving, 0⟩, ← sub row leaving)
  else if s.height < height then
    let extra ← sub height s.height
    let pulled := if s.kind = .primary then min extra s.history.length else 0
    let _ ← sub extra pulled
    pure (⟨0, pulled⟩, ← add16 row (← to16 pulled))
  else pure (⟨0, 0⟩, row)

/-- The history at another width. At the same width it stays as it is. -/
def historyAtChecked (s : Screen) (cols : Nat) : Option History := do
  if cols = s.cols then pure s.history
  else
    let lines ← s.history.lines.mapM (·.resizedChecked cols s.eraser)
    pure { s.history with lines }

/-- The screen at another size. -/
def resizeChecked (s : Screen) (height cols : Nat) : Option Screen := do
  let rows ← s.grid.rows.mapM (·.resizedChecked cols s.eraser)
  let _ ← s.historyAtChecked cols
  let _ ← s.reflowChecked rows height
  pure (s.resize height cols)

/-! ## Nothing of it fails -/

variable {P : Nat → Row → Prop} {kind : ScreenKind} {rows cols : Nat} {s : Screen}

/-- One more row at the end. -/
theorem blankTail_concat (lines : List Row) (row : Row) (keep : Nat) :
    blankTail (lines ++ [row]) keep =
      if keep ≤ lines.length ∧ row.isBlank then blankTail lines keep + 1 else 0 := by
  unfold blankTail
  by_cases hkeep : keep ≤ lines.length
  · rw [List.drop_append_of_le_length hkeep, List.reverse_concat, List.takeWhile_cons]
    by_cases hblank : row.isBlank
    · rw [if_pos hblank, if_pos ⟨hkeep, hblank⟩, List.length_cons]
    · rw [if_neg hblank, if_neg fun h => hblank h.2]
      rfl
  · have hnil : (lines ++ [row]).drop keep = [] := by
      refine List.drop_eq_nil_of_le ?_
      rw [List.length_append, List.length_singleton]
      omega
    rw [hnil, if_neg fun h => hkeep h.1]
    rfl

/-- The loop drops the blank rows at the end, as far as there are too many. -/
theorem trimChecked_eq (keep excess : Nat) (lines : List Row) :
    trimChecked keep excess lines =
      some (lines.take (lines.length - min excess (blankTail lines keep)),
        excess - min excess (blankTail lines keep)) := by
  induction lines using List.reverseRecOn generalizing excess with
  | nil =>
    have hnone : blankTail [] keep = 0 := by
      unfold blankTail
      rw [List.drop_nil]
      rfl
    unfold trimChecked
    rw [dif_neg fun h => absurd h.2.1 (Nat.not_lt_zero keep), hnone, Nat.min_zero]
    rfl
  | append_singleton lines row ih =>
    have hlength : (lines ++ [row]).length = lines.length + 1 := by
      rw [List.length_append, List.length_singleton]
    unfold trimChecked
    rw [hlength, List.getLast?_concat, Option.any_some, blankTail_concat]
    by_cases hdrop : 0 < excess ∧ keep < lines.length + 1 ∧ row.isBlank
    · obtain ⟨hpos, hkeep, hblank⟩ := hdrop
      have hmin : min excess (blankTail lines keep + 1) =
          min (excess - 1) (blankTail lines keep) + 1 := by omega
      rw [dif_pos ⟨hpos, hkeep, hblank⟩, if_pos ⟨Nat.le_of_lt_succ hkeep, hblank⟩, hmin,
        sub_eq (Nat.succ_le_of_lt hpos), Option.bind_eq_bind, Option.bind_some,
        List.dropLast_concat, ih, Nat.add_sub_add_right,
        List.take_append_of_le_length (Nat.sub_le _ _)]
      congr 2
      omega
    · have hzero : min excess (if keep ≤ lines.length ∧ row.isBlank = true then
          blankTail lines keep + 1 else 0) = 0 := by
        by_cases hpos : 0 < excess
        · rw [if_neg fun h => hdrop ⟨hpos, Nat.lt_succ_of_le h.1, h.2⟩, Nat.min_zero]
        · omega
      rw [dif_neg hdrop, hzero, Nat.sub_zero, Nat.sub_zero, ← hlength, List.take_length]
      rfl

/-- **The rows that move are counted right.** -/
theorem reflowChecked_eq (h : s.Sound P kind rows cols) {height : Nat} (hheight : height < 65536)
    {lines : List Row} (hlines : lines.length = rows) :
    s.reflowChecked lines height = some (s.reflow lines height,
      s.cursor.row - (s.reflow lines height).leaving + (s.reflow lines height).pulled) := by
  have hrow := h.row
  have hrows := h.height_eq
  have hcursor : min s.cursor.row (s.height - 1) = s.cursor.row := by omega
  unfold reflowChecked reflow
  dsimp only
  rw [hcursor]
  by_cases hless : height < s.height
  · have htail := blankTail_le lines (s.cursor.row + 1)
    have hnone : min (height - s.height) s.history.length = 0 := by omega
    rw [if_pos hless, sub_eq (Nat.le_of_lt hless), Option.bind_eq_bind, Option.bind_some,
      trimChecked_eq, Option.bind_eq_bind, Option.bind_some, hnone, ite_self]
    dsimp only
    have hleft : min (s.height - height - min (s.height - height)
        (blankTail lines (s.cursor.row + 1))) s.cursor.row ≤
        (lines.take (lines.length - min (s.height - height)
          (blankTail lines (s.cursor.row + 1)))).length := by
      rw [List.length_take]
      omega
    rw [slice_eq (Nat.zero_le _) hleft, Option.bind_eq_bind, Option.bind_some,
      sub_eq (Nat.min_le_right _ _)]
    rfl
  · have hnone : s.height - height = 0 := by omega
    rw [if_neg hless, hnone, Nat.zero_min, Nat.zero_sub, Nat.zero_min, Nat.sub_zero]
    by_cases hmore : s.height < height
    · rw [if_pos hmore, sub_eq (Nat.le_of_lt hmore), Option.bind_eq_bind, Option.bind_some]
      have hpulled : (if s.kind = .primary then min (height - s.height) s.history.length else 0) ≤
          height - s.height := by
        split
        · exact Nat.min_le_left _ _
        · exact Nat.zero_le _
      generalize (if s.kind = .primary then min (height - s.height) s.history.length else 0) =
        pulled at hpulled
      rw [sub_eq hpulled, to16_eq (show pulled < 65536 by omega), Option.bind_some,
        Option.bind_some, add16_eq (show s.cursor.row + pulled < 65536 by omega)]
      rfl
    · have hsame : height - s.height = 0 := by omega
      rw [if_neg hmore, hsame, Nat.zero_min, ite_self]
      rfl

/-- Every row finds its cells at another width. -/
theorem mapM_resizedChecked (lines : List Row) (width : Nat) (r : Rendition) :
    lines.mapM (·.resizedChecked width r) = some (lines.map (·.resized width r)) :=
  mapM_eq fun row _ => Row.resizedChecked_eq row width r

theorem historyAtChecked_eq (s : Screen) (width : Nat) :
    s.historyAtChecked width = some (s.historyAt width) := by
  unfold historyAtChecked historyAt
  split
  · rfl
  · rw [mapM_resizedChecked]
    rfl

theorem resizeChecked_eq (h : s.Sound P kind rows cols) {height : Nat} (hheight : height < 65536)
    (width : Nat) : s.resizeChecked height width = some (s.resize height width) := by
  have hlines : (s.grid.rows.map (·.resized width s.eraser)).length = rows := by
    rw [List.length_map, h.height]
  unfold resizeChecked
  rw [mapM_resizedChecked, historyAtChecked_eq, Option.bind_eq_bind, Option.bind_some,
    Option.bind_eq_bind, Option.bind_some, reflowChecked_eq h hheight hlines]
  rfl

end Screen

end VideoTerminal
