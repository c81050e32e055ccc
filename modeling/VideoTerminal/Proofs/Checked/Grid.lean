import VideoTerminal.Proofs.Checked.Row
import VideoTerminal.Proofs.Grid.Change
/-!
# Grids on a machine

A row of a grid is looked for in its place, and so is its mark. A scroll takes
its region from the grid as a piece, turns its rows round, and takes those that
come in at the other end as a piece again, to blank them. If there is a mark for
every row, no row, mark or piece is missing.
-/

namespace VideoTerminal

namespace Grid

open Checked

variable {g : Grid} {row start stop top bottom n : Nat} {r : Rendition}

/-- Change one row, which has to be there, and mark it. -/
def modifyRowChecked (g : Grid) (row : Nat) (f : Row → Option Row) : Option Grid := do
  let _ ← g.dirty[row]?
  let changed ← f (← g.rows[row]?)
  pure (g.modifyRow row fun _ => changed)

/-- Blank the rows from `start` up to `stop` one after the other, as far as
they lie in the grid. -/
def resetRowsChecked (g : Grid) (start stop : Nat) (r : Rendition) : Option Grid :=
  let stop := min stop g.height
  let start := min start stop
  (List.range' start (stop - start)).foldlM
    (fun g row => g.modifyRowChecked row fun line => pure (line.reset r)) g

/-- The rows after a region scrolled up: they turn round, and blank rows replace
those that come in at its bottom. -/
def rowsUpChecked (g : Grid) (top stop n : Nat) (r : Rendition) : Option (List Row) := do
  let turned ← within g.rows top stop (turnLeft n)
  within turned (← sub stop n) stop fun gone => pure (gone.map fun _ => Row.blank g.cols r)

/-- The rows after a region scrolled down: they turn round, and those that come in
at its top are blanked. -/
def rowsDownChecked (g : Grid) (top stop n : Nat) (r : Rendition) : Option (List Row) := do
  let turned ← within g.rows top stop (turnRight n)
  within turned top (top + n) fun gone => pure (gone.map (·.reset r))

/-- Scroll the region, cut to the grid, and mark its rows. -/
def scrollChecked (g : Grid) (up : Bool) (top bottom n : Nat) (r : Rendition) : Option Grid := do
  let last := min bottom (g.height - 1)
  if g.height = 0 ∨ last < top then pure g
  else
    let turns := min n (← add16 (← sub last top) 1)
    if turns = 0 then pure g
    else
      let rows ← if up then g.rowsUpChecked top (last + 1) turns r
        else g.rowsDownChecked top (last + 1) turns r
      let dirty ← within g.dirty top (last + 1) fun marks => pure (marks.map fun _ => true)
      pure { g with rows, dirty }

/-! ## Single rows -/

theorem modifyRowChecked_eq (hmarks : g.dirty.length = g.height) (hrow : row < g.height)
    {f : Row → Option Row} {f' : Row → Row} (hf : ∀ line ∈ g.rows, f line = some (f' line)) :
    g.modifyRowChecked row f = some (g.modifyRow row f') := by
  have hline : g.rows[row]? = some (g.rows[row]) := List.getElem?_eq_getElem hrow
  have hsame : g.rows.modify row (fun _ => f' g.rows[row]) = g.rows.modify row f' := by
    refine List.ext_getElem? fun i => ?_
    rw [List.getElem?_modify, List.getElem?_modify]
    by_cases hi : row = i
    · subst hi
      rw [hline]
      rfl
    · simp only [hi, ite_false]
  unfold modifyRowChecked modifyRow
  simp only [List.getElem?_eq_getElem (show row < g.dirty.length by omega), hline,
    hf _ (List.getElem_mem hrow), hsame, Option.bind_eq_bind, Option.bind_some]
  rfl

/-- One more row is blanked. -/
theorem resetRows_succ (g : Grid) (hle : start ≤ stop) (r : Rendition) :
    (g.resetRows start stop r).modifyRow stop (·.reset r) = g.resetRows start (stop + 1) r := by
  unfold resetRows modifyRow markRange
  dsimp only
  congr 1
  · refine List.ext_getElem? fun i => ?_
    rw [List.getElem?_modify, List.getElem?_mapIdx, List.getElem?_mapIdx]
    cases g.rows[i]? with
    | none => rfl
    | some line =>
      by_cases hi : stop = i
      · have hin : start ≤ i ∧ i < stop + 1 := by omega
        have hout : ¬ i < stop := by omega
        simp [hi, hin]
      · have hiff : i < stop ↔ i < stop + 1 := by omega
        simp [hi, hiff]
  · refine List.ext_getElem? fun i => ?_
    rw [List.getElem?_set, List.getElem?_mapIdx, List.getElem?_mapIdx, List.length_mapIdx]
    by_cases hi : stop = i
    · subst hi
      cases hmark : g.dirty[stop]? with
      | none => simp [List.getElem?_eq_none_iff.1 hmark]
      | some mark => simp [(List.getElem?_eq_some_iff.1 hmark).1, hle]
    · have hiff : i < stop ↔ i < stop + 1 := by omega
      simp [hi, hiff]

/-- Which rows are blanked is all that counts. -/
theorem resetRows_congr {start' stop' : Nat} (hmarks : g.dirty.length = g.height)
    (h : ∀ i < g.height, (start ≤ i ∧ i < stop) ↔ (start' ≤ i ∧ i < stop')) (r : Rendition) :
    g.resetRows start stop r = g.resetRows start' stop' r := by
  have hbool : ∀ i < g.height,
      (decide (start ≤ i) && decide (i < stop)) = (decide (start' ≤ i) && decide (i < stop')) := by
    intro i hi
    rw [Bool.eq_iff_iff]
    simpa using h i hi
  unfold resetRows markRange
  dsimp only
  congr 1
  · refine List.ext_getElem (by simp) fun i hi _ => ?_
    rw [List.length_mapIdx] at hi
    rw [List.getElem_mapIdx, List.getElem_mapIdx, hbool i hi]
  · refine List.ext_getElem (by simp) fun i hi _ => ?_
    rw [List.length_mapIdx, hmarks] at hi
    rw [List.getElem_mapIdx, List.getElem_mapIdx, hbool i hi]

/-- No row is blanked yet. -/
theorem resetRows_self (g : Grid) (start : Nat) (r : Rendition) :
    g.resetRows start start r = g := by
  have hnone : ∀ i, (decide (start ≤ i) && decide (i < start)) = false := by
    intro i
    rw [Bool.eq_false_iff]
    simp only [ne_eq, Bool.and_eq_true, decide_eq_true_eq]
    omega
  have hsame : ∀ {α : Type} (xs : List α), xs.mapIdx (fun _ x => x) = xs := fun xs =>
    List.ext_getElem (by simp) fun i _ _ => by rw [List.getElem_mapIdx]
  unfold resetRows markRange
  simp only [hnone, Bool.false_eq_true, ite_false, Bool.or_false, hsame]

/-- The loop that blanks rows one by one. -/
theorem foldlM_resetRow (hmarks : g.dirty.length = g.height) (hle : start + n ≤ g.height)
    (r : Rendition) :
    (List.range' start n).foldlM
      (fun g row => g.modifyRowChecked row fun line => some (line.reset r)) g =
        some (g.resetRows start (start + n) r) := by
  induction n with
  | zero => rw [Nat.add_zero, resetRows_self]; rfl
  | succ n ih =>
    have hheight := height_resetRows g start (start + n) r
    have hsome := length_dirty_resetRows g start (start + n) r
    rw [List.range'_1_concat, List.foldlM_append, ih (by omega)]
    change ((g.resetRows start (start + n) r).modifyRowChecked (start + n) _).bind pure = _
    rw [modifyRowChecked_eq (by omega) (by omega) fun _ _ => rfl,
      resetRows_succ g (Nat.le_add_right start n)]
    rfl

theorem resetRowsChecked_eq (hmarks : g.dirty.length = g.height) (start stop : Nat)
    (r : Rendition) : g.resetRowsChecked start stop r = some (g.resetRows start stop r) := by
  unfold resetRowsChecked
  dsimp only
  refine (foldlM_resetRow hmarks (by omega) r).trans (congrArg some ?_)
  -- outside the grid there is nothing to blank
  exact resetRows_congr hmarks (fun i hi => by omega) r

/-! ## Scrolling -/

/-- A region that does not reach the grid has no row to scroll. -/
theorem extent_eq_zero (h : g.height = 0 ∨ min bottom (g.height - 1) < top) :
    g.extent top bottom = 0 := by
  unfold extent
  omega

/-- The rows of a region turn round, and those that come in are replaced. -/
theorem rowsUpChecked_eq (hroom : top + n ≤ stop) (hstop : stop ≤ g.height) (r : Rendition) :
    g.rowsUpChecked top stop n r =
      some (onRange (onRange g.rows top stop (·.rotateLeft n)) (stop - n) stop
        (·.map fun _ => Row.blank g.cols r)) := by
  have hlength := length_onRange_rotateLeft hroom hstop
  unfold rowsUpChecked
  rw [within_turnLeft hroom hstop, Option.bind_eq_bind, Option.bind_some,
    sub_eq (show n ≤ stop by omega)]
  exact within_map (Nat.sub_le _ _) (Nat.le_trans hstop (Nat.le_of_eq hlength.symm)) _

theorem rowsDownChecked_eq (hroom : top + n ≤ stop) (hstop : stop ≤ g.height) (r : Rendition) :
    g.rowsDownChecked top stop n r =
      some (onRange (onRange g.rows top stop (·.rotateRight n)) top (top + n)
        (·.map (·.reset r))) := by
  have hlength := length_onRange_rotateRight hroom hstop
  unfold rowsDownChecked
  rw [within_turnRight hroom hstop, Option.bind_eq_bind, Option.bind_some]
  refine within_map (Nat.le_add_right _ _) ?_ _
  exact Nat.le_trans (Nat.le_trans hroom hstop) (Nat.le_of_eq hlength.symm)

/-- A range of marks, each of them set. -/
theorem onRange_marks (hle : start ≤ stop) (hstop : stop ≤ g.dirty.length) :
    onRange g.dirty start stop (·.map fun _ => true) = (g.markRange start stop).dirty := by
  have hlength : (g.dirty.take start).length = start := by
    rw [List.length_take]
    exact Nat.min_eq_left (Nat.le_trans hle hstop)
  unfold onRange markRange
  refine List.ext_getElem? fun i => ?_
  dsimp only
  rw [List.getElem?_mapIdx, List.append_assoc, List.getElem?_append, hlength,
    List.getElem?_append, List.getElem?_map]
  simp only [List.length_map, List.length_drop, List.length_take, List.getElem?_drop]
  split
  · -- before the range
    have hout : ¬ start ≤ i := by omega
    rw [List.getElem?_take_of_lt (by omega)]
    simp [hout]
  · split
    · have hin : start ≤ i ∧ i < stop := by omega
      rw [show start + (i - start) = i by omega, List.getElem?_take_of_lt hin.2]
      simp [hin]
    · -- behind it no mark moved
      have hout : ¬ i < stop := by omega
      rw [show stop + (i - start - (min stop g.dirty.length - start)) = i by omega]
      simp [hout]

/-- **A scroll finds all of its rows.** -/
theorem scrollChecked_eq (hmarks : g.dirty.length = g.height) (hsize : g.height < 65536)
    (up : Bool) (top bottom n : Nat) (r : Rendition) :
    g.scrollChecked up top bottom n r =
      some (if up then g.scrollUp top bottom n r else g.scrollDown top bottom n r) := by
  unfold scrollChecked
  dsimp only
  split
  · rename_i hnone
    have hzero : min n (g.extent top bottom) = 0 := by
      rw [extent_eq_zero hnone]
      exact Nat.min_zero n
    rw [scrollUp_eq_self hzero, scrollDown_eq_self hzero, ite_self]
    rfl
  · rename_i hsome
    have hextent : min bottom (g.height - 1) - top + 1 = g.extent top bottom := by
      unfold extent
      omega
    have hstop : top + g.extent top bottom = min bottom (g.height - 1) + 1 := by omega
    have hin : top + g.extent top bottom ≤ g.height := by omega
    simp only [sub_eq (show top ≤ min bottom (g.height - 1) by omega),
      add16_eq (show min bottom (g.height - 1) - top + 1 < 65536 by omega), hextent, ← hstop,
      Option.bind_eq_bind, Option.bind_some]
    unfold scrollUp scrollDown
    dsimp only
    by_cases hzero : min n (g.extent top bottom) = 0
    · rw [if_pos hzero, if_pos hzero, if_pos hzero, ite_self]
      rfl
    · have hroom : top + min n (g.extent top bottom) ≤ top + g.extent top bottom := by omega
      rw [if_neg hzero, if_neg hzero, if_neg hzero, rowsUpChecked_eq hroom hin,
        rowsDownChecked_eq hroom hin, within_map (Nat.le_add_right _ _) (hmarks.symm ▸ hin),
        onRange_marks (Nat.le_add_right _ _) (hmarks.symm ▸ hin)]
      cases up <;> rfl

end Grid

end VideoTerminal
