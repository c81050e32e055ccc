import VideoTerminal.Proofs.Checked.Row
import VideoTerminal.TabStops
/-!
# Tab stops on a machine

A tab to the right looks for the next stop from the next column on, stop by
stop. In a table of at most 65535 columns that column is a number of 16 bits.
To the left no column is computed.
-/

namespace VideoTerminal

namespace TabStops

open Checked

variable {t : TabStops}

/-- The nearest stop to the right of a column, looked for from the next column
on. -/
def nextStopChecked (t : TabStops) (col : Nat) : Option (Option Nat) := do
  let first ← add16 col 1
  pure ((List.range' first (t.cols - first)).find? t.isSet)

/-- The nearest stop to the left of a column. -/
def previousStopChecked (t : TabStops) (col : Nat) : Option (Option Nat) :=
  pure (t.previousStop? col)

/-- So many searches, to the edge if one of them finds nothing. -/
def walkChecked (search : Nat → Option (Option Nat)) (edge : Nat) : Nat → Nat → Option Nat
  | 0, col => pure col
  | n + 1, col => do
    match ← search col with
    | some stop => walkChecked search edge n stop
    | none => pure edge

/-- The column reached over a number of stops. -/
def advanceChecked (t : TabStops) (col : Nat) (count : Int) : Option Nat :=
  let last := t.cols - 1
  let col := min col last
  match count with
  | .ofNat n => walkChecked t.nextStopChecked last n col
  | .negSucc n => walkChecked t.previousStopChecked 0 (n + 1) col

/-- A search to the right stays in the table. -/
theorem nextStop?_le {col stop : Nat} (h : t.nextStop? col = some stop) : stop ≤ t.cols - 1 := by
  have hrange := List.mem_range'_1.1 (List.mem_of_find?_eq_some h)
  omega

/-- A search to the left stays to the left. -/
theorem previousStop?_le {col stop : Nat} (h : t.previousStop? col = some stop) : stop ≤ col := by
  have hmem := List.mem_reverse.1 (List.mem_of_find?_eq_some h)
  exact Nat.le_of_lt (List.mem_range.1 hmem)

theorem nextStopChecked_eq (hsize : t.cols < 65536) {col : Nat} (hcol : col ≤ t.cols - 1) :
    t.nextStopChecked col = some (t.nextStop? col) := by
  unfold nextStopChecked
  rw [add16_eq (by omega)]
  rfl

/-- A walk is carried out if each of its searches is. The searches start in the
table, since they end there. -/
theorem walkChecked_eq {searchChecked : Nat → Option (Option Nat)} {search : Nat → Option Nat}
    {last : Nat} (heq : ∀ col ≤ last, searchChecked col = some (search col))
    (hstays : ∀ col ≤ last, ∀ stop, search col = some stop → stop ≤ last) (edge n : Nat)
    {col : Nat} (hcol : col ≤ last) :
    walkChecked searchChecked edge n col = some (walk search edge n col) := by
  induction n generalizing col with
  | zero => rfl
  | succ n ih =>
    unfold walkChecked walk
    rw [heq col hcol, Option.bind_eq_bind, Option.bind_some]
    cases hsearch : search col with
    | none => rfl
    | some stop => exact ih (hstays col hcol stop hsearch)

theorem advanceChecked_eq (hsize : t.cols < 65536) (col : Nat) (count : Int) :
    t.advanceChecked col count = some (t.advance col count) := by
  have hcol : min col (t.cols - 1) ≤ t.cols - 1 := Nat.min_le_right _ _
  cases count with
  | ofNat n =>
    exact walkChecked_eq (fun col => nextStopChecked_eq hsize) (fun _ _ _ => nextStop?_le) _ n hcol
  | negSucc n =>
    exact walkChecked_eq (fun _ _ => rfl)
      (fun _ hcol _ h => Nat.le_trans (previousStop?_le h) hcol) 0 (n + 1) hcol

end TabStops

end VideoTerminal
