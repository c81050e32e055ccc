import VideoTerminal.Row.Basic
/-!
# History

Rows that left the primary screen at its top are kept up to a capacity.
When there is no place left, the oldest row goes.
-/

namespace VideoTerminal

/-- Rows from the oldest to the newest. -/
structure History where
  lines : List Row := []
  capacity : Nat := 0
  deriving DecidableEq, Repr, Inhabited

namespace History

/-- Number of rows kept. -/
def length (h : History) : Nat := h.lines.length

/-- One more row costs the oldest one. -/
def isFull (h : History) : Bool := 0 < h.capacity && h.capacity ≤ h.length

/-- The row that goes when one is pushed. -/
def evicted (h : History) : Option Row :=
  if h.isFull then h.lines.head? else none

/-- Keep a row as the newest one. Without capacity nothing is kept. -/
def push (h : History) (row : Row) : History :=
  if h.capacity = 0 then h
  else { h with lines := (if h.isFull then h.lines.tail else h.lines) ++ [row] }

/-- Keep rows one after the other. -/
def pushAll (h : History) (rows : List Row) : History :=
  rows.foldl push h

/-- Number of rows that go when as many as given are pushed. -/
def evictions (h : History) (count : Nat) : Nat :=
  if h.capacity = 0 then 0 else count - (h.capacity - h.length)

/-- Take back the newest row. -/
def popNewest (h : History) : History :=
  { h with lines := h.lines.dropLast }

/-- Another capacity. The oldest rows above it go. -/
def setCapacity (h : History) (capacity : Nat) : History :=
  ⟨h.lines.drop (h.length - capacity), capacity⟩

/-- Forget all rows. -/
def clear (h : History) : History :=
  { h with lines := [] }

/-- All rows at another width. -/
def resized (h : History) (cols : Nat) (r : Rendition) : History :=
  { h with lines := h.lines.map (·.resized cols r) }

/-! ## Bounds -/

@[simp] theorem capacity_push (h : History) (row : Row) : (h.push row).capacity = h.capacity := by
  unfold push
  split <;> rfl

/-- Pushing never exceeds the capacity. -/
theorem length_push_le {h : History} (row : Row) (hle : h.length ≤ h.capacity) :
    (h.push row).length ≤ (h.push row).capacity := by
  unfold push
  split
  · exact hle
  · unfold isFull length at *
    dsimp only
    split <;> simp_all <;> omega

@[simp] theorem capacity_pushAll (h : History) (rows : List Row) :
    (h.pushAll rows).capacity = h.capacity := by
  unfold pushAll
  induction rows generalizing h with
  | nil => rfl
  | cons row rows ih => rw [List.foldl_cons, ih, capacity_push]

/-- Pushing many rows never exceeds the capacity. -/
theorem length_pushAll_le {h : History} (rows : List Row) (hle : h.length ≤ h.capacity) :
    (h.pushAll rows).length ≤ (h.pushAll rows).capacity := by
  unfold pushAll
  induction rows generalizing h with
  | nil => exact hle
  | cons row rows ih => exact ih (length_push_le row hle)

end History

end VideoTerminal
