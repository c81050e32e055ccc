import VideoTerminal.Proofs.Row.Pieces
/-!
# Where the cells of an edited row come from

Edited as a plain array, a row keeps some of its cells, each at a column of its
own, and has others put in (`Edit.plain`). The same edit of the numbers of its
columns says which cells those are (`Edit.origins`). An edit of the row has to do
that and one thing more: a half of a wide glyph that it keeps without the other
half beside it becomes a blank.

Every edit puts a row together from a stretch at the start of the old one, new
cells, a stretch from behind them, and new cells at the end (`Seams`). What is
kept, what is torn and what stays paired is shown of such rows once.
-/

namespace VideoTerminal

namespace Row

/-- An edit of the cells of a row. -/
inductive Edit where
  /-- Write a glyph at a column. -/
  | write (col : Nat) (glyph : Char)
  /-- Insert so many blanks at a column. -/
  | insertBlanks (col count : Nat)
  /-- Delete so many cells at a column. -/
  | deleteCells (col count : Nat)
  /-- Blank the cells from one column up to another. -/
  | blankRange (start stop : Nat)
  deriving DecidableEq, Repr

namespace Edit

section Spec

variable [Glyph.Widths] {α : Type}

/-- The edit of a row. -/
def run (edit : Edit) (r : Rendition) (row : Row) : Row :=
  match edit with
  | .write col glyph => row.write col glyph r
  | .insertBlanks col count => row.insertBlanks col count r
  | .deleteCells col count => row.deleteCells col count r
  | .blankRange start stop => row.blankRange start stop r

/-- The edit of a plain array, which knows nothing of glyphs: overwrite, shift
right, shift left, or blank. What leaves the array is lost, and gaps are
blank. -/
def plain (edit : Edit) (r : Rendition) (fresh : Cell → α) (cells : List α) : List α :=
  match edit with
  | .write col glyph =>
    if Glyph.width glyph = 0 ∨ cells.length < col + Glyph.width glyph then cells
    else cells.take col ++ (Cell.halves (Glyph.width glyph) glyph r).map fresh ++
      cells.drop (col + Glyph.width glyph)
  | .insertBlanks col count =>
    (cells.take col ++ List.replicate count (fresh (Cell.blank r)) ++
      cells.drop col).take cells.length
  | .deleteCells col count =>
    (cells.take col ++ cells.drop (col + count) ++
      List.replicate count (fresh (Cell.blank r))).take cells.length
  | .blankRange start stop =>
    cells.mapIdx fun i c => if start ≤ i ∧ i < stop then fresh (Cell.blank r) else c

/-- For each column of the edited row the column at which its cell stood, if it
stood in the row before. -/
def origins (edit : Edit) (r : Rendition) (cols : Nat) : List (Option Nat) :=
  edit.plain r (fun _ => none) ((List.range cols).map some)

end Spec

/-- The rendition of the blanks that take the place of torn glyphs. -/
def eraser (edit : Edit) (r : Rendition) : Rendition :=
  match edit with
  | .write _ _ => r.blank
  | _ => r

end Edit

/-- The cell at column `i` is kept, and stands at column `j`. -/
def Keeps (origins : List (Option Nat)) (i j : Nat) : Prop :=
  origins[j]? = some (some i)

instance (origins : List (Option Nat)) (i j : Nat) : Decidable (Keeps origins i j) :=
  inferInstanceAs (Decidable (origins[j]? = some (some i)))

/-- The cell kept from column `i` is a half of a wide glyph, and the other half
is not kept beside it. -/
structure Tears (row : Row) (origins : List (Option Nat)) (i j : Nat) : Prop where
  keeps : Keeps origins i j
  half : (row.leadAt i = true ∧ ¬ Keeps origins (i + 1) (j + 1)) ∨
    (row.trailAt i = true ∧ ∀ i' j', i = i' + 1 → j = j' + 1 → ¬ Keeps origins i' j')

/-- A row in which exactly what must change has changed: `cells` are those of the
plain array, and `origins` say where they come from. -/
structure Exact (row : Row) (origins : List (Option Nat)) (cells : List Cell)
    (eraser : Rendition) (edited : Row) : Prop where
  /-- The width is kept. -/
  cols : edited.cols = row.cols
  /-- A half of a glyph that is torn becomes a blank. -/
  torn : ∀ i j, row.Tears origins i j → edited.cells[j]? = some (Cell.blank eraser)
  /-- Every other cell that is kept is the one that it was. -/
  kept : ∀ i j, Keeps origins i j → ¬ row.Tears origins i j →
    edited.cells[j]? = row.cells[i]?
  /-- All but the torn halves are the cells of the plain array. -/
  plain : ∀ j, (∀ i, ¬ row.Tears origins i j) → edited.cells[j]? = cells[j]?
  /-- Halves still stand beside each other. -/
  paired : Paired edited.cells

/-! ## Seams -/

/-- How a row is put together from pieces of another: a stretch from its start,
new cells, a stretch from somewhere else, and new cells again. -/
structure Seams where
  start : Nat
  put : List Cell
  source : Nat
  length : Nat
  fill : List Cell

namespace Seams

/-- The pieces lie in the row and fill another one of its width. The two stretches
do not follow on each other, unless the first is the whole row. -/
structure Fits (s : Seams) (cols : Nat) : Prop where
  width : s.start + s.put.length + s.length + s.fill.length = cols
  source : s.source + s.length ≤ cols
  apart : s.put = [] → s.start = s.source → s.start = cols
  put : Paired s.put
  fill : Paired s.fill

/-- The pieces as they are. -/
def plain {α : Type} (s : Seams) (fresh : Cell → α) (cells : List α) : List α :=
  cells.take s.start ++ s.put.map fresh ++ (cells.drop s.source).take s.length ++ s.fill.map fresh

/-- The pieces, mended where they were cut. -/
def mended (s : Seams) (e : Rendition) (cells : List Cell) : List Cell :=
  mendLast e (cells.take s.start) ++ s.put ++
    mendLast e (mendHead e ((cells.drop s.source).take s.length)) ++ s.fill

/-! ### The cell at a column

A column lies in one of the four pieces. -/

section Columns

variable {s : Seams} {cols : Nat}

theorem column_cases (s : Seams) (j : Nat) :
    j < s.start ∨ (∃ k, k < s.put.length ∧ j = s.start + k) ∨
      (∃ k, k < s.length ∧ j = s.start + s.put.length + k) ∨
        ∃ k, j = s.start + s.put.length + s.length + k := by
  obtain h | h | h | h : j < s.start ∨ (s.start ≤ j ∧ j < s.start + s.put.length) ∨
      (s.start + s.put.length ≤ j ∧ j < s.start + s.put.length + s.length) ∨
        s.start + s.put.length + s.length ≤ j := by omega
  · exact .inl h
  · exact .inr (.inl ⟨j - s.start, by omega, by omega⟩)
  · exact .inr (.inr (.inl ⟨j - (s.start + s.put.length), by omega, by omega⟩))
  · exact .inr (.inr (.inr ⟨j - (s.start + s.put.length + s.length), by omega⟩))

section Pieces

variable {α : Type} {w x y z : List α} {m k : Nat}

theorem getElem?_first (h : k < w.length) : (w ++ x ++ y ++ z)[k]? = w[k]? := by
  rw [List.append_assoc, List.append_assoc, List.getElem?_append_left h]

theorem getElem?_second (hm : w.length = m) (h : k < x.length) :
    (w ++ x ++ y ++ z)[m + k]? = x[k]? := by
  rw [List.append_assoc, List.append_assoc, List.getElem?_append_right (by omega), hm,
    Nat.add_sub_cancel_left, List.getElem?_append_left h]

theorem getElem?_third (hm : (w ++ x).length = m) (h : k < y.length) :
    (w ++ x ++ y ++ z)[m + k]? = y[k]? := by
  rw [List.append_assoc, List.getElem?_append_right (by omega), hm, Nat.add_sub_cancel_left,
    List.getElem?_append_left h]

theorem getElem?_fourth (hm : (w ++ x ++ y).length = m) : (w ++ x ++ y ++ z)[m + k]? = z[k]? := by
  rw [List.getElem?_append_right (by omega), hm, Nat.add_sub_cancel_left]

end Pieces

namespace Fits

variable (h : s.Fits cols)

include h

theorem length_first {α : Type} {cells : List α} (hlen : cells.length = cols) :
    (cells.take s.start).length = s.start := by
  have hwidth := h.width
  rw [List.length_take]
  omega

theorem length_third {α : Type} {cells : List α} (hlen : cells.length = cols) :
    ((cells.drop s.source).take s.length).length = s.length := by
  have hsource := h.source
  rw [List.length_take, List.length_drop]
  omega

section Plain

variable {α : Type} {cells : List α} (fresh : Cell → α) (hlen : cells.length = cols)

include hlen

theorem plain_first {k : Nat} (hk : k < s.start) : (s.plain fresh cells)[k]? = cells[k]? := by
  have hfirst := h.length_first hlen
  rw [Seams.plain, getElem?_first (by omega), List.getElem?_take_of_lt hk]

theorem plain_second {k : Nat} (hk : k < s.put.length) :
    (s.plain fresh cells)[s.start + k]? = s.put[k]?.map fresh := by
  rw [Seams.plain, getElem?_second (h.length_first hlen) (by rwa [List.length_map]),
    List.getElem?_map]

theorem plain_third {k : Nat} (hk : k < s.length) :
    (s.plain fresh cells)[s.start + s.put.length + k]? = cells[s.source + k]? := by
  have hthird := h.length_third hlen
  rw [Seams.plain, getElem?_third (by rw [List.length_append, List.length_map, h.length_first hlen])
    (by omega), List.getElem?_take_of_lt hk, List.getElem?_drop]

theorem plain_fourth (k : Nat) :
    (s.plain fresh cells)[s.start + s.put.length + s.length + k]? = s.fill[k]?.map fresh := by
  rw [Seams.plain, getElem?_fourth (by rw [List.length_append, List.length_append, List.length_map,
    h.length_first hlen, h.length_third hlen]), List.getElem?_map]

end Plain

section Mended

variable {cells : List Cell} (e : Rendition) (hlen : cells.length = cols)

include hlen

theorem mended_first {k : Nat} (hk : k < s.start) :
    (s.mended e cells)[k]? =
      if k + 1 = s.start ∧ cells[k]?.any Cell.isLead = true then some (Cell.blank e)
      else cells[k]? := by
  have hfirst := h.length_first hlen
  rw [Seams.mended, getElem?_first (by rw [length_mendLast]; omega), getElem?_mendLast, hfirst,
    List.getElem?_take_of_lt hk]

theorem mended_second {k : Nat} (hk : k < s.put.length) :
    (s.mended e cells)[s.start + k]? = s.put[k]? := by
  rw [Seams.mended, getElem?_second (by rw [length_mendLast, h.length_first hlen]) hk]

theorem mended_fourth (k : Nat) :
    (s.mended e cells)[s.start + s.put.length + s.length + k]? = s.fill[k]? := by
  rw [Seams.mended, getElem?_fourth (by rw [List.length_append, List.length_append,
    length_mendLast, length_mendLast, length_mendHead, h.length_first hlen, h.length_third hlen])]

/-- The stretch behind the new cells is mended at both of its ends. -/
theorem mended_third (hpaired : Paired cells) {k : Nat} (hk : k < s.length) :
    (s.mended e cells)[s.start + s.put.length + k]? =
      if (k + 1 = s.length ∧ cells[s.source + k]?.any Cell.isLead = true) ∨
        (k = 0 ∧ cells[s.source + k]?.any Cell.isTrail = true) then some (Cell.blank e)
      else cells[s.source + k]? := by
  have hthird := h.length_third hlen
  have hsingle : ∀ c ∈ (cells.drop s.source).take s.length,
      ¬ (c.isLead = true ∧ c.isTrail = true) := fun c hc =>
    hpaired.single c (List.mem_of_mem_drop (List.mem_of_mem_take hc))
  have hcell : ((cells.drop s.source).take s.length)[k]? = cells[s.source + k]? := by
    rw [List.getElem?_take_of_lt hk, List.getElem?_drop]
  rw [Seams.mended, getElem?_third (by rw [List.length_append, length_mendLast,
    h.length_first hlen]) (by rw [length_mendLast, length_mendHead]; omega), getElem?_mendLast,
    lead_mendHead hsingle, length_mendHead, hthird, getElem?_mendHead, hcell]
  by_cases hlead : k + 1 = s.length ∧ cells[s.source + k]?.any Cell.isLead = true
  · rw [if_pos hlead, if_pos (.inl hlead)]
  · simp only [hlead, false_or, if_false]

end Mended

end Fits

end Columns

/-! ### What the pieces keep -/

/-- The columns that the cells of a row of pieces come from. -/
def origins (s : Seams) (cols : Nat) : List (Option Nat) :=
  s.plain (fun _ => none) ((List.range cols).map some)

section Keeps

variable {s : Seams} {row : Row} (h : s.Fits row.cols)

include h

theorem Fits.keeps_column_iff (i j : Nat) :
    Keeps (s.origins row.cols) i j ↔
      (j < s.start ∧ i = j) ∨
        (s.start + s.put.length ≤ j ∧ j < s.start + s.put.length + s.length ∧
          i + (s.start + s.put.length) = s.source + j) := by
  have hlen : ((List.range row.cols).map some).length = row.cols := by
    rw [List.length_map, List.length_range]
  have hcell : ∀ n, n < row.cols → ((List.range row.cols).map some)[n]? = some (some n) := by
    intro n hn
    rw [List.getElem?_map, List.getElem?_range hn]
    rfl
  have hwidth := h.width
  have hsource := h.source
  unfold Keeps origins
  obtain hj | ⟨k, hk, rfl⟩ | ⟨k, hk, rfl⟩ | ⟨k, rfl⟩ := s.column_cases j
  · rw [h.plain_first _ hlen hj, hcell j (by omega), Option.some.injEq, Option.some.injEq]
    omega
  · rw [h.plain_second _ hlen hk, List.getElem?_eq_getElem hk]
    refine iff_of_false (fun hnone => by cases hnone) ?_
    omega
  · rw [h.plain_third _ hlen hk, hcell _ (by omega), Option.some.injEq, Option.some.injEq]
    omega
  · rw [h.plain_fourth _ hlen]
    refine iff_of_false ?_ ?_
    · cases s.fill[k]? <;> exact fun hnone => by cases hnone
    · omega

variable (e : Rendition) (hpaired : Paired row.cells)

include hpaired

/-- **A torn half becomes a blank**: it stands at an end of its stretch. -/
theorem Fits.mended_of_tears {i j : Nat} (ht : row.Tears (s.origins row.cols) i j) :
    (s.mended e row.cells)[j]? = some (Cell.blank e) := by
  obtain ⟨hkeeps, hhalf⟩ := ht
  simp only [h.keeps_column_iff] at hkeeps hhalf
  obtain ⟨hj, rfl⟩ | ⟨hfrom, hto, hi⟩ := hkeeps
  · obtain ⟨hlead, hnext⟩ | ⟨htrail, hprev⟩ := hhalf
    · rw [h.mended_first e rfl hj, if_pos ⟨by omega, hlead⟩]
    · -- a right half does not stand at the start of the row
      cases i with
      | zero => exact absurd htrail (Bool.eq_false_iff.1 hpaired.first)
      | succ i => exact absurd (.inl ⟨by omega, rfl⟩) (hprev i i rfl rfl)
  · obtain ⟨k, rfl⟩ := Nat.exists_eq_add_of_le hfrom
    obtain rfl : i = s.source + k := by omega
    rw [h.mended_third e rfl hpaired (by omega)]
    refine if_pos ?_
    obtain ⟨hlead, hnext⟩ | ⟨htrail, hprev⟩ := hhalf
    · exact .inl ⟨by omega, hlead⟩
    · refine .inr ⟨Nat.eq_zero_of_not_pos fun hk => ?_, htrail⟩
      exact hprev (s.source + k - 1) (s.start + s.put.length + k - 1) (by omega) (by omega)
        (.inr ⟨by omega, by omega, by omega⟩)

/-- **A half that is not torn stays as it was.** -/
theorem Fits.mended_of_keeps {i j : Nat} (hkeeps : Keeps (s.origins row.cols) i j)
    (ht : ¬ row.Tears (s.origins row.cols) i j) :
    (s.mended e row.cells)[j]? = row.cells[i]? := by
  have hwhole : ¬ ((row.leadAt i = true ∧ ¬ Keeps (s.origins row.cols) (i + 1) (j + 1)) ∨
      (row.trailAt i = true ∧ ∀ i' j', i = i' + 1 → j = j' + 1 →
        ¬ Keeps (s.origins row.cols) i' j')) := fun hhalf => ht ⟨hkeeps, hhalf⟩
  have hsource := h.source
  have hapart := h.apart
  rw [← List.length_eq_zero_iff] at hapart
  simp only [h.keeps_column_iff] at hkeeps hwhole
  obtain ⟨hj, rfl⟩ | ⟨hfrom, hto, hi⟩ := hkeeps
  · rw [h.mended_first e rfl hj]
    refine if_neg fun hlast => hwhole (.inl ⟨hlast.2, ?_⟩)
    omega
  · obtain ⟨k, rfl⟩ := Nat.exists_eq_add_of_le hfrom
    obtain rfl : i = s.source + k := by omega
    rw [h.mended_third e rfl hpaired (by omega)]
    refine if_neg ?_
    rintro (⟨hend, hlead⟩ | ⟨rfl, htrail⟩)
    · exact hwhole (.inl ⟨hlead, by omega⟩)
    · refine hwhole (.inr ⟨htrail, fun i' j' hi' hj' => ?_⟩)
      omega

omit hpaired in
/-- The cell that the plain array keeps is the one it was. -/
theorem Fits.plain_of_keeps {i j : Nat} (hkeeps : Keeps (s.origins row.cols) i j) :
    (s.plain id row.cells)[j]? = row.cells[i]? := by
  rw [h.keeps_column_iff] at hkeeps
  obtain ⟨hj, rfl⟩ | ⟨hfrom, hto, hi⟩ := hkeeps
  · exact h.plain_first id rfl hj
  · obtain ⟨k, rfl⟩ := Nat.exists_eq_add_of_le hfrom
    obtain rfl : i = s.source + k := by omega
    exact h.plain_third id rfl (by omega)

/-- All other cells are those of the plain array. -/
theorem Fits.mended_of_not_tears {j : Nat} (ht : ∀ i, ¬ row.Tears (s.origins row.cols) i j) :
    (s.mended e row.cells)[j]? = (s.plain id row.cells)[j]? := by
  obtain hj | ⟨k, hk, rfl⟩ | ⟨k, hk, rfl⟩ | ⟨k, rfl⟩ := s.column_cases j
  · have hkeeps := (h.keeps_column_iff j j).2 (.inl ⟨hj, rfl⟩)
    rw [h.mended_of_keeps e hpaired hkeeps (ht j), h.plain_of_keeps hkeeps]
  · rw [h.mended_second e rfl hk, h.plain_second id rfl hk, Option.map_id]
    rfl
  · have hkeeps := (h.keeps_column_iff (s.source + k) (s.start + s.put.length + k)).2
      (.inr ⟨by omega, by omega, by omega⟩)
    rw [h.mended_of_keeps e hpaired hkeeps (ht _), h.plain_of_keeps hkeeps]
  · rw [h.mended_fourth e rfl, h.plain_fourth id rfl, Option.map_id]
    rfl

theorem Fits.paired_mended : Paired (s.mended e row.cells) := by
  have hthird := (hpaired.mendHead_drop e s.source).mendLast_take e s.length
  rw [take_mendHead] at hthird
  exact (((hpaired.mendLast_take e s.start).append h.put).append hthird).append h.fill

/-- **A row of mended pieces has changed as it must.** -/
theorem Fits.exact {edited : Row} (hcells : edited.cells = s.mended e row.cells) :
    row.Exact (s.origins row.cols) (s.plain id row.cells) e edited where
  cols := by
    rw [cols, hcells, mended]
    simp only [List.length_append, length_mendLast, length_mendHead,
      h.length_first (rfl : row.cells.length = row.cols),
      h.length_third (rfl : row.cells.length = row.cols)]
    exact h.width
  torn _ _ ht := hcells ▸ h.mended_of_tears e hpaired ht
  kept _ _ hkeeps ht := hcells ▸ h.mended_of_keeps e hpaired hkeeps ht
  plain _ ht := hcells ▸ h.mended_of_not_tears e hpaired ht
  paired := hcells ▸ h.paired_mended e hpaired

end Keeps

end Seams

/-! ## The edits -/

namespace Edit

section Seams

variable [Glyph.Widths] {row : Row}

/-- The pieces that an edit puts a row together from. -/
structure CutBy (edit : Edit) (r : Rendition) (row : Row) (s : Seams) : Prop where
  fits : s.Fits row.cols
  plain : ∀ {α : Type} (fresh : Cell → α) (cells : List α), cells.length = row.cols →
    edit.plain r fresh cells = s.plain fresh cells
  run : (edit.run r row).cells = s.mended (edit.eraser r) row.cells

theorem CutBy.exact {edit : Edit} {r : Rendition} {s : Seams} (h : edit.CutBy r row s)
    (hpaired : Paired row.cells) :
    row.Exact (edit.origins r row.cols) (edit.plain r id row.cells) (edit.eraser r)
      (edit.run r row) := by
  have horigins : edit.origins r row.cols = s.origins row.cols :=
    h.plain _ _ (by rw [List.length_map, List.length_range])
  rw [horigins, h.plain id row.cells rfl]
  exact h.fits.exact _ hpaired h.run

/-- Nothing is cut. -/
theorem cutBy_whole (h : Paired row.cells) {edit : Edit} {r : Rendition}
    (hplain : ∀ {α : Type} (fresh : Cell → α) (cells : List α), cells.length = row.cols →
      edit.plain r fresh cells = cells) (hrun : edit.run r row = row) :
    edit.CutBy r row ⟨row.cols, [], row.cols, 0, []⟩ where
  fits := ⟨rfl, Nat.le_refl _, fun _ _ => rfl, .nil, .nil⟩
  plain fresh cells hlen := by
    rw [hplain fresh cells hlen]
    simp only [Seams.plain, List.map_nil, List.append_nil, List.take_zero]
    exact (List.take_of_length_le (Nat.le_of_eq hlen)).symm
  run := by
    have hall : row.cells.take row.cols = row.cells := List.take_of_length_le (Nat.le_refl _)
    rw [hrun]
    simp only [Seams.mended, List.append_nil, List.take_zero, mendHead, mendLast, hall]
    exact (h.mendLast_eq _).symm

omit [Glyph.Widths] in
/-- A stretch from a column to the end of the row. -/
theorem take_rest {α : Type} {cells : List α} {cols : Nat} (hlen : cells.length = cols)
    (col : Nat) : (cells.drop col).take (cols - col) = cells.drop col := by
  refine List.take_of_length_le ?_
  rw [List.length_drop]
  omega

omit [Glyph.Widths] in
/-- It ends where the row does, and so needs no mending there. -/
theorem mendLast_rest (h : Paired row.cells) (e : Rendition) (col : Nat) :
    mendLast e (mendHead e ((row.cells.drop col).take (row.cols - col))) =
      mendHead e (row.cells.drop col) := by
  rw [take_rest (show row.cells.length = row.cols from rfl), (h.mendHead_drop e col).mendLast_eq]

theorem cutBy_write (h : Paired row.cells) (r : Rendition) {col : Nat} {glyph : Char}
    (hroom : row.room col glyph ≠ 0) :
    (Edit.write col glyph).CutBy r row ⟨col, Cell.halves (Glyph.width glyph) glyph r,
      col + Glyph.width glyph, row.cols - (col + Glyph.width glyph), []⟩ := by
  have hfits := mt (room_eq_zero_iff row col glyph).2 hroom
  have hlength : (Cell.halves (Glyph.width glyph) glyph r).length = Glyph.width glyph :=
    Cell.length_halves r fun hzero => hfits (.inl hzero)
  refine ⟨⟨?_, ?_, fun hnil => ?_, .halves _ _ _, .nil⟩, fun fresh cells hlen => ?_, ?_⟩
  · simp only [hlength, List.length_nil]
    omega
  · simp only
    omega
  · have hzero := (congrArg List.length hnil).symm.trans hlength
    exact absurd (.inl hzero.symm) hfits
  · simp only [Edit.plain, Seams.plain, hlen, take_rest hlen, if_neg hfits, List.map_nil,
      List.append_nil]
  · simp only [Seams.mended, mendLast_rest h, List.append_nil]
    exact cells_write r h hroom

theorem cutBy_insertBlanks (h : Paired row.cells) (r : Rendition) {col count n : Nat}
    (hcol : col < row.cols) (hcount : count ≠ 0) (hn : n = min count (row.cols - col)) :
    (Edit.insertBlanks col count).CutBy r row
      ⟨col, List.replicate n (Cell.blank r), col, row.cols - col - n, []⟩ := by
  refine ⟨⟨?_, ?_, fun hnil => ?_, .replicate _ _, .nil⟩, fun fresh cells hlen => ?_, ?_⟩
  · simp only [List.length_replicate, List.length_nil]
    omega
  · simp only
    omega
  · have hzero := (List.replicate_eq_nil_iff _).1 hnil
    omega
  · have hfirst : min col row.cols = col := by omega
    have hblanks : min (row.cols - col) count = n := by omega
    have hrest : row.cols - (col + count) = row.cols - col - n := by omega
    simp only [Edit.plain, Seams.plain, List.take_append, List.take_take, List.take_replicate,
      List.length_append, List.length_take, List.length_replicate, hlen, List.map_replicate,
      List.map_nil, List.append_nil, hfirst, Nat.min_comm row.cols col, hblanks, hrest]
  · simp only [Seams.mended, List.append_nil]
    exact cells_insertBlanks r h hcol hcount hn

theorem cutBy_deleteCells (h : Paired row.cells) (r : Rendition) {col count n : Nat}
    (hcol : col < row.cols) (hcount : count ≠ 0) (hn : n = min count (row.cols - col)) :
    (Edit.deleteCells col count).CutBy r row
      ⟨col, [], col + n, row.cols - (col + n), List.replicate n (Cell.blank r)⟩ := by
  refine ⟨⟨?_, ?_, fun _ happ => ?_, .nil, .replicate _ _⟩, fun fresh cells hlen => ?_, ?_⟩
  · simp only [List.length_replicate, List.length_nil]
    omega
  · simp only
    omega
  · simp only at happ
    omega
  · -- a count that reaches over the margin drops no more than one that reaches it
    have hdrop : cells.drop (col + count) = cells.drop (col + n) := by
      obtain rfl | hover : n = count ∨ row.cols ≤ col + n := by omega
      · rfl
      · rw [List.drop_eq_nil_of_le (by omega), List.drop_eq_nil_of_le (by omega)]
    have hfirst : min col row.cols = col := by omega
    have hall : (cells.drop (col + n)).take (row.cols - col) = cells.drop (col + n) := by
      refine List.take_of_length_le ?_
      rw [List.length_drop]
      omega
    have hblanks : min (row.cols - (col + (row.cols - (col + n)))) count = n := by omega
    simp only [Edit.plain, Seams.plain, take_rest hlen, List.take_append, List.take_take,
      List.take_replicate, List.length_append, List.length_take, List.length_drop, hlen, hdrop,
      List.map_replicate, List.map_nil, List.append_nil, hfirst, Nat.min_comm row.cols col, hall,
      hblanks]
  · simp only [Seams.mended, mendLast_rest h, List.append_nil]
    exact cells_deleteCells r h hcol hcount hn

theorem cutBy_blankRange (h : Paired row.cells) (r : Rendition) {start stop : Nat}
    (hlt : min start row.cols < min stop row.cols) :
    (Edit.blankRange start stop).CutBy r row
      ⟨min start row.cols, List.replicate (min stop row.cols - min start row.cols) (Cell.blank r),
        min stop row.cols, row.cols - min stop row.cols, []⟩ := by
  have hfits : Seams.Fits ⟨min start row.cols,
      List.replicate (min stop row.cols - min start row.cols) (Cell.blank r),
      min stop row.cols, row.cols - min stop row.cols, []⟩ row.cols := by
    refine ⟨?_, ?_, fun hnil => ?_, .replicate _ _, .nil⟩
    · simp only [List.length_replicate, List.length_nil]
      omega
    · simp only
      omega
    · have hzero := (List.replicate_eq_nil_iff _).1 hnil
      omega
  refine ⟨hfits, fun fresh cells hlen => ?_, ?_⟩
  · refine List.ext_getElem? fun j => ?_
    simp only [Edit.plain, List.getElem?_mapIdx]
    obtain hj | ⟨k, hk, rfl⟩ | ⟨k, hk, rfl⟩ | ⟨k, rfl⟩ := Seams.column_cases
      ⟨min start row.cols, List.replicate (min stop row.cols - min start row.cols) (Cell.blank r),
        min stop row.cols, row.cols - min stop row.cols, []⟩ j
    · rw [hfits.plain_first fresh hlen hj]
      simp only at hj
      rw [List.getElem?_eq_getElem (by omega), Option.map_some, if_neg (by omega)]
    · rw [hfits.plain_second fresh hlen hk]
      simp only [List.length_replicate] at hk ⊢
      rw [List.getElem?_eq_getElem (by omega), Option.map_some, if_pos (by omega),
        List.getElem?_replicate_of_lt hk, Option.map_some]
    · rw [hfits.plain_third fresh hlen hk]
      simp only [List.length_replicate] at hk ⊢
      have hcol : min start row.cols + (min stop row.cols - min start row.cols) + k =
          min stop row.cols + k := by omega
      rw [hcol, List.getElem?_eq_getElem (by omega), Option.map_some, if_neg (by omega)]
    · rw [hfits.plain_fourth fresh hlen]
      simp only [List.length_replicate, List.getElem?_nil, Option.map_none]
      rw [List.getElem?_eq_none (by omega), Option.map_none]
  · simp only [Seams.mended, mendLast_rest h, List.append_nil]
    exact cells_blankRange r h hlt

end Seams

section Idle

/-! ### Edits that change nothing -/

variable [Glyph.Widths] {α : Type} {fresh : Cell → α} {cells : List α} {r : Rendition}
  {col count : Nat}

theorem plain_insertBlanks_eq (h : cells.length ≤ col ∨ count = 0) :
    (Edit.insertBlanks col count).plain r fresh cells = cells := by
  simp only [Edit.plain]
  obtain hcol | rfl := h
  · rw [List.take_of_length_le hcol, List.append_assoc, List.take_left]
  · rw [List.replicate_zero, List.append_nil, List.take_append_drop, List.take_length]

theorem plain_deleteCells_eq (h : cells.length ≤ col ∨ count = 0) :
    (Edit.deleteCells col count).plain r fresh cells = cells := by
  simp only [Edit.plain]
  obtain hcol | rfl := h
  · rw [List.take_of_length_le hcol, List.append_assoc, List.take_left]
  · rw [List.replicate_zero, List.append_nil, Nat.add_zero, List.take_append_drop,
      List.take_length]

theorem plain_blankRange_eq {start stop : Nat}
    (h : ¬ min start cells.length < min stop cells.length) :
    (Edit.blankRange start stop).plain r fresh cells = cells := by
  refine List.ext_getElem? fun j => ?_
  simp only [Edit.plain, List.getElem?_mapIdx]
  by_cases hj : j < cells.length
  · rw [List.getElem?_eq_getElem hj, Option.map_some, if_neg (by omega)]
  · rw [List.getElem?_eq_none (by omega), Option.map_none]

end Idle

/-- Every edit puts the row together from pieces of it. -/
theorem exists_cutBy [Glyph.Widths] {row : Row} (h : Paired row.cells) (edit : Edit)
    (r : Rendition) : ∃ s : Seams, edit.CutBy r row s := by
  cases edit with
  | write col glyph =>
    by_cases hroom : row.room col glyph = 0
    · refine ⟨_, cutBy_whole h (fun fresh cells hlen => ?_) (write_eq_self r hroom)⟩
      rw [room_eq_zero_iff, ← hlen] at hroom
      exact if_pos hroom
    · exact ⟨_, cutBy_write h r hroom⟩
  | insertBlanks col count =>
    by_cases hout : row.cols ≤ col ∨ count = 0
    · exact ⟨_, cutBy_whole h (fun fresh cells hlen => plain_insertBlanks_eq (hlen ▸ hout))
        (insertBlanks_eq_self r hout)⟩
    · exact ⟨_, cutBy_insertBlanks h r (by omega) (by omega) rfl⟩
  | deleteCells col count =>
    by_cases hout : row.cols ≤ col ∨ count = 0
    · exact ⟨_, cutBy_whole h (fun fresh cells hlen => plain_deleteCells_eq (hlen ▸ hout))
        (deleteCells_eq_self r hout)⟩
    · exact ⟨_, cutBy_deleteCells h r (by omega) (by omega) rfl⟩
  | blankRange start stop =>
    by_cases hlt : min start row.cols < min stop row.cols
    · exact ⟨_, cutBy_blankRange h r hlt⟩
    · exact ⟨_, cutBy_whole h (fun fresh cells hlen => plain_blankRange_eq (hlen ▸ hlt))
        (blankRange_eq_self r hlt)⟩

/-! ## What every edit changes -/

/-- **An edit of a row changes exactly what it must**: the row becomes what the
plain array does, but for the halves that are torn from their other half, which
become blanks, and halves stand beside each other as before. A glyph that has no
width or does not fit is not written at all, and takes no column. -/
theorem exact_of_paired [Glyph.Widths] {row : Row} (h : Paired row.cells) (r : Rendition) :
    (∀ edit : Edit, row.Exact (edit.origins r row.cols) (edit.plain r id row.cells)
      (edit.eraser r) (edit.run r row)) ∧
    ∀ col glyph,
      if Glyph.width glyph = 0 ∨ row.cols < col + Glyph.width glyph
      then row.room col glyph = 0 ∧ row.write col glyph r = row
      else row.room col glyph = Glyph.width glyph := by
  refine ⟨fun edit => ?_, fun col glyph => ?_⟩
  · obtain ⟨s, hs⟩ := edit.exists_cutBy h r
    exact hs.exact h
  · split
    · rename_i hout
      have hroom := (room_eq_zero_iff row col glyph).2 hout
      exact ⟨hroom, write_eq_self r hroom⟩
    · rename_i hfits
      exact (room_eq_width (mt (room_eq_zero_iff row col glyph).1 hfits)).1

attribute [local instance] Glyph.unicode

/-- Of two wide glyphs side by side the halves that touch are deleted. The other
two are beside each other then, and both are blank. -/
theorem exact_of_paired_halves :
    let row : Row := ⟨Cell.halves 2 '\u3042' {} ++ Cell.halves 2 '\u3044' {} ++
      [Cell.ofGlyph 'x' {}], .hard 5⟩
    Paired row.cells ∧ (row.deleteCells 1 2 {}).cells[0]? = some (Cell.blank {}) ∧
      (row.deleteCells 1 2 {}).cells[1]? = some (Cell.blank {}) ∧
      (row.deleteCells 1 2 {}).cells[2]? = row.cells[4]? := by
  intro row
  have hpaired : Paired row.cells :=
    ((Paired.halves 2 '\u3042' {}).append (.halves 2 '\u3044' {})).append (.ofGlyph 'x' {})
  have hexact := (exact_of_paired hpaired {}).1 (.deleteCells 1 2)
  refine ⟨hpaired, hexact.torn 0 0 ⟨rfl, .inl ⟨rfl, by decide⟩⟩,
    hexact.torn 3 1 ⟨rfl, .inr ⟨rfl, ?_⟩⟩, hexact.kept 4 2 rfl ?_⟩
  · rintro _ _ ⟨⟩ ⟨⟩
    decide
  · rintro ⟨-, ⟨hlead, -⟩ | ⟨htrail, -⟩⟩
    · cases hlead
    · cases htrail

end Edit

end Row
end VideoTerminal
