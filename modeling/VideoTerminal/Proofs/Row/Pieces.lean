import VideoTerminal.Proofs.Row.Law
/-!
# The pieces of an edited row

Every edit of a row is a cut or two: some cells are dropped or put in, and the
pieces that are left are joined. A half glyph on either side of a cut becomes a
blank (`mendLast`, `mendHead`). For rows in which every half of a glyph stands
beside the other one (`Paired`), each edit is said here by the pieces that it
puts together.
-/

namespace VideoTerminal

/-- The cells that a glyph of so many columns is put into. -/
def Cell.halves (span : Nat) (glyph : Char) (r : Rendition) : List Cell :=
  if span = 1 then [ofGlyph glyph r] else [leadOf glyph r, trailOf r]

theorem Cell.length_halves [Glyph.Widths] {glyph : Char} (r : Rendition)
    (h : Glyph.width glyph ≠ 0) :
    (halves (Glyph.width glyph) glyph r).length = Glyph.width glyph := by
  have htwo := Glyph.width_le_two glyph
  unfold halves
  split
  · rename_i hone
    exact hone.symm
  · simp only [List.length_cons, List.length_nil]
    omega

namespace Row

/-! ## Mending the ends of a piece -/

/-- A left half at the end becomes a blank. -/
def mendLast (r : Rendition) : List Cell → List Cell
  | [] => []
  | [c] => [if c.isLead then Cell.blank r else c]
  | c :: c' :: rest => c :: mendLast r (c' :: rest)

/-- A right half at the start becomes a blank. -/
def mendHead (r : Rendition) : List Cell → List Cell
  | [] => []
  | c :: rest => (if c.isTrail then Cell.blank r else c) :: rest

@[simp] theorem length_mendLast (r : Rendition) (cells : List Cell) :
    (mendLast r cells).length = cells.length := by
  fun_induction mendLast r cells with
  | case1 => rfl
  | case2 c => rfl
  | case3 c c' rest ih => rw [List.length_cons, ih]; rfl

@[simp] theorem length_mendHead (r : Rendition) (cells : List Cell) :
    (mendHead r cells).length = cells.length := by
  cases cells <;> rfl

/-- Only the last cell is ever mended. -/
theorem take_mendLast (r : Rendition) (cells : List Cell) {k : Nat} (h : k < cells.length) :
    (mendLast r cells).take k = cells.take k := by
  fun_induction mendLast r cells generalizing k with
  | case1 => rfl
  | case2 c =>
    obtain rfl : k = 0 := by
      rw [List.length_singleton] at h
      omega
    rfl
  | case3 c c' rest ih =>
    cases k with
    | zero => rfl
    | succ k =>
      have hk : k < (c' :: rest).length := by
        rw [List.length_cons] at h
        omega
      rw [List.take_succ_cons, List.take_succ_cons, ih hk]

theorem take_mendHead (r : Rendition) (cells : List Cell) (k : Nat) :
    (mendHead r cells).take k = mendHead r (cells.take k) := by
  cases cells with
  | nil => rw [mendHead, List.take_nil, mendHead]
  | cons c rest => cases k <;> rfl

theorem mendHead_append_replicate (r : Rendition) (cells : List Cell) (n : Nat) :
    mendHead r (cells ++ List.replicate n (Cell.blank r)) =
      mendHead r cells ++ List.replicate n (Cell.blank r) := by
  cases cells with
  | nil => cases n <;> rfl
  | cons c rest => rfl

/-- Mending the last cell is erasing it if it is a left half. -/
theorem mendLast_eq_set (r : Rendition) (cells : List Cell) :
    mendLast r cells =
      if cells[cells.length - 1]?.any Cell.isLead = true
      then cells.set (cells.length - 1) (Cell.blank r) else cells := by
  fun_induction mendLast r cells with
  | case1 => rfl
  | case2 c => cases h : c.isLead <;> simp [h]
  | case3 c c' rest ih =>
    rw [ih]
    simp only [List.length_cons, Nat.add_sub_cancel, List.getElem?_cons_succ, List.set_cons_succ]
    split <;> rfl

/-- A piece with no left half at its end is whole there. -/
theorem mendLast_of_last {cells : List Cell}
    (h : cells[cells.length - 1]?.any Cell.isLead = false) (r : Rendition) :
    mendLast r cells = cells := by
  rw [mendLast_eq_set, h]
  exact if_neg Bool.false_ne_true

theorem mendLast_replicate (r : Rendition) (n : Nat) :
    mendLast r (List.replicate n (Cell.blank r)) = List.replicate n (Cell.blank r) := by
  refine mendLast_of_last ?_ r
  rw [List.getElem?_replicate]
  split <;> rfl

/-- Of pieces put together the last one is mended, if it has a cell. -/
theorem mendLast_append_of {cells cells' : List Cell} {r : Rendition}
    (h : cells' = [] → mendLast r cells = cells) :
    mendLast r (cells ++ cells') = cells ++ mendLast r cells' := by
  cases cells' with
  | nil =>
    rw [List.append_nil, h rfl]
    exact (List.append_nil cells).symm
  | cons d rest =>
    induction cells with
    | nil => rfl
    | cons c cells ih =>
      have ih := ih fun hnil => by cases hnil
      cases cells with
      | nil => rfl
      | cons c' cells => exact congrArg (c :: ·) ih

/-! ### Cell by cell -/

theorem getElem?_mendLast (r : Rendition) (cells : List Cell) (i : Nat) :
    (mendLast r cells)[i]? =
      if i + 1 = cells.length ∧ cells[i]?.any Cell.isLead = true then some (Cell.blank r)
      else cells[i]? := by
  rw [mendLast_eq_set]
  by_cases hlead : cells[cells.length - 1]?.any Cell.isLead = true
  · have hpos : 0 < cells.length := by
      refine Nat.pos_of_ne_zero fun hzero => ?_
      rw [List.getElem?_eq_none (by omega)] at hlead
      cases hlead
    rw [if_pos hlead]
    by_cases hlast : i + 1 = cells.length
    · obtain rfl : i = cells.length - 1 := by omega
      rw [if_pos ⟨hlast, hlead⟩, List.getElem?_set_self (by omega)]
    · rw [if_neg fun h => hlast h.1, List.getElem?_set_ne (by omega)]
  · rw [if_neg hlead, if_neg]
    rintro ⟨hlast, hi⟩
    obtain rfl : i = cells.length - 1 := by omega
    exact hlead hi

theorem getElem?_mendHead (r : Rendition) (cells : List Cell) (i : Nat) :
    (mendHead r cells)[i]? =
      if i = 0 ∧ cells[i]?.any Cell.isTrail = true then some (Cell.blank r)
      else cells[i]? := by
  cases cells with
  | nil => simp [mendHead]
  | cons c rest =>
    cases i with
    | zero => cases h : c.isTrail <;> simp [mendHead, h]
    | succ i => rfl

/-- Mending takes the last left half away. -/
theorem lead_mendLast (r : Rendition) (cells : List Cell) (i : Nat) :
    (mendLast r cells)[i]?.any Cell.isLead =
      (decide (i + 1 ≠ cells.length) && cells[i]?.any Cell.isLead) := by
  rw [getElem?_mendLast]
  by_cases hlast : i + 1 = cells.length
  · cases hlead : cells[i]?.any Cell.isLead <;> simp [hlast, hlead]
  · simp [hlast]

/-- Mending takes the first right half away. -/
theorem trail_mendHead (r : Rendition) (cells : List Cell) (i : Nat) :
    (mendHead r cells)[i]?.any Cell.isTrail =
      (decide (i ≠ 0) && cells[i]?.any Cell.isTrail) := by
  rw [getElem?_mendHead]
  by_cases hfirst : i = 0
  · subst hfirst
    cases htrail : cells[0]?.any Cell.isTrail <;> simp [htrail]
  · simp [hfirst]

section Single

variable {cells : List Cell} (h : ∀ c ∈ cells, ¬ (c.isLead = true ∧ c.isTrail = true))

include h

theorem trail_mendLast (r : Rendition) (i : Nat) :
    (mendLast r cells)[i]?.any Cell.isTrail = cells[i]?.any Cell.isTrail := by
  rw [getElem?_mendLast]
  split
  · rename_i hlast
    cases hi : cells[i]? with
    | none => rfl
    | some c =>
      rw [hi] at hlast
      have htrail := mt (And.intro hlast.2) (h c (List.mem_of_getElem? hi))
      exact (Bool.eq_false_iff.2 htrail).symm
  · rfl

theorem lead_mendHead (r : Rendition) (i : Nat) :
    (mendHead r cells)[i]?.any Cell.isLead = cells[i]?.any Cell.isLead := by
  rw [getElem?_mendHead]
  split
  · rename_i hfirst
    cases hi : cells[i]? with
    | none => rfl
    | some c =>
      rw [hi] at hfirst
      have hlead := mt (fun hl => And.intro hl hfirst.2) (h c (List.mem_of_getElem? hi))
      exact (Bool.eq_false_iff.2 hlead).symm
  · rfl

theorem single_mendLast (r : Rendition) :
    ∀ c ∈ mendLast r cells, ¬ (c.isLead = true ∧ c.isTrail = true) := by
  intro c hc
  rw [mendLast_eq_set] at hc
  split at hc
  · obtain hc | rfl := List.mem_or_eq_of_mem_set hc
    · exact h c hc
    · exact fun hboth => Bool.false_ne_true hboth.1
  · exact h c hc

theorem single_mendHead (r : Rendition) :
    ∀ c ∈ mendHead r cells, ¬ (c.isLead = true ∧ c.isTrail = true) := by
  cases cells with
  | nil => exact h
  | cons d rest =>
    intro c hc
    obtain rfl | hc := List.mem_cons.1 hc
    · split
      · exact fun hboth => Bool.false_ne_true hboth.1
      · exact h d List.mem_cons_self
    · exact h c (List.mem_cons_of_mem d hc)

end Single

/-! ## Paired halves -/

/-- The left halves are exactly the cells before a right half, no cell is both,
and the first one is no right half. -/
structure Paired (cells : List Cell) : Prop where
  next : ∀ i, cells[i]?.any Cell.isLead = cells[i + 1]?.any Cell.isTrail
  first : cells[0]?.any Cell.isTrail = false
  single : ∀ c ∈ cells, ¬ (c.isLead = true ∧ c.isTrail = true)

namespace Paired

variable {cells cells' : List Cell}

theorem nil : Paired [] :=
  ⟨fun _ => rfl, rfl, fun _ hc => absurd hc List.not_mem_nil⟩

theorem ofGlyph (glyph : Char) (r : Rendition) : Paired [Cell.ofGlyph glyph r] where
  next i := by cases i <;> rfl
  first := rfl
  single c hc := by
    obtain rfl := List.mem_singleton.1 hc
    exact fun hboth => Bool.false_ne_true hboth.1

/-- No left half stands at the end. -/
theorem last (h : Paired cells) {i : Nat} (hi : cells.length ≤ i + 1) :
    cells[i]?.any Cell.isLead = false := by
  rw [h.next i, List.getElem?_eq_none hi]
  rfl

/-- **Rows of paired halves put side by side are one.** -/
theorem append (h : Paired cells) (h' : Paired cells') : Paired (cells ++ cells') where
  next i := by
    obtain hin | hlast | hbehind : i + 1 < cells.length ∨ i + 1 = cells.length ∨
        cells.length ≤ i := by omega
    · rw [List.getElem?_append_left (by omega), List.getElem?_append_left hin, h.next]
    · rw [List.getElem?_append_left (by omega), List.getElem?_append_right (by omega),
        h.last (by omega), hlast, Nat.sub_self, h'.first]
    · rw [List.getElem?_append_right hbehind, List.getElem?_append_right (by omega), h'.next,
        Nat.sub_add_comm hbehind]
  first := by
    cases cells with
    | nil => exact h'.first
    | cons c rest => exact h.first
  single c hc := (List.mem_append.1 hc).elim (h.single c) (h'.single c)

theorem replicate (r : Rendition) (n : Nat) : Paired (List.replicate n (Cell.blank r)) := by
  induction n with
  | zero => exact nil
  | succ n ih => exact (ofGlyph ' ' r).append ih

theorem halves (span : Nat) (glyph : Char) (r : Rendition) :
    Paired (Cell.halves span glyph r) := by
  unfold Cell.halves
  split
  · exact ofGlyph glyph r
  · refine ⟨fun i => ?_, rfl, fun c hc => ?_⟩
    · match i with
      | 0 | 1 | _ + 2 => rfl
    · obtain rfl | hc := List.mem_cons.1 hc
      · exact fun hboth => Bool.false_ne_true hboth.2
      · obtain rfl := List.mem_singleton.1 hc
        exact fun hboth => Bool.false_ne_true hboth.1

/-- There is nothing to mend at the end. -/
theorem mendLast_eq (h : Paired cells) (r : Rendition) : mendLast r cells = cells :=
  mendLast_of_last (h.last (by omega)) r

/-- **What stands before a cut is paired** once it is mended. -/
theorem mendLast_take (h : Paired cells) (r : Rendition) (n : Nat) :
    Paired (mendLast r (cells.take n)) := by
  have hsingle : ∀ c ∈ cells.take n, ¬ (c.isLead = true ∧ c.isTrail = true) :=
    fun c hc => h.single c (List.mem_of_mem_take hc)
  refine ⟨fun i => ?_, ?_, single_mendLast hsingle r⟩
  · rw [lead_mendLast, trail_mendLast hsingle, List.length_take]
    by_cases hin : i + 1 < n
    · rw [List.getElem?_take_of_lt (by omega), List.getElem?_take_of_lt hin, ← h.next i]
      by_cases hend : i + 1 = min n cells.length
      · rw [h.last (by omega), Bool.and_false]
      · rw [decide_eq_true hend, Bool.true_and]
    · rw [List.getElem?_eq_none (l := cells.take n) (i := i + 1) (by rw [List.length_take]; omega)]
      by_cases hend : i + 1 = min n cells.length
      · rw [decide_eq_false (not_not_intro hend)]
        rfl
      · rw [List.getElem?_eq_none (by rw [List.length_take]; omega)]
        exact Bool.and_false _
  · rw [trail_mendLast hsingle]
    cases n with
    | zero => rfl
    | succ n => exact (congrArg _ (List.getElem?_take_of_lt (Nat.succ_pos n))).trans h.first

/-- **What stands behind a cut is paired** once it is mended. -/
theorem mendHead_drop (h : Paired cells) (r : Rendition) (n : Nat) :
    Paired (mendHead r (cells.drop n)) := by
  have hsingle : ∀ c ∈ cells.drop n, ¬ (c.isLead = true ∧ c.isTrail = true) :=
    fun c hc => h.single c (List.mem_of_mem_drop hc)
  refine ⟨fun i => ?_, trail_mendHead r _ 0, single_mendHead hsingle r⟩
  rw [lead_mendHead hsingle, trail_mendHead, List.getElem?_drop, List.getElem?_drop, h.next]
  rfl

end Paired

/-! ## Cuts -/

section Pieces

variable (row : Row) (r : Rendition)

theorem cells_mendAfter (cut : Nat) :
    (row.mendAfter cut r).cells = row.cells.take cut ++ mendHead r (row.cells.drop cut) := by
  unfold mendAfter trailAt
  by_cases hin : cut < row.cells.length
  · rw [List.getElem?_eq_getElem hin, Option.any_some, List.drop_eq_getElem_cons hin, mendHead]
    split
    · change row.cells.set cut (Cell.blank r) = _
      rw [List.set_eq_take_append_cons_drop, if_pos hin]
    · rw [← List.drop_eq_getElem_cons hin, List.take_append_drop]
  · have hnone : row.cells[cut]? = none := List.getElem?_eq_none (by omega)
    have hdrop : row.cells.drop cut = [] := List.drop_eq_nil_of_le (by omega)
    rw [hnone, hdrop, List.take_of_length_le (by omega), mendHead, List.append_nil]
    rfl

theorem cells_eraseLeadAt {last : Nat} (h : last = row.cols - 1) :
    (row.eraseLeadAt last r).cells = mendLast r row.cells := by
  subst h
  unfold eraseLeadAt
  rw [mendLast_eq_set]
  split
  · rename_i hlead
    exact (if_pos hlead).symm
  · rename_i hlead
    exact (if_neg hlead).symm

theorem cells_extendTo (col : Nat) : (row.extendTo col).cells = row.cells := by
  unfold extendTo
  split <;> rfl

/-- A row that gets narrower is cut, and one that gets wider is padded. -/
theorem cells_resized {n : Nat} (hn : 0 < n) :
    (row.resized n r).cells =
      if n < row.cols then mendLast r (row.cells.take n)
      else row.cells ++ List.replicate (n - row.cols) (Cell.blank r) := by
  unfold resized
  by_cases hlt : n < row.cols
  · have hlast : n - 1 = (row.cutTo n r).cols - 1 := by rw [cols_cutTo]
    have hcut : (row.cutTo n r).cells = row.cells.take n := by
      change row.cells.take n ++ List.replicate (n - row.cols) (Cell.blank r) = _
      rw [Nat.sub_eq_zero_of_le (Nat.le_of_lt hlt), List.replicate_zero, List.append_nil]
    rw [if_pos ⟨hn, hlt⟩, if_pos hlt, cells_eraseLeadAt _ r hlast, hcut]
  · rw [if_neg fun h => hlt h.2, if_neg hlt]
    change row.cells.take n ++ _ = _
    rw [List.take_of_length_le (Nat.le_of_not_lt hlt)]

/-- Mending before a cut changes nothing behind it. -/
theorem getElem?_mendBefore {cut i : Nat} (h : cut ≤ i) :
    (row.mendBefore cut r).cells[i]? = row.cells[i]? := by
  unfold mendBefore
  split
  · exact List.getElem?_set_ne (by omega)
  · rfl

theorem drop_mendBefore {cut k : Nat} (h : cut ≤ k) :
    (row.mendBefore cut r).cells.drop k = row.cells.drop k := by
  refine List.ext_getElem? fun i => ?_
  rw [List.getElem?_drop, List.getElem?_drop, getElem?_mendBefore row r (by omega)]

/-- Two cells put in place of two others. -/
theorem set_set_succ {cells : List Cell} {i : Nat} (h : i + 1 < cells.length) (a b : Cell) :
    (cells.set i a).set (i + 1) b = cells.take i ++ a :: b :: cells.drop (i + 2) := by
  have hlen : (cells.take i).length = i := by
    rw [List.length_take]
    omega
  rw [List.set_eq_take_append_cons_drop (l := cells), if_pos (by omega),
    List.set_append_right _ _ (by omega), hlen, List.drop_eq_getElem_cons h,
    Nat.add_sub_cancel_left]
  rfl

end Pieces

section Paired

variable {row : Row} (r : Rendition)

theorem take_mendBefore (h : Paired row.cells) {cut : Nat} (hcut : cut ≤ row.cols) :
    (row.mendBefore cut r).cells.take cut = mendLast r (row.cells.take cut) := by
  have hlen : (row.cells.take cut).length = cut := by
    rw [List.length_take]
    exact Nat.min_eq_left hcut
  unfold mendBefore
  rw [mendLast_eq_set, hlen]
  cases cut with
  | zero => rfl
  | succ cut =>
    -- the cut goes through a glyph exactly if a left half stands before it
    have hlast : (row.cells.take (cut + 1))[cut]? = row.cells[cut]? :=
      List.getElem?_take_of_lt (Nat.lt_succ_self cut)
    have hnext : row.leadAt cut = row.trailAt (cut + 1) := h.next cut
    rw [Nat.add_sub_cancel, hlast, ← hnext]
    change (if 0 < cut + 1 ∧ row.leadAt cut = true then row.eraseAt cut r else row).cells.take
      (cut + 1) = if row.leadAt cut = true then _ else _
    by_cases hlead : row.leadAt cut = true
    · rw [if_pos ⟨Nat.succ_pos cut, hlead⟩, if_pos hlead]
      exact List.take_set
    · rw [if_neg fun hcut => hlead hcut.2, if_neg hlead]

/-- Before two cuts, and behind them. -/
theorem take_mended (h : Paired row.cells) {start stop : Nat} (hle : start ≤ stop)
    (hstart : start ≤ row.cols) :
    ((row.mendBefore start r).mendAfter stop r).cells.take start =
      mendLast r (row.cells.take start) := by
  have hin : start ≤ ((row.mendBefore start r).cells.take stop).length := by
    have hcols : (row.mendBefore start r).cells.length = row.cols := cols_mendBefore row start r
    rw [List.length_take, hcols]
    omega
  rw [cells_mendAfter, List.take_append_of_le_length hin, List.take_take, Nat.min_eq_left hle,
    take_mendBefore r h hstart]

theorem drop_mended (row : Row) {start stop : Nat} (hle : start ≤ stop) (hstop : stop ≤ row.cols) :
    ((row.mendBefore start r).mendAfter stop r).cells.drop stop =
      mendHead r (row.cells.drop stop) := by
  have hlen : ((row.mendBefore start r).cells.take stop).length = stop := by
    have hcols : (row.mendBefore start r).cells.length = row.cols := cols_mendBefore row start r
    rw [List.length_take, hcols]
    omega
  rw [cells_mendAfter, List.drop_left' hlen, drop_mendBefore row r hle]

/-- The glyphs that a span cuts are those that its two ends cut. -/
theorem mendSpan_eq (h : Paired row.cells) (col : Nat) {span : Nat} (hspan : 0 < span) :
    row.mendSpan col span r = (row.mendBefore col r).mendAfter (col + span) r := by
  have hlead : (row.mendBefore col r).leadAt (col + span - 1) =
      (row.mendBefore col r).trailAt (col + span) := by
    have hpair := h.next (col + span - 1)
    rw [Nat.sub_add_cancel (by omega)] at hpair
    unfold leadAt trailAt
    rw [getElem?_mendBefore row r (by omega), getElem?_mendBefore row r (by omega), hpair]
  unfold mendSpan mendAfter
  rw [hlead]

/-! ## The pieces of each edit -/

theorem blankRange_eq_self {start stop : Nat} (h : ¬ min start row.cols < min stop row.cols) :
    row.blankRange start stop r = row := if_neg h

/-- The cells before the range, blanks, and the cells behind it. -/
theorem cells_blankRange (h : Paired row.cells) {start stop : Nat}
    (hlt : min start row.cols < min stop row.cols) :
    (row.blankRange start stop r).cells =
      mendLast r (row.cells.take (min start row.cols)) ++
        List.replicate (min stop row.cols - min start row.cols) (Cell.blank r) ++
          mendHead r (row.cells.drop (min stop row.cols)) := by
  unfold Row.blankRange
  dsimp only
  rw [if_pos hlt]
  change _ ++ _ ++ _ = _
  rw [take_mended r h (Nat.le_of_lt hlt) (Nat.min_le_right _ _),
    drop_mended r row (Nat.le_of_lt hlt) (Nat.min_le_right _ _)]

theorem insertBlanks_eq_self {col count : Nat} (h : row.cols ≤ col ∨ count = 0) :
    row.insertBlanks col count r = row := if_pos h

/-- The cells before the column, blanks, and as many of those from the column on
as find room. -/
theorem cells_insertBlanks (h : Paired row.cells) {col count n : Nat} (hcol : col < row.cols)
    (hcount : count ≠ 0) (hn : n = min count (row.cols - col)) :
    (row.insertBlanks col count r).cells =
      mendLast r (row.cells.take col) ++ List.replicate n (Cell.blank r) ++
        mendLast r (mendHead r ((row.cells.drop col).take (row.cols - col - n))) := by
  have hroom : col + n ≤ row.cols := by omega
  have hlen : (mendLast r (row.cells.take col) ++ List.replicate n (Cell.blank r)).length =
      col + n := by
    have hmin : min col row.cells.length = col := Nat.min_eq_left (Nat.le_of_lt hcol)
    rw [List.length_append, length_mendLast, List.length_take, List.length_replicate, hmin]
  have hshift : ((row.mendBefore col r).shiftRight col n r).cells =
      mendLast r (row.cells.take col) ++ List.replicate n (Cell.blank r) ++
        (row.cells.drop col).take (row.cols - col - n) := by
    rw [cells_shiftRight _ r (by rwa [cols_mendBefore]), take_mendBefore r h (Nat.le_of_lt hcol),
      drop_mendBefore row r (Nat.le_refl col), cols_mendBefore]
  have hmended : (((row.mendBefore col r).shiftRight col n r).mendAfter (col + n) r).cells =
      mendLast r (row.cells.take col) ++ List.replicate n (Cell.blank r) ++
        mendHead r ((row.cells.drop col).take (row.cols - col - n)) := by
    rw [cells_mendAfter, hshift, List.take_left' hlen, List.drop_left' hlen]
  have hlast : row.cols - 1 =
      (((row.mendBefore col r).shiftRight col n r).mendAfter (col + n) r).cols - 1 := by
    rw [cols_mendAfter, cols_shiftRight _ _ (by rwa [cols_mendBefore]), cols_mendBefore]
  -- if none of them finds room, the row ends in a blank
  have hends : mendLast r (mendLast r (row.cells.take col) ++ List.replicate n (Cell.blank r)) =
      mendLast r (row.cells.take col) ++ List.replicate n (Cell.blank r) := by
    rw [mendLast_append_of, mendLast_replicate]
    intro hnone
    rw [List.replicate_eq_nil_iff] at hnone
    omega
  have hmoved : ((((row.mendBefore col r).shiftRight col n r).mendAfter
      (col + n) r).eraseLeadAt (row.cols - 1) r).cells =
        mendLast r (row.cells.take col) ++ List.replicate n (Cell.blank r) ++
          mendLast r (mendHead r ((row.cells.drop col).take (row.cols - col - n))) := by
    rw [cells_eraseLeadAt _ r hlast, hmended, mendLast_append_of fun _ => hends]
  subst hn
  unfold Row.insertBlanks
  rw [if_neg (by omega)]
  dsimp only
  split
  · split <;> exact hmoved
  · exact hmoved

theorem deleteCells_eq_self {col count : Nat} (h : row.cols ≤ col ∨ count = 0) :
    row.deleteCells col count r = row := if_pos h

/-- The cells before the column, those behind the gap, and blanks. -/
theorem cells_deleteCells (h : Paired row.cells) {col count n : Nat} (hcol : col < row.cols)
    (hcount : count ≠ 0) (hn : n = min count (row.cols - col)) :
    (row.deleteCells col count r).cells =
      mendLast r (row.cells.take col) ++ mendHead r (row.cells.drop (col + n)) ++
        List.replicate n (Cell.blank r) := by
  have hroom : col + n ≤ row.cols := by omega
  have hlen : (mendLast r (row.cells.take col)).length = col := by
    rw [length_mendLast, List.length_take]
    exact Nat.min_eq_left (Nat.le_of_lt hcol)
  have hshift : ((row.mendBefore col r).shiftLeft col n r).cells =
      mendLast r (row.cells.take col) ++
        (row.cells.drop (col + n) ++ List.replicate n (Cell.blank r)) := by
    rw [cells_shiftLeft _ r (by rwa [cols_mendBefore]), take_mendBefore r h (Nat.le_of_lt hcol),
      drop_mendBefore row r (Nat.le_add_right col n), List.append_assoc]
  have hmoved : (((row.mendBefore col r).shiftLeft col n r).mendAfter col r).cells =
      mendLast r (row.cells.take col) ++ mendHead r (row.cells.drop (col + n)) ++
        List.replicate n (Cell.blank r) := by
    rw [cells_mendAfter, hshift, List.take_left' hlen, List.drop_left' hlen,
      mendHead_append_replicate, List.append_assoc]
  subst hn
  unfold Row.deleteCells
  rw [if_neg (by omega)]
  exact hmoved

section Write

variable [Glyph.Widths]

/-- There is room for a glyph that fills a column and does not reach over the
margin. -/
theorem room_eq_zero_iff (row : Row) (col : Nat) (glyph : Char) :
    row.room col glyph = 0 ↔ Glyph.width glyph = 0 ∨ row.cols < col + Glyph.width glyph := by
  unfold room
  dsimp only
  split <;> omega

theorem write_eq_self {col : Nat} {glyph : Char} (h : row.room col glyph = 0) :
    row.write col glyph r = row := by
  unfold Row.write
  split
  · rfl
  · rename_i hroom
    exact absurd h hroom

/-- A glyph for which there is room takes the columns that it fills. -/
theorem room_eq_width {col : Nat} {glyph : Char} (h : row.room col glyph ≠ 0) :
    row.room col glyph = Glyph.width glyph ∧ col + Glyph.width glyph ≤ row.cols := by
  unfold room at h ⊢
  dsimp only at h ⊢
  split
  · rename_i hfits
    exact ⟨rfl, hfits⟩
  · rename_i hfull
    exact absurd (if_neg hfull) h

/-- The cells before the glyph, the glyph, and the cells behind it. -/
theorem cells_write (h : Paired row.cells) {col : Nat} {glyph : Char}
    (hroom : row.room col glyph ≠ 0) :
    (row.write col glyph r).cells =
      mendLast r.blank (row.cells.take col) ++ Cell.halves (Glyph.width glyph) glyph r ++
        mendHead r.blank (row.cells.drop (col + Glyph.width glyph)) := by
  obtain ⟨hwidth, hfits⟩ := room_eq_width hroom
  have hpos : 0 < Glyph.width glyph := Nat.pos_of_ne_zero fun h0 => hroom (hwidth.trans h0)
  have htwo := Glyph.width_le_two glyph
  have hwrite : row.write col glyph r = ((row.mendSpan col (Glyph.width glyph) r.blank).place col
      (Glyph.width glyph) glyph r).extendTo (col + Glyph.width glyph) := by
    unfold Row.write
    rw [hwidth]
    split
    · omega
    · rfl
  rw [hwrite, cells_extendTo, mendSpan_eq r.blank h col hpos]
  have hbefore := take_mended r.blank h (Nat.le_add_right col (Glyph.width glyph)) (by omega)
  have hbehind := drop_mended r.blank row (Nat.le_add_right col (Glyph.width glyph)) hfits
  have hlen : ((row.mendBefore col r.blank).mendAfter (col + Glyph.width glyph)
      r.blank).cells.length = row.cols := by
    rw [← cols, cols_mendAfter, cols_mendBefore]
  rw [← hbefore, ← hbehind]
  unfold Row.place Cell.halves
  dsimp only
  split
  · rename_i hone
    rw [hone] at hlen ⊢
    rw [List.set_eq_take_append_cons_drop, if_pos (by omega), List.append_assoc]
    rfl
  · have htwo : Glyph.width glyph = 2 := by omega
    rw [htwo] at hlen ⊢
    rw [set_set_succ (by omega), List.append_assoc]
    rfl

end Write

end Paired

end Row

end VideoTerminal
