import Mathlib.Data.List.Basic
import VideoTerminal.Proofs.Row.Covered
import VideoTerminal.Proofs.Selection.Order
/-!
# What is seen of a selection

A selection takes whole glyphs, whichever of its halves the pointer hits, and
no more of a row than its text. On the display both can be read off the cells:
a glyph is selected if one of its columns lies between the two places
(`Row.textAcross`). For rows of whole glyphs that is what is copied
(`rowText_eq_textAcross`). What is not copied is blank, where rows are covered
by their text (`rowSeen_eq`).
-/

namespace VideoTerminal

/-- A piece of a list, place by place. -/
theorem drop_take_eq_filterMap {α : Type} (l : List α) (start stop n : Nat) :
    (l.take (min stop n)).drop start =
      (List.range n).filterMap fun i => if start ≤ i ∧ i < stop then l[i]? else none := by
  induction n with
  | zero => rw [Nat.min_zero, List.take_zero, List.drop_nil]; rfl
  | succ n ih =>
    rw [List.range_succ, List.filterMap_append, ← ih]
    rcases Nat.lt_or_ge n stop with hlt | hge
    · rw [Nat.min_eq_right (Nat.le_of_lt hlt), Nat.min_eq_right hlt, List.take_add_one,
        List.drop_append]
      congr 1
      cases hcell : l[n]? with
      | none => simp [hcell]
      | some a =>
        -- the place is there, so that all places before it are
        have hlen : (l.take n).length = n := by
          rw [List.length_take]
          exact Nat.min_eq_left (Nat.le_of_lt (List.getElem?_eq_some_iff.1 hcell).1)
        rw [hlen]
        by_cases hstart : start ≤ n
        · simp [hcell, hstart, hlt]
        · have hpos : 0 < start - n := by omega
          simp [hstart, List.drop_of_length_le (l := [a]) hpos]
    · rw [Nat.min_eq_left hge, Nat.min_eq_left (Nat.le_succ_of_le hge)]
      have hout : ¬ (start ≤ n ∧ n < stop) := by omega
      simp [hout]

namespace Row

/-- The glyphs of a row that have a column from `first` to `last`, as far as
the text of the row goes, each wide one once. -/
def textAcross (row : Row) (first last : Nat) : List Char :=
  (List.range row.textLength).filterMap fun i => do
    let c ← row.cells[i]?
    if c.isTrail = false ∧ first < i + c.width ∧ i ≤ last then some c.glyph else none

/-- What is seen of some rows from one place to another, in the order in which
they are read: the glyphs of each row between the two places, and a line break
behind every row but the last whose text does not go on in the next one. -/
def seenBetween (rowAt : Nat → Option Row) (first last : Position) : List Char :=
  (List.range' first.line (last.line + 1 - first.line)).flatMap fun line =>
    match rowAt line with
    | none => []
    | some row =>
      row.textAcross (if line = first.line then first.col else 0)
          (if line = last.line then last.col else row.cols) ++
        if line ≠ last.line ∧ !row.isWrapped then ['\n'] else []

/-- Counting the rows from elsewhere changes nothing. -/
theorem seenBetween_add (rowAt : Nat → Option Row) (top : Nat) (first last : Position) :
    seenBetween rowAt ⟨top + first.line, first.col⟩ ⟨top + last.line, last.col⟩ =
      seenBetween (fun line => rowAt (top + line)) first last := by
  have hcount : top + last.line + 1 - (top + first.line) = last.line + 1 - first.line := by omega
  unfold seenBetween
  dsimp only
  rw [hcount, ← List.map_add_range', List.flatMap_map]
  congr 1
  funext line
  have hline : ∀ n, top + line = top + n ↔ line = n := fun n => by omega
  simp only [hline, ne_eq]

/-- The rows between the two places are all that counts. -/
theorem seenBetween_congr {rowAt rowAt' : Nat → Option Row} {first last : Position}
    (h : ∀ line, first.line ≤ line → line ≤ last.line → rowAt line = rowAt' line) :
    seenBetween rowAt first last = seenBetween rowAt' first last := by
  unfold seenBetween
  rw [List.flatMap_def, List.flatMap_def]
  refine congrArg List.flatten (List.map_congr_left fun line hline => ?_)
  obtain ⟨hge, hlt⟩ := List.mem_range'_1.1 hline
  rw [h line hge (by omega)]

section

variable {row : Row} {i col : Nat}

/-- A glyph has a column behind a place if it does not start before the glyph
that is hit there. -/
theorem start_le_iff (hpair : ∀ i, row.leadAt i = row.trailAt (i + 1)) :
    (if row.trailAt col then col - 1 else col) ≤ i ↔
      col < i + if row.leadAt i then 2 else 1 := by
  have hnext := hpair i
  rcases Nat.lt_trichotomy col (i + 1) with hlt | heq | hgt
  · split <;> split <;> omega
  · -- the place is right behind the cell, and belongs to its glyph if that is wide
    rw [heq, ← hnext]
    split <;> omega
  · split <;> split <;> omega

/-- A glyph starts before a place if it does not start behind the glyph that
is hit there. -/
theorem lt_stop_iff (hpair : ∀ i, row.leadAt i = row.trailAt (i + 1))
    (hi : row.trailAt i = false) :
    i < (if row.leadAt col then col + 1 else col) + 1 ↔ i ≤ col := by
  split
  · rename_i hlead
    rw [hpair] at hlead
    have hne : i ≠ col + 1 := by
      rintro rfl
      rw [hi] at hlead
      cases hlead
    omega
  · omega

end

end Row

namespace Position

variable {p q : Position}

theorem le_total (p q : Position) : p ≤ q ∨ q ≤ p := by
  rw [le_def, le_def]
  omega

theorem le_antisymm (h : p ≤ q) (h' : q ≤ p) : p = q := by
  rw [le_def] at h h'
  obtain ⟨line, col⟩ := p
  obtain ⟨line', col'⟩ := q
  dsimp only at h h'
  obtain ⟨rfl, rfl⟩ : line = line' ∧ col = col' := by omega
  rfl

/-- What keeps the order of two positions keeps the first of them. -/
theorem map_min {f : Position → Position} (h : p ≤ q → f p ≤ f q) (h' : q ≤ p → f q ≤ f p) :
    f (min p q) = min (f p) (f q) := by
  change f (if p ≤ q then p else q) = if f p ≤ f q then f p else f q
  by_cases hle : p ≤ q
  · rw [if_pos hle, if_pos (h hle)]
  · have hge := h' ((le_total p q).resolve_left hle)
    rw [if_neg hle]
    split
    · exact le_antisymm hge (by assumption)
    · rfl

/-- It keeps the last of them as well. -/
theorem map_max {f : Position → Position} (h : p ≤ q → f p ≤ f q) (h' : q ≤ p → f q ≤ f p) :
    f (max p q) = max (f p) (f q) := by
  change f (if p ≤ q then q else p) = if f p ≤ f q then f q else f p
  by_cases hle : p ≤ q
  · rw [if_pos hle, if_pos (h hle)]
  · have hge := h' ((le_total p q).resolve_left hle)
    rw [if_neg hle]
    split
    · exact le_antisymm (by assumption) hge
    · rfl

end Position

namespace Buffer

/-- All lines are as wide as the screen, and no glyph of theirs is torn. -/
structure Whole [Glyph.Widths] (b : Buffer) : Prop where
  width : ∀ row ∈ b.lines, row.cols = b.cols
  tiled : ∀ row ∈ b.lines, Row.Tiled row.cells

variable {b : Buffer} {p q : Position} {row : Row}

theorem cell?_eq (hrow : b.lines[p.line]? = some row) : b.cell? p = row.cells[p.col]? := by
  unfold cell?
  rw [hrow]
  rfl

theorem col_lead (hrow : b.lines[p.line]? = some row) :
    (b.lead p).col = if row.trailAt p.col then p.col - 1 else p.col := by
  unfold lead
  rw [cell?_eq hrow]
  unfold Row.trailAt
  split <;> rfl

/-- The start of a glyph that is hit later is not earlier. -/
theorem lead_le_lead (h : p ≤ q) : b.lead p ≤ b.lead q := by
  have hp := b.lead_le p
  rw [Position.le_def] at h hp ⊢
  rw [line_lead] at hp
  rw [line_lead, line_lead]
  by_cases heq : p = q
  · subst heq
    exact Or.inr ⟨rfl, Nat.le_refl _⟩
  · have hcol : q.col - 1 ≤ (b.lead q).col := by
      unfold lead
      split
      · exact Nat.le_refl _
      · exact Nat.sub_le _ _
    have hne : ¬ (p.line = q.line ∧ p.col = q.col) := by
      rintro ⟨hline, hcol⟩
      obtain ⟨line, col⟩ := p
      obtain ⟨line', col'⟩ := q
      dsimp only at hline hcol
      rw [hline, hcol] at heq
      exact heq rfl
    omega

section

variable [Glyph.Widths]

/-- The last column of the glyph that is hit: its right half, if it has one. -/
theorem col_glyphEnd_lead (hb : b.Whole) (hrow : b.lines[p.line]? = some row) :
    (b.glyphEnd (b.lead p)).col = if row.leadAt p.col then p.col + 1 else p.col := by
  have hmem := List.mem_of_getElem? hrow
  have htiled := hb.tiled row hmem
  have hwidth := hb.width row hmem
  have hpair : ∀ i, row.leadAt i = row.trailAt (i + 1) := htiled.lead_eq_trail
  -- a right half lies in the row
  have hin : ∀ i, row.trailAt i = true → i < b.cols := by
    intro i hi
    rw [← hwidth]
    unfold Row.trailAt at hi
    cases hcell : row.cells[i]? with
    | none => rw [hcell] at hi; cases hi
    | some c => exact (List.getElem?_eq_some_iff.1 hcell).1
  have hend : ∀ q : Position, q.line = p.line → (b.glyphEnd q).col =
      if row.leadAt q.col then q.col + 1 else q.col := by
    intro q hline
    rw [← hline] at hrow
    unfold glyphEnd
    rw [cell?_eq hrow]
    change (if row.leadAt q.col = true ∧ q.col < b.lastCol then _ else q).col = _
    by_cases hlead : row.leadAt q.col = true
    · have hlt := hin (q.col + 1) (by rw [← hpair]; exact hlead)
      rw [if_pos ⟨hlead, by unfold lastCol; omega⟩, if_pos hlead]
    · rw [if_neg fun h => hlead h.1, if_neg hlead]
  rw [hend _ (line_lead b p), col_lead hrow]
  by_cases htrail : row.trailAt p.col = true
  · -- the right half is hit, and the left one stands before it
    have hpos : 0 < p.col := by
      rcases Nat.eq_zero_or_pos p.col with hzero | hpos
      · have hfirst : row.trailAt 0 = false := htiled.trail_zero
        rw [hzero, hfirst] at htrail
        cases htrail
      · exact hpos
    have hlead : row.leadAt (p.col - 1) = true := by
      rw [hpair, Nat.sub_add_cancel hpos]
      exact htrail
    have hnot : row.leadAt p.col = false := by
      unfold Row.trailAt at htrail
      unfold Row.leadAt
      cases hcell : row.cells[p.col]? with
      | none => rfl
      | some c =>
        rw [hcell] at htrail
        have hboth := (htiled.of_mem (List.mem_of_getElem? hcell)).1
        exact Bool.eq_false_iff.2 fun hlead => hboth ⟨hlead, htrail⟩
    rw [if_pos htrail, if_pos hlead, hnot, Nat.sub_add_cancel hpos]
    rfl
  · rw [if_neg htrail]

/-- The end of a glyph that is hit later is not earlier. -/
theorem glyphEnd_lead_le (hb : b.Whole) (hp : p.line < b.total)
    (h : p ≤ q) : b.glyphEnd (b.lead p) ≤ b.glyphEnd (b.lead q) := by
  rw [Position.le_def] at h ⊢
  rw [line_glyphEnd, line_lead, line_glyphEnd, line_lead]
  rcases h with hline | ⟨hline, hcol⟩
  · exact Or.inl hline
  · have hrow : b.lines[p.line]? = some b.lines[p.line] := List.getElem?_eq_getElem hp
    have hrow' : b.lines[q.line]? = some b.lines[p.line] := hline ▸ hrow
    rw [col_glyphEnd_lead hb hrow, col_glyphEnd_lead hb hrow']
    rcases Nat.lt_or_eq_of_le hcol with hlt | heq
    · refine Or.inr ⟨hline, ?_⟩
      split <;> split <;> omega
    · rw [heq]
      exact Or.inr ⟨hline, Nat.le_refl _⟩

end

end Buffer

namespace Selection

variable {s : Selection} {b : Buffer} {row : Row} {line : Nat}

/-- **A selection between two places takes the glyphs that are seen there**:
of each line those that have a column between the places. -/
theorem rowText_eq_textAcross [Glyph.Widths] (hb : b.Whole) {p q : Position}
    (hanchor : s.anchor = b.lead p) (hextent : s.extent = b.glyphEnd (b.lead q))
    (hrow : b.lines[line]? = some row) :
    s.rowText row line = row.textAcross (if line = p.line then p.col else 0)
      (if line = q.line then q.col else row.cols) := by
  have htiled := hb.tiled row (List.mem_of_getElem? hrow)
  have hpair : ∀ i, row.leadAt i = row.trailAt (i + 1) := htiled.lead_eq_trail
  have hstart : (if line = s.anchor.line then s.anchor.col else 0) =
      if line = p.line then (if row.trailAt p.col then p.col - 1 else p.col) else 0 := by
    rw [hanchor, Buffer.line_lead]
    split
    · rename_i hline
      rw [Buffer.col_lead (hline ▸ hrow)]
    · rfl
  have hstop : (if line = s.extent.line then s.extent.col + 1 else row.cols) =
      if line = q.line then (if row.leadAt q.col then q.col + 1 else q.col) + 1 else row.cols := by
    rw [hextent, Buffer.line_glyphEnd, Buffer.line_lead]
    split
    · rename_i hline
      rw [Buffer.col_glyphEnd_lead hb (hline ▸ hrow)]
    · rfl
  unfold rowText Row.textAcross
  dsimp only
  rw [hstart, hstop, drop_take_eq_filterMap, List.filter_filterMap, List.map_filterMap]
  refine List.filterMap_congr fun i _ => ?_
  cases hcell : row.cells[i]? with
  | none => simp
  | some c =>
    have hlead : c.isLead = row.leadAt i := by rw [Row.leadAt, hcell]; rfl
    have htrail : c.isTrail = row.trailAt i := by rw [Row.trailAt, hcell]; rfl
    have hin : i < row.cols := (List.getElem?_eq_some_iff.1 hcell).1
    cases hright : row.trailAt i with
    | true => simp [htrail, hright]
    | false =>
      -- a glyph starts here, and its columns are counted
      have hwidth : c.width = if row.leadAt i then 2 else 1 := by
        unfold Cell.width
        rw [hlead, htrail, hright]
        rfl
      have hfirst :
          (if line = p.line then (if row.trailAt p.col then p.col - 1 else p.col) else 0) ≤ i ↔
            (if line = p.line then p.col else 0) < i + c.width := by
        rw [hwidth]
        split
        · exact Row.start_le_iff hpair
        · split <;> omega
      have hlast : (i < if line = q.line then (if row.leadAt q.col then q.col + 1 else q.col) + 1
          else row.cols) ↔ i ≤ if line = q.line then q.col else row.cols := by
        split
        · exact Row.lt_stop_iff hpair hright
        · omega
      have hhit := and_congr hfirst hlast
      have hplain : c.isTrail = false := htrail.trans hright
      by_cases hacross : (if line = p.line then p.col else 0) < i + c.width ∧
          i ≤ if line = q.line then q.col else row.cols
      · rw [if_pos (hhit.2 hacross)]
        simp [hplain, hacross]
      · rw [if_neg fun h => hacross (hhit.1 h)]
        simp [hplain, hacross]

/-- A drag from one place to another selects from the start of the glyph at the
first of them to the end of the glyph at the last, whichever way it goes. -/
theorem ends_drag [Glyph.Widths] (hb : b.Whole) {p q : Position} (hp : p.line < b.total)
    (hp' : p.col < b.cols) (hq : q.line < b.total) (hq' : q.col < b.cols)
    (delimiters : List Char) (screen : ScreenKind) :
    let sel := (Selection.start b delimiters p .glyph screen).extendTo b delimiters q
    sel.anchor = b.lead (min p q) ∧ sel.extent = b.glyphEnd (b.lead (max p q)) := by
  have hspan : ∀ p : Position, p.line < b.total → p.col < b.cols →
      b.spanAt delimiters .glyph p = ⟨b.lead p, b.glyphEnd (b.lead p)⟩ := by
    intro p hline hcol
    have hclamp : b.clamp p = p := by
      unfold Buffer.clamp Buffer.lastCol
      rw [Nat.min_eq_left (by omega), Nat.min_eq_left (by omega)]
    have hsome : b.isEmpty = false := by
      unfold Buffer.isEmpty
      simp only [Bool.or_eq_false_iff, beq_eq_false_iff_ne]
      omega
    unfold Buffer.spanAt
    rw [hclamp, hsome]
    rfl
  intro sel
  refine ⟨?_, ?_⟩
  · change min (b.spanAt delimiters .glyph p).first (b.spanAt delimiters .glyph q).first = _
    rw [hspan p hp hp', hspan q hq hq']
    exact (Position.map_min Buffer.lead_le_lead Buffer.lead_le_lead).symm
  · change max (b.spanAt delimiters .glyph p).last (b.spanAt delimiters .glyph q).last = _
    rw [hspan p hp hp', hspan q hq hq']
    exact (Position.map_max (f := fun p => b.glyphEnd (b.lead p))
      (Buffer.glyphEnd_lead_le hb hp) (Buffer.glyphEnd_lead_le hb hq)).symm

/-- The text of such a selection is what is seen between the two places. -/
theorem text_eq_seenBetween [Glyph.Widths] (hb : b.Whole) (hsome : b.isEmpty = false)
    {p q : Position} (hq : q.line < b.total) (hanchor : s.anchor = b.lead p)
    (hextent : s.extent = b.glyphEnd (b.lead q)) :
    s.text b = Row.seenBetween (fun line => b.lines[line]?) p q := by
  have hfirst : s.anchor.line = p.line := by rw [hanchor, Buffer.line_lead]
  have hend : s.extent.line = q.line := by rw [hextent, Buffer.line_glyphEnd, Buffer.line_lead]
  have hlast : min q.line (b.total - 1) = q.line := by omega
  unfold text Row.seenBetween
  dsimp only
  rw [hsome, if_neg Bool.false_ne_true, hfirst, hend, hlast]
  congr 1
  funext line
  unfold lineText
  cases hrow : b.lines[line]? with
  | none => rfl
  | some row =>
    dsimp only
    rw [rowText_eq_textAcross hb hanchor hextent hrow]

/-- What is seen of a line of a selection in its row, also behind the end of
the text: all its glyphs, each wide one once. -/
def rowSeen (s : Selection) (row : Row) (line : Nat) : List Char :=
  let start := if line = s.anchor.line then s.anchor.col else 0
  let stop := if line = s.extent.line then s.extent.col + 1 else row.cols
  (((row.cells.take stop).drop start).filter (!·.isTrail)).map (·.glyph)

/-- **Copying a covered row loses nothing but blanks at its end.** -/
theorem rowSeen_eq (s : Selection) {row : Row} (h : row.Covered) (line : Nat) :
    ∃ n, s.rowSeen row line = s.rowText row line ++ List.replicate n ' ' := by
  unfold rowSeen rowText
  dsimp only
  generalize (if line = s.anchor.line then s.anchor.col else 0) = start
  generalize (if line = s.extent.line then s.extent.col + 1 else row.cols) = stop
  -- the cells that are not copied are bare
  have hbare : ∀ c ∈ (row.cells.take stop).drop (max start row.textLength), c.Bare := by
    intro c hc
    obtain ⟨i, hi⟩ := List.getElem?_of_mem hc
    rw [List.getElem?_drop] at hi
    obtain ⟨hlt, -⟩ := List.getElem?_eq_some_iff.1 hi
    rw [List.length_take] at hlt
    rw [List.getElem?_take_of_lt (by omega)] at hi
    exact h _ c (by omega) hi
  have hsplit : (row.cells.take stop).drop start =
      (row.cells.take (min stop row.textLength)).drop start ++
        (row.cells.take stop).drop (max start row.textLength) := by
    have hmax : max start row.textLength = start + (row.textLength - start) := by omega
    rw [Nat.min_comm, ← List.take_take]
    generalize row.cells.take stop = cells
    rw [List.drop_take, hmax, ← List.drop_drop, List.take_append_drop]
  have hkept : ((row.cells.take stop).drop (max start row.textLength)).filter (!·.isTrail) =
      (row.cells.take stop).drop (max start row.textLength) :=
    List.filter_eq_self.2 fun c hc => by rw [(hbare c hc).trail]; rfl
  refine ⟨((row.cells.take stop).drop (max start row.textLength)).length, ?_⟩
  rw [hsplit, List.filter_append, List.map_append, hkept]
  congr 1
  refine List.eq_replicate_iff.2 ⟨List.length_map _, fun c hc => ?_⟩
  obtain ⟨cell, hcell, rfl⟩ := List.mem_map.1 hc
  exact (hbare cell hcell).glyph

end Selection

end VideoTerminal
