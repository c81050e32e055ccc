import VideoTerminal.Proofs.Selection.Words
/-!
# Drags

A press and a drag select the hull of what clicks at both of their places would
take: from the earlier start to the later end. Where the pointer was in between
does not matter, nor which of the two places came first, and the ends are those
of whole glyphs.

Lines that are gone from the start of the buffer leave all that behind them as it
was. A search may not go on into what is gone, but no click that took none of it
went there. So a selection that lost nothing is the one that the same drag makes
in what is left.
-/

namespace VideoTerminal

namespace Position

variable {p q r : Position} {count : Nat}

theorem min_comm (p q : Position) : min p q = min q p := by
  change (if p ≤ q then p else q) = if q ≤ p then q else p
  split <;> split
  · exact le_antisymm (by assumption) (by assumption)
  · rfl
  · rfl
  · rename_i hpq hqp
    exact absurd (le_total p q) (not_or.2 ⟨hpq, hqp⟩)

theorem max_comm (p q : Position) : max p q = max q p := by
  change (if p ≤ q then q else p) = if q ≤ p then p else q
  split <;> split
  · exact le_antisymm (by assumption) (by assumption)
  · rfl
  · rfl
  · rename_i hpq hqp
    exact absurd (le_total p q) (not_or.2 ⟨hpq, hqp⟩)

theorem min_self (p : Position) : min p p = p := ite_self p

theorem max_self (p : Position) : max p p = p := ite_self p

theorem min_eq_or (p q : Position) : min p q = p ∨ min p q = q :=
  ite_eq_or_eq _ p q

theorem max_eq_or (p q : Position) : max p q = p ∨ max p q = q :=
  (ite_eq_or_eq _ q p).symm

theorem min_le_right (p q : Position) : min p q ≤ q := by
  rw [min_comm]
  exact min_le_left q p

/-- Lines that are gone before two positions leave the earlier one the earlier. -/
theorem up_min (hp : count ≤ p.line) (hq : count ≤ q.line) :
    (min p q).up count = min (p.up count) (q.up count) :=
  map_min (f := (·.up count)) (fun h => up_le_up h hp) fun h => up_le_up h hq

theorem up_max (hp : count ≤ p.line) (hq : count ≤ q.line) :
    (max p q).up count = max (p.up count) (q.up count) :=
  map_max (f := (·.up count)) (fun h => up_le_up h hp) fun h => up_le_up h hq

end Position

/-- A piece of a buffer after lines before it are gone. -/
def Span.up (s : Span) (count : Nat) : Span := ⟨s.first.up count, s.last.up count⟩

namespace Buffer

variable {b : Buffer} {p q : Position} {delimiters : List Char} {kind : GlyphClass}
  {depth : Depth} {count line : Nat}

/-! ## Whole glyphs -/

theorem isEmpty_eq_true_iff : b.isEmpty = true ↔ b.total = 0 ∨ b.cols = 0 := by
  unfold isEmpty
  rw [Bool.or_eq_true, beq_iff_eq, beq_iff_eq]

/-- A click anywhere hits the nearest cell. -/
theorem spanAt_clamp (h : b.isEmpty = false) (delimiters : List Char) (depth : Depth)
    (p : Position) : b.Holds (b.clamp p) ∧
      b.spanAt delimiters depth p = b.spanAt delimiters depth (b.clamp p) := by
  have hsome := mt isEmpty_eq_true_iff.2 (Bool.eq_false_iff.1 h)
  have hholds : b.Holds (b.clamp p) := by
    unfold Holds clamp lastCol
    dsimp only
    omega
  refine ⟨hholds, ?_⟩
  rw [spanAt_of_holds hholds]
  unfold spanAt
  rw [if_neg (Bool.eq_false_iff.1 h)]

theorem Paired.cell?_of_isEmpty (hb : b.Paired) (h : b.isEmpty = true) (p : Position) :
    b.cell? p = none := by
  unfold cell?
  cases hrow : b.lines[p.line]? with
  | none => rfl
  | some row =>
    have hline := (List.getElem?_eq_some_iff.1 hrow).1
    have hcols : row.cells.length = 0 := by
      rcases isEmpty_eq_true_iff.1 h with htotal | hcols
      · unfold total at htotal
        omega
      · exact (hb.width row (List.mem_of_getElem? hrow)).trans hcols
    exact List.getElem?_eq_none (by omega)

/-- No line ends within a glyph. -/
theorem Paired.leadAt_lastCol (hb : b.Paired) (h : b.isEmpty = false) (line : Nat) :
    b.leadAt ⟨line, b.lastCol⟩ = false := by
  rw [hb.next]
  refine Bool.eq_false_iff.2 fun htrail => ?_
  have hcol := hb.col_lt htrail
  have hlast := lastCol_lt h
  unfold lastCol at hcol hlast
  dsimp only at hcol
  omega

/-- **Every click takes whole glyphs.** -/
theorem Paired.whole_spanAt (hb : b.Paired) (delimiters : List Char) (depth : Depth)
    (p : Position) : b.trailAt (b.spanAt delimiters depth p).first = false ∧
      b.leadAt (b.spanAt delimiters depth p).last = false := by
  cases hempty : b.isEmpty with
  | true =>
    have hnone := hb.cell?_of_isEmpty hempty
    unfold trailAt leadAt
    rw [hnone, hnone]
    exact ⟨rfl, rfl⟩
  | false =>
    obtain ⟨hholds, hspan⟩ := spanAt_clamp hempty delimiters depth p
    rw [hspan]
    cases depth with
    | glyph =>
      rw [spanAt_of_holds hholds]
      exact ⟨hb.trailAt_lead _, hb.leadAt_glyphEnd _⟩
    | word => exact (longest_word hb hholds delimiters).2
    | line =>
      rw [spanAt_of_holds hholds]
      exact ⟨hb.first _, hb.leadAt_lastCol hempty _⟩

/-- What a click takes is in order, also where there is no cell. -/
theorem ordered_spanAt (b : Buffer) (delimiters : List Char) (depth : Depth) (p : Position) :
    (b.spanAt delimiters depth p).first ≤ (b.spanAt delimiters depth p).last := by
  cases hempty : b.isEmpty with
  | true =>
    unfold spanAt
    rw [if_pos hempty]
    exact Position.le_refl p
  | false => exact (laid_spanAt hempty delimiters depth p).ordered

/-! ## Lines that are gone -/

/-- The buffer without its first lines. -/
def dropLines (b : Buffer) (count : Nat) : Buffer := { b with lines := b.lines.drop count }

@[simp] theorem lastCol_dropLines (b : Buffer) (count : Nat) :
    (b.dropLines count).lastCol = b.lastCol := rfl

@[simp] theorem total_dropLines (b : Buffer) (count : Nat) :
    (b.dropLines count).total = b.total - count := List.length_drop

theorem Paired.dropLines (hb : b.Paired) (count : Nat) : (b.dropLines count).Paired :=
  ⟨fun row hrow => hb.width row (List.mem_of_mem_drop hrow),
    fun row hrow => hb.paired row (List.mem_of_mem_drop hrow)⟩

theorem getElem?_dropLines (h : count ≤ line) :
    (b.dropLines count).lines[line - count]? = b.lines[line]? := by
  unfold dropLines
  rw [List.getElem?_drop, Nat.add_sub_cancel' h]

theorem cell?_dropLines (h : count ≤ p.line) :
    (b.dropLines count).cell? (p.up count) = b.cell? p := by
  unfold cell? Position.up
  dsimp only
  rw [getElem?_dropLines h]

theorem continues_dropLines (h : count ≤ line) :
    (b.dropLines count).continues (line - count) = b.continues line := by
  unfold continues
  rw [getElem?_dropLines h]

theorem lead_dropLines (h : count ≤ p.line) :
    (b.dropLines count).lead (p.up count) = (b.lead p).up count := by
  unfold lead
  rw [cell?_dropLines h]
  split <;> rfl

theorem glyphEnd_dropLines (h : count ≤ p.line) :
    (b.dropLines count).glyphEnd (p.up count) = (b.glyphEnd p).up count := by
  unfold glyphEnd
  rw [cell?_dropLines h, lastCol_dropLines]
  change (if (b.cell? p).any Cell.isLead = true ∧ p.col < b.lastCol then _ else _) = _
  split <;> rfl

theorem classAt_dropLines (h : count ≤ p.line) :
    (b.dropLines count).classAt delimiters (p.up count) = b.classAt delimiters p := by
  have hlead : count ≤ (b.lead p).line := (b.line_lead p).symm ▸ h
  unfold classAt
  rw [lead_dropLines h, cell?_dropLines hlead]

/-- Nothing that is left stands before a line that is gone. -/
theorem prev?_dropLines (h : count ≤ p.line) : (b.dropLines count).prev? (p.up count) =
    ((b.prev? p).filter (count ≤ ·.line)).map (·.up count) := by
  unfold prev? Position.up
  dsimp only
  by_cases hcol : 0 < p.col
  · rw [if_pos hcol, if_pos hcol, Option.filter_some, if_pos (by simpa using h)]
    rfl
  · rw [if_neg hcol, if_neg hcol]
    by_cases hline : count < p.line
    · rw [show p.line - count - 1 = p.line - 1 - count by omega,
        continues_dropLines (by omega : count ≤ p.line - 1)]
      by_cases hgo : b.continues (p.line - 1) = true
      · rw [if_pos ⟨by omega, hgo⟩, if_pos ⟨by omega, hgo⟩, Option.filter_some,
          if_pos (by simp only [decide_eq_true_eq]; omega)]
        rfl
      · rw [if_neg fun hboth => hgo hboth.2, if_neg fun hboth => hgo hboth.2]
        rfl
    · -- the line is the first one that is left
      rw [if_neg (by omega)]
      split
      · rw [Option.filter_some, if_neg (by simp only [decide_eq_true_eq]; omega)]
        rfl
      · rfl

theorem next?_dropLines (h : count ≤ p.line) :
    (b.dropLines count).next? (p.up count) = (b.next? p).map (·.up count) := by
  have hline : p.line - count + 1 = p.line + 1 - count := by omega
  have hin : p.line + 1 - count < b.total - count ↔ p.line + 1 < b.total := by omega
  unfold next? Position.up
  dsimp only
  rw [lastCol_dropLines, total_dropLines, continues_dropLines h, hline]
  simp only [hin]
  split
  · rfl
  · split <;> rfl

/-! ### The searches -/

theorem wordStart_dropLines (h : count ≤ (b.wordStart delimiters kind p).line) :
    (b.dropLines count).wordStart delimiters kind (p.up count) =
      (b.wordStart delimiters kind p).up count := by
  have hp := Nat.le_trans h (b.line_wordStart_le delimiters kind p)
  fun_induction Buffer.wordStart b delimiters kind p with
  | case1 p hnone =>
    unfold wordStart
    split
    · rfl
    · rename_i hprev
      rw [prev?_dropLines hp, hnone] at hprev
      cases hprev
  | case2 p q hprev _ hkind ih =>
    have hlead := Nat.le_trans h (b.line_wordStart_le delimiters kind (b.lead q))
    have hq : count ≤ q.line := (b.line_lead q) ▸ hlead
    have hprev' : (b.dropLines count).prev? (p.up count) = some (q.up count) := by
      rw [prev?_dropLines hp, hprev, Option.filter_some, if_pos (by simpa using hq)]
      rfl
    rw [wordStart]
    split
    · rename_i hnone
      rw [hprev'] at hnone
      cases hnone
    · rename_i q' hsome
      obtain rfl : q.up count = q' := Option.some.inj (hprev'.symm.trans hsome)
      rw [if_pos (by rw [classAt_dropLines hq, hkind]), lead_dropLines hq]
      exact ih h hlead
  | case3 p q hprev _ hkind =>
    unfold wordStart
    split
    · rfl
    · rename_i q' hsome
      -- what stood before is left, or there is nothing before
      rw [prev?_dropLines hp, hprev, Option.filter_some] at hsome
      split at hsome
      · rename_i hq
        obtain rfl : q.up count = q' := Option.some.inj hsome
        rw [if_neg]
        rw [classAt_dropLines (by simpa using hq)]
        exact hkind
      · cases hsome

theorem wordEnd_dropLines (h : count ≤ p.line) :
    (b.dropLines count).wordEnd delimiters kind (p.up count) =
      (b.wordEnd delimiters kind p).up count := by
  fun_induction Buffer.wordEnd b delimiters kind p with
  | case1 p hnone =>
    unfold wordEnd
    split
    · rfl
    · rename_i hnext
      rw [next?_dropLines h, hnone] at hnext
      cases hnext
  | case2 p q hnext _ hkind ih =>
    have hq : count ≤ q.line := Nat.le_trans h (line_of_next? hnext).1
    have hend : count ≤ (b.glyphEnd q).line := (b.line_glyphEnd q).symm ▸ hq
    have hnext' : (b.dropLines count).next? (p.up count) = some (q.up count) := by
      rw [next?_dropLines h, hnext]
      rfl
    rw [wordEnd]
    split
    · rename_i hnone
      rw [hnext'] at hnone
      cases hnone
    · rename_i q' hsome
      obtain rfl : q.up count = q' := Option.some.inj (hnext'.symm.trans hsome)
      rw [if_pos (by rw [classAt_dropLines hq, hkind]), glyphEnd_dropLines hq]
      exact ih hend
  | case3 p q hnext _ hkind =>
    have hq : count ≤ q.line := Nat.le_trans h (line_of_next? hnext).1
    unfold wordEnd
    split
    · rfl
    · rename_i q' hsome
      rw [next?_dropLines h, hnext] at hsome
      obtain rfl : q.up count = q' := Option.some.inj hsome
      rw [if_neg]
      rw [classAt_dropLines hq]
      exact hkind

theorem textStart_dropLines (h : count ≤ b.textStart line) :
    (b.dropLines count).textStart (line - count) = b.textStart line - count := by
  induction line with
  | zero =>
    rw [Nat.zero_sub]
    exact (Nat.zero_sub count).symm
  | succ line ih =>
    by_cases hgo : b.continues line = true
    · have heq : b.textStart (line + 1) = b.textStart line := if_pos hgo
      rw [heq] at h ⊢
      have hline := Nat.le_trans h (b.textStart_le line)
      rw [Nat.sub_add_comm hline]
      change (if (b.dropLines count).continues (line - count) = true then _ else _) = _
      rw [continues_dropLines hline, if_pos hgo]
      exact ih h
    · have heq : b.textStart (line + 1) = line + 1 := if_neg hgo
      rw [heq] at h ⊢
      cases hleft : line + 1 - count with
      | zero => rfl
      | succ n =>
        obtain rfl : n = line - count := by omega
        change (if (b.dropLines count).continues (line - count) = true then _ else _) = _
        rw [continues_dropLines (by omega), if_neg hgo]

theorem textEnd_dropLines (h : count ≤ line) :
    (b.dropLines count).textEnd (line - count) = b.textEnd line - count := by
  have hin : ∀ line, count ≤ line →
      (line - count + 1 < b.total - count ↔ line + 1 < b.total) := fun line h => by omega
  fun_induction Buffer.textEnd b line with
  | case1 line hgo ih =>
    have hgo' : line - count + 1 < (b.dropLines count).total ∧
        (b.dropLines count).continues (line - count) = true := by
      rw [total_dropLines, hin line h, continues_dropLines h]
      exact hgo
    rw [textEnd, if_pos hgo', ← Nat.sub_add_comm h]
    exact ih (Nat.le_succ_of_le h)
  | case2 line hstop =>
    have hstop' : ¬ (line - count + 1 < (b.dropLines count).total ∧
        (b.dropLines count).continues (line - count) = true) := by
      rw [total_dropLines, hin line h, continues_dropLines h]
      exact hstop
    rw [textEnd, if_neg hstop']

/-! ### Clicks -/

theorem clamp_dropLines (b : Buffer) (count : Nat) (p : Position) :
    (b.dropLines count).clamp (p.up count) = (b.clamp p).up count := by
  unfold clamp Position.up
  dsimp only
  rw [total_dropLines, lastCol_dropLines, Nat.sub_right_comm, Nat.sub_min_sub_right]

/-- What a click takes does not start behind the line that it hits. -/
theorem line_first_spanOf_le (b : Buffer) (delimiters : List Char) (depth : Depth)
    (p : Position) : (b.spanOf delimiters depth p).first.line ≤ p.line := by
  cases depth with
  | glyph => exact Nat.le_refl _
  | word => exact b.line_wordStart_le delimiters _ p
  | line => exact b.textStart_le p.line

theorem spanOf_dropLines (h : count ≤ (b.spanOf delimiters depth p).first.line) :
    (b.dropLines count).spanOf delimiters depth (p.up count) =
      (b.spanOf delimiters depth p).up count := by
  have hp := Nat.le_trans h (b.line_first_spanOf_le delimiters depth p)
  cases depth with
  | glyph => exact congrArg (Span.mk _) (glyphEnd_dropLines hp)
  | word =>
    have hend : count ≤ (b.glyphEnd p).line := (b.line_glyphEnd p).symm ▸ hp
    unfold spanOf at h ⊢
    dsimp only at h ⊢
    rw [classAt_dropLines hp, glyphEnd_dropLines hp, wordStart_dropLines h,
      wordEnd_dropLines hend]
    rfl
  | line =>
    have hstart : (b.dropLines count).textStart (p.line - count) = b.textStart p.line - count :=
      textStart_dropLines h
    have hstop := textEnd_dropLines (b := b) hp
    change Span.mk ⟨(b.dropLines count).textStart (p.line - count), 0⟩
      ⟨(b.dropLines count).textEnd (p.line - count), b.lastCol⟩ = _
    rw [hstart, hstop]
    rfl

/-- **A click that took nothing of the lines that are gone takes the same as
before.** -/
theorem spanAt_dropLines (h : count ≤ (b.spanAt delimiters depth p).first.line) :
    (b.dropLines count).spanAt delimiters depth (p.up count) =
      (b.spanAt delimiters depth p).up count := by
  cases hempty : b.isEmpty with
  | true =>
    have hempty' : (b.dropLines count).isEmpty = true := by
      rw [isEmpty_eq_true_iff] at hempty ⊢
      rw [total_dropLines]
      exact hempty.imp_left fun htotal => by omega
    unfold spanAt
    rw [if_pos hempty, if_pos hempty']
    rfl
  | false =>
    have hwithin := within_spanAt hempty delimiters depth p
    have hline : count < b.total :=
      Nat.lt_of_le_of_lt (Nat.le_trans h hwithin.ordered) hwithin.inside
    have hsome : ¬ b.isEmpty = true := Bool.eq_false_iff.1 hempty
    have hsome' : ¬ (b.dropLines count).isEmpty = true := by
      rw [isEmpty_eq_true_iff] at hsome ⊢
      rw [total_dropLines]
      change ¬ (b.total - count = 0 ∨ b.cols = 0)
      omega
    unfold spanAt at h ⊢
    rw [if_neg hsome] at h ⊢
    have hlead : count ≤ (b.clamp p).line := by
      have hle := Nat.le_trans h (b.line_first_spanOf_le delimiters depth (b.lead (b.clamp p)))
      rwa [line_lead] at hle
    rw [if_neg hsome', clamp_dropLines, lead_dropLines hlead, spanOf_dropLines h]

end Buffer

namespace Selection

variable {b : Buffer} {delimiters : List Char} {depth : Depth} {screen : ScreenKind}
  {p q : Position} {path : List Position} {s : Selection} {count : Nat}

/-! ## Drags -/

/-- The selection that a press makes whose pointer is then dragged over other
positions. -/
def dragged (b : Buffer) (delimiters : List Char) (depth : Depth) (screen : ScreenKind)
    (p : Position) (path : List Position) : Selection :=
  path.foldl (fun s q => s.extendTo b delimiters q) (start b delimiters p depth screen)

theorem dragged_concat (b : Buffer) (delimiters : List Char) (depth : Depth)
    (screen : ScreenKind) (p : Position) (path : List Position) (q : Position) :
    dragged b delimiters depth screen p (path ++ [q]) =
      (dragged b delimiters depth screen p path).extendTo b delimiters q :=
  List.foldl_concat _ _ _ _

/-- Dragging changes neither what the press took nor how much a click takes. -/
theorem dragged_rest (b : Buffer) (delimiters : List Char) (depth : Depth) (screen : ScreenKind)
    (p : Position) (path : List Position) :
    (dragged b delimiters depth screen p path).origin = b.spanAt delimiters depth p ∧
      (dragged b delimiters depth screen p path).depth = depth ∧
      (dragged b delimiters depth screen p path).screen = screen := by
  unfold dragged
  generalize hs : start b delimiters p depth screen = s
  have hrest : s.origin = b.spanAt delimiters depth p ∧ s.depth = depth ∧ s.screen = screen := by
    rw [← hs]
    exact ⟨rfl, rfl, rfl⟩
  clear hs
  induction path generalizing s with
  | nil => exact hrest
  | cons q path ih => exact ih (s.extendTo b delimiters q) hrest

/-- The selection that a drag from one click to another makes. -/
def between (depth : Depth) (screen : ScreenKind) (first last : Span) : Selection where
  anchor := min first.first last.first
  extent := max first.last last.last
  origin := first
  depth := depth
  screen := screen
  extended := true

theorem extendTo_eq_between (s : Selection) (b : Buffer) (delimiters : List Char)
    (q : Position) : s.extendTo b delimiters q =
      between s.depth s.screen s.origin (b.spanAt delimiters s.depth q) := rfl

theorem up_between {first last : Span} (hfirst : count ≤ first.first.line)
    (hlast : count ≤ last.first.line) (hordered : first.first ≤ first.last)
    (hordered' : last.first ≤ last.last) : (between depth screen first last).up count =
      between depth screen (first.up count) (last.up count) := by
  have hmin := Position.up_min hfirst hlast
  have hmax := Position.up_max (Nat.le_trans hfirst (Position.line_le hordered))
    (Nat.le_trans hlast (Position.line_le hordered'))
  unfold between up
  dsimp only
  rw [hmin, hmax]
  rfl

/-- **Only the ends of a drag count.** -/
theorem dragged_concat_eq (b : Buffer) (delimiters : List Char) (depth : Depth)
    (screen : ScreenKind) (p : Position) (path : List Position) (q : Position) :
    dragged b delimiters depth screen p (path ++ [q]) = between depth screen
      (b.spanAt delimiters depth p) (b.spanAt delimiters depth q) := by
  obtain ⟨horigin, hdepth, hscreen⟩ := dragged_rest b delimiters depth screen p path
  rw [dragged_concat, extendTo_eq_between, horigin, hdepth, hscreen]

/-- The ends of a selection whose pointer was pressed at `p` and is at the end
of the path now. -/
theorem ends_dragged (b : Buffer) (delimiters : List Char) (depth : Depth)
    (screen : ScreenKind) (p : Position) (path : List Position) :
    (dragged b delimiters depth screen p path).anchor =
        min (b.spanAt delimiters depth p).first
          (b.spanAt delimiters depth (path.getLastD p)).first ∧
      (dragged b delimiters depth screen p path).extent =
        max (b.spanAt delimiters depth p).last
          (b.spanAt delimiters depth (path.getLastD p)).last := by
  obtain rfl | ⟨path, q, rfl⟩ := List.eq_nil_or_concat' path
  · exact ⟨(Position.min_self _).symm, (Position.max_self _).symm⟩
  · rw [dragged_concat_eq, List.getLastD_concat]
    exact ⟨rfl, rfl⟩

/-- **A selection that lost nothing** is the one that the same drag makes in
what is left of the buffer. -/
theorem up_dragged (h : count ≤ (dragged b delimiters depth screen p path).anchor.line) :
    (dragged b delimiters depth screen p path).up count =
      dragged (b.dropLines count) delimiters depth screen (p.up count)
        (path.map (·.up count)) := by
  have hends := (ends_dragged b delimiters depth screen p path).1
  have hp : count ≤ (b.spanAt delimiters depth p).first.line :=
    Nat.le_trans h (Position.line_le (hends ▸ Position.min_le_left _ _))
  have hq : count ≤ (b.spanAt delimiters depth (path.getLastD p)).first.line :=
    Nat.le_trans h (Position.line_le (hends ▸ Position.min_le_right _ _))
  obtain rfl | ⟨path, q, rfl⟩ := List.eq_nil_or_concat' path
  · change Selection.mk _ _ _ _ _ _ = start _ _ _ _ _
    unfold start
    rw [Buffer.spanAt_dropLines hp]
    rfl
  · rw [List.getLastD_concat] at hq
    rw [List.map_append, List.map_singleton, dragged_concat_eq, dragged_concat_eq,
      Buffer.spanAt_dropLines hp, Buffer.spanAt_dropLines hq]
    exact up_between hp hq (b.ordered_spanAt delimiters depth p)
      (b.ordered_spanAt delimiters depth q)

/-- Whether a selection outlives the loss of lines at the start of the buffer,
and the selection then. One that does not is left as it was. -/
def rebase (s : Selection) (count : Nat) : Bool × Selection :=
  match s.shiftUp? count with
  | some s' => (true, s')
  | none => (false, s)

theorem rebase_of_lt (h : s.anchor.line < count) : s.rebase count = (false, s) := by
  unfold rebase shiftUp?
  rw [if_pos h]

theorem rebase_of_le (h : count ≤ s.anchor.line) : s.rebase count = (true, s.up count) := by
  unfold rebase shiftUp?
  rw [if_neg (Nat.not_lt_of_le h)]
  rfl

/-- The selection goes from the earlier start to the later end of what clicks at
two positions take, and its ends are those of whole glyphs. A drag the other way
makes it as well. -/
structure Hull (b : Buffer) (delimiters : List Char) (depth : Depth) (p q : Position)
    (s : Selection) : Prop where
  ordered : s.anchor ≤ s.extent
  anchor : s.anchor =
    min (b.spanAt delimiters depth p).first (b.spanAt delimiters depth q).first
  extent : s.extent =
    max (b.spanAt delimiters depth p).last (b.spanAt delimiters depth q).last
  starts : b.trailAt s.anchor = false
  ends : b.leadAt s.extent = false
  reversed : ∀ screen path,
    (dragged b delimiters depth screen q (path ++ [p])).anchor = s.anchor ∧
      (dragged b delimiters depth screen q (path ++ [p])).extent = s.extent

theorem hull_dragged (hb : b.Paired) (delimiters : List Char) (depth : Depth)
    (screen : ScreenKind) (p : Position) (path : List Position) :
    (dragged b delimiters depth screen p path).Hull b delimiters depth p (path.getLastD p) := by
  obtain ⟨hanchor, hextent⟩ := ends_dragged b delimiters depth screen p path
  generalize path.getLastD p = q at hanchor hextent
  have hp := hb.whole_spanAt delimiters depth p
  have hq := hb.whole_spanAt delimiters depth q
  refine ⟨?_, hanchor, hextent, ?_, ?_, fun screen path => ?_⟩
  · rw [hanchor, hextent]
    exact Position.le_trans (Position.min_le_left _ _)
      (Position.le_trans (b.ordered_spanAt delimiters depth p) (Position.le_max_left _ _))
  · rw [hanchor]
    rcases Position.min_eq_or (b.spanAt delimiters depth p).first
      (b.spanAt delimiters depth q).first with h | h
    · rw [h]
      exact hp.1
    · rw [h]
      exact hq.1
  · rw [hextent]
    rcases Position.max_eq_or (b.spanAt delimiters depth p).last
      (b.spanAt delimiters depth q).last with h | h
    · rw [h]
      exact hp.2
    · rw [h]
      exact hq.2
  · obtain ⟨hanchor', hextent'⟩ := ends_dragged b delimiters depth screen q (path ++ [p])
    rw [List.getLastD_concat] at hanchor' hextent'
    rw [hanchor', hextent', hanchor, hextent]
    exact ⟨Position.min_comm _ _, Position.max_comm _ _⟩

/-- **A drag selects the hull of its ends.** The pointer is pressed at `p` and
dragged over a path that ends at `q`; it may have been anywhere in between, and
without a path `q` is `p`. The selection goes from the earlier start to the later
end of what clicks at `p` and at `q` take, and neither of its ends tears a glyph.
A drag from `q` to `p` makes the same one. When lines are gone from the start of
the buffer, the selection is given up and left alone exactly if some of it was
among them. Otherwise it is the one that the same drag makes in what is left, and
has all these properties there. -/
theorem dragged_is_hull (hb : b.Paired) (delimiters : List Char) (depth : Depth)
    (screen : ScreenKind) (p : Position) (path : List Position) :
    let q := path.getLastD p
    let s := dragged b delimiters depth screen p path
    s.Hull b delimiters depth p q ∧
      ∀ count, (s.rebase count = (false, s) ↔ s.anchor.line < count) ∧
        ((s.rebase count).1 = true →
          let b' := b.dropLines count
          let s' := (s.rebase count).2
          s' = dragged b' delimiters depth screen (p.up count) (path.map (·.up count)) ∧
            s'.Hull b' delimiters depth (p.up count) (q.up count)) := by
  intro q s
  refine ⟨hull_dragged hb delimiters depth screen p path, fun count => ?_⟩
  rcases Nat.lt_or_ge s.anchor.line count with hlt | hle
  · have hlost := rebase_of_lt hlt
    refine ⟨⟨fun _ => hlt, fun _ => hlost⟩, fun htrue => ?_⟩
    rw [hlost] at htrue
    cases htrue
  · have hkept := rebase_of_le hle
    have hup : s.up count = _ := up_dragged hle
    have hlast : (path.map (·.up count)).getLastD (p.up count) = q.up count := by
      simp only [List.getLastD_eq_getLast?, List.getLast?_map, q, Option.getD_map]
    rw [hkept]
    refine ⟨⟨fun hfalse => (by cases hfalse), fun hlt => absurd hlt (Nat.not_lt_of_le hle)⟩,
      fun _ => ⟨hup, ?_⟩⟩
    dsimp only
    rw [hup, ← hlast]
    exact hull_dragged (hb.dropLines count) delimiters depth screen _ _

/-- A double click at a word that starts with a wide glyph in the line above, and
a drag over the first line to the word behind it. The first line does not matter,
and it may go. When the next one goes as well, the selection is given up. -/
theorem dragged_is_hull_wrapped :
    let b : Buffer := ⟨[⟨[Cell.ofGlyph 'x' {}, Cell.ofGlyph ' ' {}, Cell.ofGlyph ' ' {},
        Cell.ofGlyph ' ' {}], .hard 1⟩,
      ⟨[Cell.ofGlyph 'a' {}, Cell.ofGlyph ' ' {}] ++ Cell.halves 2 '\u3042' {}, .wrapped⟩,
      ⟨[Cell.ofGlyph 'b' {}, Cell.ofGlyph ',' {}, Cell.ofGlyph 'c' {}, Cell.ofGlyph ' ' {}],
        .hard 3⟩], 4⟩
    let s := dragged b [','] .word .primary ⟨2, 0⟩ [⟨0, 0⟩, ⟨2, 2⟩]
    b.Paired ∧ s.anchor = ⟨1, 2⟩ ∧ s.extent = ⟨2, 2⟩ ∧ s.rebase 2 = (false, s) ∧
      (s.rebase 1).2 =
        dragged (b.dropLines 1) [','] .word .primary ⟨1, 0⟩ [⟨0, 0⟩, ⟨1, 2⟩] := by
  intro b s
  have hsingle := fun glyph => Row.Paired.ofGlyph glyph {}
  have hblanks := ((hsingle ' ').append (hsingle ' ')).append (hsingle ' ')
  have hb : b.Paired := by
    refine ⟨fun row hrow => ?_, fun row hrow => ?_⟩
    · simp only [b, List.mem_cons, List.not_mem_nil, or_false] at hrow
      obtain rfl | rfl | rfl := hrow <;> rfl
    · simp only [b, List.mem_cons, List.not_mem_nil, or_false] at hrow
      obtain rfl | rfl | rfl := hrow
      · exact (hsingle 'x').append hblanks
      · exact ((hsingle 'a').append (hsingle ' ')).append (.halves 2 '\u3042' {})
      · exact (((hsingle 'b').append (hsingle ',')).append (hsingle 'c')).append (hsingle ' ')
  obtain ⟨hull, hrebase⟩ := dragged_is_hull hb [','] .word .primary ⟨2, 0⟩ [⟨0, 0⟩, ⟨2, 2⟩]
  have hanchor : s.anchor = ⟨1, 2⟩ := hull.anchor.trans (by decide +kernel)
  have hextent : s.extent = ⟨2, 2⟩ := hull.extent.trans (by decide +kernel)
  have hkept : (s.rebase 1).1 = true := by
    have hle : 1 ≤ s.anchor.line := hanchor ▸ Nat.le_refl 1
    rw [rebase_of_le hle]
  refine ⟨hb, hanchor, hextent, (hrebase 2).1.2 ?_, ((hrebase 1).2 hkept).1⟩
  change s.anchor.line < 2
  rw [hanchor]
  decide

end Selection

end VideoTerminal
