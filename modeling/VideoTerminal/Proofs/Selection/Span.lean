import VideoTerminal.Selection.Selector
/-!
# Selections lie in the buffer

Whatever a click takes starts and ends in lines of the buffer, in that order,
and so does every selection, however it is extended.
-/

namespace VideoTerminal

namespace Position

theorem line_min_le (p q : Position) : (min p q).line ≤ p.line := by
  change (if p ≤ q then p else q).line ≤ p.line
  split
  · exact Nat.le_refl _
  · rename_i h
    rw [le_def] at h
    omega

theorem le_line_max (p q : Position) : p.line ≤ (max p q).line := by
  change p.line ≤ (if p ≤ q then q else p).line
  split
  · rename_i h
    rw [le_def] at h
    omega
  · exact Nat.le_refl _

theorem line_max_lt {p q : Position} {n : Nat} (hp : p.line < n) (hq : q.line < n) :
    (max p q).line < n := by
  change (if p ≤ q then q else p).line < n
  split
  · exact hq
  · exact hp

end Position

namespace Buffer

variable {b : Buffer}

@[simp] theorem line_lead (b : Buffer) (p : Position) : (b.lead p).line = p.line := by
  unfold lead
  split <;> rfl

@[simp] theorem line_glyphEnd (b : Buffer) (p : Position) : (b.glyphEnd p).line = p.line := by
  unfold glyphEnd
  split <;> rfl

theorem line_le_of_prev? {p q : Position} (h : b.prev? p = some q) : q.line ≤ p.line := by
  unfold prev? at h
  split at h
  · cases h
    exact Nat.le_refl _
  · split at h
    · cases h
      exact Nat.sub_le _ _
    · cases h

/-- Going on stays in the buffer. -/
theorem line_of_next? {p q : Position} (h : b.next? p = some q) :
    p.line ≤ q.line ∧ (p.line < b.total → q.line < b.total) := by
  unfold next? at h
  split at h
  · cases h
    exact ⟨Nat.le_refl _, id⟩
  · split at h
    · rename_i hin
      cases h
      exact ⟨Nat.le_succ _, fun _ => hin.1⟩
    · cases h

theorem line_wordStart_le (b : Buffer) (delimiters : List Char) (kind : GlyphClass)
    (p : Position) : (b.wordStart delimiters kind p).line ≤ p.line := by
  fun_induction Buffer.wordStart b delimiters kind p with
  | case1 => exact Nat.le_refl _
  | case2 p q hprev _ _ ih =>
    have hq := line_le_of_prev? hprev
    rw [line_lead] at ih
    omega
  | case3 => exact Nat.le_refl _

theorem line_wordEnd (b : Buffer) (delimiters : List Char) (kind : GlyphClass) (p : Position) :
    p.line ≤ (b.wordEnd delimiters kind p).line ∧
      (p.line < b.total → (b.wordEnd delimiters kind p).line < b.total) := by
  fun_induction Buffer.wordEnd b delimiters kind p with
  | case1 => exact ⟨Nat.le_refl _, id⟩
  | case2 p q hnext _ _ ih =>
    obtain ⟨hle, hlt⟩ := line_of_next? hnext
    rw [line_glyphEnd] at ih
    exact ⟨Nat.le_trans hle ih.1, fun hp => ih.2 (hlt hp)⟩
  | case3 => exact ⟨Nat.le_refl _, id⟩

theorem textStart_le (b : Buffer) (line : Nat) : b.textStart line ≤ line := by
  induction line with
  | zero => exact Nat.le_refl _
  | succ line ih =>
    unfold textStart
    split
    · exact Nat.le_succ_of_le ih
    · exact Nat.le_refl _

theorem textEnd_bounds (b : Buffer) (line : Nat) :
    line ≤ b.textEnd line ∧ (line < b.total → b.textEnd line < b.total) := by
  fun_induction Buffer.textEnd b line with
  | case1 line h ih => exact ⟨Nat.le_trans (Nat.le_succ _) ih.1, fun _ => ih.2 h.1⟩
  | case2 => exact ⟨Nat.le_refl _, id⟩

end Buffer

/-- The lines of a piece of a buffer of so many lines. -/
structure Span.Within (total : Nat) (s : Span) : Prop where
  ordered : s.first.line ≤ s.last.line
  inside : s.last.line < total

/-- **What a click takes lies in the buffer.** -/
theorem Buffer.within_spanAt {b : Buffer} (h : b.isEmpty = false) (delimiters : List Char)
    (depth : Depth) (p : Position) : (b.spanAt delimiters depth p).Within b.total := by
  have hclamp : (b.lead (b.clamp p)).line < b.total := by
    rw [line_lead]
    change min p.line (b.total - 1) < b.total
    unfold isEmpty at h
    simp only [Bool.or_eq_false_iff, beq_eq_false_iff_ne] at h
    omega
  unfold spanAt spanOf
  rw [h]
  generalize b.lead (b.clamp p) = q at hclamp
  cases depth with
  | glyph =>
    refine ⟨?_, ?_⟩
    · exact Nat.le_of_eq (line_glyphEnd b q).symm
    · change (b.glyphEnd q).line < b.total
      rw [line_glyphEnd]
      exact hclamp
  | word =>
    have hstart := b.line_wordStart_le delimiters (b.classAt delimiters q) q
    have hend := b.line_wordEnd delimiters (b.classAt delimiters q) (b.glyphEnd q)
    rw [line_glyphEnd] at hend
    exact ⟨Nat.le_trans hstart hend.1, hend.2 hclamp⟩
  | line =>
    have hstart := b.textStart_le q.line
    have hend := b.textEnd_bounds q.line
    exact ⟨Nat.le_trans hstart hend.1, hend.2 hclamp⟩

namespace Selection

/-- The lines of a selection in a buffer of so many lines. What the first
click took is part of it. -/
structure Within (total : Nat) (s : Selection) : Prop where
  origin : s.origin.first.line ≤ s.origin.last.line
  covers : s.origin.last.line ≤ s.extent.line
  ordered : s.anchor.line ≤ s.extent.line
  inside : s.extent.line < total

theorem within_start {b : Buffer} (h : b.isEmpty = false) (delimiters : List Char) (p : Position)
    (depth : Depth) (screen : ScreenKind) :
    (Selection.start b delimiters p depth screen).Within b.total :=
  have hspan := b.within_spanAt h delimiters depth p
  ⟨hspan.ordered, Nat.le_refl _, hspan.ordered, hspan.inside⟩

theorem Within.extendTo {b : Buffer} (h : b.isEmpty = false) {s : Selection}
    (hs : s.Within b.total) (delimiters : List Char) (p : Position) :
    (s.extendTo b delimiters p).Within b.total := by
  have hspan := b.within_spanAt h delimiters s.depth p
  have hfirst := Position.line_min_le s.origin.first (b.spanAt delimiters s.depth p).first
  have hlast := Position.le_line_max s.origin.last (b.spanAt delimiters s.depth p).last
  have horigin := hs.origin
  have hin : s.origin.last.line < b.total := Nat.lt_of_le_of_lt hs.covers hs.inside
  refine ⟨horigin, hlast, ?_, Position.line_max_lt hin hspan.inside⟩
  change (min s.origin.first (b.spanAt delimiters s.depth p).first).line ≤
    (max s.origin.last (b.spanAt delimiters s.depth p).last).line
  omega

end Selection

/-! ## Lines that are gone -/

namespace Selection

/-- A selection after lines before it are gone. -/
def up (s : Selection) (count : Nat) : Selection :=
  { s with
    anchor := s.anchor.up count
    extent := s.extent.up count
    origin := ⟨s.origin.first.up count, s.origin.last.up count⟩ }

theorem up_zero (s : Selection) : s.up 0 = s := rfl

theorem up_up (s : Selection) (m n : Nat) : (s.up m).up n = s.up (m + n) := by
  simp only [up, Position.up, Nat.sub_sub]

theorem of_shiftUp? {s s' : Selection} {count : Nat} (h : s.shiftUp? count = some s') :
    count ≤ s.anchor.line ∧ s' = s.up count := by
  unfold shiftUp? at h
  split at h
  · cases h
  · cases h
    exact ⟨by omega, rfl⟩

end Selection

/-- A selection that outlives lines that are gone moved up by as many. -/
theorem Selector.of_evicted {s : Selector} {count : Nat} {sel' : Selection}
    (h : (s.evicted count).current = some sel') :
    ∃ sel, s.current = some sel ∧ min count Position.maxLine ≤ sel.anchor.line ∧
      sel' = sel.up (min count Position.maxLine) := by
  unfold Selector.evicted at h
  split at h
  · rename_i hzero
    subst hzero
    exact ⟨sel', h, by omega, sel'.up_zero⟩
  · obtain ⟨sel, hsel, hshift⟩ := Option.bind_eq_some_iff.1 h
    exact ⟨sel, hsel, Selection.of_shiftUp? hshift⟩

end VideoTerminal
