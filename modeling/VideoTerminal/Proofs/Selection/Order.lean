import VideoTerminal.Proofs.Selection.Span
/-!
# Selections are in order

What a click takes is read from its first position to its last one, and both
lie in columns of the buffer. A selection covers what the first click took,
however it is extended, and it stays in order when lines before it are gone.
-/

namespace VideoTerminal

namespace Position

variable {p q r : Position}

theorem le_refl (p : Position) : p ≤ p := Or.inr ⟨rfl, Nat.le_refl _⟩

theorem le_trans (h : p ≤ q) (h' : q ≤ r) : p ≤ r := by
  rw [le_def] at h h' ⊢
  omega

theorem min_le_left (p q : Position) : min p q ≤ p := by
  change (if p ≤ q then p else q) ≤ p
  split
  · exact le_refl p
  · rename_i h
    rw [le_def] at h ⊢
    omega

theorem le_max_left (p q : Position) : p ≤ max p q := by
  change p ≤ if p ≤ q then q else p
  split
  · assumption
  · exact le_refl p

theorem col_min_lt {n : Nat} (hp : p.col < n) (hq : q.col < n) : (min p q).col < n := by
  change (if p ≤ q then p else q).col < n
  split
  · exact hp
  · exact hq

theorem col_max_lt {n : Nat} (hp : p.col < n) (hq : q.col < n) : (max p q).col < n := by
  change (if p ≤ q then q else p).col < n
  split
  · exact hq
  · exact hp

/-- Lines that are gone before both positions leave their order. -/
theorem up_le_up {count : Nat} (h : p ≤ q) (hcount : count ≤ p.line) : p.up count ≤ q.up count := by
  rw [le_def] at h ⊢
  simp only [up]
  omega

theorem line_le (h : p ≤ q) : p.line ≤ q.line := by
  rw [le_def] at h
  omega

end Position

namespace Buffer

variable {b : Buffer} {p q : Position}

theorem lastCol_lt (h : b.isEmpty = false) : b.lastCol < b.cols := by
  unfold isEmpty at h
  simp only [Bool.or_eq_false_iff, beq_eq_false_iff_ne] at h
  unfold lastCol
  omega

/-! ## Glyphs -/

theorem lead_le (b : Buffer) (p : Position) : b.lead p ≤ p := by
  unfold lead
  split
  · exact Or.inr ⟨rfl, Nat.sub_le _ _⟩
  · exact Position.le_refl p

theorem col_lead_lt (h : p.col < b.cols) : (b.lead p).col < b.cols := by
  have hle := b.lead_le p
  rw [Position.le_def, line_lead] at hle
  omega

theorem le_glyphEnd (b : Buffer) (p : Position) : p ≤ b.glyphEnd p := by
  unfold glyphEnd
  split
  · exact Or.inr ⟨rfl, Nat.le_succ _⟩
  · exact Position.le_refl p

theorem col_glyphEnd_lt (h : p.col < b.cols) : (b.glyphEnd p).col < b.cols := by
  unfold glyphEnd lastCol
  split
  · dsimp only
    omega
  · exact h

/-! ## Words and lines of text -/

theorem le_of_prev? (h : b.prev? p = some q) : q ≤ p := by
  unfold prev? at h
  split at h
  · cases h
    exact Or.inr ⟨rfl, Nat.sub_le _ _⟩
  · split at h
    · cases h
      exact Or.inl (by dsimp only; omega)
    · cases h

theorem col_prev?_lt (hb : b.isEmpty = false) (hp : p.col < b.cols) (h : b.prev? p = some q) :
    q.col < b.cols := by
  unfold prev? at h
  split at h
  · cases h
    exact Nat.lt_of_le_of_lt (Nat.sub_le _ _) hp
  · split at h
    · cases h
      exact lastCol_lt hb
    · cases h

theorem le_of_next? (h : b.next? p = some q) : p ≤ q := by
  unfold next? at h
  split at h
  · cases h
    exact Or.inr ⟨rfl, Nat.le_succ _⟩
  · split at h
    · cases h
      exact Or.inl (Nat.lt_succ_self _)
    · cases h

theorem col_next?_lt (hb : b.isEmpty = false) (h : b.next? p = some q) : q.col < b.cols := by
  have hlast := lastCol_lt hb
  unfold next? at h
  split at h
  · cases h
    dsimp only
    omega
  · split at h
    · cases h
      exact Nat.zero_lt_of_lt hlast
    · cases h

theorem wordStart_le (b : Buffer) (delimiters : List Char) (kind : GlyphClass) (p : Position) :
    b.wordStart delimiters kind p ≤ p := by
  fun_induction Buffer.wordStart b delimiters kind p with
  | case1 => exact Position.le_refl _
  | case2 p q hprev _ _ ih =>
    exact Position.le_trans ih (Position.le_trans (b.lead_le q) (le_of_prev? hprev))
  | case3 => exact Position.le_refl _

theorem col_wordStart_lt (hb : b.isEmpty = false) (delimiters : List Char) (kind : GlyphClass)
    (hp : p.col < b.cols) : (b.wordStart delimiters kind p).col < b.cols := by
  fun_induction Buffer.wordStart b delimiters kind p with
  | case1 => exact hp
  | case2 p q hprev _ _ ih => exact ih (col_lead_lt (col_prev?_lt hb hp hprev))
  | case3 => exact hp

theorem le_wordEnd (b : Buffer) (delimiters : List Char) (kind : GlyphClass) (p : Position) :
    p ≤ b.wordEnd delimiters kind p := by
  fun_induction Buffer.wordEnd b delimiters kind p with
  | case1 => exact Position.le_refl _
  | case2 p q hnext _ _ ih =>
    exact Position.le_trans (Position.le_trans (le_of_next? hnext) (b.le_glyphEnd q)) ih
  | case3 => exact Position.le_refl _

theorem col_wordEnd_lt (hb : b.isEmpty = false) (delimiters : List Char) (kind : GlyphClass)
    (hp : p.col < b.cols) : (b.wordEnd delimiters kind p).col < b.cols := by
  fun_induction Buffer.wordEnd b delimiters kind p with
  | case1 => exact hp
  | case2 p q hnext _ _ ih => exact ih (col_glyphEnd_lt (col_next?_lt hb hnext))
  | case3 => exact hp

end Buffer

/-- The ends of a piece of a buffer of so many columns. -/
structure Span.Laid (cols : Nat) (s : Span) : Prop where
  ordered : s.first ≤ s.last
  first : s.first.col < cols
  last : s.last.col < cols

/-- **What a click takes is in order.** -/
theorem Buffer.laid_spanAt {b : Buffer} (h : b.isEmpty = false) (delimiters : List Char)
    (depth : Depth) (p : Position) : (b.spanAt delimiters depth p).Laid b.cols := by
  have hlast := lastCol_lt h
  have hclamp : (b.lead (b.clamp p)).col < b.cols :=
    col_lead_lt (Nat.lt_of_le_of_lt (Nat.min_le_right _ _) hlast)
  unfold spanAt spanOf
  rw [h]
  generalize b.lead (b.clamp p) = q at hclamp
  cases depth with
  | glyph => exact ⟨b.le_glyphEnd q, hclamp, col_glyphEnd_lt hclamp⟩
  | word =>
    have hstart := b.wordStart_le delimiters (b.classAt delimiters q) q
    have hend := b.le_wordEnd delimiters (b.classAt delimiters q) (b.glyphEnd q)
    exact ⟨Position.le_trans (Position.le_trans hstart (b.le_glyphEnd q)) hend,
      col_wordStart_lt h _ _ hclamp, col_wordEnd_lt h _ _ (col_glyphEnd_lt hclamp)⟩
  | line =>
    have hline : b.textStart q.line ≤ b.textEnd q.line :=
      Nat.le_trans (b.textStart_le q.line) (b.textEnd_bounds q.line).1
    refine ⟨?_, Nat.zero_lt_of_lt hlast, hlast⟩
    rcases Nat.lt_or_eq_of_le hline with hlt | heq
    · exact Or.inl hlt
    · exact Or.inr ⟨heq, Nat.zero_le _⟩

namespace Selection

/-- The ends of a selection, with what the first click took between them. -/
structure Laid (cols : Nat) (s : Selection) : Prop where
  covers_first : s.anchor ≤ s.origin.first
  origin : s.origin.Laid cols
  covers_last : s.origin.last ≤ s.extent
  anchor : s.anchor.col < cols
  extent : s.extent.col < cols

variable {b : Buffer} {s : Selection} {cols : Nat}

theorem laid_start (h : b.isEmpty = false) (delimiters : List Char) (p : Position)
    (depth : Depth) (screen : ScreenKind) :
    (Selection.start b delimiters p depth screen).Laid b.cols :=
  have hspan := b.laid_spanAt h delimiters depth p
  ⟨Position.le_refl _, hspan, Position.le_refl _, hspan.first, hspan.last⟩

theorem Laid.extendTo (h : b.isEmpty = false) (hs : s.Laid b.cols) (delimiters : List Char)
    (p : Position) : (s.extendTo b delimiters p).Laid b.cols :=
  have hspan := b.laid_spanAt h delimiters s.depth p
  ⟨Position.min_le_left _ _, hs.origin, Position.le_max_left _ _,
    Position.col_min_lt hs.origin.first hspan.first, Position.col_max_lt hs.origin.last hspan.last⟩

/-- Lines that are gone before a selection leave it in order. -/
theorem Laid.up (hs : s.Laid cols) {count : Nat} (hcount : count ≤ s.anchor.line) :
    (s.up count).Laid cols := by
  have hfirst := Nat.le_trans hcount (Position.line_le hs.covers_first)
  have hlast := Nat.le_trans hfirst (Position.line_le hs.origin.ordered)
  exact ⟨Position.up_le_up hs.covers_first hcount,
    ⟨Position.up_le_up hs.origin.ordered hfirst, hs.origin.first, hs.origin.last⟩,
    Position.up_le_up hs.covers_last hlast, hs.anchor, hs.extent⟩

end Selection

end VideoTerminal
