import VideoTerminal.Proofs.Row.Law
import VideoTerminal.Proofs.Selection.Span
/-!
# The text of a selection

A selection is a row of pieces, one for each of its lines, and a piece ends
with a line break unless the text of its row goes on. Marking rows as going
on therefore takes line breaks away, and text can only stay the same if none
is lost. This is how one sees from the text which rows were marked.
-/

namespace VideoTerminal

/-- Lists of pieces that differ only where something is lost are the same as
soon as nothing is lost from the whole. -/
theorem flatMap_eq_of_count_le {α β : Type} [BEq β] [LawfulBEq β] {f g : α → List β} {c : β}
    {l : List α} (h : ∀ x ∈ l, g x = f x ∨ (g x).count c < (f x).count c) :
    (l.flatMap g).count c ≤ (l.flatMap f).count c ∧
      ((l.flatMap f).count c ≤ (l.flatMap g).count c → ∀ x ∈ l, g x = f x) := by
  induction l with
  | nil => exact ⟨Nat.le_refl _, fun _ _ hx => absurd hx List.not_mem_nil⟩
  | cons x l ih =>
    obtain ⟨hle, heq⟩ := ih fun y hy => h y (List.mem_cons_of_mem _ hy)
    simp only [List.flatMap_cons, List.count_append]
    rcases h x List.mem_cons_self with hx | hx
    · rw [hx]
      refine ⟨by omega, fun hcount y hy => ?_⟩
      rcases List.mem_cons.1 hy with rfl | hy
      · exact hx
      · exact heq (by omega) y hy
    · exact ⟨by omega, fun hcount => absurd hcount (by omega)⟩

/-- The same with a last piece from which nothing can be lost. -/
theorem flatMap_append_eq_iff {α β : Type} [BEq β] [LawfulBEq β] {f g : α → List β} {c : β}
    {l : List α} (last : α) (h : ∀ x ∈ l, g x = f x ∨ (g x).count c < (f x).count c)
    (hlast : (g last).count c = (f last).count c) :
    l.flatMap g ++ g last = l.flatMap f ++ f last ↔ (∀ x ∈ l, g x = f x) ∧ g last = f last := by
  constructor
  · intro heq
    have hcount := congrArg (List.count c) heq
    rw [List.count_append, List.count_append, hlast] at hcount
    have hinit := (flatMap_eq_of_count_le h).2 (by omega)
    have hsame : l.flatMap g = l.flatMap f := by
      rw [List.flatMap_def, List.flatMap_def, List.map_congr_left hinit]
    rw [hsame] at heq
    exact ⟨hinit, List.append_cancel_left heq⟩
  · rintro ⟨hinit, hend⟩
    rw [hend, List.flatMap_def, List.flatMap_def, List.map_congr_left hinit]

namespace Selection

/-- What a line of a selection adds to its text if its row is the given one. -/
def piece (s : Selection) (row : Row) (line : Nat) : List Char :=
  s.rowText row line ++ if line ≠ s.extent.line ∧ !row.isWrapped then ['\n'] else []

section Pieces

variable {s : Selection} {b : Buffer} {row row' : Row} {line count : Nat}

theorem lineText_eq (h : b.lines[line]? = some row) :
    s.lineText b s.extent.line line = s.piece row line := by
  unfold lineText piece
  rw [h]

theorem lineText_up_eq (hanchor : count ≤ s.anchor.line) (hextent : count ≤ s.extent.line)
    (hline : count ≤ line) (h : b.lines[line - count]? = some row) :
    (s.up count).lineText b (s.extent.line - count) (line - count) = s.piece row line := by
  -- lines are the same before and after they move up by as many
  have hstart : line - count = s.anchor.line - count ↔ line = s.anchor.line := by omega
  have hstop : line - count = s.extent.line - count ↔ line = s.extent.line := by omega
  unfold lineText piece rowText
  rw [h]
  simp only [up, Position.up, ne_eq, hstart, hstop]

/-- The text of a selection is made of the pieces of its lines. -/
theorem text_eq (hb : b.isEmpty = false) (hs : s.Within b.total) :
    s.text b = (List.range' s.anchor.line (s.extent.line - s.anchor.line)).flatMap
      (s.lineText b s.extent.line) ++ s.lineText b s.extent.line s.extent.line := by
  have hordered := hs.ordered
  have hinside := hs.inside
  have hlast : min s.extent.line (b.total - 1) = s.extent.line := by omega
  have hcount : s.extent.line + 1 - s.anchor.line = s.extent.line - s.anchor.line + 1 := by omega
  have hend : s.anchor.line + 1 * (s.extent.line - s.anchor.line) = s.extent.line := by omega
  unfold text
  dsimp only
  rw [hb, hlast, hcount, List.range'_concat, hend, List.flatMap_append, List.flatMap_singleton]
  rfl

/-- The text of a selection that moved up, in pieces over the lines that it had
before. -/
theorem text_up_eq (hb : b.isEmpty = false) (hs : (s.up count).Within b.total)
    (hcount : count ≤ s.anchor.line) :
    (s.up count).text b = (List.range' s.anchor.line (s.extent.line - s.anchor.line)).flatMap
      (fun line => (s.up count).lineText b (s.extent.line - count) (line - count)) ++
      (s.up count).lineText b (s.extent.line - count) (s.extent.line - count) := by
  have hrange : List.range' (s.anchor.line - count)
      (s.extent.line - count - (s.anchor.line - count)) =
      (List.range' s.anchor.line (s.extent.line - s.anchor.line)).map (· - count) := by
    rw [List.map_sub_range' hcount]
    congr 1
    omega
  rw [text_eq hb hs]
  change List.flatMap _ (List.range' (s.anchor.line - count)
    (s.extent.line - count - (s.anchor.line - count))) ++ _ = _
  rw [hrange, List.flatMap_map]
  rfl

theorem newline_notMem_rowText (h : row.Unbroken) : '\n' ∉ s.rowText row line := by
  intro hmem
  obtain ⟨c, hc, hglyph⟩ := List.mem_map.1 hmem
  have hcell := List.mem_of_mem_take (List.mem_of_mem_drop (List.mem_filter.1 hc).1)
  exact h c hcell hglyph

theorem count_piece (h : row.Unbroken) :
    (s.piece row line).count '\n' = if line ≠ s.extent.line ∧ !row.isWrapped then 1 else 0 := by
  unfold piece
  rw [List.count_append, List.count_eq_zero.2 (newline_notMem_rowText h), Nat.zero_add]
  split <;> rfl

/-- Above its last line a mark leaves a piece alone or costs it a line break. -/
theorem piece_marked (hrow : row.Unbroken) (hrow' : row'.Unbroken) (h : row'.MarkedFrom row)
    (hline : line ≠ s.extent.line) :
    s.piece row' line = s.piece row line ∨
      (s.piece row' line).count '\n' < (s.piece row line).count '\n' := by
  rcases h with rfl | rfl
  · exact Or.inl rfl
  · by_cases hw : row.isWrapped = true
    · rw [Row.withEnd_wrapped hw]
      exact Or.inl rfl
    · refine Or.inr ?_
      have hlost : ¬ (line ≠ s.extent.line ∧ (!(row.withEnd .wrapped).isWrapped) = true) :=
        fun hkept => by cases hkept.2
      have hkept : line ≠ s.extent.line ∧ (!row.isWrapped) = true := ⟨hline, by simpa using hw⟩
      rw [count_piece hrow, count_piece hrow', if_neg hlost, if_pos hkept]
      exact Nat.one_pos

/-- A line of a selection whose mark does not show in its text: the last one,
if what is selected of it is the same with the mark. -/
def Unharmed (s : Selection) (row : Row) (line : Nat) : Prop :=
  line = s.extent.line ∧ s.rowText (row.withEnd .wrapped) line = s.rowText row line

/-- A piece is the same with a mark if the mark was there before, or leaves
the line unharmed. -/
theorem piece_eq_iff (hrow : row.Unbroken) (hrow' : row'.Unbroken) (h : row'.MarkedFrom row) :
    s.piece row' line = s.piece row line ↔
      (row.isWrapped = false → row'.isWrapped = true → s.Unharmed row line) := by
  rcases h with rfl | rfl
  · refine ⟨fun _ hwrapped hwrapped' => ?_, fun _ => rfl⟩
    rw [hwrapped] at hwrapped'
    cases hwrapped'
  · by_cases hwrapped : row.isWrapped = true
    · rw [Row.withEnd_wrapped hwrapped, hwrapped]
      exact ⟨fun _ hfalse => (by cases hfalse), fun _ => rfl⟩
    · have hended : row.isWrapped = false := by simpa using hwrapped
      by_cases hline : line = s.extent.line
      · -- there is no line break after the last line
        unfold piece
        rw [if_neg (fun hbreak => hbreak.1 hline), if_neg (fun hbreak => hbreak.1 hline),
          List.append_nil, List.append_nil]
        exact ⟨fun heq _ _ => ⟨hline, heq⟩, fun hunharmed => (hunharmed hended rfl).2⟩
      · refine ⟨fun heq => ?_, fun hunharmed => absurd (hunharmed hended rfl).1 hline⟩
        -- above it the mark cost a line break
        have hcount := congrArg (List.count '\n') heq
        rw [count_piece hrow, count_piece hrow', hended] at hcount
        have hmark : (row.withEnd .wrapped).isWrapped = true := rfl
        rw [hmark] at hcount
        simp [hline] at hcount

end Pieces

/-- **The text of a selection tells which of its lines were marked.** Let the
lines of a selection be found again in another buffer, each the same but for
its mark. The text is the same as before if and only if every line that got a
mark is the last one, and unharmed by it. -/
theorem text_up_eq_iff {s : Selection} {b b' : Buffer} {count : Nat}
    (hb : b.isEmpty = false) (hb' : b'.isEmpty = false) (hs : s.Within b.total)
    (hs' : (s.up count).Within b'.total) (hcount : count ≤ s.anchor.line)
    (hunbroken : ∀ row ∈ b.lines, row.Unbroken) (hunbroken' : ∀ row ∈ b'.lines, row.Unbroken)
    (hfound : ∀ line, s.anchor.line ≤ line → line ≤ s.extent.line → ∃ row row',
      b.lines[line]? = some row ∧ b'.lines[line - count]? = some row' ∧ row'.MarkedFrom row) :
    (s.up count).text b' = s.text b ↔
      ∀ line row, s.anchor.line ≤ line → line ≤ s.extent.line → b.lines[line]? = some row →
        row.isWrapped = false → b'.continues (line - count) = true → s.Unharmed row line := by
  have hordered := hs.ordered
  have hpiece : ∀ line, s.anchor.line ≤ line → line ≤ s.extent.line → ∃ row row',
      b.lines[line]? = some row ∧ b'.lines[line - count]? = some row' ∧ row'.MarkedFrom row ∧
      row.Unbroken ∧ row'.Unbroken ∧ s.lineText b s.extent.line line = s.piece row line ∧
      (s.up count).lineText b' (s.extent.line - count) (line - count) = s.piece row' line := by
    intro line hfirst hlast
    obtain ⟨row, row', hrow, hrow', hmarked⟩ := hfound line hfirst hlast
    exact ⟨row, row', hrow, hrow', hmarked, hunbroken row (List.mem_of_getElem? hrow),
      hunbroken' row' (List.mem_of_getElem? hrow'), lineText_eq hrow,
      lineText_up_eq hcount (by omega) (by omega) hrow'⟩
  have hinit : ∀ line ∈ List.range' s.anchor.line (s.extent.line - s.anchor.line),
      (s.up count).lineText b' (s.extent.line - count) (line - count) =
        s.lineText b s.extent.line line ∨
      ((s.up count).lineText b' (s.extent.line - count) (line - count)).count '\n' <
        (s.lineText b s.extent.line line).count '\n' := by
    intro line hline
    obtain ⟨hge, hlt⟩ := List.mem_range'_1.1 hline
    obtain ⟨row, row', -, -, hmarked, hrow, hrow', hold, hnew⟩ := hpiece line hge (by omega)
    rw [hold, hnew]
    exact piece_marked hrow hrow' hmarked (by omega)
  have hlast : ((s.up count).lineText b' (s.extent.line - count) (s.extent.line - count)).count
      '\n' = (s.lineText b s.extent.line s.extent.line).count '\n' := by
    obtain ⟨row, row', -, -, -, hrow, hrow', hold, hnew⟩ :=
      hpiece s.extent.line hordered (Nat.le_refl _)
    rw [hold, hnew, count_piece hrow, count_piece hrow', if_neg (fun h => h.1 rfl),
      if_neg (fun h => h.1 rfl)]
  have hsame : ∀ line, s.anchor.line ≤ line → line ≤ s.extent.line →
      ((s.up count).lineText b' (s.extent.line - count) (line - count) =
          s.lineText b s.extent.line line ↔
        ∀ row, b.lines[line]? = some row → row.isWrapped = false →
          b'.continues (line - count) = true → s.Unharmed row line) := by
    intro line hfirst hlast
    obtain ⟨row, row', hat, hat', hmarked, hrow, hrow', hold, hnew⟩ := hpiece line hfirst hlast
    have hcontinues : b'.continues (line - count) = row'.isWrapped := by
      unfold Buffer.continues
      rw [hat']
      rfl
    rw [hold, hnew, piece_eq_iff hrow hrow' hmarked, hcontinues, hat]
    exact ⟨fun hunharmed _ hrow => Option.some.inj hrow ▸ hunharmed,
      fun hunharmed => hunharmed row rfl⟩
  rw [text_eq hb hs, text_up_eq hb' hs' hcount, flatMap_append_eq_iff s.extent.line hinit hlast]
  constructor
  · rintro ⟨habove, hend⟩ line row hfirst hlast
    by_cases hline : line = s.extent.line
    · subst hline
      exact (hsame _ hfirst hlast).1 hend row
    · exact (hsame line hfirst hlast).1
        (habove line (List.mem_range'_1.2 ⟨hfirst, by omega⟩)) row
  · intro hunharmed
    refine ⟨fun line hline => ?_, (hsame _ hordered (Nat.le_refl _)).2
      fun row => hunharmed _ row hordered (Nat.le_refl _)⟩
    obtain ⟨hge, hlt⟩ := List.mem_range'_1.1 hline
    exact (hsame line hge (by omega)).2 fun row => hunharmed line row hge (by omega)

end Selection

end VideoTerminal
