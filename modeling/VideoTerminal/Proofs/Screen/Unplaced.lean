import VideoTerminal.Proofs.Row.Pieces
import VideoTerminal.Proofs.Screen.Typed
import VideoTerminal.Proofs.Terminal.Reach
/-!
# Characters that are not written

A character without columns is not written, and neither is a wide one for which
there is no room on the row and no wrap that makes room. What has no columns
changes nothing at all. A wide one may come while a wrap is pending, and then
the wrap is made before it shows whether there is room behind it: in a line of
one column there is none, so the character is dropped, but the row is marked as
going on and the cursor has left it. Everywhere else the screen stays as it is.
-/

namespace VideoTerminal

/-! ## Rows -/

/-- Where there is room for a glyph, it stands in its place afterwards. -/
theorem Row.getElem?_write [Glyph.Widths] {row : Row} {col : Nat} {glyph : Char}
    (h : row.room col glyph ≠ 0) (r : Rendition) :
    (row.write col glyph r).cells[col]? = (Cell.halves (Glyph.width glyph) glyph r).head? := by
  obtain ⟨hwidth, hfits⟩ := room_eq_width h
  have hcol : col < (row.mendSpan col (row.room col glyph) r.blank).cells.length := by
    rw [← cols, cols_mendSpan]
    omega
  unfold Row.write
  split
  · rename_i hnone
    exact absurd hnone h
  · rw [cells_extendTo, hwidth]
    rw [hwidth] at hcol
    unfold Row.place Cell.halves
    dsimp only
    split
    · rw [List.getElem?_set_self hcol]
      rfl
    · rw [List.getElem?_set_ne (Nat.succ_ne_self col), List.getElem?_set_self hcol]
      rfl

namespace Screen

variable {P : Nat → Row → Prop} {kind : ScreenKind} {rows cols : Nat} {s : Screen} {c glyph : Char}

section

variable [Glyph.Widths]

/-- The character has no columns, or it is wide and neither the row has room for
it nor is there a wrap that makes room. -/
def Unplaced (s : Screen) (c : Char) : Prop :=
  Glyph.width (s.charsets.current.translate c) = 0 ∨
    Glyph.width (s.charsets.current.translate c) = 2 ∧
      (s.modes.wrapPending = true ∨ s.cols ≤ s.cursor.col + 1) ∧
      ¬ (s.modes.autowrap = true ∧ 2 ≤ s.cols)

instance (s : Screen) (c : Char) : Decidable (s.Unplaced c) := inferInstanceAs (Decidable (_ ∨ _))

/-- The glyph of a character stands where the cursor of a screen is, after the
character was written. -/
def Stands (s ready : Screen) (c : Char) : Prop :=
  let set := s.charsets.current
  (s.print c).grid.cell? ready.cursor.row ready.cursor.col =
    (Cell.halves (Glyph.width (set.translate c)) (set.translate c)
      (s.rendition.withFlags set.font)).head?

/-! ## Written -/

/-- A glyph is put where the cursor is, if the row has room for it there. -/
theorem cell?_place (h : s.Sound Row.Fits kind rows cols) (hpos : Glyph.width glyph ≠ 0)
    (hroom : s.cursor.col + Glyph.width glyph ≤ cols) (font : Flags) :
    (s.place glyph (Glyph.width glyph) font).grid.cell? s.cursor.row s.cursor.col =
      (Cell.halves (Glyph.width glyph) glyph (s.rendition.withFlags font)).head? := by
  have hadvance : ∀ (s : Screen) (width : Nat), (s.advance width).grid = s.grid := by
    intro s width
    unfold advance
    dsimp only
    split <;> rfl
  have hrow : s.cursor.row < s.grid.rows.length := h.height.symm ▸ h.row
  have hfits : s.grid.rows[s.cursor.row].cols = cols := (h.shown _ (List.getElem_mem hrow)).width
  have hline : ∀ row : Row, row.cols = cols → row.room s.cursor.col glyph ≠ 0 := by
    intro row hcols hnone
    rcases (Row.room_eq_zero_iff row s.cursor.col glyph).1 hnone with hzero | hfull
    · exact hpos hzero
    · omega
  unfold place
  dsimp only
  rw [hadvance]
  unfold Grid.cell? editLine modifyLine damaged Grid.modifyRow
  dsimp only
  rw [List.getElem?_modify_eq, List.getElem?_eq_getElem hrow]
  refine Row.getElem?_write (hline _ ?_) _
  split
  · rw [Row.cols_insertBlanks, hfits]
  · exact hfits

omit [Glyph.Widths] in
/-- A wrap leaves the rendition. -/
theorem rendition_wrap (s : Screen) : s.wrap.rendition = s.rendition := by
  unfold wrap index
  dsimp only
  split
  · exact (rest_scrollUp _ 1).2.2.1
  · split <;> rfl

/-- **What is written stands on the screen**, where the cursor was or, behind a
wrap, where the wrap brought it. -/
theorem stands_of_placed (h : s.Sound Row.Fits kind rows cols) (hc : ¬ s.Unplaced c) :
    ∃ ready, (ready = s ∨ ready = s.wrap) ∧ s.Stands ready c := by
  obtain ⟨hpos, hroom⟩ := not_or.1 hc
  have htwo := Glyph.width_le_two (s.charsets.current.translate c)
  have hcols := h.cols_eq
  have hcol := h.col
  have hwrap := h.wrap_screen Row.law_fits
  have hplace : ∀ ready : Screen, ready.Sound Row.Fits kind rows cols →
      ready.rendition = s.rendition →
      ready.cursor.col + Glyph.width (s.charsets.current.translate c) ≤ cols →
      s.print c = ready.place (s.charsets.current.translate c)
        (Glyph.width (s.charsets.current.translate c)) s.charsets.current.font →
      s.Stands ready c := by
    intro ready hready hsame hfits heq
    unfold Stands
    dsimp only
    rw [heq, cell?_place hready hpos hfits, hsame]
  have hfirst : s.wrap.cursor.col = 0 := rfl
  have hsecond : s.wrap.cols = cols := hwrap.cols_eq
  by_cases hpending : s.modes.wrapPending = true
  · -- where a wrap is pending lines wrap, so a wide glyph has room behind it
    have hlines := (h.wrap hpending).2
    have hfits : ¬ (Glyph.width (s.charsets.current.translate c) = 2 ∧
        s.wrap.cols ≤ s.wrap.cursor.col + 1) := by
      rintro ⟨hwide, hnarrow⟩
      exact hroom ⟨hwide, Or.inl hpending, fun hwraps => by omega⟩
    refine ⟨s.wrap, Or.inr rfl, hplace s.wrap hwrap (rendition_wrap s) (by omega) ?_⟩
    unfold print
    dsimp only
    rw [if_neg hpos, if_pos hpending, if_neg hfits]
  · by_cases hmargin : Glyph.width (s.charsets.current.translate c) = 2 ∧ s.cols ≤ s.cursor.col + 1
    · have hmakes : s.modes.autowrap = true ∧ 2 ≤ s.cols :=
        Decidable.not_not.1 fun hnone => hroom ⟨hmargin.1, Or.inr hmargin.2, hnone⟩
      refine ⟨s.wrap, Or.inr rfl, hplace s.wrap hwrap (rendition_wrap s) (by omega) ?_⟩
      unfold print
      dsimp only
      rw [if_neg hpos, if_neg hpending, if_pos hmargin, if_pos hmakes]
    · refine ⟨s, Or.inl rfl, hplace s h rfl (by omega) ?_⟩
      unfold print
      dsimp only
      rw [if_neg hpos, if_neg hpending, if_neg hmargin]

/-! ## Not written -/

/-- A wide character that is not written leaves the screen to the wrap that was
pending, if there was one. -/
theorem print_of_unplaced (h : s.Sound Row.Fits kind rows cols) (hc : s.Unplaced c)
    (hwide : Glyph.width (s.charsets.current.translate c) ≠ 0) :
    s.print c = if s.modes.wrapPending then s.wrap else s := by
  obtain ⟨htwo, hfull, hnowrap⟩ := hc.resolve_left hwide
  have hcols : s.wrap.cols = s.cols := (h.wrap_screen Row.law_fits).cols_eq.trans h.cols_eq.symm
  have hfirst : s.wrap.cursor.col = 0 := rfl
  unfold print
  dsimp only
  rw [if_neg hwide]
  by_cases hpending : s.modes.wrapPending = true
  · have hnarrow : ¬ 2 ≤ s.cols := fun hroom => hnowrap ⟨(h.wrap hpending).2, hroom⟩
    have hstays : ¬ (s.wrap.modes.autowrap = true ∧ 2 ≤ s.wrap.cols) :=
      fun hwraps => hnarrow (hcols ▸ hwraps.2)
    rw [if_pos hpending, if_pos ⟨htwo, by omega⟩, if_neg hstays]
  · rw [if_neg hpending, if_pos ⟨htwo, hfull.resolve_left hpending⟩, if_neg hnowrap]

end

end Screen

namespace Terminal

variable {π : Type} [Printer π] {rows cols : Nat} {t : Terminal π}

/-- **What a character that is not written leaves behind.** A character stands
on the screen after it was written, unless it is one that has no place there.
One that has none leaves the screen exactly as it was if it has no columns or no
wrap was pending, and only then. Otherwise all lines have a single column, and
what is left is the wrap that was pending. -/
theorem print_unplaced_iff [Glyph.Widths] (h : Reach rows cols t) (kind : ScreenKind)
    (c : Char) :
    let s := t.screenOf kind
    (¬ s.Unplaced c → ∃ ready, (ready = s ∨ ready = s.wrap) ∧ s.Stands ready c) ∧
      (s.Unplaced c →
        (s.print c = s ↔
          Glyph.width (s.charsets.current.translate c) = 0 ∨ s.modes.wrapPending = false) ∧
        (s.print c ≠ s → cols = 1 ∧ s.print c = s.wrap)) := by
  intro s
  have hs : s.Sound Row.Fits kind rows cols := (h.sound Row.law_fits).screenOf kind
  refine ⟨Screen.stands_of_placed hs, fun hc => ?_⟩
  by_cases hwide : Glyph.width (s.charsets.current.translate c) = 0
  · have hsame : s.print c = s := if_pos hwide
    exact ⟨iff_of_true hsame (Or.inl hwide), fun hdiff => absurd hsame hdiff⟩
  · rw [Screen.print_of_unplaced hs hc hwide, or_iff_right hwide]
    cases hpending : s.modes.wrapPending with
    | false => exact ⟨iff_of_true rfl rfl, fun hdiff => absurd rfl hdiff⟩
    | true =>
      have hwrapped : s.wrap ≠ s := by
        intro heq
        have hnone : s.wrap.modes.wrapPending = false := Screen.Sound.wrapPending_index _
        rw [heq, hpending] at hnone
        cases hnone
      refine ⟨iff_of_false hwrapped Bool.noConfusion, fun _ => ⟨?_, rfl⟩⟩
      -- lines wrap here, so a wrap makes no room only if there is no second column
      have hnarrow : ¬ 2 ≤ s.cols :=
        fun hroom => (hc.resolve_left hwide).2.2 ⟨(hs.wrap hpending).2, hroom⟩
      have hcols := hs.cols_eq
      have hpos := hs.cols_pos
      omega

attribute [local instance] Glyph.unicode

/-- Where lines do not wrap, a wide character in the last column is dropped. -/
theorem print_unplaced_iff_unwrapped :
    let t := ((plain 2 2).feed [0x1B, 0x5B, 0x3F, 0x37, 0x6C, 0x61]).terminal
    (Reach 2 2 t ∧ (t.screenOf .primary).Unplaced '\u3042' ∧
        (t.screenOf .primary).cursor = ⟨0, 1⟩) ∧
      (t.screenOf .primary).print '\u3042' = t.screenOf .primary := by
  intro t
  have hreach : Reach 2 2 t := (reach_plain 2 2 (by decide) (by decide)).feed _
  have hunplaced : (t.screenOf .primary).Unplaced '\u3042' := by decide +kernel
  have hpending : (t.screenOf .primary).modes.wrapPending = false := by decide
  exact ⟨⟨hreach, hunplaced, by decide⟩,
    ((print_unplaced_iff hreach .primary '\u3042').2 hunplaced).1.2 (Or.inr hpending)⟩

/-- In a line of one column that is full, a wide character is dropped as well,
but the row is marked as going on and the cursor goes to the next one. -/
theorem not_print_unplaced :
    let t := ((plain 2 1).feed [0x61]).terminal
    let s := t.screenOf .primary
    (Reach 2 1 t ∧ s.Unplaced '\u3042' ∧ s.modes.wrapPending = true ∧ s.cursor = ⟨0, 0⟩ ∧
        s.grid.rows.map Row.isWrapped = [false, false]) ∧
      s.print '\u3042' ≠ s ∧
      (s.print '\u3042').modes.wrapPending = false ∧ (s.print '\u3042').cursor = ⟨1, 0⟩ ∧
      (s.print '\u3042').grid.rows.map Row.isWrapped = [true, false] ∧
      (s.print '\u3042').grid.rows.map Row.glyphs = s.grid.rows.map Row.glyphs := by
  intro t s
  have hreach : Reach 2 1 t := (reach_plain 2 1 (by decide) (by decide)).feed _
  exact ⟨⟨hreach, by decide +kernel, by decide, by decide, by decide⟩, by decide +kernel,
    by decide +kernel, by decide +kernel, by decide +kernel, by decide +kernel⟩

end Terminal

end VideoTerminal
