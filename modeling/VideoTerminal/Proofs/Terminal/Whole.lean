import VideoTerminal.Proofs.Row.Tiled
import VideoTerminal.Proofs.Terminal.Reach
/-!
# Glyphs stay whole

A wide glyph fills two cells, and many edits cut between the two. No row that
a terminal shows or remembers ever holds one half without the other.
-/

namespace VideoTerminal

namespace Terminal

variable {π : Type} [Printer π] {rows cols : Nat} {t : Terminal π}

/-- **Wide glyphs are never torn**, whatever the tables say about widths, as
long as the blank and the letter of the alignment pattern fill one column. In
every row of either screen and of its history the left halves are exactly the
cells before a right half, no cell is both, and none in the first column is a
right half; the glyph of a left half fills two columns, that of a right half
is a blank, and every other one fills one column. So the glyphs of a row fill
its columns exactly. -/
theorem untorn_of_reach [Glyph.Widths] (hspace : Glyph.width ' ' = 1)
    (hletter : Glyph.width 'E' = 1) (h : Reach rows cols t) (kind : ScreenKind) {row : Row}
    (hrow : row ∈ (t.screenOf kind).grid.rows ∨ row ∈ (t.screenOf kind).history.lines) :
    row.cells.length = cols ∧
      (∀ i, row.leadAt i = true ↔ i + 1 < cols ∧ row.trailAt (i + 1) = true) ∧
      (∀ c ∈ row.cells, ¬ (c.isLead = true ∧ c.isTrail = true)) ∧
      row.trailAt 0 = false ∧
      (∀ c ∈ row.cells,
        (c.isLead = true → Glyph.width c.glyph = 2) ∧
          (c.isTrail = true → c.glyph = ' ') ∧
          (c.isLead = false → c.isTrail = false → Glyph.width c.glyph = 1)) ∧
      Glyph.columns row.glyphs = cols := by
  have hfits := (h.sound Row.law_fits).screenOf kind
  have htiled := (h.sound (Row.law_tiled hspace hletter)).screenOf kind
  have hwidth : row.cells.length = cols := by
    rcases hrow with hrow | hrow
    · exact (hfits.shown row hrow).width
    · exact (hfits.kept row hrow).width
  have hrow : Row.Tiled row.cells := by
    rcases hrow with hrow | hrow
    · exact htiled.shown row hrow
    · exact htiled.kept row hrow
  refine ⟨hwidth, fun i => ?_, fun c hc => (hrow.of_mem hc).1, hrow.trail_zero,
    fun c hc => (hrow.of_mem hc).2, (hrow.columns_glyphs row.ending).trans hwidth⟩
  have hpair : row.leadAt i = row.trailAt (i + 1) := hrow.lead_eq_trail i
  rw [hpair]
  constructor
  · intro htrail
    refine ⟨Nat.lt_of_not_le fun hout => ?_, htrail⟩
    -- outside the row there are no right halves
    have hnone : row.cells[i + 1]? = none := List.getElem?_eq_none (by omega)
    unfold Row.trailAt at htrail
    rw [hnone] at htrail
    cases htrail
  · exact fun htrail => htrail.2

attribute [local instance] Glyph.unicode

/-- Two wide glyphs, the first of which a letter overwrites by its right half;
an inserted blank then pushes the second to the margin. -/
theorem untorn_of_reach_overwritten :
    let t := ((plain 1 5).feed [0xE3, 0x81, 0x82, 0xE3, 0x81, 0x84, 0x1B, 0x5B, 0x32, 0x47, 0x78,
      0x1B, 0x5B, 0x40]).terminal
    let row : Row := t.primary.grid.rows.headD default
    (Glyph.width ' ' = 1 ∧ Glyph.width 'E' = 1 ∧ Reach 1 5 t ∧ row ∈ t.primary.grid.rows) ∧
      row.glyphs = [' ', 'x', ' ', '\u3044'] ∧ row.leadAt 3 = true ∧ row.trailAt 4 = true ∧
      Glyph.columns row.glyphs = 5 := by
  intro t row
  have hreach : Reach 1 5 t := (reach_plain 1 5 (by decide) (by decide)).feed _
  have hrow : row ∈ t.primary.grid.rows := by decide +kernel
  have hlead : row.leadAt 3 = true := by decide +kernel
  obtain ⟨-, hpair, -, -, -, hsum⟩ := untorn_of_reach Glyph.width_space Glyph.width_letter hreach
    .primary (Or.inl hrow)
  exact ⟨⟨Glyph.width_space, Glyph.width_letter, hreach, hrow⟩, by decide +kernel, hlead,
    ((hpair 3).1 hlead).2, hsum⟩

end Terminal

end VideoTerminal
