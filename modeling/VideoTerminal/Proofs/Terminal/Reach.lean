import VideoTerminal.Proofs.Terminal.Sound
/-!
# Reachable terminals

A terminal is created, and from then on a host drives it: it feeds what the
child program sends, and calls the rest of the interface in any order. The
terminals that come about so are the reachable ones, each with the size that
was asked for last. All of them are sound.
-/

namespace VideoTerminal

namespace Terminal

section Reachable

variable [Glyph.Widths] {π : Type} [Printer π] {P : Nat → Row → Prop} {rows cols : Nat}
  {t : Terminal π}

/-- The terminal came about by calls of the host, the last of which that
chose a size chose this one. A call that is refused leaves the terminal as it
is, and a printer may fail at any time. -/
inductive Reach : Nat → Nat → Terminal π → Prop
  | create {config : Config} {t : Terminal π} (h : Terminal.create config = .ok t) :
      Reach config.rows config.cols t
  | feed {rows cols : Nat} {t : Terminal π} (bytes : List UInt8) (h : Reach rows cols t) :
      Reach rows cols (t.feed bytes).terminal
  | resize {rows cols height width : Nat} {t t' : Terminal π}
      (hr : t.resize height width = .ok t') (h : Reach rows cols t) : Reach height width t'
  | point {rows cols : Nat} {t : Terminal π} (p : Pointer) (h : Reach rows cols t) :
      Reach rows cols (t.point p)
  | countClick {rows cols : Nat} {t : Terminal π} (press : Press) (h : Reach rows cols t) :
      Reach rows cols (t.countClick press)
  | scrollView {rows cols : Nat} {t : Terminal π} (distance : Int) (h : Reach rows cols t) :
      Reach rows cols (t.scrollView distance)
  | changeScreen {rows cols : Nat} {t : Terminal π} (kind : ScreenKind) (h : Reach rows cols t) :
      Reach rows cols (t.changeScreen kind)
  | fullReset {rows cols : Nat} {t : Terminal π} (h : Reach rows cols t) :
      Reach rows cols t.fullReset
  | typeBytes {rows cols : Nat} {t : Terminal π} (bytes : List UInt8) (h : Reach rows cols t) :
      Reach rows cols (t.typeBytes bytes)
  | paste {rows cols : Nat} {t : Terminal π} (bytes : List UInt8) (h : Reach rows cols t) :
      Reach rows cols (t.paste bytes)
  | clearSelection {rows cols : Nat} {t : Terminal π} (h : Reach rows cols t) :
      Reach rows cols t.clearSelection
  | clearMarks {rows cols : Nat} {t : Terminal π} (h : Reach rows cols t) :
      Reach rows cols t.clearMarks
  | drained {rows cols : Nat} {t : Terminal π} (h : Reach rows cols t) : Reach rows cols t.drained
  | usePrinter {rows cols : Nat} {t : Terminal π} (printer : π) (h : Reach rows cols t) :
      Reach rows cols (t.usePrinter printer)
  | closePipe {rows cols : Nat} {t : Terminal π} (h : Reach rows cols t) :
      Reach rows cols t.closePipe
  | shutdown {rows cols : Nat} {t : Terminal π} (h : Reach rows cols t) :
      Reach rows cols t.shutdown

/-- A terminal of a size, with all else as it usually is and no printer yet. -/
def plain (rows cols : Nat) : Terminal Spool :=
  ((create (Config.ofSize rows cols)).toOption).getD default

theorem reach_plain (rows cols : Nat) (hrows : 0 < rows) (hcols : 0 < cols) :
    Reach rows cols (plain rows cols) := by
  have hsize : (Config.ofSize rows cols).fault? = none := by
    unfold Config.fault? Config.sizeFault?
    rw [if_neg]
    change ¬ (rows = 0 ∨ cols = 0)
    omega
  have hcreate : create (Config.ofSize rows cols) = .ok (plain rows cols) := by
    unfold plain create
    rw [hsize]
    rfl
  exact Reach.create hcreate

/-- Both screens of a reachable terminal are sound at its size, and their rows
have every property that no edit breaks. -/
theorem Reach.sound (law : Row.Law P) (h : Reach rows cols t) :
    t.Sound P rows cols := by
  induction h with
  | create h => exact Sound.create law h
  | feed bytes _ ih => exact ih.feed law bytes
  | resize hr _ ih => exact ih.resize law hr
  | point p _ ih => exact ih.point p
  | scrollView distance _ ih => exact ih.viewAt _
  | changeScreen kind _ ih => exact ih.changeScreen kind
  | fullReset _ ih => exact ih.fullReset law
  | typeBytes bytes _ ih => exact ih.typeBytes bytes
  | paste bytes _ ih => exact ih.paste bytes
  | clearMarks _ ih => exact ih.clearMarks
  | countClick | clearSelection | drained | usePrinter | closePipe | shutdown =>
    rename_i ih
    exact ih.of_eq rfl rfl

/-- **Every reachable terminal is well formed.** On both screens the cursor
and the saved cursor lie in the grid, the region lies in the grid and has a
row, a wrap is pending only in the last column while lines wrap, the grid has
its height, every row of the grid and of the history has the width of the
screen and ends within it, and the history keeps to its capacity; that of the
alternate screen is empty. -/
theorem wellFormed_of_reach (h : Reach rows cols t) (kind : ScreenKind) :
    let s := t.screenOf kind
    (s.cursor.row < rows ∧ s.cursor.col < cols) ∧
      (s.region.top ≤ s.region.bottom ∧ s.region.bottom < rows) ∧
      (∀ c, s.saved = some c → c.cursor.row < rows ∧ c.cursor.col < cols) ∧
      (s.modes.wrapPending = true → s.cursor.col = cols - 1 ∧ s.modes.autowrap = true) ∧
      s.grid.rows.length = rows ∧
      (∀ row, row ∈ s.grid.rows ∨ row ∈ s.history.lines →
        row.cells.length = cols ∧
          (row.ending = .wrapped ∨ ∃ n, row.ending = .hard n ∧ n ≤ cols)) ∧
      s.history.length ≤ s.history.capacity ∧
      (kind = .alternate → s.history.lines = []) := by
  have hs := (h.sound Row.law_fits).screenOf kind
  refine ⟨⟨hs.row, hs.col⟩, ⟨hs.ordered, hs.bottom⟩, hs.saved, hs.wrap, hs.height, ?_,
    hs.capacity, ?_⟩
  · intro row hrow
    have hfits : Row.Fits cols row := by
      rcases hrow with hrow | hrow
      · exact hs.shown row hrow
      · exact hs.kept row hrow
    refine ⟨hfits.width, ?_⟩
    have hwithin := hfits.within
    cases hending : row.ending with
    | wrapped => exact Or.inl rfl
    | hard n => exact Or.inr ⟨n, rfl, hwithin n hending⟩
  · rintro rfl
    exact hs.history_nil

end Reachable

attribute [local instance] Glyph.unicode

/-- A line that is filled leaves a wrap pending, in the last column. -/
theorem wellFormed_of_reach_filled :
    let t := ((plain 2 3).feed [0x61, 0x62, 0x63]).terminal
    Reach 2 3 t ∧ t.primary.modes.wrapPending = true ∧
      t.primary.cursor.col = 2 ∧ t.primary.modes.autowrap = true := by
  have hreach := (reach_plain 2 3 (by decide) (by decide)).feed [0x61, 0x62, 0x63]
  have hwrap : ((plain 2 3).feed [0x61, 0x62, 0x63]).terminal.primary.modes.wrapPending = true := by
    decide
  exact ⟨hreach, hwrap, (wellFormed_of_reach hreach .primary).2.2.2.1 hwrap⟩

end Terminal

end VideoTerminal
