import VideoTerminal.Proofs.Screen.Sound
/-!
# What changes a screen

Most operations change rows in place. They mark what they change for the
display and report it for the selection, and leave the history alone: the
screen after them *amends* the one before (`Amends`). Only a scroll of the
whole primary screen moves rows into the history, and only a wrap changes a
row that is not reported. All operations, these two included, mark what they
change (`Redraws`).
-/

namespace VideoTerminal

/-- A row is among those whose text changed. -/
def Damage.Covers (d : Damage) (i : Nat) : Prop :=
  ∃ first last, d.rows = some (first, last) ∧ first ≤ i ∧ i ≤ last

theorem Damage.covers_addRows {d : Damage} {top bottom i : Nat}
    (h : (top ≤ i ∧ i ≤ bottom) ∨ d.Covers i) : (d.addRows top bottom).Covers i := by
  unfold addRows Covers
  cases hd : d.rows with
  | none =>
    refine ⟨top, bottom, rfl, ?_⟩
    rcases h with h | ⟨_, _, hsome, _⟩
    · exact h
    · rw [hd] at hsome
      cases hsome
  | some range =>
    obtain ⟨first, last⟩ := range
    refine ⟨min first top, max last bottom, rfl, ?_⟩
    rcases h with h | ⟨_, _, hsome, h⟩
    · omega
    · rw [hd] at hsome
      cases hsome
      omega

namespace Screen

/-- Rows changed in place: the history is the same, and every row is the one
it was unless it is marked, and unless it is reported. -/
structure Amends (s s' : Screen) : Prop where
  history : s'.history = s.history
  evicted : s'.damage.evicted = s.damage.evicted
  clean : ∀ i, s'.grid.Clean i → s.grid.Clean i ∧ s'.grid.rows[i]? = s.grid.rows[i]?
  spared : ∀ i, ¬ s'.damage.Covers i →
    ¬ s.damage.Covers i ∧ s'.grid.rows[i]? = s.grid.rows[i]?

namespace Amends

variable {s s' s'' : Screen}

theorem refl (s : Screen) : s.Amends s :=
  ⟨rfl, rfl, fun _ h => ⟨h, rfl⟩, fun _ h => ⟨h, rfl⟩⟩

theorem trans (h : s.Amends s') (h' : s'.Amends s'') : s.Amends s'' where
  history := h'.history.trans h.history
  evicted := h'.evicted.trans h.evicted
  clean i hi := by
    obtain ⟨hi', hrow'⟩ := h'.clean i hi
    obtain ⟨hi, hrow⟩ := h.clean i hi'
    exact ⟨hi, hrow'.trans hrow⟩
  spared i hi := by
    obtain ⟨hi', hrow'⟩ := h'.spared i hi
    obtain ⟨hi, hrow⟩ := h.spared i hi'
    exact ⟨hi, hrow'.trans hrow⟩

/-- A screen with the same rows and the same reports amends the other. -/
theorem of_eq (hg : s'.grid = s.grid) (hh : s'.history = s.history)
    (hd : s'.damage = s.damage) : s.Amends s' := by
  refine ⟨hh, by rw [hd], fun i hi => ?_, fun i hi => ?_⟩
  · rw [hg] at hi ⊢
    exact ⟨hi, rfl⟩
  · rw [hd] at hi
    rw [hg]
    exact ⟨hi, rfl⟩

/-- Rows from `top` to `bottom` are reported, and only such rows change. -/
theorem of_range (top bottom : Nat) (hh : s'.history = s.history)
    (hd : s'.damage = s.damage.addRows top bottom)
    (hclean : ∀ i, s'.grid.Clean i → s.grid.Clean i ∧ s'.grid.rows[i]? = s.grid.rows[i]?)
    (hrows : ∀ i, ¬ (top ≤ i ∧ i ≤ bottom) → s'.grid.rows[i]? = s.grid.rows[i]?) :
    s.Amends s' := by
  refine ⟨hh, by rw [hd]; rfl, hclean, fun i hi => ?_⟩
  rw [hd] at hi
  exact ⟨fun hc => hi (Damage.covers_addRows (Or.inr hc)),
    hrows i fun hin => hi (Damage.covers_addRows (Or.inl hin))⟩

/-! ### Rows -/

theorem markAll (s : Screen) : s.Amends { s with grid := s.grid.markAll } :=
  ⟨rfl, rfl, fun _ h => absurd h Grid.not_clean_markAll, fun _ h => ⟨h, rfl⟩⟩

theorem cancelWrap (s : Screen) : s.Amends s.cancelWrap := of_eq rfl rfl rfl

theorem atColumn (s : Screen) (col : Nat) : s.Amends (s.atColumn col) := of_eq rfl rfl rfl

theorem atRow (s : Screen) (row : Nat) : s.Amends (s.atRow row) := of_eq rfl rfl rfl

theorem editLine (s : Screen) (f : Row → Row) : s.Amends (s.editLine f) := by
  refine of_range s.cursor.row s.cursor.row rfl rfl (fun i hi => ?_) fun i hi => ?_
  · obtain ⟨hclean, hne⟩ := Grid.clean_modifyRow hi
    exact ⟨hclean, Grid.rows_modifyRow hne⟩
  · exact Grid.rows_modifyRow (by omega)

theorem resetRows (s : Screen) {start stop top bottom : Nat} (r : Rendition)
    (hsub : ∀ i, start ≤ i → i < stop → top ≤ i ∧ i ≤ bottom) :
    s.Amends ((s.resetRows start stop r).damaged top bottom) := by
  refine of_range top bottom rfl rfl (fun i hi => ?_) fun i hi => ?_
  · obtain ⟨hclean, hout⟩ := Grid.clean_resetRows hi
    exact ⟨hclean, Grid.rows_resetRows hout⟩
  · exact Grid.rows_resetRows fun hin => hi (hsub i hin.1 hin.2)

theorem shiftUp (s : Screen) (top bottom n : Nat) :
    s.Amends ((s.shiftUp top bottom n).damaged top bottom) := by
  refine of_range top bottom rfl rfl (fun i hi => Grid.clean_scrollUp hi) fun i hi => ?_
  refine Grid.rows_scrollUp ?_
  have := s.grid.extent_le top bottom
  omega

theorem shiftDown (s : Screen) (top bottom n : Nat) :
    s.Amends ((s.shiftDown top bottom n).damaged top bottom) := by
  refine of_range top bottom rfl rfl (fun i hi => Grid.clean_scrollDown hi) fun i hi => ?_
  refine Grid.rows_scrollDown ?_
  have := s.grid.extent_le top bottom
  omega

/-! ### Motion -/

theorem backspace (s : Screen) : s.Amends s.backspace := by
  unfold Screen.backspace
  split
  · exact cancelWrap s
  · split
    · exact of_eq rfl rfl rfl
    · split
      · exact of_eq rfl rfl rfl
      · exact refl s

theorem setRegion (s : Screen) (top bottom : Nat) : s.Amends (s.setRegion top bottom) :=
  of_eq rfl rfl rfl

theorem scrollDown (s : Screen) (count : Nat) : s.Amends (s.scrollDown count) :=
  shiftDown s s.region.top s.region.bottom count

theorem reverseIndex (s : Screen) : s.Amends s.reverseIndex := by
  unfold Screen.reverseIndex
  dsimp only
  split
  · exact (cancelWrap s).trans (scrollDown _ 1)
  · exact of_eq rfl rfl rfl

/-! ### Erasing, inserting and deleting -/

theorem eraseLine (s : Screen) (part : Erasure) : s.Amends (s.eraseLine part) :=
  (cancelWrap s).trans (editLine _ _)

theorem eraseScreen (s : Screen) (part : Erasure) : s.Amends (s.eraseScreen part) := by
  cases part with
  | toEnd =>
    refine (eraseLine s .toEnd).trans (resetRows _ _ fun i hi hlt => ?_)
    unfold lastRow
    omega
  | toStart =>
    refine (eraseLine s .toStart).trans (resetRows _ _ fun i hi hlt => ?_)
    omega
  | all =>
    refine (cancelWrap s).trans (resetRows _ _ fun i hi hlt => ?_)
    unfold lastRow
    omega

theorem editCells (s : Screen) (count : Nat) (edit : Row → Nat → Nat → Rendition → Row) :
    s.Amends (s.editCells count edit) := by
  unfold Screen.editCells
  dsimp only
  split
  · exact cancelWrap s
  · exact (cancelWrap s).trans (editLine _ _)

theorem backIndex (s : Screen) : s.Amends s.backIndex := by
  unfold Screen.backIndex
  dsimp only
  split
  · exact of_eq rfl rfl rfl
  · exact (cancelWrap s).trans (editLine _ _)

theorem forwardIndex (s : Screen) : s.Amends s.forwardIndex := by
  unfold Screen.forwardIndex
  dsimp only
  split
  · exact of_eq rfl rfl rfl
  · exact (cancelWrap s).trans (editLine _ _)

theorem insertLines (s : Screen) (count : Nat) : s.Amends (s.insertLines count) := by
  unfold Screen.insertLines editLines
  dsimp only
  split
  · split
    · exact cancelWrap s
    · exact ((cancelWrap s).trans (shiftDown _ _ _ _)).trans (of_eq rfl rfl rfl)
  · exact refl s

theorem deleteLines (s : Screen) (count : Nat) : s.Amends (s.deleteLines count) := by
  unfold Screen.deleteLines editLines
  dsimp only
  split
  · split
    · exact cancelWrap s
    · exact ((cancelWrap s).trans (shiftUp _ _ _ _)).trans (of_eq rfl rfl rfl)
  · exact refl s

/-! ### Writing in a row, and the screen as a whole -/

theorem advance (s : Screen) (width : Nat) : s.Amends (s.advance width) := by
  unfold Screen.advance
  dsimp only
  split <;> exact of_eq rfl rfl rfl

theorem place [Glyph.Widths] (s : Screen) (glyph : Char) (width : Nat) (font : Flags) :
    s.Amends (s.place glyph width font) :=
  (editLine s _).trans (advance _ _)

theorem align (s : Screen) : s.Amends s.align := by
  refine of_range 0 s.lastRow rfl rfl (fun i hi => absurd hi Grid.not_clean_fill) fun i hi => ?_
  -- below the last row there was nothing to fill
  have hout : s.grid.rows.length ≤ i := by
    unfold lastRow height Grid.height at hi
    omega
  rw [List.getElem?_eq_none hout]
  refine List.getElem?_eq_none ?_
  change (s.grid.rows.map _).length ≤ i
  rwa [List.length_map]

end Amends

end Screen

end VideoTerminal
