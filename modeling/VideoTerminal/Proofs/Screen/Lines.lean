import VideoTerminal.Proofs.Screen.Report
import VideoTerminal.Proofs.Terminal.Reach
/-!
# Lines that move

Inserting and deleting lines, and scrolling either way, move whole rows: some
leave the region at one end, the rest moves up as it is, and blank rows fill the
other end. Said of the whole list of rows, it is cut into pieces, one of them is
left out, and the others are joined in order (`MovesUp`, `MovesDown`), so that
no row is lost, doubled, or moved across an edge of the region.
-/

namespace VideoTerminal

/-! ## Rows that move -/

/-- The rows from `first` to `last` have moved up by `k`: the upper `k` of them are
gone, and as many that are blank follow on the rest. -/
def MovesUp (first last k : Nat) (blank : Row) (rows rows' : List Row) : Prop :=
  ∃ above gone stay below,
    above.length = first ∧ gone.length = k ∧ first + k + stay.length = last + 1 ∧
      rows = above ++ gone ++ stay ++ below ∧
      rows' = above ++ stay ++ List.replicate k blank ++ below

/-- The rows from `first` to `last` have moved down by `k`: the lower `k` of them
are gone, and as many that are blank stand before the rest. -/
def MovesDown (first last k : Nat) (blank : Row) (rows rows' : List Row) : Prop :=
  ∃ above stay gone below,
    above.length = first ∧ gone.length = k ∧ first + k + stay.length = last + 1 ∧
      rows = above ++ stay ++ gone ++ below ∧
      rows' = above ++ List.replicate k blank ++ stay ++ below

namespace Grid

section

variable {g : Grid} {first last : Nat}

/-- A region that lies in the grid has all of its rows. -/
theorem extent_eq (hlast : last < g.height) : g.extent first last = last + 1 - first := by
  unfold extent
  omega

/-- A list of rows cut before `first`, `n` rows further, and behind `last`. -/
theorem rows_eq_pieces (hle : first ≤ last + 1) {n : Nat} (hn : n ≤ last + 1 - first) :
    g.rows = g.rows.take first ++ (g.rows.drop first).take n ++
      (g.rows.drop (first + n)).take (last + 1 - first - n) ++ g.rows.drop (last + 1) := by
  have hlower : (g.rows.drop (first + n)).take (last + 1 - first - n) ++ g.rows.drop (last + 1) =
      g.rows.drop (first + n) := by
    have hdrop : g.rows.drop (last + 1) =
        (g.rows.drop (first + n)).drop (last + 1 - first - n) := by
      rw [List.drop_drop]
      congr 1
      omega
    rw [hdrop, List.take_append_drop]
  rw [List.append_assoc, hlower, List.append_assoc, ← List.drop_drop, List.take_append_drop,
    List.take_append_drop]

/-- The rows before a region. -/
theorem length_above (hle : first ≤ last + 1) (hlast : last < g.height) :
    (g.rows.take first).length = first := by
  unfold height at hlast
  rw [List.length_take]
  omega

/-- Rows of a region. -/
theorem length_stretch (hlast : last < g.height) {start n : Nat} (h : start + n ≤ last + 1) :
    ((g.rows.drop start).take n).length = n := by
  unfold height at hlast
  rw [List.length_take, List.length_drop]
  omega

/-- **Scrolling a region up moves its rows up.** -/
theorem movesUp_scrollUp (hle : first ≤ last + 1) (hlast : last < g.height) (n : Nat)
    (r : Rendition) :
    MovesUp first last (min n (last + 1 - first)) (Row.blank g.cols r) g.rows
      (g.scrollUp first last n r).rows := by
  have hextent : g.extent first last = last + 1 - first := extent_eq hlast
  refine ⟨g.rows.take first, (g.rows.drop first).take (min n (last + 1 - first)),
    (g.rows.drop (first + min n (last + 1 - first))).take
      (last + 1 - first - min n (last + 1 - first)), g.rows.drop (last + 1),
    length_above hle hlast, length_stretch hlast (by omega), ?_,
    rows_eq_pieces hle (Nat.min_le_right _ _), ?_⟩
  · rw [length_stretch hlast (by omega)]
    omega
  · have hbelow : first + (last + 1 - first) = last + 1 := by omega
    rw [g.rows_scrollUp_eq first last rfl, hextent, hbelow]

/-- Rows of one width are the same row once they are blanked. -/
theorem map_reset {rows : List Row} {cols : Nat} (hwidth : ∀ row ∈ rows, row.cols = cols)
    (r : Rendition) :
    rows.map (·.reset r) = List.replicate rows.length (Row.blank cols r) := by
  rw [← List.map_const']
  refine List.map_congr_left fun row hrow => ?_
  unfold Row.reset
  rw [hwidth row hrow]

/-- **Scrolling a region down moves its rows down.** -/
theorem movesDown_scrollDown (hwidth : ∀ row ∈ g.rows, row.cols = g.cols)
    (hle : first ≤ last + 1) (hlast : last < g.height) (n : Nat) (r : Rendition) :
    MovesDown first last (min n (last + 1 - first)) (Row.blank g.cols r) g.rows
      (g.scrollDown first last n r).rows := by
  have hextent : g.extent first last = last + 1 - first := extent_eq hlast
  have hrest : last + 1 - first - (last + 1 - first - min n (last + 1 - first)) =
      min n (last + 1 - first) := by omega
  have hrows := rows_eq_pieces (g := g) hle (n := last + 1 - first - min n (last + 1 - first))
    (Nat.sub_le _ _)
  rw [hrest] at hrows
  refine ⟨_, _, _, _, length_above hle hlast, length_stretch hlast (by omega), ?_,
    hrows, ?_⟩
  · rw [length_stretch hlast (by omega)]
    omega
  · have hbelow : first + (last + 1 - first) = last + 1 := by omega
    have hstart : last + 1 - min n (last + 1 - first) + min n (last + 1 - first) ≤ last + 1 := by
      omega
    have hlower : ∀ row ∈ (g.rows.drop (last + 1 - min n (last + 1 - first))).take
        (min n (last + 1 - first)), row.cols = g.cols := fun row hrow =>
      hwidth row (List.mem_of_mem_drop (List.mem_of_mem_take hrow))
    rw [g.rows_scrollDown_eq first last rfl, hextent, hbelow, map_reset hlower,
      length_stretch hlast hstart]

end

end Grid

/-! ## Edits of lines -/

/-- An edit that moves whole rows. -/
inductive LineEdit where
  | insertLines
  | deleteLines
  | scrollUp
  | scrollDown
  deriving DecidableEq, Repr

namespace LineEdit

/-- The edit of a screen, by a number of lines. -/
def run (edit : LineEdit) (s : Screen) (count : Nat) : Screen :=
  match edit with
  | .insertLines => s.insertLines count
  | .deleteLines => s.deleteLines count
  | .scrollUp => s.scrollUp count
  | .scrollDown => s.scrollDown count

/-- Lines are inserted and deleted from the cursor on, and the whole region
scrolls. -/
def first (edit : LineEdit) (s : Screen) : Nat :=
  match edit with
  | .insertLines | .deleteLines => s.cursor.row
  | .scrollUp | .scrollDown => s.region.top

/-- The edit needs the cursor in the region, and it is not there. -/
def Outside (edit : LineEdit) (s : Screen) : Prop :=
  match edit with
  | .insertLines | .deleteLines => s.region.contains s.cursor.row = false
  | .scrollUp | .scrollDown => False

/-- How the edit moves rows. -/
def Moves (edit : LineEdit) : Nat → Nat → Nat → Row → List Row → List Row → Prop :=
  match edit with
  | .insertLines | .scrollDown => MovesDown
  | .deleteLines | .scrollUp => MovesUp

end LineEdit

/-- A history without capacity keeps nothing. -/
theorem History.pushAll_of_capacity_zero {history : History} (h : history.capacity = 0)
    (rows : List Row) : history.pushAll rows = history := by
  have hpush : ∀ row, history.push row = history := fun _ => if_pos h
  unfold History.pushAll
  induction rows with
  | nil => rfl
  | cons row rows ih => rw [List.foldl_cons, hpush, ih]

namespace Screen

variable {P : Nat → Row → Prop} {kind : ScreenKind} {rows cols : Nat} {s : Screen}

theorem editLines_outside (h : s.region.contains s.cursor.row = false) (count : Nat)
    (shift : Screen → Nat → Nat → Nat → Screen) : s.editLines count shift = s := by
  unfold editLines
  dsimp only
  rw [h]
  rfl

theorem grid_deleteLines (h : s.region.contains s.cursor.row = true) (count : Nat) :
    (s.deleteLines count).grid = s.grid.scrollUp s.cursor.row s.region.bottom
      (min count (s.region.bottom + 1 - s.cursor.row)) s.eraser := by
  unfold deleteLines editLines
  dsimp only
  rw [if_pos h]
  split
  · rename_i hzero
    rw [hzero, Grid.scrollUp_eq_self (Nat.zero_min _)]
    rfl
  · rfl

theorem grid_insertLines (h : s.region.contains s.cursor.row = true) (count : Nat) :
    (s.insertLines count).grid = s.grid.scrollDown s.cursor.row s.region.bottom
      (min count (s.region.bottom + 1 - s.cursor.row)) s.eraser := by
  unfold insertLines editLines
  dsimp only
  rw [if_pos h]
  split
  · rename_i hzero
    rw [hzero, Grid.scrollDown_eq_self (Nat.zero_min _)]
    rfl
  · rfl

theorem grid_scrollUp (s : Screen) (count : Nat) :
    (s.scrollUp count).grid = s.grid.scrollUp s.region.top s.region.bottom
      (min count s.region.height) s.eraser := by
  unfold scrollUp
  dsimp only
  split
  · rename_i hzero
    rw [hzero, Grid.scrollUp_eq_self (Nat.zero_min _)]
  · split <;> rfl

/-- Rows go into the history only if the primary screen scrolls up as a whole. -/
theorem history_scrollUp (h : s.Sound P kind rows cols) (count : Nat) :
    (s.scrollUp count).history =
      if s.region = s.fullRegion ∧ kind = .primary
      then s.history.pushAll (s.grid.rows.take (min count (s.region.bottom + 1 - s.region.top)))
      else s.history := by
  have hkind := h.kind_eq
  unfold scrollUp
  dsimp only
  split
  · rename_i hzero
    change min count (s.region.bottom + 1 - s.region.top) = 0 at hzero
    rw [hzero]
    split <;> rfl
  · by_cases hfull : s.region = s.fullRegion ∧ kind = .primary
    · obtain ⟨hregion, hprimary⟩ := hfull
      rw [if_pos (And.intro hregion hprimary)]
      by_cases hcap : s.history.capacity = 0
      · -- there is no place for them
        have hkeeps : ¬ s.keepsRows = true := by
          unfold keepsRows
          rw [hcap]
          simp
        rw [if_neg fun hboth => hkeeps hboth.2, History.pushAll_of_capacity_zero hcap]
        rfl
      · have hkeeps : s.keepsRows = true := by
          unfold keepsRows
          rw [hkind, hprimary]
          simpa using Nat.pos_of_ne_zero hcap
        have htop : s.region.top = 0 := congrArg Region.top hregion
        obtain ⟨hheight, hextent⟩ := extent_full h hregion
        have hleaving : s.grid.leaving s.region.top s.region.bottom (min count s.region.height) =
            s.grid.rows.take (min count s.region.height) := by
          rw [Grid.leaving_eq, hextent, htop, List.drop_zero, ← hheight, Nat.min_assoc,
            Nat.min_self]
        rw [if_pos ⟨hregion, hkeeps⟩, hleaving]
        rfl
    · rw [if_neg hfull, if_neg]
      · rfl
      · rintro ⟨hregion, hkeeps⟩
        unfold keepsRows at hkeeps
        rw [Bool.and_eq_true, beq_iff_eq] at hkeeps
        exact hfull ⟨hregion, hkind.symm.trans hkeeps.1⟩

/-- **Edits of lines rearrange the rows of the region exactly**: the region lies in
the screen, and each of them moves the rows from its first one to the bottom of
the region. -/
theorem Sound.moves (h : s.Sound Row.Fits kind rows cols) {edit : LineEdit} (hin : ¬ edit.Outside s)
    (count : Nat) :
    edit.Moves (edit.first s) s.region.bottom (min count (s.region.bottom + 1 - edit.first s))
      (Row.blank s.cols s.eraser) s.grid.rows (edit.run s count).grid.rows := by
  have hlast : s.region.bottom < s.grid.height := by
    have hheight : s.grid.height = rows := h.height
    rw [hheight]
    exact h.bottom
  have hwidth : ∀ row ∈ s.grid.rows, row.cols = s.grid.cols := fun row hrow =>
    (h.shown row hrow).width.trans h.width.symm
  have hordered := h.ordered
  have hcontains : s.region.contains s.cursor.row = true →
      s.cursor.row ≤ s.region.bottom + 1 := by
    unfold Region.contains
    rw [Bool.and_eq_true, decide_eq_true_eq, decide_eq_true_eq]
    omega
  cases edit with
  | insertLines =>
    have hrow := eq_true_of_ne_false hin
    have hmoves := Grid.movesDown_scrollDown hwidth (hcontains hrow) hlast
      (min count (s.region.bottom + 1 - s.cursor.row)) s.eraser
    rw [Nat.min_assoc, Nat.min_self] at hmoves
    change MovesDown _ _ _ _ _ (s.insertLines count).grid.rows
    rw [grid_insertLines hrow]
    exact hmoves
  | deleteLines =>
    have hrow := eq_true_of_ne_false hin
    have hmoves := Grid.movesUp_scrollUp (hcontains hrow) hlast
      (min count (s.region.bottom + 1 - s.cursor.row)) s.eraser
    rw [Nat.min_assoc, Nat.min_self] at hmoves
    change MovesUp _ _ _ _ _ (s.deleteLines count).grid.rows
    rw [grid_deleteLines hrow]
    exact hmoves
  | scrollUp =>
    have hmoves := Grid.movesUp_scrollUp (show s.region.top ≤ s.region.bottom + 1 by omega) hlast
      (min count s.region.height) s.eraser
    change MovesUp _ _ _ _ _ (s.scrollUp count).grid.rows
    rw [grid_scrollUp]
    have hheight : s.region.height = s.region.bottom + 1 - s.region.top := rfl
    rw [← hheight, Nat.min_assoc, Nat.min_self] at hmoves
    exact hmoves
  | scrollDown =>
    have htop : s.region.top ≤ s.region.bottom + 1 := by omega
    exact Grid.movesDown_scrollDown hwidth htop hlast count s.eraser

/-- Lines that are inserted or deleted never come into the history. -/
theorem history_editLines (shift : Screen → Nat → Nat → Nat → Screen)
    (hshift : ∀ s top bottom n, (shift s top bottom n).history = s.history) (s : Screen)
    (count : Nat) : (s.editLines count shift).history = s.history := by
  unfold editLines
  dsimp only
  split
  · split
    · rfl
    · exact hshift _ _ _ _
  · rfl

/-- The history after an edit of lines. -/
theorem history_run (h : s.Sound P kind rows cols) (edit : LineEdit) (count : Nat) :
    (edit.run s count).history =
      if edit = .scrollUp ∧ s.region = s.fullRegion ∧ kind = .primary
      then s.history.pushAll (s.grid.rows.take (min count (s.region.bottom + 1 - edit.first s)))
      else s.history := by
  cases edit with
  | insertLines =>
    rw [if_neg fun hscroll => by cases hscroll.1]
    exact history_editLines shiftDown (fun _ _ _ _ => rfl) s count
  | deleteLines =>
    rw [if_neg fun hscroll => by cases hscroll.1]
    exact history_editLines shiftUp (fun _ _ _ _ => rfl) s count
  | scrollUp =>
    have hscroll := history_scrollUp h count
    simpa [LineEdit.run, LineEdit.first] using hscroll
  | scrollDown => exact (if_neg fun hscroll => by cases hscroll.1).symm

end Screen

namespace Terminal

variable {π : Type} [Printer π] {rows cols : Nat} {t : Terminal π}

/-- **Edits of lines are exact rearrangements of the region**, on either screen of
every reachable terminal. Inserting and deleting lines with the cursor outside the
region changes nothing at all. Otherwise as many rows as were asked for, and as
there are from the first row of the edit to the bottom of the region, leave at one
end, the others move on as they are, and as many blank ones come in at the other
end. Only scrolling the whole primary screen up changes the history: the rows that
leave go into it. -/
theorem moves_of_reach [Glyph.Widths] (h : Reach rows cols t) (kind : ScreenKind)
    (edit : LineEdit) (count : Nat) :
    let s := t.screenOf kind
    let k := min count (s.region.bottom + 1 - edit.first s)
    (edit.Outside s → edit.run s count = s) ∧
      (¬ edit.Outside s → edit.Moves (edit.first s) s.region.bottom k (Row.blank s.cols s.eraser)
        s.grid.rows (edit.run s count).grid.rows) ∧
      (edit.run s count).history =
        if edit = .scrollUp ∧ s.region = s.fullRegion ∧ kind = .primary
        then s.history.pushAll (s.grid.rows.take k) else s.history := by
  intro s k
  have hs := (h.sound Row.law_fits).screenOf kind
  refine ⟨fun hout => ?_, fun hin => hs.moves hin count, Screen.history_run hs edit count⟩
  cases edit with
  | insertLines => exact Screen.editLines_outside hout count Screen.shiftDown
  | deleteLines => exact Screen.editLines_outside hout count Screen.shiftUp
  | scrollUp | scrollDown => cases hout

attribute [local instance] Glyph.unicode

/-- Four lines, of which the two in the middle scroll, and the cursor in the upper
one of them. Two lines are inserted there, although five were asked for. -/
theorem moves_of_reach_inserted :
    let t := ((plain 4 1).feed [0x61, 0x0D, 0x0A, 0x62, 0x0D, 0x0A, 0x63, 0x0D, 0x0A, 0x64, 0x1B,
      0x5B, 0x32, 0x3B, 0x33, 0x72, 0x1B, 0x5B, 0x32, 0x48]).terminal
    (Reach 4 1 t ∧ t.primary.region = ⟨1, 2⟩ ∧ t.primary.cursor = ⟨1, 0⟩) ∧
      (t.primary.grid.rows.map Row.glyphs = [['a'], ['b'], ['c'], ['d']] ∧
        (t.primary.insertLines 5).grid.rows.map Row.glyphs = [['a'], [' '], [' '], ['d']]) ∧
      MovesDown 1 2 2 (Row.blank 1 {}) t.primary.grid.rows (t.primary.insertLines 5).grid.rows ∧
      (t.primary.insertLines 5).history = t.primary.history := by
  intro t
  have hreach : Reach 4 1 t := (reach_plain 4 1 (by decide) (by decide)).feed _
  have hregion : t.primary.region = ⟨1, 2⟩ := by decide +kernel
  have hcursor : t.primary.cursor = ⟨1, 0⟩ := by decide +kernel
  have hblank : Row.blank t.primary.cols t.primary.eraser = Row.blank 1 {} := by decide +kernel
  obtain ⟨-, hmoves, hhistory⟩ := moves_of_reach hreach .primary .insertLines 5
  have hinside : ¬ t.primary.region.contains t.primary.cursor.row = false := by decide +kernel
  have hmoves := hmoves hinside
  change MovesDown t.primary.cursor.row t.primary.region.bottom
    (min 5 (t.primary.region.bottom + 1 - t.primary.cursor.row))
    (Row.blank t.primary.cols t.primary.eraser) _ _ at hmoves
  rw [hregion, hcursor, hblank] at hmoves
  exact ⟨⟨hreach, hregion, hcursor⟩, by decide +kernel, hmoves, hhistory⟩

end Terminal

end VideoTerminal
