import VideoTerminal.Proofs.Screen.Resize
import VideoTerminal.Proofs.Terminal.Selected
/-!
# Selections and scrolling

A screen that scrolls as a whole moves rows into the history, and the buffer
only loses lines at its old end and gets blank ones at its new end
(`Screen.Scrolls.scrolled`). A selection moves up with its lines, and ends with
the first of them. Only one thing can come between: a report that is still
there from before the screen was shown.
-/

namespace VideoTerminal

namespace Screen

/-- An action scrolls a screen by a number of lines: moving down does so in
the last row of the region. -/
inductive Scrolls (s : Screen) : Action → Nat → Prop
  | lineFeed (h : s.cursor.row = s.region.bottom) : s.Scrolls .lineFeed 1
  | index (h : s.cursor.row = s.region.bottom) : s.Scrolls .index 1
  | scrollUp {n : Nat} (h : 0 < n) : s.Scrolls (.scrollUp n) (min n maxScroll)

section

variable {P : Nat → Row → Prop} {kind : ScreenKind} {rows cols count : Nat} {s : Screen}
  {action : Action}

/-- The rows of the screen are the last lines of the buffer. -/
theorem rows_eq_drop_lines (h : s.Sound P kind rows cols) :
    s.grid.rows = s.lines.drop (s.lines.length - rows) := by
  have hlen : s.lines.length - rows = s.history.lines.length := by
    rw [lines, List.length_append, h.height, Nat.add_sub_cancel]
  rw [hlen, lines, List.drop_left]

/-- A screen that scrolls as a whole reports its new rows. -/
theorem damage_rows_scrollUp (h : s.Sound P kind rows cols) (hfull : s.region = s.fullRegion)
    (hkeeps : s.keepsRows = true) (hcount : 0 < count) :
    (s.scrollUp count).damage.rows =
      (s.damage.addRows (rows - min count rows) (rows - 1)).rows := by
  have hpos := h.rows_pos
  obtain ⟨hheight, -⟩ := extent_full h hfull
  have hbottom : s.region.bottom = rows - 1 := by
    rw [hfull]
    exact h.lastRow_eq
  have hstart : s.region.bottom + 1 - min count s.region.height = rows - min count rows := by
    rw [hheight, hbottom]
    omega
  unfold scrollUp
  dsimp only
  rw [if_neg (by rw [hheight]; omega), if_pos ⟨hfull, hkeeps⟩, hstart, hbottom]
  rfl

namespace Scrolls

theorem count_pos (h : s.Scrolls action count) : 0 < count := by
  cases h with
  | lineFeed | index => exact Nat.one_pos
  | scrollUp hn => exact Nat.lt_min.2 ⟨hn, by decide⟩

theorem count_le (h : s.Scrolls action count) : count ≤ maxScroll := by
  cases h with
  | lineFeed | index => decide
  | scrollUp => exact Nat.min_le_right _ _

/-- The action scrolls the region, and may cancel a pending wrap before. -/
theorem onScreen? [Glyph.Widths] (h : s.Scrolls action count) (tabs : TabStops) :
    ∃ f, Terminal.onScreen? tabs action = some f ∧
      (f s = s.scrollUp count ∨ f s = s.cancelWrap.scrollUp count) := by
  cases h with
  | lineFeed h => exact ⟨_, rfl, Or.inr (if_pos h)⟩
  | index h => exact ⟨_, rfl, Or.inr (if_pos h)⟩
  | @scrollUp n hn =>
    refine ⟨_, rfl, Or.inl ?_⟩
    cases n with
    | zero => cases hn
    | succ n => rfl

/-- **What a scroll makes of the buffer and what it reports.** -/
theorem scrolled [Glyph.Widths] (hscrolls : s.Scrolls action count) (h : s.Sound P kind rows cols)
    (hfull : s.region = s.fullRegion) (hkeeps : s.keepsRows = true) (tabs : TabStops) :
    ∃ f, Terminal.onScreen? tabs action = some f ∧
      let n := min count rows
      let e := s.history.evictions n
      (f s).damage.evicted = s.damage.evicted + e ∧
        (f s).damage.rows = (s.damage.addRows (rows - n) (rows - 1)).rows ∧
        (f s).history.length = s.history.length + n - e ∧
        (f s).lines = s.lines.drop e ++ List.replicate n (Row.blank s.grid.cols s.eraser) := by
  obtain ⟨f, hf, heq⟩ := hscrolls.onScreen? tabs
  have hn : min count s.region.height = min count rows := by rw [(extent_full h hfull).1]
  refine ⟨f, hf, ?_⟩
  -- a pending wrap plays no part in a scroll
  rcases heq with heq | heq
  · obtain ⟨hevicted, hlength, hlines⟩ := scrollUp_full h hfull hkeeps count hn
    rw [heq]
    exact ⟨hevicted, damage_rows_scrollUp h hfull hkeeps hscrolls.count_pos, hlength, hlines⟩
  · obtain ⟨hevicted, hlength, hlines⟩ := scrollUp_full h.cancelWrap hfull hkeeps count hn
    rw [heq]
    exact ⟨hevicted, damage_rows_scrollUp h.cancelWrap hfull hkeeps hscrolls.count_pos, hlength,
      hlines⟩

end Scrolls

end

end Screen

namespace Selection

/-- The text of a selection whose lines are found again further up is the text
that it was. -/
theorem text_up {s : Selection} {b b' : Buffer} {count : Nat} (hb : b.isEmpty = false)
    (hb' : b'.isEmpty = false) (hs : s.Within b.total) (hs' : (s.up count).Within b'.total)
    (hcount : count ≤ s.anchor.line)
    (hfound : ∀ line, s.anchor.line ≤ line → line ≤ s.extent.line →
      b'.lines[line - count]? = b.lines[line]?) : (s.up count).text b' = s.text b := by
  have hordered := hs.ordered
  have hline : ∀ line, s.anchor.line ≤ line → line ≤ s.extent.line →
      (s.up count).lineText b' (s.extent.line - count) (line - count) =
        s.lineText b s.extent.line line := by
    intro line hfirst hlast
    have hin : line < b.lines.length := Nat.lt_of_le_of_lt hlast hs.inside
    have hrow : b.lines[line]? = some b.lines[line] := List.getElem?_eq_getElem hin
    rw [lineText_eq hrow, lineText_up_eq hcount (by omega) (by omega)
      ((hfound line hfirst hlast).trans hrow)]
  rw [text_eq hb hs, text_up_eq hb' hs' hcount, hline _ hordered (Nat.le_refl _),
    List.flatMap_def, List.flatMap_def]
  congr 2
  refine List.map_congr_left fun line hmem => ?_
  obtain ⟨hfirst, hlast⟩ := List.mem_range'_1.1 hmem
  exact hline line hfirst (by omega)

/-- The new rows of a scroll never hold a selection. It is among the rows that
are reported only if it reaches a row that was reported before. -/
theorem touches_scrolled_iff {s : Selection} {d : Damage} {history rows n e : Nat} (hn : n ≤ rows)
    (hpos : 0 < rows) (he : e ≤ n) (hgone : e ≤ s.anchor.line)
    (hs : s.Within (history + rows)) :
    (∃ first last, (d.addRows (rows - n) (rows - 1)).rows = some (first, last) ∧
        (s.up e).touches (history + n - e + first) (history + n - e + last) = true) ↔
      ∃ first last, d.rows = some (first, last) ∧ history + n + first ≤ s.extent.line := by
  have hordered := hs.ordered
  have hinside := hs.inside
  have htouches : ∀ first last, (s.up e).touches first last = true ↔
      s.anchor.line - e ≤ last ∧ first ≤ s.extent.line - e := by
    intro first last
    unfold touches up Position.up
    simp only [Bool.and_eq_true, decide_eq_true_eq]
  simp only [htouches, Damage.addRows]
  cases d.rows with
  | none =>
    refine ⟨?_, fun ⟨_, _, hnone, _⟩ => (by cases hnone)⟩
    rintro ⟨_, _, hnew, -, hreach⟩
    cases hnew
    omega
  | some range =>
    obtain ⟨top, bottom⟩ := range
    constructor
    · rintro ⟨_, _, hnew, -, hreach⟩
      cases hnew
      exact ⟨top, bottom, rfl, by omega⟩
    · rintro ⟨_, _, hold, hreach⟩
      cases hold
      exact ⟨_, _, rfl, by omega, by omega⟩

end Selection

namespace Terminal

variable {π : Type} {rows cols count : Nat} {t : Terminal π} {sel : Selection}

/-- A selection on the screen that is shown ends if its first line left the
history, or if one of its lines is among the rows reported. -/
theorem current_absorbDamage_iff (hsel : t.selector.current = some sel)
    (hscreen : sel.screen = t.active) (hbound : t.screen.damage.evicted ≤ Position.maxLine) :
    t.absorbDamage.selector.current = none ↔
      sel.anchor.line < t.screen.damage.evicted ∨
        ∃ first last, t.screen.damage.rows = some (first, last) ∧
          (sel.up t.screen.damage.evicted).touches (t.screen.history.length + first)
            (t.screen.history.length + last) = true := by
  have hevicted : (t.selector.evicted t.screen.damage.evicted).current =
      if sel.anchor.line < t.screen.damage.evicted then none
      else some (sel.up t.screen.damage.evicted) := by
    unfold Selector.evicted
    split
    · rename_i hzero
      rw [hsel, hzero, if_neg (Nat.not_lt_zero _)]
      rfl
    · rw [Nat.min_eq_left hbound]
      dsimp only
      rw [hsel]
      rfl
  have hup : (sel.up t.screen.damage.evicted).screen = t.active := hscreen
  unfold absorbDamage
  dsimp only
  by_cases hgone : sel.anchor.line < t.screen.damage.evicted
  · rw [if_pos hgone] at hevicted
    cases t.screen.damage.rows with
    | none => simp [hevicted, hgone]
    | some range => simp [Selector.changed, hevicted, hgone]
  · rw [if_neg hgone] at hevicted
    cases t.screen.damage.rows with
    | none => simp [hevicted, hgone]
    | some range =>
      obtain ⟨first, last⟩ := range
      refine ⟨fun h => Or.inr ⟨first, last, rfl, ?_⟩, ?_⟩
      · simpa [Selector.changed, hevicted, hup] using h
      · rintro (hlt | ⟨_, _, hsame, htouches⟩)
        · exact absurd hlt hgone
        · cases hsame
          simpa [Selector.changed, hevicted, hup] using htouches

theorem screen_of_primary (h : t.active = .primary) : t.screen = t.primary := by
  unfold screen
  rw [h]
  rfl

/-- Taking the view back to the screen touches neither lines nor selection. -/
theorem settle_rest (t : Terminal π) (sent : Bool) :
    (t.settle sent).active = t.active ∧ (t.settle sent).selector = t.selector ∧
      (t.settle sent).screen.lines = t.screen.lines := by
  have hactive : (t.viewAt 0).active = t.active := by
    unfold viewAt
    split
    · rfl
    · exact (modifyScreen_rest _ _).1
  unfold settle
  dsimp only
  split
  · exact ⟨hactive, viewAt_rest t 0⟩
  · exact ⟨rfl, rfl, rfl⟩

/-- What a scroll by `n` rows makes of the lines of the primary screen, and of
what is selected on it. -/
structure ScrollsTo (t t' : Terminal π) (n : Nat) : Prop where
  active : t'.active = .primary
  lines : t'.primary.lines = t.primary.lines.drop (t.primary.history.evictions n) ++
    List.replicate n (Row.blank t.primary.grid.cols t.primary.eraser)
  ended : ∀ sel, t.selector.current = some sel → (t'.selector.current = none ↔
    sel.anchor.line < t.primary.history.evictions n ∨
      ∃ first last, t.primary.damage.rows = some (first, last) ∧
        t.primary.history.length + n + first ≤ sel.extent.line)
  kept : ∀ sel sel', t.selector.current = some sel → t'.selector.current = some sel' →
    t.primary.history.evictions n ≤ sel.anchor.line ∧
      sel' = sel.up (t.primary.history.evictions n)

section Scrolling

variable [Printer π] [Glyph.Widths] {action : Action}

/-- **One scroll**, on a screen that scrolls as a whole. -/
theorem apply_scrolls {P : Nat → Row → Prop} (hs : t.Sound P rows cols) (h : t.Steady)
    (hselects : t.Selects) (hactive : t.active = .primary)
    (hfull : t.primary.region = t.primary.fullRegion) (hkeeps : t.primary.keepsRows = true)
    (hscrolls : t.primary.Scrolls action count) :
    ∃ t', t.apply action = ⟨t', none⟩ ∧ t.ScrollsTo t' (min count rows) := by
  have hscreen : t.screen = t.primary := screen_of_primary hactive
  have hprimary : t.primary.Sound P .primary rows cols := hs.screenOf .primary
  have hsettled : t.primary.damage.evicted = 0 := h.settled .primary
  obtain ⟨f, hf, hevicted, hrows, hlength, hlines⟩ :=
    hscrolls.scrolled hprimary hfull hkeeps t.tabs
  rw [hsettled, Nat.zero_add] at hevicted
  have hactive' : (t.modifyScreen f).active = .primary := (modifyScreen_rest t f).1.trans hactive
  have hscreen' : (t.modifyScreen f).screen = f t.primary := by
    rw [screen_modifyScreen, hscreen]
  have hselector' : (t.modifyScreen f).selector = t.selector := (modifyScreen_rest t f).2.2
  have hdone := (active_absorbDamage (t.modifyScreen f)).trans hactive'
  have hle := t.primary.history.evictions_le (min count rows)
  have hbound : t.primary.history.evictions (min count rows) ≤ Position.maxLine := by
    have hn : min count rows ≤ Screen.maxScroll :=
      Nat.le_trans (Nat.min_le_left _ _) hscrolls.count_le
    unfold Screen.maxScroll at hn
    unfold Position.maxLine
    omega
  refine ⟨(t.modifyScreen f).absorbDamage, ?_, hdone, ?_, fun sel hsel => ?_,
    fun sel sel' hsel hsel' => ?_⟩
  · unfold apply
    rw [t.act_onScreen? hf]
    rfl
  · rw [← screen_of_primary hdone, screen_absorbDamage, hscreen']
    exact hlines
  · have hwithin := hselects sel hsel
    rw [hscreen, Screen.length_lines hprimary] at hwithin
    rw [current_absorbDamage_iff (hselector' ▸ hsel)
      ((h.aligned sel hsel).trans (hactive.trans hactive'.symm))
      (by rw [hscreen', hevicted]; exact hbound), hscreen', hevicted, hrows, hlength]
    by_cases hgone : sel.anchor.line < t.primary.history.evictions (min count rows)
    · exact ⟨fun _ => Or.inl hgone, fun _ => Or.inl hgone⟩
    · exact or_congr Iff.rfl (Selection.touches_scrolled_iff (Nat.min_le_right _ _)
        hprimary.rows_pos hle (Nat.le_of_not_lt hgone) hwithin)
  · obtain ⟨old, hold, hanchor, hup, -⟩ := of_absorbDamage hsel'
    rw [hselector', hsel] at hold
    cases hold
    rw [hscreen', hevicted, Nat.min_eq_left hbound] at hanchor hup
    exact ⟨hanchor, hup⟩

/-- The same for output that scrolls once. -/
theorem feed_scrolls {P : Nat → Row → Prop} (hs : t.Sound P rows cols) (h : t.Steady)
    (hselects : t.Selects) (hactive : t.active = .primary)
    (hfull : t.primary.region = t.primary.fullRegion) (hkeeps : t.primary.keepsRows = true)
    (hscrolls : t.primary.Scrolls action count) {bytes : List UInt8}
    (hread : (t.reader.feed bytes).2 = [action]) :
    ∃ t', t.feed bytes = ⟨t', none⟩ ∧ t.ScrollsTo t' (min count rows) := by
  have hready : ({ t with reader := (t.reader.feed bytes).1 } : Terminal π).Steady :=
    h.of_same (Same.withReader t _)
  obtain ⟨t₁, happly, hscrolled⟩ := apply_scrolls
    (t := { t with reader := (t.reader.feed bytes).1 }) (hs.of_eq rfl rfl) hready
    (hselects.of_eq rfl rfl) hactive hfull hkeeps hscrolls
  obtain ⟨hactive', hselector, hsame⟩ := t₁.settle_rest !bytes.isEmpty
  have hprimary := hactive'.trans hscrolled.active
  rw [screen_of_primary hprimary, screen_of_primary hscrolled.active] at hsame
  refine ⟨t₁.settle !bytes.isEmpty, ?_, hprimary, hsame.trans hscrolled.lines, ?_, ?_⟩
  · rw [feed_eq, hread, applyAll, happly]
    rfl
  · rw [hselector]
    exact hscrolled.ended
  · rw [hselector]
    exact hscrolled.kept

/-- A selection whose lines are found again further up exports what it did. -/
theorem selectedText?_of_up {t' : Terminal π} {e : Nat} (h : Reach rows cols t)
    (h' : Reach rows cols t') (hactive : t.active = .primary) (hactive' : t'.active = .primary)
    (hsel : t.selector.current = some sel) (hsel' : t'.selector.current = some (sel.up e))
    (hanchor : e ≤ sel.anchor.line)
    (hfound : ∀ line, sel.anchor.line ≤ line → line ≤ sel.extent.line →
      t'.primary.lines[line - e]? = t.primary.lines[line]?) :
    t'.selectedText? = t.selectedText? := by
  have hscreen : sel.screen = .primary := (h.steady.aligned sel hsel).trans hactive
  have hwithin := h.selects sel hsel
  have hwithin' := h'.selects (sel.up e) hsel'
  have hb := isEmpty_bufferOf (h.sound Row.law_fits)
  have hb' := isEmpty_bufferOf (h'.sound Row.law_fits)
  rw [screen_of_primary hactive] at hwithin
  rw [screen_of_primary hactive'] at hwithin'
  rw [hactive] at hb
  rw [hactive'] at hb'
  rw [selectedText?_eq hsel, selectedText?_eq hsel']
  change (if sel.isEmpty then none else some ((sel.up e).text (t'.bufferOf sel.screen))) = _
  rw [hscreen, Selection.text_up hb hb' hwithin hwithin' hanchor hfound]

/-- **A full scroll loses nothing, and when it ends a selection.** The buffer
loses as many lines at its old end as leave the history, and gets the new rows
at the other. Output that scrolls so ends a selection if the first of its
lines left the history, and, by mistake, if a report of the primary screen was
left over from before it was shown and some line of the selection is as far
down now. In all other cases the selection has the same lines, and the same
text is exported. -/
theorem scroll_ends_selection_iff (h : Reach rows cols t)
    (hfull : t.primary.region = t.primary.fullRegion) (hcap : 0 < t.primary.history.capacity) :
    (∀ count,
      let s' := t.primary.scrollUp count
      let n := min count rows
      let e := t.primary.history.evictions n
      s'.damage.evicted = t.primary.damage.evicted + e ∧
        s'.lines = t.primary.lines.drop e ++
          List.replicate n (Row.blank cols t.primary.eraser) ∧
        s'.grid.rows = s'.lines.drop (s'.lines.length - rows)) ∧
    ∀ (bytes : List UInt8) (action : Action) (count : Nat), t.active = .primary →
      (t.reader.feed bytes).2 = [action] → t.primary.Scrolls action count →
      let n := min count rows
      let e := t.primary.history.evictions n
      let t' := (t.feed bytes).terminal
      (t.feed bytes).fault = none ∧ t'.active = .primary ∧
        t'.primary.lines = t.primary.lines.drop e ++
          List.replicate n (Row.blank cols t.primary.eraser) ∧
        ∀ sel, t.selector.current = some sel →
          (t'.selector.current = none ↔ sel.anchor.line < e ∨
            ∃ first last, t.primary.damage.rows = some (first, last) ∧
              t.primary.history.length + n + first ≤ sel.extent.line) ∧
          (t'.selector.current ≠ none →
            t'.selector.current = some (sel.up e) ∧
              (∀ line, sel.anchor.line ≤ line → line ≤ sel.extent.line →
                t'.primary.lines[line - e]? = t.primary.lines[line]?) ∧
              t'.selectedText? = t.selectedText?) := by
  have hs : t.Sound Row.Fits rows cols := h.sound Row.law_fits
  have hprimary : t.primary.Sound Row.Fits .primary rows cols := hs.screenOf .primary
  have hkeeps : t.primary.keepsRows = true := by
    unfold Screen.keepsRows
    rw [hprimary.kind_eq]
    simp [hcap]
  have hwidth : t.primary.grid.cols = cols := hprimary.width
  refine ⟨fun count => ?_, fun bytes action count hactive hread hscrolls => ?_⟩
  · intro s' n e
    obtain ⟨hevicted, -, hlines⟩ := Screen.scrollUp_full hprimary hfull hkeeps count
      (show min count t.primary.region.height = n by rw [(Screen.extent_full hprimary hfull).1])
    rw [hwidth] at hlines
    exact ⟨hevicted, hlines, Screen.rows_eq_drop_lines (hprimary.scrollUp Row.law_fits count)⟩
  · intro n e t'
    obtain ⟨t₁, hfeed, hscrolled⟩ :=
      feed_scrolls hs h.steady h.selects hactive hfull hkeeps hscrolls hread
    have hterminal : t' = t₁ := congrArg Outcome.terminal hfeed
    rw [← hterminal] at hscrolled
    have hafter : t'.primary.lines = t.primary.lines.drop e ++
        List.replicate n (Row.blank cols t.primary.eraser) := by
      rw [hscrolled.lines, hwidth]
    refine ⟨congrArg Outcome.fault hfeed, hscrolled.active, hafter, fun sel hsel =>
      ⟨hscrolled.ended sel hsel, fun hthere => ?_⟩⟩
    obtain ⟨sel', hsel'⟩ := Option.ne_none_iff_exists'.1 hthere
    obtain ⟨hanchor, rfl⟩ := hscrolled.kept sel sel' hsel hsel'
    have hanchor : e ≤ sel.anchor.line := hanchor
    have hwithin := h.selects sel hsel
    rw [screen_of_primary hactive] at hwithin
    have hfound : ∀ line, sel.anchor.line ≤ line → line ≤ sel.extent.line →
        t'.primary.lines[line - e]? = t.primary.lines[line]? := by
      intro line hfirst hlast
      have hin : line < t.primary.lines.length := Nat.lt_of_le_of_lt hlast hwithin.inside
      rw [hafter, List.getElem?_append_left (by rw [List.length_drop]; omega), List.getElem?_drop,
        Nat.add_sub_of_le (Nat.le_trans hanchor hfirst)]
    exact ⟨hsel', hfound, selectedText?_of_up h (h.feed bytes) hactive hscrolled.active hsel hsel'
      hanchor hfound⟩

end Scrolling

attribute [local instance] Glyph.unicode

/-- A small terminal that remembers one line. -/
def shallow : Terminal Spool :=
  ((create { rows := 2, cols := 3, capacity := 1 }).toOption).getD default

theorem reach_shallow : Reach 2 3 shallow := by
  have hcreate : create { rows := 2, cols := 3, capacity := 1 } = .ok shallow := rfl
  exact Reach.create hcreate

/-- It remembers a line already, and the two below it are selected. -/
def brimful : Terminal Spool :=
  ((shallow.feed [0x61, 0x0D, 0x0A, 0x62, 0x0D, 0x0A, 0x63]).terminal.point
    ⟨.left, .press 1, 0, 0⟩).point ⟨.left, .drag, 0, 1⟩

theorem reach_brimful : Reach 2 3 brimful := ((reach_shallow.feed _).point _).point _

/-- A line feed costs the history its line. The selection moves up with its
lines, and exports what it did. -/
theorem scroll_ends_selection_iff_kept :
    let sel : Selection := { anchor := ⟨1, 0⟩, extent := ⟨2, 0⟩, origin := ⟨⟨1, 0⟩, ⟨1, 0⟩⟩
                             depth := .glyph, screen := .primary, extended := true }
    (Reach 2 3 brimful ∧ brimful.primary.region = brimful.primary.fullRegion ∧
        0 < brimful.primary.history.capacity ∧ brimful.active = .primary ∧
        (brimful.reader.feed [0x0A]).2 = [.lineFeed] ∧ brimful.primary.Scrolls .lineFeed 1 ∧
        brimful.selector.current = some sel) ∧
      brimful.primary.history.evictions 1 = 1 ∧
      brimful.selectedText? = some ['b', '\n', 'c'] ∧
      (brimful.feed [0x0A]).terminal.selector.current = some (sel.up 1) ∧
      (brimful.feed [0x0A]).terminal.selectedText? = some ['b', '\n', 'c'] := by
  intro sel
  have hfull : brimful.primary.region = brimful.primary.fullRegion := by decide +kernel
  have hcap : 0 < brimful.primary.history.capacity := by decide +kernel
  have hactive : brimful.active = .primary := by decide +kernel
  have hread : (brimful.reader.feed [0x0A]).2 = [.lineFeed] := by decide +kernel
  have hscrolls : brimful.primary.Scrolls .lineFeed 1 := .lineFeed (by decide +kernel)
  have hsel : brimful.selector.current = some sel := by decide +kernel
  have htext : brimful.selectedText? = some ['b', '\n', 'c'] := by decide +kernel
  obtain ⟨-, -, -, hselection⟩ := (scroll_ends_selection_iff reach_brimful hfull hcap).2 [0x0A]
    .lineFeed 1 hactive hread hscrolls
  obtain ⟨-, hkept⟩ := hselection sel hsel
  obtain ⟨hmoved, -, hsame⟩ := hkept (by decide +kernel)
  exact ⟨⟨reach_brimful, hfull, hcap, hactive, hread, hscrolls, hsel⟩, by decide +kernel, htext,
    hmoved, hsame.trans htext⟩

/-- Three lines, the first of which left the screen. A request for the
alternate screen then erases the primary one and leaves it, one after the
other, and only the alternate screen is asked for a report. -/
def hidden : Terminal Spool :=
  ((plain 2 3).feed [0x61, 0x0D, 0x0A, 0x62, 0x0D, 0x0A, 0x63, 0x1B, 0x5B, 0x3F, 0x33, 0x3B,
    0x34, 0x37, 0x68]).terminal

/-- The host comes back to the primary screen, and selects the whole buffer. -/
def misreported : Terminal Spool :=
  ((((hidden.changeScreen .primary).scrollView 1).point ⟨.left, .press 1, 0, 0⟩).scrollView
    (-1)).point ⟨.left, .drag, 2, 1⟩

theorem reach_misreported : Reach 2 3 misreported :=
  have hhidden : Reach 2 3 hidden := (reach_plain 2 3 (by decide) (by decide)).feed _
  ((((hhidden.changeScreen .primary).scrollView 1).point _).scrollView (-1)).point _

/-- One line up, of which the history loses none: still the selection ends. -/
theorem not_scroll_keeps_selection :
    (Reach 2 3 misreported ∧ misreported.primary.region = misreported.primary.fullRegion ∧
        0 < misreported.primary.history.capacity ∧ misreported.active = .primary ∧
        (misreported.reader.feed [0x1B, 0x5B, 0x53]).2 = [.scrollUp 1] ∧
        misreported.primary.Scrolls (.scrollUp 1) 1) ∧
      misreported.primary.history.evictions 1 = 0 ∧
      misreported.selector.current = some
        { anchor := ⟨0, 0⟩, extent := ⟨2, 2⟩, origin := ⟨⟨0, 0⟩, ⟨0, 0⟩⟩, depth := .glyph
          screen := .primary, extended := true } ∧
      (misreported.feed [0x1B, 0x5B, 0x53]).terminal.selector.current = none := by
  exact ⟨⟨reach_misreported, by decide +kernel, by decide +kernel, by decide +kernel,
    by decide +kernel, .scrollUp (by decide)⟩, by decide +kernel, by decide +kernel,
    by decide +kernel⟩

end Terminal

end VideoTerminal
