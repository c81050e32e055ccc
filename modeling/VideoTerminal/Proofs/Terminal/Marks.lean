import VideoTerminal.Proofs.Terminal.Steady
/-!
# Marks for the display

A host draws the rows that are marked and removes the marks. What a terminal
shows at a place of the view may be a row of the screen or a line of its
history, but marks stand at rows of the screen. This settles when they are
enough: always, unless the view is scrolled back and shows, at a place that
is not marked, a row of the screen that changed.
-/

namespace VideoTerminal

namespace Terminal

variable {π : Type} {P : Nat → Row → Prop} {rows cols : Nat} {t : Terminal π}

/-- What a host calls between two drawings of the display. -/
inductive Call where
  | feed (bytes : List UInt8)
  | scrollView (distance : Int)
  | typeBytes (bytes : List UInt8)
  deriving DecidableEq, Repr, Inhabited

/-- The row that is seen at a place of the view is a line of the history
above the offset of the view, and a row of the screen from there on. -/
theorem visibleRow?_eq (hv : t.viewOffset ≤ t.screen.history.length) {i : Nat}
    (hi : i < t.screen.height) :
    t.visibleRow? i =
      if i < t.viewOffset then
        t.screen.history.lines[t.screen.history.length - t.viewOffset + i]?
      else t.screen.grid.rows[i - t.viewOffset]? := by
  have hlines : (t.bufferOf t.active).lines = t.screen.history.lines ++ t.screen.grid.rows := rfl
  unfold visibleRow? viewTop
  rw [if_pos hi, hlines, Nat.min_eq_left hv]
  unfold History.length at hv ⊢
  split
  · rw [List.getElem?_append_left (by omega)]
  · rw [List.getElem?_append_right (by omega)]
    congr 1
    omega

/-- A place that shows another row than before, though it is not marked,
shows a row of the screen that changed below a view that is scrolled back. -/
theorem changed_iff_of_not_dirty {t' : Terminal π} (hs : t.Sound P rows cols)
    (hs' : t'.Sound P rows cols) (h : t.Steady) (h' : t'.Steady) (hredraws : t.Redraws t')
    {i : Nat} (hi : i < rows) (hdirty : ¬ t'.isRowDirty i = true) :
    t'.visibleRow? i ≠ t.visibleRow? i ↔
      0 < t'.viewOffset ∧ t'.viewOffset ≤ i ∧
        t'.screen.grid.rows[i - t'.viewOffset]? ≠ t.screen.grid.rows[i - t'.viewOffset]? := by
  have hclean : t'.screen.grid.Clean i := by
    by_cases hc : t'.screen.grid.Clean i
    · exact hc
    · exact absurd (Grid.isDirty_of_not_clean (by rw [hs'.screen.marks]; exact hi) hc) hdirty
  obtain ⟨-, -, hoffset, hrow, hhistory⟩ := hredraws i hclean
  have hin : i < t.screen.height := by rw [hs.screen.height_eq]; exact hi
  have hin' : i < t'.screen.height := by rw [hs'.screen.height_eq]; exact hi
  rw [visibleRow?_eq h.view hin, visibleRow?_eq h'.view hin', hhistory, ← hoffset]
  by_cases hlt : i < t'.viewOffset
  · -- the history is the one it was
    rw [if_pos hlt, if_pos hlt]
    exact ⟨fun hne => absurd rfl hne, fun hle => absurd hle.2.1 (by omega)⟩
  · rw [if_neg hlt, if_neg hlt]
    refine ⟨fun hne => ⟨?_, by omega, hne⟩, fun hne => hne.2.2⟩
    -- in a view that is not scrolled back the place is a row that is clean
    by_cases hzero : t'.viewOffset = 0
    · rw [hzero, Nat.sub_zero] at hne
      exact absurd hrow hne
    · exact Nat.pos_of_ne_zero hzero

section Calls

variable [Printer π] [Glyph.Widths]

/-- The effect of a call. -/
def call (t : Terminal π) : Call → Terminal π
  | .feed bytes => (t.feed bytes).terminal
  | .scrollView distance => t.scrollView distance
  | .typeBytes bytes => t.typeBytes bytes

/-- The effect of calls, one after the other. -/
def calls (t : Terminal π) (cs : List Call) : Terminal π := cs.foldl call t

theorem steady_call (law : Row.Law P) (hs : t.Sound P rows cols) (h : t.Steady) (c : Call) :
    (t.call c).Sound P rows cols ∧ (t.call c).Steady ∧ t.Redraws (t.call c) := by
  cases c with
  | feed bytes =>
    obtain ⟨hsteady, hredraws⟩ := steady_feed law hs h bytes
    exact ⟨hs.feed law bytes, hsteady, hredraws⟩
  | scrollView distance =>
    exact ⟨hs.viewAt _, h.viewAt (Nat.min_le_right _ _), Redraws.viewAt t _⟩
  | typeBytes bytes =>
    refine ⟨hs.typeBytes bytes, steady_typeBytes h bytes, ?_⟩
    have hsent : t.Redraws (t.send bytes) := Redraws.of_eq rfl rfl rfl rfl
    change t.Redraws (t.typeBytes bytes)
    rcases t.typeBytes_cases bytes with heq | heq
    · rw [heq]
      exact hsent
    · rw [heq]
      exact hsent.trans (Redraws.viewAt _ 0)

/-- **Calls mark what they change**: a row of the screen that is not marked
is the row it was, and so is every line of the history then. -/
theorem steady_calls (law : Row.Law P) (hs : t.Sound P rows cols) (h : t.Steady)
    (cs : List Call) :
    (t.calls cs).Sound P rows cols ∧ (t.calls cs).Steady ∧ t.Redraws (t.calls cs) := by
  induction cs generalizing t with
  | nil => exact ⟨hs, h, Redraws.refl t⟩
  | cons c cs ih =>
    obtain ⟨hsound, hsteady, hredraws⟩ := steady_call law hs h c
    obtain ⟨hsound', hsteady', hredraws'⟩ := ih hsound hsteady
    exact ⟨hsound', hsteady', hredraws.trans hredraws'⟩

/-- **When marks are enough.** After the marks were removed and the host made
calls, a place of the view that shows another row than before is marked, if
and only if it is marked in the one case that the marks do not follow: the
view is scrolled back, and shows there a row of the screen that changed. -/
theorem isRowDirty_of_changed_iff (h : Reach rows cols t) (cs : List Call) {i : Nat}
    (hi : i < rows) :
    let drawn := t.clearMarks
    let now := drawn.calls cs
    (now.visibleRow? i ≠ drawn.visibleRow? i → now.isRowDirty i = true) ↔
      (0 < now.viewOffset → now.viewOffset ≤ i →
        now.screen.grid.rows[i - now.viewOffset]? ≠ drawn.screen.grid.rows[i - now.viewOffset]? →
        now.isRowDirty i = true) := by
  intro drawn now
  have hsound : drawn.Sound Row.Fits rows cols := (h.sound Row.law_fits).clearMarks
  have hsteady : drawn.Steady := steady_clearMarks h.steady
  obtain ⟨hsound', hsteady', hredraws⟩ := steady_calls Row.law_fits hsound hsteady cs
  by_cases hdirty : now.isRowDirty i = true
  · exact ⟨fun _ _ _ _ => hdirty, fun _ _ => hdirty⟩
  · have hchanged := changed_iff_of_not_dirty hsound hsound' hsteady hsteady' hredraws hi hdirty
    exact ⟨fun hmark hk hle hne => hmark (hchanged.2 ⟨hk, hle, hne⟩),
      fun hmark hne => hmark (hchanged.1 hne).1 (hchanged.1 hne).2.1 (hchanged.1 hne).2.2⟩

end Calls

attribute [local instance] Glyph.unicode

/-- Two rows and a line of history, with the view scrolled back over it and the
cursor in the first row. -/
def scrolledBack : Terminal Spool :=
  ((plain 2 3).feed [0x61, 0x0D, 0x0A, 0x62, 0x0D, 0x0A, 0x63, 0x1B, 0x5B, 0x31, 0x3B, 0x31,
    0x48]).terminal.scrollView 1

theorem reach_scrolledBack : Reach 2 3 scrolledBack :=
  ((reach_plain 2 3 (by decide) (by decide)).feed _).scrollView 1

/-- A line feed in the last row moves all lines up. The first place of the view
shows another line of the history then, and its mark is enough. -/
theorem isRowDirty_of_changed_history :
    let drawn := scrolledBack.clearMarks
    let now := drawn.calls [.feed [0x1B, 0x5B, 0x32, 0x48, 0x0A]]
    Reach 2 3 scrolledBack ∧ now.viewOffset = 1 ∧
      now.visibleRow? 0 ≠ drawn.visibleRow? 0 ∧ now.isRowDirty 0 = true := by
  intro drawn now
  have hchanged : now.visibleRow? 0 ≠ drawn.visibleRow? 0 := by decide
  have hmarked := (isRowDirty_of_changed_iff reach_scrolledBack
    [.feed [0x1B, 0x5B, 0x32, 0x48, 0x0A]] (by decide : 0 < 2)).2
      fun _ hle => absurd hle (by decide)
  exact ⟨reach_scrolledBack, by decide, hchanged, hmarked hchanged⟩

/-- The second place shows the first row. Writing there changes what is seen,
and leaves the place without a mark. -/
theorem not_isRowDirty_scrolledBack :
    let drawn := scrolledBack.clearMarks
    let now := drawn.calls [.feed [0x78]]
    Reach 2 3 scrolledBack ∧ now.visibleRow? 1 ≠ drawn.visibleRow? 1 ∧
      now.isRowDirty 1 = false :=
  ⟨reach_scrolledBack, by decide, by decide⟩

end Terminal

end VideoTerminal
