import VideoTerminal.Proofs.Selection.Text
import VideoTerminal.Proofs.Terminal.Steady
/-!
# Selections and output

Output moves the lines of a selection and ends it when their text changes. A
selection that outlives output is followed line by line through all actions:
its lines are found again as many lines further up as left the history, and
each is the row it was, but for the mark that its text goes on (`Follows`).
That mark is set by a wrap without a report, and is all that can change the
text of a selection that is still there.
-/

namespace VideoTerminal

/-- There is always a cell to point to. -/
theorem Screen.Sound.isEmpty_buffer {P : Nat → Row → Prop} {kind : ScreenKind} {rows cols : Nat}
    {s : Screen} (h : s.Sound P kind rows cols) :
    (Buffer.of s.history s.grid).isEmpty = false := by
  have hrows := h.rows_pos
  have hcols := h.cols_pos
  have htotal : (Buffer.of s.history s.grid).total = s.history.lines.length + rows := by
    rw [← h.height]
    exact List.length_append
  have hwidth : (Buffer.of s.history s.grid).cols = cols := h.width
  unfold Buffer.isEmpty
  simp only [Bool.or_eq_false_iff, beq_eq_false_iff_ne]
  omega

namespace Terminal

variable {π : Type} {P : Nat → Row → Prop} {rows cols : Nat} {t t' t'' : Terminal π}

/-- What is selected lies in the buffer of the screen that is shown. -/
def Selects (t : Terminal π) : Prop :=
  ∀ sel, t.selector.current = some sel → sel.Within t.screen.lines.length

/-- A selection that is there after a change was there before it, moved up
since, and its lines are found again, but for marks. -/
def Follows (t t' : Terminal π) : Prop :=
  ∀ sel', t'.selector.current = some sel' → ∃ sel count, t.selector.current = some sel ∧
    count ≤ sel.anchor.line ∧ sel' = sel.up count ∧
    ∀ line, sel.anchor.line ≤ line → line ≤ sel.extent.line → ∃ row row',
      t.screen.lines[line]? = some row ∧ t'.screen.lines[line - count]? = some row' ∧
      row'.MarkedFrom row

theorem Selects.of_eq (h : t.Selects) (hselector : t'.selector = t.selector)
    (hlines : t'.screen.lines = t.screen.lines) : t'.Selects := by
  intro sel hsel
  rw [hselector] at hsel
  rw [hlines]
  exact h sel hsel

theorem selects_of_gone (h : t.selector.current = none) : t.Selects := by
  intro sel hsel
  rw [h] at hsel
  cases hsel

namespace Follows

/-- A change that touches neither the selection nor the lines. -/
theorem of_eq (h : t.Selects) (hselector : t'.selector = t.selector)
    (hlines : t'.screen.lines = t.screen.lines) : t.Follows t' := by
  intro sel hsel
  rw [hselector] at hsel
  refine ⟨sel, 0, hsel, Nat.zero_le _, sel.up_zero.symm, fun line _ hlast => ?_⟩
  have hin : line < t.screen.lines.length := Nat.lt_of_le_of_lt hlast (h sel hsel).inside
  rw [hlines, Nat.sub_zero]
  exact ⟨_, _, List.getElem?_eq_getElem hin, List.getElem?_eq_getElem hin, Or.inl rfl⟩

theorem trans (h : t.Follows t') (h' : t'.Follows t'') : t.Follows t'' := by
  intro sel'' hsel''
  obtain ⟨sel', count', hsel', hcount', rfl, hfound'⟩ := h' sel'' hsel''
  obtain ⟨sel, count, hsel, hcount, rfl, hfound⟩ := h sel' hsel'
  change count' ≤ sel.anchor.line - count at hcount'
  refine ⟨sel, count + count', hsel, by omega, sel.up_up count count', fun line hfirst hlast => ?_⟩
  obtain ⟨row, row', hrow, hrow', hmarked⟩ := hfound line hfirst hlast
  have hfirst' : (sel.up count).anchor.line ≤ line - count := Nat.sub_le_sub_right hfirst _
  have hlast' : line - count ≤ (sel.up count).extent.line := Nat.sub_le_sub_right hlast _
  obtain ⟨row₁, row'', hrow₁, hrow'', hmarked'⟩ := hfound' (line - count) hfirst' hlast'
  rw [hrow'] at hrow₁
  cases hrow₁
  exact ⟨row, row'', hrow, by rw [← Nat.sub_sub]; exact hrow'', hmarked.trans hmarked'⟩

theorem selects (h : t.Follows t') (hs : t.Selects) : t'.Selects := by
  intro sel' hsel'
  obtain ⟨sel, count, hsel, -, rfl, hfound⟩ := h sel' hsel'
  have hwithin := hs sel hsel
  obtain ⟨-, row', -, hrow', -⟩ := hfound sel.extent.line hwithin.ordered (Nat.le_refl _)
  exact ⟨Nat.sub_le_sub_right hwithin.origin _, Nat.sub_le_sub_right hwithin.covers _,
    Nat.sub_le_sub_right hwithin.ordered _, (List.getElem?_eq_some_iff.1 hrow').1⟩

/-- What the screen reports of a change is enough to follow a selection. -/
theorem absorbDamage (ha : t.Aligned) (hs : t.Selects) (hselector : t'.selector = t.selector)
    (hactive : t'.active = t.active) (hreports : t.screen.Reports t'.screen) :
    t.Follows t'.absorbDamage := by
  intro sel' hsel'
  have hbound : min t'.screen.damage.evicted Position.maxLine = t'.screen.damage.evicted := by
    have hle := hreports.bound
    unfold Screen.maxScroll at hle
    unfold Position.maxLine
    omega
  obtain ⟨sel, hsel, hcount, rfl, hspared⟩ := of_absorbDamage hsel'
  rw [hbound] at hcount hspared ⊢
  rw [hselector] at hsel
  have hscreen : sel.screen = t'.active := (ha sel hsel).trans hactive.symm
  have hinside := (hs sel hsel).inside
  refine ⟨sel, _, hsel, hcount, rfl, fun line hfirst hlast => ?_⟩
  have hin : line < t.screen.lines.length := Nat.lt_of_le_of_lt hlast hinside
  -- a line of the selection that was reported would have ended it
  have hkept : ¬ t'.screen.Reported (line - t'.screen.damage.evicted) := by
    rintro ⟨i, hi, hcovers⟩
    refine hspared hscreen i hcovers ⟨?_, ?_⟩
    · rw [← hi]
      exact Nat.sub_le_sub_right hfirst _
    · rw [← hi]
      exact Nat.sub_le_sub_right hlast _
  obtain ⟨row', hrow', hmarked⟩ := hreports.found line _ (Nat.le_trans hcount hfirst)
    (List.getElem?_eq_getElem hin) hkept
  refine ⟨_, row', List.getElem?_eq_getElem hin, ?_, hmarked⟩
  rw [screen_absorbDamage]
  exact hrow'

/-- A screen that was drawn anew has nothing selected, and one that was
changed in place reports what changed. -/
theorem of_shows (h : t.Steady) (hs : t.Selects) (hshows : t.Shows t') :
    t.Follows t'.absorbDamage := by
  rcases hshows.shown with hnew | hin
  · intro sel' hsel'
    obtain ⟨sel, hsel, -⟩ := of_absorbDamage hsel'
    rw [hnew.gone] at hsel
    cases hsel
  · exact absorbDamage h.aligned hs hin.selector hin.active
      (Screen.Reports.of_amends (h.settled t.active) hin.screen)

end Follows

/-! ## Actions -/

/-- What an action on the screen does not report is as it was, but for
marks. -/
theorem reports_onScreen? [Glyph.Widths] (law : Row.Law P) {tabs : TabStops} {action : Action}
    {f : Screen → Screen} (hf : onScreen? tabs action = some f) {kind : ScreenKind} {s : Screen}
    (h : s.Sound P kind rows cols) (hevicted : s.damage.evicted = 0) : s.Reports (f s) := by
  refine onScreen?_elim hf (Screen.Reports.of_amends hevicted) ?_ ?_ ?_ ?_
  · exact Screen.reports_print law h hevicted
  · exact Screen.reports_index h hevicted
  · refine Screen.Reports.of_marked (Screen.reports_index h.carriageReturn hevicted) ?_
    exact fun line row hrow => ⟨row, hrow, Or.inl rfl⟩
  · exact Screen.reports_scrollBy h hevicted

section Output

variable [Printer π] [Glyph.Widths]

/-- **One action**: a selection that outlives it is followed. -/
theorem follows_apply (law : Row.Law P) (hs : t.Sound P rows cols) (h : t.Steady)
    (hsel : t.Selects) (action : Action) : t.Follows (t.apply action).terminal := by
  unfold apply
  rcases t.act_cases action with hsame | heq
  · unfold Outcome.map Outcome.andThen
    split
    · exact Follows.of_shows h hsel (Shows.of_same hsame)
    · exact Follows.of_eq hsel hsame.selector (by rw [hsame.screen])
  · rw [heq]
    change t.Follows (t.perform action).absorbDamage
    rcases t.perform_cases action hs h.aligned with ⟨f, hf, heq⟩ | hshows
    · obtain ⟨hactive, -, hselector⟩ := modifyScreen_rest t f
      rw [heq]
      refine Follows.absorbDamage h.aligned hsel hselector hactive ?_
      rw [screen_modifyScreen]
      exact reports_onScreen? law hf hs.screen (h.settled t.active)
    · exact Follows.of_shows h hsel hshows

theorem follows_applyAll (law : Row.Law P) (hs : t.Sound P rows cols) (h : t.Steady)
    (hsel : t.Selects) (actions : List Action) : t.Follows (t.applyAll actions).terminal := by
  induction actions generalizing t with
  | nil => exact Follows.of_eq hsel rfl rfl
  | cons action actions ih =>
    have hone := follows_apply law hs h hsel action
    have hsteady := (steady_apply law hs h action).1
    unfold applyAll Outcome.andThen
    split
    · exact hone.trans (ih (hs.apply law action) hsteady (hone.selects hsel))
    · exact hone

omit [Printer π] [Glyph.Widths] in
theorem viewAt_rest (t : Terminal π) (offset : Nat) :
    (t.viewAt offset).selector = t.selector ∧
      (t.viewAt offset).screen.lines = t.screen.lines := by
  unfold viewAt
  split
  · exact ⟨rfl, rfl⟩
  · unfold markAll modifyScreen modifyOf screen
    cases t.active <;> exact ⟨rfl, rfl⟩

theorem follows_feed (law : Row.Law P) (hs : t.Sound P rows cols) (h : t.Steady)
    (hsel : t.Selects) (bytes : List UInt8) : t.Follows (t.feed bytes).terminal := by
  have hread : ({ t with reader := (t.reader.feed bytes).1 } : Terminal π).Steady :=
    h.of_same (Same.withReader t _)
  have hsound : ({ t with reader := (t.reader.feed bytes).1 } : Terminal π).Sound P rows cols :=
    hs.of_eq rfl rfl
  have hsel₁ : ({ t with reader := (t.reader.feed bytes).1 } : Terminal π).Selects :=
    hsel.of_eq rfl rfl
  have hrun : t.Follows _ := (Follows.of_eq hsel rfl rfl).trans
    (follows_applyAll law hsound hread hsel₁ (t.reader.feed bytes).2)
  have hsteady := (steady_applyAll law hsound hread (t.reader.feed bytes).2).1
  rw [feed_eq]
  generalize ({ t with reader := (t.reader.feed bytes).1 }.applyAll (t.reader.feed bytes).2) = o
    at hrun hsteady ⊢
  unfold Outcome.map Outcome.andThen
  split
  · change t.Follows (o.terminal.settle _)
    rw [settle_eq hsteady]
    split
    · obtain ⟨hselector, hlines⟩ := viewAt_rest o.terminal 0
      exact hrun.trans (Follows.of_eq (hrun.selects hsel) hselector hlines)
    · exact hrun
  · exact hrun

/-! ## The host -/

omit [Printer π] [Glyph.Widths] in
theorem selects_viewAt (h : t.Selects) (offset : Nat) : (t.viewAt offset).Selects :=
  h.of_eq (viewAt_rest t offset).1 (viewAt_rest t offset).2

omit [Printer π] [Glyph.Widths] in
theorem isEmpty_bufferOf (hs : t.Sound P rows cols) : (t.bufferOf t.active).isEmpty = false :=
  hs.screen.isEmpty_buffer

omit [Printer π] [Glyph.Widths] in
/-- What the pointer selects lies in the buffer. -/
theorem selects_point (hs : t.Sound P rows cols) (h : t.Selects) (p : Pointer) :
    (t.point p).Selects := by
  have hb := isEmpty_bufferOf hs
  have hextend : ∀ place : Position,
      ({ t with selector := t.selector.extend (t.bufferOf t.active) place } :
        Terminal π).Selects := by
    intro place sel' hsel'
    obtain ⟨sel, hsel, rfl⟩ := Option.map_eq_some_iff.1 hsel'
    exact Selection.Within.extendTo hb (h sel hsel) _ _
  unfold point
  dsimp only
  split
  · split
    · exact h.of_eq rfl rfl
    · exact h
  · unfold selectAt
    dsimp only
    split
    · intro sel hsel
      cases hsel
      exact Selection.within_start hb _ _ _ _
    · exact hextend _
    · exact hextend _
    · exact hextend _
    · exact h

/-- **What is selected lies in the buffer**, in every reachable terminal. -/
theorem Reach.selects (h : Reach rows cols t) : t.Selects := by
  induction h with
  | create h => exact selects_of_gone (fresh_create h).gone
  | feed bytes h ih =>
    exact (follows_feed Row.law_fits (h.sound Row.law_fits) h.steady ih bytes).selects ih
  | resize hr _ _ => exact selects_of_gone (fresh_resize hr).gone
  | point p h ih => exact selects_point (h.sound Row.law_fits) ih p
  | scrollView distance _ ih => exact selects_viewAt ih _
  | changeScreen kind h ih =>
    rename_i t
    by_cases hsame : t.active = kind
    · unfold Terminal.changeScreen
      rw [if_pos hsame]
      exact ih
    · exact selects_of_gone (anew_changeScreen h.steady.aligned hsame).gone
  | fullReset | clearSelection | shutdown => exact selects_of_gone rfl
  | typeBytes bytes _ ih =>
    rename_i t _
    have hsent : (t.send bytes).Selects := ih.of_eq rfl rfl
    rcases t.typeBytes_cases bytes with heq | heq
    · rw [heq]
      exact hsent
    · rw [heq]
      exact selects_viewAt hsent 0
  | paste bytes _ ih =>
    unfold Terminal.paste
    dsimp only
    split <;> exact ih.of_eq rfl rfl
  | clearMarks _ ih =>
    rename_i t _
    refine ih.of_eq (modifyScreen_rest t _).2.2 ?_
    unfold Terminal.clearMarks
    rw [screen_modifyScreen]
    rfl
  | countClick | drained | usePrinter | closePipe =>
    rename_i ih
    exact ih.of_eq rfl rfl

/-! ## The text that is exported -/

omit [Printer π] [Glyph.Widths] in
theorem selectedText?_eq {sel : Selection} (h : t.selector.current = some sel) :
    t.selectedText? =
      if sel.isEmpty then none else some (sel.text (t.bufferOf sel.screen)) := by
  unfold selectedText? Selector.text?
  rw [h]
  change ((some sel).filter (!·.isEmpty)).map (·.text (t.bufferOf sel.screen)) = _
  rw [Option.filter_some]
  cases sel.isEmpty <;> rfl

omit [Printer π] [Glyph.Widths] in
theorem unbroken_bufferOf (hs : t.Sound (fun _ row => row.Unbroken) rows cols) :
    ∀ row ∈ (t.bufferOf t.active).lines, row.Unbroken := by
  intro row hrow
  rcases List.mem_append.1 hrow with hrow | hrow
  · exact hs.screen.kept row hrow
  · exact hs.screen.shown row hrow

/-- **When a selection that outlives output keeps its text**, as long as a line
break fills no column. The selection moved up by as many lines as left the
history, and its text is the same if and only if output marked no line of it
as going on in the next one, except for its last line where what is selected of
it is the same with the mark. All other changes of selected text end the
selection. -/
theorem selectedText?_feed_iff (hnewline : Glyph.width '\n' = 0) (h : Reach rows cols t)
    (bytes : List UInt8) {sel sel' : Selection} (hsel : t.selector.current = some sel)
    (hsel' : (t.feed bytes).terminal.selector.current = some sel') :
    let moved := sel.anchor.line - sel'.anchor.line
    (t.feed bytes).terminal.selectedText? = t.selectedText? ↔
      sel.isEmpty = true ∨
        ∀ (line : Nat) (row : Row), sel.anchor.line ≤ line → line ≤ sel.extent.line →
          (t.bufferOf t.active).lines[line]? = some row → row.isWrapped = false →
          ((t.feed bytes).terminal.bufferOf (t.feed bytes).terminal.active).continues
            (line - moved) = true →
          line = sel.extent.line ∧
            sel.rowText (row.withEnd .wrapped) line = sel.rowText row line := by
  intro moved
  have hafter := h.feed bytes
  have hfollows := follows_feed Row.law_fits (h.sound Row.law_fits) h.steady h.selects bytes
  obtain ⟨sel₀, count, hsel₀, hcount, rfl, hfound⟩ := hfollows sel' hsel'
  rw [hsel] at hsel₀
  cases hsel₀
  have hmoved : moved = count := by
    change sel.anchor.line - (sel.anchor.line - count) = count
    omega
  have hscreen : sel.screen = t.active := h.steady.aligned sel hsel
  have hscreen' : (sel.up count).screen = (t.feed bytes).terminal.active :=
    hafter.steady.aligned _ hsel'
  have htext := Selection.text_up_eq_iff (isEmpty_bufferOf (h.sound Row.law_fits))
    (isEmpty_bufferOf (hafter.sound Row.law_fits)) (h.selects sel hsel) (hafter.selects _ hsel')
    hcount (unbroken_bufferOf (h.sound (Row.law_unbroken hnewline)))
    (unbroken_bufferOf (hafter.sound (Row.law_unbroken hnewline))) hfound
  rw [selectedText?_eq hsel, selectedText?_eq hsel', hscreen, hscreen', hmoved]
  change (if sel.isEmpty then none else _) = _ ↔ _
  by_cases hempty : sel.isEmpty = true
  · simp [hempty]
  · have hempty' : sel.isEmpty = false := by simpa using hempty
    rw [hempty']
    refine Iff.trans ?_ (Iff.trans htext ?_)
    · exact ⟨fun heq => Option.some.inj heq, fun heq => congrArg some heq⟩
    · exact ⟨Or.inr, fun hor => hor.resolve_left (by decide)⟩

end Output

attribute [local instance] Glyph.unicode

/-- A line of three letters in a row of four columns. -/
def written : Terminal Spool := ((plain 2 4).feed [0x61, 0x62, 0x63]).terminal

/-- The line, with the pointer dragged over all columns of its row. -/
def dragged : Terminal Spool :=
  (written.point ⟨.left, .press 1, 0, 0⟩).point ⟨.left, .drag, 3, 0⟩

/-- What is selected then. -/
def wholeRow : Selection :=
  { anchor := ⟨0, 0⟩, extent := ⟨0, 3⟩, origin := ⟨⟨0, 0⟩, ⟨0, 0⟩⟩, depth := .glyph
    screen := .primary, extended := true }

theorem reach_dragged : Reach 2 4 dragged :=
  ((((reach_plain 2 4 (by decide) (by decide)).feed _).point _).point _)

/-- A new line leaves the row as it is, and the text with it. -/
theorem selectedText?_feed_newline :
    Glyph.width '\n' = 0 ∧ dragged.selector.current = some wholeRow ∧
      (dragged.feed [0x0D, 0x0A, 0x64]).terminal.selector.current = some wholeRow ∧
      (dragged.feed [0x0D, 0x0A, 0x64]).terminal.selectedText? = dragged.selectedText? := by
  have hsel : dragged.selector.current = some wholeRow := by decide
  have hsel' : (dragged.feed [0x0D, 0x0A, 0x64]).terminal.selector.current = some wholeRow := by
    decide
  have hnewline : Glyph.width '\n' = 0 := by decide
  refine ⟨hnewline, hsel, hsel',
    (selectedText?_feed_iff hnewline reach_dragged _ hsel hsel').2 (Or.inr ?_)⟩
  intro line row _ hlast _ _ hcontinues
  obtain rfl : line = 0 := Nat.le_zero.1 hlast
  exact absurd hcontinues (by decide)

/-- A wide glyph finds no room in the row and wraps. The row counts as going
on in the next one then, and the blank at its end as text: the selection is
still there, and its text is another one. -/
theorem selectedText?_feed_wide :
    Reach 2 4 dragged ∧ dragged.selectedText? = some ['a', 'b', 'c'] ∧
      (dragged.feed [0xE3, 0x81, 0x82]).terminal.selector.current = some wholeRow ∧
      (dragged.feed [0xE3, 0x81, 0x82]).terminal.selectedText? = some ['a', 'b', 'c', ' '] :=
  ⟨reach_dragged, by decide, by decide +kernel, by decide +kernel⟩

end Terminal

end VideoTerminal
