import VideoTerminal.Proofs.Selection.Order
import VideoTerminal.Proofs.Terminal.Lasting
import VideoTerminal.Proofs.Terminal.Selected
/-!
# The parts of a terminal fit together

A selection, the view, the tab stops and the modes are kept beside the
screens, and point into them or speak of the same things. Whatever a child
program sends and a host does, they go with the screens as these are: what is
selected is in order and lies in the buffer of the screen that is shown, the
view lies in its history, there is a mark for every column, and buttons are
reported in one way at most.
-/

namespace VideoTerminal

namespace Terminal

variable {π : Type} {rows cols : Nat} {t t' : Terminal π}

/-! ## Tab stops and reports of buttons -/

/-- There is a mark for every column, and buttons are reported in one way at
most. -/
structure Fitted (cols : Nat) (t : Terminal π) : Prop where
  tabs : t.tabs.cols = cols
  reports : ¬ (t.modes.pressReports = true ∧ t.modes.buttonReports = true)

namespace Fitted

/-- A terminal with the same tab stops and the same modes. -/
theorem of_eq (h : t.Fitted cols) (htabs : t'.tabs = t.tabs) (hmodes : t'.modes = t.modes) :
    t'.Fitted cols := by
  refine ⟨?_, ?_⟩
  · rw [htabs]
    exact h.tabs
  · rw [hmodes]
    exact h.reports

theorem modifyOf (h : t.Fitted cols) (kind : ScreenKind) (f : Screen → Screen) :
    (t.modifyOf kind f).Fitted cols := by
  cases kind <;> exact h.of_eq rfl rfl

theorem modifyScreen (h : t.Fitted cols) (f : Screen → Screen) :
    (t.modifyScreen f).Fitted cols := h.modifyOf t.active f

theorem absorbDamage (h : t.Fitted cols) : t.absorbDamage.Fitted cols :=
  (h.modifyScreen Screen.dropDamage).of_eq rfl rfl

theorem viewAt (h : t.Fitted cols) (offset : Nat) : (t.viewAt offset).Fitted cols := by
  unfold Terminal.viewAt
  split
  · exact h
  · exact modifyScreen (t := { t with viewOffset := offset }) (h.of_eq rfl rfl) _

theorem changeScreen (h : t.Fitted cols) (kind : ScreenKind) :
    (t.changeScreen kind).Fitted cols := by
  unfold Terminal.changeScreen
  split
  · exact h
  · have hshown : ({ t with active := kind, viewOffset := 0 } : Terminal π).Fitted cols :=
      h.of_eq rfl rfl
    exact (hshown.modifyScreen _).of_eq rfl rfl

/-- The tab stops of a terminal that was reset are those of its width. -/
theorem fullReset (hs : t.Sound Row.Fits rows cols) : t.fullReset.Fitted cols := by
  refine ⟨?_, fun h => absurd h.1 Bool.false_ne_true⟩
  change (TabStops.fresh (t.changeScreen .primary).screen.cols).cols = cols
  rw [TabStops.cols_fresh]
  exact (hs.changeScreen .primary).screen.cols_eq

theorem setPrivate (h : t.Fitted cols) (mode : PrivateMode) (on : Bool) :
    (t.setPrivate mode on).Fitted cols := by
  cases mode with
  | wideLines =>
    have hmode : ({ t with modes.wideLines := on } : Terminal π).Fitted cols :=
      ⟨h.tabs, h.reports⟩
    exact hmode.modifyScreen fun s => (s.setRegion 0 s.lastRow).eraseScreen .all
  | reverseVideo =>
    have hmode : ({ t with modes.reverseVideo := on } : Terminal π).Fitted cols :=
      ⟨h.tabs, h.reports⟩
    simp only [Terminal.setPrivate, setReverseVideo]
    split
    · exact h
    · exact hmode.modifyScreen _
  | pressReports =>
    -- one kind of reports ends when the other one is switched on
    refine ⟨h.tabs, fun hboth => ?_⟩
    obtain ⟨rfl, hbutton⟩ : on = true ∧ (t.modes.buttonReports && !on) = true := hboth
    rw [Bool.not_true, Bool.and_false] at hbutton
    cases hbutton
  | buttonReports =>
    refine ⟨h.tabs, fun hboth => ?_⟩
    obtain ⟨hpress, rfl⟩ : (t.modes.pressReports && !on) = true ∧ on = true := hboth
    rw [Bool.not_true, Bool.and_false] at hpress
    cases hpress
  | origin => exact h.modifyScreen fun s => { s with modes.origin := on }.home
  | autowrap => exact h.modifyScreen (·.setAutowrap on)
  | cursorVisible => exact h.modifyScreen fun s => { s with modes.cursorVisible := on }
  | savedCursor => exact h.modifyScreen _
  | alternate => exact h.changeScreen _
  | alternateErased =>
    simp only [Terminal.setPrivate, setAlternateErased]
    split
    · exact h.changeScreen _
    · split
      · exact changeScreen
          (t := { t with alternate := (t.alternate.eraseScreen .all).dropDamage })
          (h.of_eq rfl rfl) _
      · exact h
  | alternateSaved =>
    simp only [Terminal.setPrivate, setAlternateSaved]
    split
    · have hsaved : ({ t with primary := t.primary.saveCursor } : Terminal π).Fitted cols :=
        h.of_eq rfl rfl
      exact (hsaved.changeScreen .alternate).of_eq rfl rfl
    · exact (h.changeScreen .primary).of_eq rfl rfl
  | applicationCursor | applicationKeypad | scrollOnOutput | scrollOnKey | bracketedPaste =>
    exact ⟨h.tabs, h.reports⟩

theorem savePrivate (h : t.Fitted cols) (mode : PrivateMode) :
    (t.savePrivate mode).Fitted cols := by
  unfold Terminal.savePrivate
  split
  · exact h
  · exact h.of_eq rfl rfl

theorem restorePrivate (h : t.Fitted cols) (mode : PrivateMode) :
    (t.restorePrivate mode).Fitted cols := by
  unfold Terminal.restorePrivate
  split
  · exact h
  · exact h.setPrivate mode _

theorem setMode (h : t.Fitted cols) (mode : Nat) (on : Bool) : (t.setMode mode on).Fitted cols := by
  unfold Terminal.setMode
  split
  · exact h.modifyScreen _
  · exact h

theorem onTerminal (hs : t.Sound Row.Fits rows cols) (h : t.Fitted cols) (action : Action) :
    (t.onTerminal action).Fitted cols := by
  cases action with
  | setPrivate modes => exact List.foldlRecOn _ _ h fun _ h mode _ => h.setPrivate mode true
  | resetPrivate modes => exact List.foldlRecOn _ _ h fun _ h mode _ => h.setPrivate mode false
  | savePrivate modes => exact List.foldlRecOn _ _ h fun _ h mode _ => h.savePrivate mode
  | restorePrivate modes => exact List.foldlRecOn _ _ h fun _ h mode _ => h.restorePrivate mode
  | setModes modes => exact List.foldlRecOn _ _ h fun _ h mode _ => h.setMode mode true
  | resetModes modes => exact List.foldlRecOn _ _ h fun _ h mode _ => h.setMode mode false
  | fullReset => exact fullReset hs
  | setTabStop => exact ⟨(TabStops.cols_set _ _).trans h.tabs, h.reports⟩
  | clearTabStop which =>
    simp only [Terminal.onTerminal, clearTabStop]
    split
    · exact ⟨(TabStops.cols_clear _ _).trans h.tabs, h.reports⟩
    · exact ⟨(TabStops.cols_clearAll _).trans h.tabs, h.reports⟩
    · exact h
  | applicationKeypad | numericKeypad => exact ⟨h.tabs, h.reports⟩
  | statusReport which =>
    simp only [Terminal.onTerminal, answer]
    split <;> exact h.of_eq rfl rfl
  | _ => exact h.of_eq rfl rfl

end Fitted

/-- Tab stops and reports of buttons stay fitted, whatever is sent. -/
theorem lasting_fitted [Glyph.Widths] : Lasting fun t : Terminal π => t.Sound Row.Fits rows cols ∧
    t.Fitted cols where
  aside _ _ _ h := ⟨h.1.of_eq rfl rfl, h.2.of_eq rfl rfl⟩
  markAll h := ⟨h.1.markAll, h.2.modifyScreen _⟩
  tell _ h := ⟨h.1.of_eq rfl rfl, h.2.of_eq rfl rfl⟩
  perform {t} action h := by
    refine ⟨h.1.perform Row.law_fits action, ?_⟩
    unfold Terminal.perform
    cases onScreen? t.tabs action with
    | some f => exact h.2.modifyScreen f
    | none => exact h.2.onTerminal h.1 action
  absorbDamage h := ⟨h.1.absorbDamage, h.2.absorbDamage⟩

variable [Printer π]

theorem Reach.fitted [Glyph.Widths] (h : Reach rows cols t) : t.Fitted cols := by
  induction h with
  | create h =>
    unfold Terminal.create at h
    split at h
    · cases h
    · cases h
      exact ⟨TabStops.cols_fresh _, fun h => absurd h.1 Bool.false_ne_true⟩
  | feed bytes h ih => exact (lasting_fitted.feed ⟨h.sound Row.law_fits, ih⟩ bytes).2
  | resize hr _ ih =>
    unfold Terminal.resize at hr
    split at hr
    · cases hr
    · cases hr
      exact ⟨TabStops.cols_fresh _, ih.reports⟩
  | point p _ ih =>
    unfold Terminal.point selectAt
    dsimp only
    split
    · split <;> exact ih.of_eq rfl rfl
    · split <;> exact ih.of_eq rfl rfl
  | scrollView distance _ ih => exact ih.viewAt _
  | changeScreen kind _ ih => exact ih.changeScreen kind
  | fullReset h _ => exact Fitted.fullReset (h.sound Row.law_fits)
  | typeBytes bytes _ ih =>
    rename_i t _
    have hsent : (t.send bytes).Fitted _ := ih.of_eq rfl rfl
    rcases t.typeBytes_cases bytes with heq | heq
    · rw [heq]
      exact hsent
    · rw [heq]
      exact hsent.viewAt 0
  | paste bytes _ ih =>
    unfold Terminal.paste
    dsimp only
    split <;> exact ih.of_eq rfl rfl
  | clearMarks _ ih => exact ih.modifyScreen _
  | countClick | clearSelection | drained | usePrinter | closePipe | shutdown =>
    rename_i ih
    exact ih.of_eq rfl rfl

/-! ## What is selected -/

/-- What is selected is in order, in columns that there are. -/
def Laid (cols : Nat) (t : Terminal π) : Prop :=
  ∀ sel, t.selector.current = some sel → sel.Laid cols

omit [Printer π] in
theorem Laid.of_eq (h : t.Laid cols) (hselector : t'.selector = t.selector) : t'.Laid cols := by
  intro sel hsel
  rw [hselector] at hsel
  exact h sel hsel

omit [Printer π] in
theorem laid_of_gone (h : t.selector.current = none) : t.Laid cols := by
  intro sel hsel
  rw [h] at hsel
  cases hsel

omit [Printer π] in
/-- A selection that is followed moved up, and stays in order. -/
theorem Follows.laid (h : t.Follows t') (hl : t.Laid cols) : t'.Laid cols := by
  intro sel' hsel'
  obtain ⟨sel, count, hsel, hcount, rfl, -⟩ := h sel' hsel'
  exact (hl sel hsel).up hcount

omit [Printer π] in
/-- What the pointer selects is in order. -/
theorem laid_point (hs : t.Sound Row.Fits rows cols) (h : t.Laid cols) (p : Pointer) :
    (t.point p).Laid cols := by
  have hb := isEmpty_bufferOf hs
  have hcols : (t.bufferOf t.active).cols = cols := hs.screen.width
  have hextend : ∀ place : Position,
      ({ t with selector := t.selector.extend (t.bufferOf t.active) place } :
        Terminal π).Laid cols := by
    intro place sel' hsel'
    obtain ⟨sel, hsel, rfl⟩ := Option.map_eq_some_iff.1 hsel'
    have hlaid := h sel hsel
    rw [← hcols] at hlaid ⊢
    exact hlaid.extendTo hb _ _
  unfold point
  dsimp only
  split
  · split
    · exact h.of_eq rfl
    · exact h
  · unfold selectAt
    dsimp only
    split
    · intro sel hsel
      cases hsel
      rw [← hcols]
      exact Selection.laid_start hb _ _ _ _
    · exact hextend _
    · exact hextend _
    · exact hextend _
    · exact h

theorem Reach.laid [Glyph.Widths] (h : Reach rows cols t) : t.Laid cols := by
  induction h with
  | create h => exact laid_of_gone (fresh_create h).gone
  | feed bytes h ih =>
    exact (follows_feed Row.law_fits (h.sound Row.law_fits) h.steady h.selects bytes).laid ih
  | resize hr _ _ => exact laid_of_gone (fresh_resize hr).gone
  | point p h ih => exact laid_point (h.sound Row.law_fits) ih p
  | scrollView distance _ ih => exact ih.of_eq (viewAt_rest _ _).1
  | changeScreen kind h ih =>
    rename_i t
    by_cases hsame : t.active = kind
    · unfold Terminal.changeScreen
      rw [if_pos hsame]
      exact ih
    · exact laid_of_gone (anew_changeScreen h.steady.aligned hsame).gone
  | fullReset | clearSelection | shutdown => exact laid_of_gone rfl
  | typeBytes bytes _ ih =>
    rename_i t _
    rcases t.typeBytes_cases bytes with heq | heq
    · rw [heq]
      exact ih.of_eq rfl
    · rw [heq]
      exact ih.of_eq (viewAt_rest _ _).1
  | paste bytes _ ih =>
    unfold Terminal.paste
    dsimp only
    split <;> exact ih.of_eq rfl
  | clearMarks _ ih => exact ih.of_eq (modifyScreen_rest _ _).2.2
  | countClick | drained | usePrinter | closePipe =>
    rename_i ih
    exact ih.of_eq rfl

/-! ## All together -/

omit [Printer π] in
/-- Every place of the view shows a row. -/
theorem visibleRow?_isSome (hs : t.Sound Row.Fits rows cols) {i : Nat} (hi : i < rows) :
    (t.visibleRow? i).isSome = true := by
  have hheight := hs.screen.height_eq
  have hlength : (t.bufferOf t.active).lines.length = t.screen.history.length + rows := by
    rw [← hs.screen.height]
    exact List.length_append
  unfold visibleRow? viewTop
  rw [if_pos (by omega), List.getElem?_eq_getElem (by omega)]
  rfl

/-- **The parts of a reachable terminal fit together.** What is selected is
selected on the screen that is shown; it begins before what the first click
took, which is in order, and ends behind it, and all of it lies in the buffer.
The view lies in the history, and every place of it shows a row. Both screens
have the size that was asked for last, and there is a mark for every column.
Buttons are reported in one way at most. -/
theorem consistent_of_reach [Glyph.Widths] (h : Reach rows cols t) :
    (∀ sel, t.selector.current = some sel → sel.screen = t.active ∧
        (sel.anchor ≤ sel.origin.first ∧ sel.origin.first ≤ sel.origin.last ∧
          sel.origin.last ≤ sel.extent) ∧
        sel.extent.line < t.screen.history.length + rows ∧
        sel.anchor.col < cols ∧ sel.extent.col < cols) ∧
      (t.viewOffset ≤ t.screen.history.length ∧
        ∀ i < rows, (t.visibleRow? i).isSome = true) ∧
      (∀ kind, (t.screenOf kind).height = rows ∧ (t.screenOf kind).cols = cols) ∧
      t.tabs.cols = cols ∧
      ¬ (t.modes.pressReports = true ∧ t.modes.buttonReports = true) := by
  have hs := h.sound Row.law_fits
  have hsteady := h.steady
  have hfitted := h.fitted
  refine ⟨fun sel hsel => ?_, ⟨hsteady.view, fun i hi => visibleRow?_isSome hs hi⟩,
    fun kind => ⟨(hs.screenOf kind).height_eq, (hs.screenOf kind).cols_eq⟩, hfitted.tabs,
    hfitted.reports⟩
  have hlaid := h.laid sel hsel
  have hinside := (h.selects sel hsel).inside
  have hlines : t.screen.lines.length = t.screen.history.length + rows := by
    rw [← hs.screen.height]
    exact List.length_append
  exact ⟨hsteady.aligned sel hsel,
    ⟨hlaid.covers_first, hlaid.origin.ordered, hlaid.covers_last⟩, hlines ▸ hinside,
    hlaid.anchor, hlaid.extent⟩

attribute [local instance] Glyph.unicode

/-- Three lines in two rows, of which the view shows the first two. A click
takes a glyph of the second line, a drag goes back to the first one, and a
further line moves the first row into the history. -/
def draggedBack : Terminal Spool :=
  (((((plain 2 3).feed [0x61, 0x0D, 0x0A, 0x62, 0x63, 0x0D, 0x0A, 0x64]).terminal.scrollView
    1).point ⟨.left, .press 1, 1, 1⟩).point ⟨.left, .drag, 2, 0⟩).feed
      [0x0D, 0x0A, 0x65] |>.terminal

/-- A selection made against the order of the text is in order. -/
theorem consistent_of_reach_draggedBack :
    Reach 2 3 draggedBack ∧ draggedBack.selector.current =
        some ⟨⟨0, 2⟩, ⟨1, 1⟩, ⟨⟨1, 1⟩, ⟨1, 1⟩⟩, .glyph, .primary, true⟩ ∧
      draggedBack.viewOffset = 1 ∧ draggedBack.screen.history.length = 2 ∧
      (∀ i < 2, (draggedBack.visibleRow? i).isSome = true) ∧
      (1 : Nat) < draggedBack.screen.history.length + 2 := by
  have hreach : Reach 2 3 draggedBack :=
    (((((reach_plain 2 3 (by decide) (by decide)).feed _).scrollView 1).point _).point _).feed _
  have hsel : draggedBack.selector.current =
      some ⟨⟨0, 2⟩, ⟨1, 1⟩, ⟨⟨1, 1⟩, ⟨1, 1⟩⟩, .glyph, .primary, true⟩ := by decide
  obtain ⟨hselected, ⟨-, hshown⟩, -⟩ := consistent_of_reach hreach
  exact ⟨hreach, hsel, by decide, by decide, hshown, (hselected _ hsel).2.2.1⟩

end Terminal

end VideoTerminal
