import VideoTerminal.Proofs.Checked.Reader
import VideoTerminal.Proofs.Checked.Screen
import VideoTerminal.Proofs.Control.Small
import VideoTerminal.Proofs.Terminal.Sound
/-!
# Actions on a machine

An action changes the screen that is shown, or what both screens share, and
then it may change a screen that is not shown as well. Of a sound terminal
whose size fits into 16 bits no action fails, if it moves the cursor by numbers
of 16 bits (`performChecked_eq`).
-/

namespace VideoTerminal

namespace Terminal

open Checked

variable {π : Type}

/-! ## What a machine does -/

/-- The effect of an action on a screen, if it concerns the screen alone. What
is not listed here counts nothing and looks for nothing. -/
def onScreenChecked? [Glyph.Widths] (tabs : TabStops) :
    Action → Option (Screen → Option Screen)
  | .print c => some (·.printChecked c)
  | .lineFeed => some Screen.indexChecked
  | .index => some Screen.indexChecked
  | .reverseIndex => some Screen.reverseIndexChecked
  | .nextLine => some (·.carriageReturn.indexChecked)
  | .backspace => some Screen.backspaceChecked
  | .tab => some (·.tabChecked 1 tabs)
  | .forwardTab n => some (·.tabChecked n tabs)
  | .backTab n => some (·.tabChecked (-n) tabs)
  | .cursorUp n => some (·.gotoChecked (.relative (-n)) (.relative 0))
  | .cursorDown n => some (·.gotoChecked (.relative n) (.relative 0))
  | .cursorRight n => some (·.gotoChecked (.relative 0) (.relative n))
  | .cursorLeft n => some (·.gotoChecked (.relative 0) (.relative (-n)))
  | .nextLines n => some fun s => do
    pure (← s.gotoChecked (.relative n) (.relative 0)).carriageReturn
  | .previousLines n => some fun s => do
    pure (← s.gotoChecked (.relative (-n)) (.relative 0)).carriageReturn
  | .column col => some (·.gotoChecked (.relative 0) (.absolute col))
  | .row row => some (·.gotoChecked (.absolute row) (.relative 0))
  | .position row col => some (·.gotoChecked (.absolute row) (.absolute col))
  | .setRegion top bottom => some fun s => s.setRegionChecked top (bottom.getD s.lastRow)
  | .scrollUp n => some (·.scrollByChecked n)
  | .scrollDown n => some (·.scrollByChecked (-n))
  | .insertLines n => some (·.editLinesChecked n false)
  | .deleteLines n => some (·.editLinesChecked n true)
  | .insertCells n => some (·.editCellsChecked n Row.insertBlanksChecked)
  | .deleteCells n => some (·.editCellsChecked n Row.deleteCellsChecked)
  | .eraseCells n => some (·.editCellsChecked n fun row col n r =>
    row.blankRangeChecked col (col + n) r)
  | .eraseScreen part => some (·.eraseScreenChecked part)
  | .eraseLine part => some (·.eraseLineChecked part)
  | .select codes => some fun s => do
    pure { s with rendition := ← s.rendition.selectChecked codes }
  | .backIndex => some Screen.backIndexChecked
  | .forwardIndex => some Screen.forwardIndexChecked
  | action => (onScreen? tabs action).map fun f s => pure (f s)

/-- Change one of the screens. -/
def modifyOfChecked (t : Terminal π) (kind : ScreenKind) (f : Screen → Option Screen) :
    Option (Terminal π) := do
  let changed ← f (t.screenOf kind)
  pure (t.modifyOf kind fun _ => changed)

/-- Change the screen that is shown. -/
def modifyScreenChecked (t : Terminal π) (f : Screen → Option Screen) : Option (Terminal π) :=
  t.modifyOfChecked t.active f

/-- Show the alternate screen, or erase and leave it. -/
def setAlternateErasedChecked (t : Terminal π) (on : Bool) : Option (Terminal π) := do
  if on then pure (t.changeScreen .alternate)
  else if t.active = .alternate then
    let erased ← t.modifyOfChecked .alternate fun s => do
      pure (← s.eraseScreenChecked .all).dropDamage
    pure (erased.changeScreen .primary)
  else pure t

/-- Show the alternate screen erased, with the cursor of the primary one
saved, or leave it and come back to that cursor. -/
def setAlternateSavedChecked (t : Terminal π) (on : Bool) : Option (Terminal π) :=
  if on then
    let shown := (t.modifyOf .primary Screen.saveCursor).changeScreen .alternate
    shown.modifyOfChecked .alternate (·.eraseScreenChecked .all)
  else pure (t.setAlternateSaved false)

/-- Switch a private mode. -/
def setPrivateChecked (t : Terminal π) (mode : PrivateMode) (on : Bool) : Option (Terminal π) :=
  match mode with
  | .wideLines =>
    { t with modes.wideLines := on }.modifyScreenChecked fun s => do
      (← s.setRegionChecked 0 s.lastRow).eraseScreenChecked .all
  | .origin => t.modifyScreenChecked fun s => { s with modes.origin := on }.homeChecked
  | .alternateErased => t.setAlternateErasedChecked on
  | .alternateSaved => t.setAlternateSavedChecked on
  | mode => pure (t.setPrivate mode on)

/-- Switch a private mode to the value that was saved. -/
def restorePrivateChecked (t : Terminal π) (mode : PrivateMode) : Option (Terminal π) :=
  match t.savedModes.lookup mode with
  | none => pure t
  | some on => t.setPrivateChecked mode on

/-- Switch private modes by their numbers, one after the other. -/
def setPrivatesChecked (t : Terminal π) (modes : List Nat) (on : Bool) : Option (Terminal π) :=
  (modes.filterMap PrivateMode.ofNumber?).foldlM (fun t mode => t.setPrivateChecked mode on) t

/-- Restore private modes by their numbers, one after the other. -/
def restorePrivatesChecked (t : Terminal π) (modes : List Nat) : Option (Terminal π) :=
  (modes.filterMap PrivateMode.ofNumber?).foldlM restorePrivateChecked t

/-- The state after switching on. -/
def fullResetChecked (t : Terminal π) : Option (Terminal π) := do
  let shown := t.changeScreen .primary
  let _ ← shown.primary.resetChecked
  let _ ← shown.alternate.resetChecked
  pure t.fullReset

/-- The position of the cursor, from one. -/
def positionReportChecked (s : Screen) : Option (List UInt8) := do
  let row ← add16 (reportedRow s) 1
  let col ← add16 s.cursor.col 1
  pure (reply (decimal row ++ 0x3B :: decimal col ++ [0x52]))

/-- Answer a question of the child program. -/
def answerChecked (t : Terminal π) (which : Nat) : Option (Terminal π) := do
  if which = 6 then pure (t.send (← positionReportChecked t.screen)) else pure (t.answer which)

/-- The effect of an action on what both screens share. -/
def onTerminalChecked (t : Terminal π) : Action → Option (Terminal π)
  | .setPrivate modes => t.setPrivatesChecked modes true
  | .resetPrivate modes => t.setPrivatesChecked modes false
  | .restorePrivate modes => t.restorePrivatesChecked modes
  | .fullReset => t.fullResetChecked
  | .statusReport which => t.answerChecked which
  | action => pure (t.onTerminal action)

/-- The effect of an action that does not print. -/
def performChecked [Glyph.Widths] (t : Terminal π) (action : Action) : Option (Terminal π) :=
  match onScreenChecked? t.tabs action with
  | some f => t.modifyScreenChecked f
  | none => t.onTerminalChecked action

/-! ## Nothing of it fails -/

variable {rows cols : Nat} {t : Terminal π}

/-! ### Actions on the screen -/

/-- An action on the screen is one on the machine. -/
theorem onScreenChecked?_eq [Glyph.Widths] {tabs : TabStops} (htabs : tabs.cols < 65536)
    {kind : ScreenKind} {s : Screen} (h : s.Sound Row.Fits kind rows cols) (hrows : rows < 65536)
    (hcols : cols < 65536) {action : Action} (hsmall : action.Small) {f : Screen → Screen}
    (hf : onScreen? tabs action = some f) :
    ∃ g, onScreenChecked? tabs action = some g ∧ g s = some (f s) := by
  have hgoto : ∀ {row col : Target}, row.Small → col.Small →
      s.gotoChecked row col = some (s.goto row col) :=
    fun hrow hcol => Screen.gotoChecked_eq h hrows hcols hrow hcol
  have hstay : (Target.relative 0).Small := show (0 : Int).natAbs < 65536 by decide
  have hforth : ∀ {n : Nat}, n < 65536 → (Target.relative n).Small :=
    fun {n} hn => show (n : Int).natAbs < 65536 from hn
  have hback : ∀ {n : Nat}, n < 65536 → (Target.relative (-n)).Small :=
    fun {n} hn => show (-n : Int).natAbs < 65536 by omega
  have hplace : ∀ {n : Nat}, n < 65536 → (Target.absolute n).Small :=
    fun {n} hn => show (n : Int).natAbs < 65536 from hn
  cases action with
  | print c => cases hf; exact ⟨_, rfl, Screen.printChecked_eq h hrows hcols c⟩
  | lineFeed => cases hf; exact ⟨_, rfl, Screen.indexChecked_eq h hrows⟩
  | index => cases hf; exact ⟨_, rfl, Screen.indexChecked_eq h hrows⟩
  | reverseIndex => cases hf; exact ⟨_, rfl, Screen.reverseIndexChecked_eq h hrows⟩
  | nextLine => cases hf; exact ⟨_, rfl, Screen.indexChecked_eq h.carriageReturn hrows⟩
  | backspace => cases hf; exact ⟨_, rfl, Screen.backspaceChecked_eq h⟩
  | tab => cases hf; exact ⟨_, rfl, Screen.tabChecked_eq htabs _⟩
  | forwardTab n => cases hf; exact ⟨_, rfl, Screen.tabChecked_eq htabs _⟩
  | backTab n => cases hf; exact ⟨_, rfl, Screen.tabChecked_eq htabs _⟩
  | cursorUp n => cases hf; exact ⟨_, rfl, hgoto (hback hsmall) hstay⟩
  | cursorDown n => cases hf; exact ⟨_, rfl, hgoto (hforth hsmall) hstay⟩
  | cursorRight n => cases hf; exact ⟨_, rfl, hgoto hstay (hforth hsmall)⟩
  | cursorLeft n => cases hf; exact ⟨_, rfl, hgoto hstay (hback hsmall)⟩
  | nextLines n =>
    cases hf
    refine ⟨_, rfl, ?_⟩
    rw [hgoto (hforth hsmall) hstay]
    rfl
  | previousLines n =>
    cases hf
    refine ⟨_, rfl, ?_⟩
    rw [hgoto (hback hsmall) hstay]
    rfl
  | column col => cases hf; exact ⟨_, rfl, hgoto hstay (hplace hsmall)⟩
  | row row => cases hf; exact ⟨_, rfl, hgoto (hplace hsmall) hstay⟩
  | position row col => cases hf; exact ⟨_, rfl, hgoto (hplace hsmall.1) (hplace hsmall.2)⟩
  | setRegion top bottom => cases hf; exact ⟨_, rfl, Screen.setRegionChecked_eq h hrows hcols _ _⟩
  | scrollUp n => cases hf; exact ⟨_, rfl, Screen.scrollByChecked_eq h hrows _⟩
  | scrollDown n => cases hf; exact ⟨_, rfl, Screen.scrollByChecked_eq h hrows _⟩
  | insertLines n => cases hf; exact ⟨_, rfl, Screen.editLinesChecked_eq h hrows n false⟩
  | deleteLines n => cases hf; exact ⟨_, rfl, Screen.editLinesChecked_eq h hrows n true⟩
  | insertCells n =>
    cases hf
    exact ⟨_, rfl, Screen.editCellsChecked_eq h n Row.insertBlanksChecked_eq⟩
  | deleteCells n =>
    cases hf
    exact ⟨_, rfl, Screen.editCellsChecked_eq h n Row.deleteCellsChecked_eq⟩
  | eraseCells n =>
    cases hf
    exact ⟨_, rfl, Screen.editCellsChecked_eq h n fun row col n r =>
      Row.blankRangeChecked_eq row col (col + n) r⟩
  | eraseScreen part =>
    cases hf
    exact ⟨_, rfl, Screen.eraseScreenChecked_eq Row.law_fits h hrows part⟩
  | eraseLine part => cases hf; exact ⟨_, rfl, Screen.eraseLineChecked_eq h part⟩
  | select codes =>
    cases hf
    refine ⟨_, rfl, ?_⟩
    rw [Rendition.selectChecked_eq]
    rfl
  | backIndex => cases hf; exact ⟨_, rfl, Screen.backIndexChecked_eq h⟩
  | forwardIndex => cases hf; exact ⟨_, rfl, Screen.forwardIndexChecked_eq h hcols⟩
  | carriageReturn | invoke | designate | saveCursor | restoreCursor | align =>
    cases hf
    exact ⟨_, rfl, rfl⟩
  | _ => cases hf

/-- An action that concerns more than the screen does so on the machine. -/
theorem onScreenChecked?_none [Glyph.Widths] {tabs : TabStops} {action : Action}
    (hf : onScreen? tabs action = none) : onScreenChecked? tabs action = none := by
  cases action <;> first | rfl | cases hf

theorem modifyOfChecked_eq (kind : ScreenKind) {f : Screen → Option Screen} {g : Screen → Screen}
    (hf : f (t.screenOf kind) = some (g (t.screenOf kind))) :
    t.modifyOfChecked kind f = some (t.modifyOf kind g) := by
  unfold modifyOfChecked
  rw [hf]
  cases kind <;> rfl

theorem modifyScreenChecked_eq {f : Screen → Option Screen} {g : Screen → Screen}
    (hf : f t.screen = some (g t.screen)) :
    t.modifyScreenChecked f = some (t.modifyScreen g) := modifyOfChecked_eq t.active hf

/-! ### Actions on what both screens share -/

theorem setAlternateErasedChecked_eq [Glyph.Widths] (h : t.Sound Row.Fits rows cols)
    (hrows : rows < 65536) (on : Bool) :
    t.setAlternateErasedChecked on = some (t.setAlternateErased on) := by
  unfold setAlternateErasedChecked setAlternateErased
  split
  · rfl
  · split
    · have herase : (do pure (← t.alternate.eraseScreenChecked .all).dropDamage) =
          some (t.alternate.eraseScreen .all).dropDamage := by
        rw [Screen.eraseScreenChecked_eq Row.law_fits h.alternate hrows]
        rfl
      rw [modifyOfChecked_eq .alternate
        (g := fun s => (s.eraseScreen .all).dropDamage) herase]
      rfl
    · rfl

theorem setAlternateSavedChecked_eq [Glyph.Widths] (h : t.Sound Row.Fits rows cols)
    (hrows : rows < 65536) (on : Bool) :
    t.setAlternateSavedChecked on = some (t.setAlternateSaved on) := by
  have hshown := (h.withPrimary h.primary.saveCursor).changeScreen .alternate
  cases on with
  | true =>
    exact modifyOfChecked_eq .alternate (f := (·.eraseScreenChecked .all))
      (g := (·.eraseScreen .all))
      (Screen.eraseScreenChecked_eq Row.law_fits hshown.alternate hrows .all)
  | false => rfl

theorem setPrivateChecked_eq [Glyph.Widths] (h : t.Sound Row.Fits rows cols)
    (hrows : rows < 65536) (hcols : cols < 65536) (mode : PrivateMode) (on : Bool) :
    t.setPrivateChecked mode on = some (t.setPrivate mode on) := by
  cases mode with
  | wideLines =>
    have hmode : ({ t with modes.wideLines := on } : Terminal π).Sound Row.Fits rows cols :=
      h.of_eq rfl rfl
    refine modifyScreenChecked_eq (t := { t with modes.wideLines := on })
      (g := fun s => (s.setRegion 0 s.lastRow).eraseScreen .all) ?_
    rw [Screen.setRegionChecked_eq hmode.screen hrows hcols, Option.bind_eq_bind,
      Option.bind_some]
    exact Screen.eraseScreenChecked_eq Row.law_fits (hmode.screen.setRegion _ _) hrows .all
  | origin =>
    have hmode : ({ t.screen with modes.origin := on } : Screen).Sound Row.Fits t.active rows
        cols := { h.screen with }
    exact modifyScreenChecked_eq (f := fun s => { s with modes.origin := on }.homeChecked)
      (g := fun s => { s with modes.origin := on }.home) (Screen.homeChecked_eq hmode hrows hcols)
  | alternateErased => exact setAlternateErasedChecked_eq h hrows on
  | alternateSaved => exact setAlternateSavedChecked_eq h hrows on
  | _ => rfl

theorem restorePrivateChecked_eq [Glyph.Widths] (h : t.Sound Row.Fits rows cols)
    (hrows : rows < 65536) (hcols : cols < 65536) (mode : PrivateMode) :
    t.restorePrivateChecked mode = some (t.restorePrivate mode) ∧
      (t.restorePrivate mode).Sound Row.Fits rows cols := by
  unfold restorePrivateChecked restorePrivate
  cases t.savedModes.lookup mode with
  | none => exact ⟨rfl, h⟩
  | some on => exact ⟨setPrivateChecked_eq h hrows hcols mode on, h.setPrivate Row.law_fits mode on⟩

theorem setPrivatesChecked_eq [Glyph.Widths] (h : t.Sound Row.Fits rows cols)
    (hrows : rows < 65536) (hcols : cols < 65536) (modes : List Nat) (on : Bool) :
    t.setPrivatesChecked modes on = some (t.setPrivates modes on) :=
  foldlM_eq (p := fun t : Terminal π => t.Sound Row.Fits rows cols)
    (fun _ mode h => ⟨setPrivateChecked_eq h hrows hcols mode on,
      h.setPrivate Row.law_fits mode on⟩) h _

theorem restorePrivatesChecked_eq [Glyph.Widths] (h : t.Sound Row.Fits rows cols)
    (hrows : rows < 65536) (hcols : cols < 65536) (modes : List Nat) :
    t.restorePrivatesChecked modes = some (t.restorePrivates modes) :=
  foldlM_eq (p := fun t : Terminal π => t.Sound Row.Fits rows cols)
    (fun _ mode h => restorePrivateChecked_eq h hrows hcols mode) h _

theorem fullResetChecked_eq (h : t.Sound Row.Fits rows cols) :
    t.fullResetChecked = some t.fullReset := by
  have hshown := h.changeScreen .primary
  unfold fullResetChecked
  dsimp only
  rw [Screen.resetChecked_eq hshown.primary, Option.bind_eq_bind, Option.bind_some,
    Screen.resetChecked_eq hshown.alternate]
  rfl

theorem answerChecked_eq (h : t.Sound Row.Fits rows cols) (hrows : rows < 65536)
    (hcols : cols < 65536) (which : Nat) : t.answerChecked which = some (t.answer which) := by
  have hrow := h.screen.row
  have hcol := h.screen.col
  have hreported : reportedRow t.screen ≤ t.screen.cursor.row := by
    unfold reportedRow
    split
    · exact Nat.sub_le _ _
    · exact Nat.le_refl _
  unfold answerChecked
  split
  · rename_i hsix
    subst hsix
    unfold positionReportChecked
    rw [add16_eq (show reportedRow t.screen + 1 < 65536 by omega),
      add16_eq (show t.screen.cursor.col + 1 < 65536 by omega)]
    rfl
  · rfl

theorem onTerminalChecked_eq [Glyph.Widths] (h : t.Sound Row.Fits rows cols)
    (hrows : rows < 65536) (hcols : cols < 65536) (action : Action) :
    t.onTerminalChecked action = some (t.onTerminal action) := by
  cases action with
  | setPrivate modes => exact setPrivatesChecked_eq h hrows hcols modes true
  | resetPrivate modes => exact setPrivatesChecked_eq h hrows hcols modes false
  | restorePrivate modes => exact restorePrivatesChecked_eq h hrows hcols modes
  | fullReset => exact fullResetChecked_eq h
  | statusReport which => exact answerChecked_eq h hrows hcols which
  | _ => rfl

/-- **No action fails.** -/
theorem performChecked_eq [Glyph.Widths] (h : t.Sound Row.Fits rows cols) (hrows : rows < 65536)
    (hcols : cols < 65536) (htabs : t.tabs.cols < 65536) {action : Action}
    (hsmall : action.Small) : t.performChecked action = some (t.perform action) := by
  unfold performChecked perform
  cases hf : onScreen? t.tabs action with
  | none =>
    rw [onScreenChecked?_none hf]
    exact onTerminalChecked_eq h hrows hcols action
  | some f =>
    obtain ⟨g, hg, hsame⟩ := onScreenChecked?_eq htabs h.screen hrows hcols hsmall hf
    rw [hg]
    exact modifyScreenChecked_eq hsame

end Terminal

end VideoTerminal
