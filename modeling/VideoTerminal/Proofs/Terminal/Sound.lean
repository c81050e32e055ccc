import VideoTerminal.Proofs.Screen.Sound
import VideoTerminal.Terminal.Feed
import VideoTerminal.Terminal.Host
/-!
# Sound terminals

Both screens of a terminal are sound at one size, whichever of them is shown.
What a child program sends keeps them so, action by action, and so does what
the host does; only a resize changes the size, and then that of both.
-/

namespace VideoTerminal

namespace Terminal

variable {π : Type} {P : Nat → Row → Prop} {rows cols : Nat} {t : Terminal π}

/-- Both screens are sound at a size. -/
structure Sound (P : Nat → Row → Prop) (rows cols : Nat) (t : Terminal π) : Prop where
  primary : t.primary.Sound P .primary rows cols
  alternate : t.alternate.Sound P .alternate rows cols

namespace Sound

theorem screenOf (h : t.Sound P rows cols) (kind : ScreenKind) :
    (t.screenOf kind).Sound P kind rows cols := by
  cases kind with
  | primary => exact h.primary
  | alternate => exact h.alternate

theorem screen (h : t.Sound P rows cols) : t.screen.Sound P t.active rows cols :=
  h.screenOf t.active

theorem modifyOf (h : t.Sound P rows cols) (kind : ScreenKind) {f : Screen → Screen}
    (hf : ∀ {s : Screen}, s.Sound P kind rows cols → (f s).Sound P kind rows cols) :
    (t.modifyOf kind f).Sound P rows cols := by
  cases kind with
  | primary => exact ⟨hf h.primary, h.alternate⟩
  | alternate => exact ⟨h.primary, hf h.alternate⟩

theorem modifyScreen (h : t.Sound P rows cols) {f : Screen → Screen}
    (hf : ∀ {kind : ScreenKind} {s : Screen}, s.Sound P kind rows cols →
      (f s).Sound P kind rows cols) : (t.modifyScreen f).Sound P rows cols :=
  h.modifyOf t.active hf

/-- A terminal with the same screens. -/
theorem of_eq {t' : Terminal π} (h : t.Sound P rows cols) (hp : t'.primary = t.primary)
    (ha : t'.alternate = t.alternate) : t'.Sound P rows cols := by
  refine ⟨?_, ?_⟩
  · rw [hp]
    exact h.primary
  · rw [ha]
    exact h.alternate

theorem markAll (h : t.Sound P rows cols) : t.markAll.Sound P rows cols :=
  h.modifyScreen Screen.Sound.markAll

theorem clearMarks (h : t.Sound P rows cols) : t.clearMarks.Sound P rows cols :=
  h.modifyScreen Screen.Sound.clearMarks

theorem viewAt (h : t.Sound P rows cols) (offset : Nat) : (t.viewAt offset).Sound P rows cols := by
  unfold Terminal.viewAt
  split
  · exact h
  · exact Sound.markAll (h.of_eq rfl rfl)

/-! ## Switching -/

theorem changeScreen (h : t.Sound P rows cols) (kind : ScreenKind) :
    (t.changeScreen kind).Sound P rows cols := by
  unfold Terminal.changeScreen
  split
  · exact h
  · have hshown : ({ t with active := kind, viewOffset := 0 } : Terminal π).Sound P rows cols :=
      h.of_eq rfl rfl
    -- the rendition is no part of what makes a screen sound
    exact (hshown.modifyScreen (f := fun s =>
      { s with rendition := t.screen.rendition, grid := s.grid.markAll })
      fun hs => { hs.markAll with }).of_eq rfl rfl

theorem fullReset [Glyph.Widths] (law : Row.Law P) (h : t.Sound P rows cols) :
    t.fullReset.Sound P rows cols :=
  have hp := h.changeScreen .primary
  ⟨(hp.primary.reset law).dropDamage, (hp.alternate.reset law).dropDamage⟩

theorem withPrimary (h : t.Sound P rows cols) {s : Screen} (hs : s.Sound P .primary rows cols) :
    ({ t with primary := s } : Terminal π).Sound P rows cols :=
  ⟨hs, h.alternate⟩

theorem withAlternate (h : t.Sound P rows cols) {s : Screen}
    (hs : s.Sound P .alternate rows cols) :
    ({ t with alternate := s } : Terminal π).Sound P rows cols :=
  ⟨h.primary, hs⟩

theorem setPrivate [Glyph.Widths] (law : Row.Law P) (h : t.Sound P rows cols) (mode : PrivateMode)
    (on : Bool) : (t.setPrivate mode on).Sound P rows cols := by
  cases mode with
  | wideLines =>
    have hmode : ({ t with modes.wideLines := on } : Terminal π).Sound P rows cols :=
      h.of_eq rfl rfl
    exact hmode.modifyScreen (f := fun s => (s.setRegion 0 s.lastRow).eraseScreen .all)
      fun hs => (hs.setRegion _ _).eraseScreen law _
  | reverseVideo =>
    simp only [Terminal.setPrivate, setReverseVideo]
    split
    · exact h
    · exact Sound.markAll (h.of_eq rfl rfl)
  | origin =>
    refine h.modifyScreen (f := fun s => { s with modes.origin := on }.home) fun {kind s} hs => ?_
    have hmode : ({ s with modes.origin := on } : Screen).Sound P kind rows cols := { hs with }
    exact hmode.goto _ _
  | autowrap => exact h.modifyScreen fun hs => hs.setAutowrap on
  | cursorVisible => exact h.modifyScreen fun hs => { hs with }
  | alternate => exact h.changeScreen _
  | alternateErased =>
    simp only [Terminal.setPrivate, setAlternateErased]
    split
    · exact h.changeScreen .alternate
    · split
      · exact (h.withAlternate (h.alternate.eraseScreen law _).dropDamage).changeScreen .primary
      · exact h
  | savedCursor =>
    refine h.modifyScreen fun hs => ?_
    split
    · exact hs.saveCursor
    · exact hs.restoreCursor
  | alternateSaved =>
    simp only [Terminal.setPrivate, setAlternateSaved]
    split
    · have hshown := (h.withPrimary h.primary.saveCursor).changeScreen .alternate
      exact hshown.withAlternate (hshown.alternate.eraseScreen law _)
    · have hshown := h.changeScreen .primary
      exact hshown.withPrimary hshown.primary.restoreCursor
  | applicationCursor | pressReports | applicationKeypad | buttonReports | scrollOnOutput
  | scrollOnKey | bracketedPaste => exact h.of_eq rfl rfl

/-- What each of some steps keeps, all of them keep. -/
theorem foldl {α : Type _} {step : Terminal π → α → Terminal π}
    (hstep : ∀ {t : Terminal π} a, t.Sound P rows cols → (step t a).Sound P rows cols)
    (h : t.Sound P rows cols) (as : List α) : (as.foldl step t).Sound P rows cols := by
  induction as generalizing t with
  | nil => exact h
  | cons a as ih => exact ih (hstep a h)

theorem setPrivates [Glyph.Widths] (law : Row.Law P) (h : t.Sound P rows cols) (modes : List Nat)
    (on : Bool) : (t.setPrivates modes on).Sound P rows cols :=
  foldl (fun mode h => h.setPrivate law mode on) h _

theorem savePrivates (h : t.Sound P rows cols) (modes : List Nat) :
    (t.savePrivates modes).Sound P rows cols := by
  refine foldl (fun {t} mode h => ?_) h _
  unfold savePrivate
  split
  · exact h
  · exact h.of_eq rfl rfl

theorem restorePrivates [Glyph.Widths] (law : Row.Law P) (h : t.Sound P rows cols)
    (modes : List Nat) : (t.restorePrivates modes).Sound P rows cols := by
  refine foldl (fun {t} mode h => ?_) h _
  unfold restorePrivate
  split
  · exact h
  · exact h.setPrivate law mode _

theorem setModes (h : t.Sound P rows cols) (modes : List Nat) (on : Bool) :
    (t.setModes modes on).Sound P rows cols := by
  refine foldl (fun {t} mode h => ?_) h _
  unfold setMode
  split
  · exact h.modifyScreen fun hs => { hs with }
  · exact h

end Sound

/-! ## Actions -/

/-- Actions on the screen keep it sound. -/
theorem sound_onScreen? [Glyph.Widths] (law : Row.Law P) {tabs : TabStops} {action : Action}
    {f : Screen → Screen} (hf : onScreen? tabs action = some f) {kind : ScreenKind} {s : Screen}
    (h : s.Sound P kind rows cols) : (f s).Sound P kind rows cols := by
  cases action with
  | print c => cases hf; exact h.print law c
  | lineFeed => cases hf; exact h.index law
  | index => cases hf; exact h.index law
  | reverseIndex => cases hf; exact h.reverseIndex law
  | carriageReturn => cases hf; exact h.carriageReturn
  | nextLine => cases hf; exact h.carriageReturn.index law
  | backspace => cases hf; exact h.backspace
  | tab => cases hf; exact h.tab _ _
  | forwardTab n => cases hf; exact h.tab _ _
  | backTab n => cases hf; exact h.tab _ _
  | invoke slot => cases hf; exact { h with }
  | designate slot set => cases hf; exact { h with }
  | cursorUp n => cases hf; exact h.goto _ _
  | cursorDown n => cases hf; exact h.goto _ _
  | cursorRight n => cases hf; exact h.goto _ _
  | cursorLeft n => cases hf; exact h.goto _ _
  | nextLines n => cases hf; exact (h.goto _ _).carriageReturn
  | previousLines n => cases hf; exact (h.goto _ _).carriageReturn
  | column col => cases hf; exact h.goto _ _
  | row row => cases hf; exact h.goto _ _
  | position row col => cases hf; exact h.goto _ _
  | setRegion top bottom => cases hf; exact h.setRegion _ _
  | scrollUp n => cases hf; exact h.scrollBy law _
  | scrollDown n => cases hf; exact h.scrollBy law _
  | insertLines n => cases hf; exact h.insertLines law n
  | deleteLines n => cases hf; exact h.deleteLines law n
  | insertCells n => cases hf; exact h.insertCells law n
  | deleteCells n => cases hf; exact h.deleteCells law n
  | eraseCells n => cases hf; exact h.eraseCells law n
  | eraseScreen part => cases hf; exact h.eraseScreen law part
  | eraseLine part => cases hf; exact h.eraseLine law part
  | select codes => cases hf; exact { h with }
  | saveCursor => cases hf; exact h.saveCursor
  | restoreCursor => cases hf; exact h.restoreCursor
  | backIndex => cases hf; exact h.backIndex law
  | forwardIndex => cases hf; exact h.forwardIndex law
  | align => cases hf; exact h.align law
  | _ => cases hf

namespace Sound

theorem onTerminal [Glyph.Widths] (law : Row.Law P) (h : t.Sound P rows cols) (action : Action) :
    (t.onTerminal action).Sound P rows cols := by
  cases action with
  | setPrivate modes => exact h.setPrivates law modes true
  | resetPrivate modes => exact h.setPrivates law modes false
  | savePrivate modes => exact h.savePrivates modes
  | restorePrivate modes => exact h.restorePrivates law modes
  | setModes modes => exact h.setModes modes true
  | resetModes modes => exact h.setModes modes false
  | fullReset => exact h.fullReset law
  | clearTabStop which =>
    simp only [Terminal.onTerminal, clearTabStop]
    split <;> exact h.of_eq rfl rfl
  | statusReport which =>
    simp only [Terminal.onTerminal, answer]
    split <;> exact h.of_eq rfl rfl
  | _ => exact h.of_eq rfl rfl

theorem perform [Glyph.Widths] (law : Row.Law P) (h : t.Sound P rows cols) (action : Action) :
    (t.perform action).Sound P rows cols := by
  unfold Terminal.perform
  split
  · rename_i f hf
    exact h.modifyScreen fun hs => sound_onScreen? law hf hs
  · exact h.onTerminal law action

theorem absorbDamage (h : t.Sound P rows cols) : t.absorbDamage.Sound P rows cols :=
  (h.modifyScreen Screen.Sound.dropDamage).of_eq rfl rfl

/-- What comes next keeps a terminal sound whether it is done or not. -/
theorem andThen {o : Outcome π} (h : o.terminal.Sound P rows cols)
    {f : Terminal π → Outcome π}
    (hf : ∀ {t : Terminal π}, t.Sound P rows cols → (f t).terminal.Sound P rows cols) :
    (o.andThen f).terminal.Sound P rows cols := by
  unfold Outcome.andThen
  split
  · exact hf h
  · exact h

theorem map {o : Outcome π} (h : o.terminal.Sound P rows cols) {f : Terminal π → Terminal π}
    (hf : ∀ {t : Terminal π}, t.Sound P rows cols → (f t).Sound P rows cols) :
    (o.map f).terminal.Sound P rows cols :=
  h.andThen hf

theorem settle (h : t.Sound P rows cols) (sent : Bool) : (t.settle sent).Sound P rows cols := by
  unfold Terminal.settle
  dsimp only
  split
  · exact (h.viewAt 0).of_eq rfl rfl
  · exact h.of_eq rfl rfl

/-! ## Bytes -/

section Bytes

variable [Printer π]

theorem print (h : t.Sound P rows cols) (bytes : List UInt8) :
    (t.print bytes).terminal.Sound P rows cols := by
  unfold Terminal.print
  split
  · exact h
  · dsimp only
    split <;> exact h.of_eq rfl rfl

theorem flush (h : t.Sound P rows cols) : t.flush.terminal.Sound P rows cols := by
  unfold Terminal.flush
  split
  · exact h
  · exact h.of_eq rfl rfl

theorem printScreen (h : t.Sound P rows cols) : t.printScreen.terminal.Sound P rows cols := by
  unfold Terminal.printScreen
  have htext := (h.print (String.ofList t.screenText).toUTF8.toList).andThen fun h => h.print [0x0A]
  exact (htext.andThen fun h => h.flush).map fun h => h.of_eq rfl rfl

theorem act [Glyph.Widths] (law : Row.Law P) (h : t.Sound P rows cols) (action : Action) :
    (t.act action).terminal.Sound P rows cols := by
  unfold Terminal.act
  split
  · exact h.printScreen
  · exact h.print _
  · exact h.flush
  · exact h.perform law action

theorem apply [Glyph.Widths] (law : Row.Law P) (h : t.Sound P rows cols) (action : Action) :
    (t.apply action).terminal.Sound P rows cols :=
  (h.act law action).map fun h => h.absorbDamage

/-- **What a child program sends keeps a terminal sound**, also where the
printer fails in the middle of it. -/
theorem applyAll [Glyph.Widths] (law : Row.Law P) (h : t.Sound P rows cols)
    (actions : List Action) : (t.applyAll actions).terminal.Sound P rows cols := by
  induction actions generalizing t with
  | nil => exact h
  | cons action actions ih => exact (h.apply law action).andThen ih

theorem feed [Glyph.Widths] (law : Row.Law P) (h : t.Sound P rows cols) (bytes : List UInt8) :
    (t.feed bytes).terminal.Sound P rows cols := by
  have hread : ({ t with reader := (t.reader.feed bytes).1 } : Terminal π).Sound P rows cols :=
    h.of_eq rfl rfl
  exact (hread.applyAll law _).map fun h => h.settle _

end Bytes

/-! ## The host -/

theorem create [Glyph.Widths] (law : Row.Law P) {config : Config}
    (h : Terminal.create config = .ok t) : t.Sound P config.rows config.cols := by
  unfold Terminal.create at h
  split at h
  · cases h
  · rename_i hsize
    cases h
    have hpos : 0 < config.rows ∧ 0 < config.cols := by
      unfold Config.fault? Config.sizeFault? at hsize
      split at hsize
      · cases hsize
      · omega
    exact ⟨.blank law .primary hpos.1 hpos.2 config.capacity config.autowrap,
      .blank law .alternate hpos.1 hpos.2 0 config.autowrap⟩

theorem resize [Glyph.Widths] (law : Row.Law P) (h : t.Sound P rows cols) {height width : Nat}
    {t' : Terminal π} (hr : t.resize height width = .ok t') : t'.Sound P height width := by
  unfold Terminal.resize at hr
  split at hr
  · cases hr
  · rename_i hsize
    cases hr
    have hpos : 0 < height ∧ 0 < width := by
      unfold Config.sizeFault? at hsize
      split at hsize
      · cases hsize
      · omega
    exact ⟨(h.primary.resize law hpos.1 hpos.2).dropDamage,
      (h.alternate.resize law hpos.1 hpos.2).dropDamage⟩

theorem typeBytes (h : t.Sound P rows cols) (bytes : List UInt8) :
    (t.typeBytes bytes).Sound P rows cols := by
  have hsent : (t.send bytes).Sound P rows cols := h.of_eq rfl rfl
  unfold Terminal.typeBytes
  dsimp only
  split
  · exact hsent.viewAt 0
  · exact hsent

theorem paste (h : t.Sound P rows cols) (bytes : List UInt8) :
    (t.paste bytes).Sound P rows cols := by
  unfold Terminal.paste
  dsimp only
  split <;> exact h.of_eq rfl rfl

theorem point (h : t.Sound P rows cols) (p : Pointer) : (t.point p).Sound P rows cols := by
  unfold Terminal.point selectAt
  dsimp only
  split
  · split <;> exact h.of_eq rfl rfl
  · split <;> exact h.of_eq rfl rfl

end Sound

end Terminal

end VideoTerminal
