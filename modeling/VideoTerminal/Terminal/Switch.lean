import VideoTerminal.Screen.Motion
import VideoTerminal.Screen.Save
import VideoTerminal.Terminal.View
/-!
# Switching modes and screens

The private modes switch what the terminal does, and which screen is shown.
A mode that was saved is switched to what it was.
-/

namespace VideoTerminal

namespace Terminal

variable {π : Type}

/-- Show a screen. It takes over the rendition in use, is drawn anew, and
what was selected on the other one is not selected any more. Showing the
screen that is shown does nothing. -/
def changeScreen (t : Terminal π) (kind : ScreenKind) : Terminal π :=
  if t.active = kind then t
  else
    let rendition := t.screen.rendition
    let t := { t with active := kind, viewOffset := 0 }
    let t := t.modifyScreen fun s => { s with rendition, grid := s.grid.markAll }
    { t with selector := t.selector.leave kind.other }.tell (.screenChanged kind)

/-- The state after switching on. The history stays, and so does what is
still in the queues. -/
def fullReset (t : Terminal π) : Terminal π :=
  let t := t.changeScreen .primary
  { t with
    primary := t.primary.reset.dropDamage
    alternate := t.alternate.reset.dropDamage
    tabs := TabStops.fresh t.screen.cols
    modes := {}
    savedModes := []
    title := ""
    iconName := ""
    selector := t.selector.clear
    viewOffset := 0 }

/-! ## Private modes -/

/-- The value of a private mode, if it has one. -/
def privateMode? (t : Terminal π) : PrivateMode → Option Bool
  | .applicationCursor => some t.modes.applicationCursor
  | .wideLines => some t.modes.wideLines
  | .reverseVideo => some t.modes.reverseVideo
  | .origin => some t.screen.modes.origin
  | .autowrap => some t.screen.modes.autowrap
  | .pressReports => some t.modes.pressReports
  | .cursorVisible => some t.screen.modes.cursorVisible
  | .alternate => some (t.active == .alternate)
  | .alternateErased => some (t.active == .alternate)
  | .alternateSaved => some (t.active == .alternate)
  | .savedCursor => none
  | .applicationKeypad => some t.modes.applicationKeypad
  | .buttonReports => some t.modes.buttonReports
  | .scrollOnOutput => some t.modes.scrollOnOutput
  | .scrollOnKey => some t.modes.scrollOnKey
  | .bracketedPaste => some t.modes.bracketedPaste

/-- Switch lines of 132 columns. The width is up to the host, but the screen
is erased and its region is forgotten. -/
def setWideLines (t : Terminal π) (on : Bool) : Terminal π :=
  { t with modes.wideLines := on }.modifyScreen fun s =>
    (s.setRegion 0 s.lastRow).eraseScreen .all

/-- Swap the default colours. If that changes anything, everything is drawn
anew. -/
def setReverseVideo (t : Terminal π) (on : Bool) : Terminal π :=
  if t.modes.reverseVideo = on then t else { t with modes.reverseVideo := on }.markAll

/-- Count rows from the top of the region, or of the screen, and go home. -/
def setOrigin (t : Terminal π) (on : Bool) : Terminal π :=
  t.modifyScreen fun s => { s with modes.origin := on }.home

/-- Report presses of buttons, and nothing else. -/
def setPressReports (t : Terminal π) (on : Bool) : Terminal π :=
  { t with modes.pressReports := on, modes.buttonReports := t.modes.buttonReports && !on }

/-- Report presses and releases of buttons. -/
def setButtonReports (t : Terminal π) (on : Bool) : Terminal π :=
  { t with modes.buttonReports := on, modes.pressReports := t.modes.pressReports && !on }

/-- Show the alternate screen, or erase and leave it. -/
def setAlternateErased (t : Terminal π) (on : Bool) : Terminal π :=
  if on then t.changeScreen .alternate
  else if t.active = .alternate then
    { t with alternate := (t.alternate.eraseScreen .all).dropDamage }.changeScreen .primary
  else t

/-- Save the cursor of the screen that is shown, or come back to it. -/
def setSavedCursor (t : Terminal π) (on : Bool) : Terminal π :=
  t.modifyScreen (if on then Screen.saveCursor else Screen.restoreCursor)

/-- Show the alternate screen erased, with the cursor of the primary one
saved, or leave it and come back to that cursor. -/
def setAlternateSaved (t : Terminal π) (on : Bool) : Terminal π :=
  if on then
    let t := { t with primary := t.primary.saveCursor }.changeScreen .alternate
    { t with alternate := t.alternate.eraseScreen .all }
  else
    let t := t.changeScreen .primary
    { t with primary := t.primary.restoreCursor }

/-- Switch a private mode. -/
def setPrivate (t : Terminal π) (mode : PrivateMode) (on : Bool) : Terminal π :=
  match mode with
  | .applicationCursor => { t with modes.applicationCursor := on }
  | .wideLines => t.setWideLines on
  | .reverseVideo => t.setReverseVideo on
  | .origin => t.setOrigin on
  | .autowrap => t.modifyScreen (·.setAutowrap on)
  | .pressReports => t.setPressReports on
  | .cursorVisible => t.modifyScreen fun s => { s with modes.cursorVisible := on }
  | .alternate => t.changeScreen (if on then .alternate else .primary)
  | .alternateErased => t.setAlternateErased on
  | .savedCursor => t.setSavedCursor on
  | .alternateSaved => t.setAlternateSaved on
  | .applicationKeypad => { t with modes.applicationKeypad := on }
  | .buttonReports => t.setButtonReports on
  | .scrollOnOutput => { t with modes.scrollOnOutput := on }
  | .scrollOnKey => { t with modes.scrollOnKey := on }
  | .bracketedPaste => { t with modes.bracketedPaste := on }

/-- Switch private modes by their numbers, one after the other. Unknown
numbers do nothing. -/
def setPrivates (t : Terminal π) (modes : List Nat) (on : Bool) : Terminal π :=
  (modes.filterMap PrivateMode.ofNumber?).foldl (fun t mode => t.setPrivate mode on) t

/-- Save the value of a private mode. -/
def savePrivate (t : Terminal π) (mode : PrivateMode) : Terminal π :=
  match t.privateMode? mode with
  | none => t
  | some on =>
    { t with savedModes := (mode, on) :: t.savedModes.filter fun saved => saved.1 != mode }

/-- Switch a private mode to the value that was saved. -/
def restorePrivate (t : Terminal π) (mode : PrivateMode) : Terminal π :=
  match t.savedModes.lookup mode with
  | none => t
  | some on => t.setPrivate mode on

/-- Save private modes by their numbers. -/
def savePrivates (t : Terminal π) (modes : List Nat) : Terminal π :=
  (modes.filterMap PrivateMode.ofNumber?).foldl savePrivate t

/-- Restore private modes by their numbers, one after the other. -/
def restorePrivates (t : Terminal π) (modes : List Nat) : Terminal π :=
  (modes.filterMap PrivateMode.ofNumber?).foldl restorePrivate t

/-- Switch a mode that is not private. There is one, by which writing
inserts. -/
def setMode (t : Terminal π) (mode : Nat) (on : Bool) : Terminal π :=
  if mode = 4 then t.modifyScreen fun s => { s with modes.insert := on } else t

/-- Switch modes that are not private. -/
def setModes (t : Terminal π) (modes : List Nat) (on : Bool) : Terminal π :=
  modes.foldl (fun t mode => t.setMode mode on) t

end Terminal

end VideoTerminal
