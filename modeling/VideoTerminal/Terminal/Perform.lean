import VideoTerminal.Printer
import VideoTerminal.Rendition.Select
import VideoTerminal.Terminal.Switch
/-!
# Performing actions

Most actions change the screen that is shown, and none of them can fail but
those that print. After each action the selection is told what became of the
text, so that it never shows text that was not selected.
-/

namespace VideoTerminal

namespace Terminal

variable {π : Type}

/-! ## Answers -/

/-- A number in decimal digits. -/
def decimal (n : Nat) : List UInt8 := (Nat.toDigits 10 n).map Char.toUInt8

/-- A control sequence that the terminal sends. -/
def reply (body : List UInt8) : List UInt8 := 0x1B :: 0x5B :: body

/-- The row of the cursor as the child program counts rows, from zero. -/
def reportedRow (s : Screen) : Nat :=
  if s.modes.origin then s.cursor.row - s.region.top else s.cursor.row

/-- The position of the cursor, from one. -/
def positionReport (s : Screen) : List UInt8 :=
  reply (decimal (reportedRow s + 1) ++ 0x3B :: decimal (s.cursor.col + 1) ++ [0x52])

/-- The answer to the question for the state: there is no fault. -/
def statusReport : List UInt8 := reply [0x30, 0x6E]

/-- The answer to the question for the version. -/
def versionReport : List UInt8 := reply [0x3E, 0x31, 0x3B, 0x30, 0x3B, 0x30, 0x63]

/-- Answer a question of the child program. -/
def answer (t : Terminal π) : Nat → Terminal π
  | 5 => t.send statusReport
  | 6 => t.send (positionReport t.screen)
  | _ => t

/-! ## Names -/

/-- Name the window. -/
def setTitle (t : Terminal π) (text : String) : Terminal π :=
  { t with title := text }.tell (.titleChanged text)

/-- Name the icon. -/
def setIconName (t : Terminal π) (text : String) : Terminal π :=
  { t with iconName := text }.tell (.iconNameChanged text)

/-! ## Tab stops -/

/-- Remove the stop at the cursor (0) or all stops (3). -/
def clearTabStop (t : Terminal π) : Nat → Terminal π
  | 0 => { t with tabs := t.tabs.clear t.screen.cursor.col }
  | 3 => { t with tabs := t.tabs.clearAll }
  | _ => t

/-! ## Actions -/

/-- The effect of an action on a screen, if it concerns the screen alone. -/
def onScreen? [Glyph.Widths] (tabs : TabStops) : Action → Option (Screen → Screen)
  | .print c => some (·.print c)
  | .lineFeed => some Screen.index
  | .index => some Screen.index
  | .reverseIndex => some Screen.reverseIndex
  | .carriageReturn => some Screen.carriageReturn
  | .nextLine => some fun s => s.carriageReturn.index
  | .backspace => some Screen.backspace
  | .tab => some (·.tab 1 tabs)
  | .forwardTab n => some (·.tab n tabs)
  | .backTab n => some (·.tab (-n) tabs)
  | .invoke slot => some fun s => { s with charsets := s.charsets.invoke slot }
  | .designate slot set => some fun s => { s with charsets := s.charsets.designate slot set }
  | .cursorUp n => some (·.cursorUp n)
  | .cursorDown n => some (·.cursorDown n)
  | .cursorRight n => some (·.cursorRight n)
  | .cursorLeft n => some (·.cursorLeft n)
  | .nextLines n => some fun s => (s.cursorDown n).carriageReturn
  | .previousLines n => some fun s => (s.cursorUp n).carriageReturn
  | .column col => some (·.toColumn col)
  | .row row => some (·.toRow row)
  | .position row col => some (·.goto (.absolute row) (.absolute col))
  | .setRegion top bottom => some fun s => s.setRegion top (bottom.getD s.lastRow)
  | .scrollUp n => some (·.scrollBy n)
  | .scrollDown n => some (·.scrollBy (-n))
  | .insertLines n => some (·.insertLines n)
  | .deleteLines n => some (·.deleteLines n)
  | .insertCells n => some (·.insertCells n)
  | .deleteCells n => some (·.deleteCells n)
  | .eraseCells n => some (·.eraseCells n)
  | .eraseScreen part => some (·.eraseScreen part)
  | .eraseLine part => some (·.eraseLine part)
  | .select codes => some fun s => { s with rendition := s.rendition.select codes }
  | .saveCursor => some Screen.saveCursor
  | .restoreCursor => some Screen.restoreCursor
  | .backIndex => some Screen.backIndex
  | .forwardIndex => some Screen.forwardIndex
  | .align => some Screen.align
  | _ => none

/-- The effect of an action on what both screens share. -/
def onTerminal (t : Terminal π) : Action → Terminal π
  | .bell => t.tell .bell
  | .setPrivate modes => t.setPrivates modes true
  | .resetPrivate modes => t.setPrivates modes false
  | .savePrivate modes => t.savePrivates modes
  | .restorePrivate modes => t.restorePrivates modes
  | .setModes modes => t.setModes modes true
  | .resetModes modes => t.setModes modes false
  | .fullReset => t.fullReset
  | .setTabStop => { t with tabs := t.tabs.set t.screen.cursor.col }
  | .clearTabStop which => t.clearTabStop which
  | .applicationKeypad => { t with modes.applicationKeypad := true }
  | .numericKeypad => { t with modes.applicationKeypad := false }
  | .primaryAttributes => t.send t.config.answerback
  | .enquiry => t.send t.config.answerback
  | .secondaryAttributes => t.send versionReport
  | .statusReport which => t.answer which
  | .setTitles text => (t.setTitle text).setIconName text
  | .setTitle text => t.setTitle text
  | .setIconName text => t.setIconName text
  | .setColour which value => t.tell (.colourChanged which value)
  | .extension code payload => t.tell (.extension code payload)
  | _ => t

/-- The effect of an action that does not print. -/
def perform [Glyph.Widths] (t : Terminal π) (action : Action) : Terminal π :=
  match onScreen? t.tabs action with
  | some f => t.modifyScreen f
  | none => t.onTerminal action

/-- Tell the selection what became of the text of the screen that is shown.
First come the lines that left the history, since they move all others. -/
def absorbDamage (t : Terminal π) : Terminal π :=
  let damage := t.screen.damage
  let base := t.screen.history.length
  let selector := t.selector.evicted damage.evicted
  let selector := match damage.rows with
    | none => selector
    | some (top, bottom) => selector.changed t.active (base + top) (base + bottom)
  { t.modifyScreen Screen.dropDamage with selector }

end Terminal

end VideoTerminal
