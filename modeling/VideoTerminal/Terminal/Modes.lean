import VideoTerminal.Screen.Basic
/-!
# Modes of a terminal

Some modes belong to a screen, others to the terminal. A child program
switches them by number.
-/

namespace VideoTerminal

/-- The modes that both screens share. -/
structure TerminalModes where
  /-- Cursor keys send what applications expect. -/
  applicationCursor : Bool := false
  /-- The keypad sends what applications expect. -/
  applicationKeypad : Bool := false
  /-- Glyphs and ground swap their default colours. -/
  reverseVideo : Bool := false
  /-- Presses of a button are reported. -/
  pressReports : Bool := false
  /-- Presses and releases of a button are reported. -/
  buttonReports : Bool := false
  /-- Pasted text stands between brackets. -/
  bracketedPaste : Bool := false
  /-- Output brings the view back to the screen. -/
  scrollOnOutput : Bool := false
  /-- Keys bring the view back to the screen. -/
  scrollOnKey : Bool := false
  /-- Lines of 132 columns were asked for. -/
  wideLines : Bool := false
  deriving DecidableEq, Repr, Inhabited

/-- The private modes that mean something here. -/
inductive PrivateMode where
  | applicationCursor
  | wideLines
  | reverseVideo
  | origin
  | autowrap
  | pressReports
  | cursorVisible
  /-- The alternate screen. -/
  | alternate
  /-- The alternate screen, erased when it is left. -/
  | alternateErased
  /-- The saved cursor. -/
  | savedCursor
  /-- The alternate screen, erased when it is entered, with the cursor of the
  primary one saved meanwhile. -/
  | alternateSaved
  | applicationKeypad
  | buttonReports
  | scrollOnOutput
  | scrollOnKey
  | bracketedPaste
  deriving DecidableEq, Repr, Inhabited

/-- The mode of a number. -/
def PrivateMode.ofNumber? : Nat → Option PrivateMode
  | 1 => some .applicationCursor
  | 3 => some .wideLines
  | 5 => some .reverseVideo
  | 6 => some .origin
  | 7 => some .autowrap
  | 9 => some .pressReports
  | 25 => some .cursorVisible
  | 47 => some .alternate
  | 66 => some .applicationKeypad
  | 1000 => some .buttonReports
  | 1010 => some .scrollOnOutput
  | 1011 => some .scrollOnKey
  | 1047 => some .alternateErased
  | 1048 => some .savedCursor
  | 1049 => some .alternateSaved
  | 2004 => some .bracketedPaste
  | _ => none

end VideoTerminal
