import VideoTerminal.Charset
import VideoTerminal.Erasure
/-!
# Actions

What the bytes of a child program ask the terminal to do. Rows and columns
count from zero here, and a count says how often and is never zero.
-/

namespace VideoTerminal

/-- A colour that the display uses when none is selected. -/
inductive DefaultColour where
  | foreground
  | background
  deriving DecidableEq, Repr, Inhabited

/-- One request of a child program. -/
inductive Action where
  /-- Write a character. -/
  | print (glyph : Char)
  | lineFeed
  | carriageReturn
  | tab
  | backspace
  | bell
  /-- Use one of the four designated sets. -/
  | invoke (slot : Nat)
  /-- Put a set into one of the four places. -/
  | designate (slot : Nat) (set : Charset)
  | cursorUp (count : Nat)
  | cursorDown (count : Nat)
  | cursorRight (count : Nat)
  | cursorLeft (count : Nat)
  /-- Down, and to the first column. -/
  | nextLines (count : Nat)
  /-- Up, and to the first column. -/
  | previousLines (count : Nat)
  | column (col : Nat)
  | row (row : Nat)
  | position (row col : Nat)
  | forwardTab (count : Nat)
  | backTab (count : Nat)
  /-- The rows that scroll; without a bottom they end at the last row. -/
  | setRegion (top : Nat) (bottom : Option Nat)
  | scrollUp (count : Nat)
  | scrollDown (count : Nat)
  | insertLines (count : Nat)
  | deleteLines (count : Nat)
  | insertCells (count : Nat)
  | deleteCells (count : Nat)
  | eraseCells (count : Nat)
  | eraseScreen (part : Erasure)
  | eraseLine (part : Erasure)
  /-- Select attributes and colours. -/
  | select (codes : List Nat)
  | setPrivate (modes : List Nat)
  | resetPrivate (modes : List Nat)
  | savePrivate (modes : List Nat)
  | restorePrivate (modes : List Nat)
  | setModes (modes : List Nat)
  | resetModes (modes : List Nat)
  | saveCursor
  | restoreCursor
  | index
  | reverseIndex
  | nextLine
  | backIndex
  | forwardIndex
  | align
  | fullReset
  | setTabStop
  /-- Remove the stop at the cursor (0) or all stops (3). -/
  | clearTabStop (which : Nat)
  | applicationKeypad
  | numericKeypad
  | primaryAttributes
  | secondaryAttributes
  | enquiry
  | statusReport (which : Nat)
  | printScreen
  /-- From here on bytes go to the printer. -/
  | openPipe
  /-- Bytes for the printer. -/
  | printData (bytes : List UInt8)
  | closePipe
  | setTitles (text : String)
  | setIconName (text : String)
  | setTitle (text : String)
  | setColour (which : DefaultColour) (value : String)
  /-- A request that only the host can grant. -/
  | extension (code : Nat) (payload : String)
  deriving DecidableEq, Repr, Inhabited

end VideoTerminal
