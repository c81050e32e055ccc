import VideoTerminal.Fault
import VideoTerminal.Selection.Selector
import VideoTerminal.Text.Blank
import VideoTerminal.Text.Numeral
/-!
# Configuration

What a host chooses when it makes a terminal. The defaults are those of a
classic terminal, and variables of the environment override them. A variable
that makes no sense is ignored.
-/

namespace VideoTerminal

/-- The choices of the host. -/
structure Config where
  rows : Nat := 24
  cols : Nat := 80
  /-- Number of rows that the history keeps. -/
  capacity : Nat := 64
  /-- Glyphs that end a word, besides white space. -/
  delimiters : String := Selector.defaultDelimiters
  /-- Milliseconds between clicks that belong together, at most. -/
  clickInterval : Nat := 500
  /-- Lines wrap after a reset. -/
  autowrap : Bool := true
  /-- What the terminal answers when it is asked what it is. -/
  answerback : List UInt8 := [0x1B, 0x5B, 0x3F, 0x31, 0x3B, 0x32, 0x63]
  deriving DecidableEq, Repr, Inhabited

namespace Config

/-- The defaults for a size. -/
def ofSize (rows cols : Nat) : Config := { rows, cols }

/-- Rows and columns go up to this number. -/
def maxSide : Nat := 65535

/-- All other numbers go up to this one. -/
def maxNumber : Nat := 18446744073709551615

/-- The number that a variable holds. -/
def number? (limit : Nat) (value : String) : Option Nat :=
  Numeral.read? limit (Blank.trim value.toList)

/-- What a variable says about a switch. -/
def switch? (value : String) : Option Bool :=
  match String.ofList ((Blank.trim value.toList).map Char.toLower) with
  | "1" => some true
  | "true" => some true
  | "yes" => some true
  | "on" => some true
  | "0" => some false
  | "false" => some false
  | "no" => some false
  | "off" => some false
  | _ => none

/-- The defaults, overridden by an environment. The names of all variables
begin with the same stem. -/
def ofEnvironment (stem : String) (lookup : String → Option String) : Config :=
  let number := fun (name : String) (limit usual : Nat) =>
    ((lookup (stem ++ name)).bind (number? limit)).getD usual
  let usual : Config := {}
  { rows := number "ROWS" maxSide usual.rows
    cols := number "COLS" maxSide usual.cols
    capacity := number "SAVE_LINES" maxNumber usual.capacity
    delimiters := (lookup (stem ++ "CUTCHARS")).getD usual.delimiters
    clickInterval := number "MULTICLICK_MS" maxNumber usual.clickInterval
    autowrap := ((lookup (stem ++ "AUTOWRAP")).bind switch?).getD usual.autowrap }

/-- The fault of a size, if it has one. -/
def sizeFault? (rows cols : Nat) : Option Fault :=
  if rows = 0 ∨ cols = 0 then some (.invalidSize rows cols) else none

/-- The fault of a configuration, if it has one. -/
def fault? (c : Config) : Option Fault := sizeFault? c.rows c.cols

end Config

end VideoTerminal
