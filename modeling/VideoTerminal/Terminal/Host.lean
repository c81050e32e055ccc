import VideoTerminal.Screen.Resize
import VideoTerminal.Terminal.Switch
/-!
# What the host does

Keys, pasted text and the pointer come from the host. With reports switched
on the pointer belongs to the child program; otherwise it selects.
-/

namespace VideoTerminal

/-- A button of the pointer. -/
inductive Button where
  | left
  | middle
  | right
  deriving DecidableEq, Repr, Inhabited

/-- What a button does. -/
inductive Gesture where
  /-- It goes down; the count says how often in the same place. -/
  | press (clicks : Nat)
  /-- The pointer moves while it is down. -/
  | drag
  | release
  deriving DecidableEq, Repr, Inhabited

/-- A gesture in a cell of the view. -/
structure Pointer where
  button : Button
  gesture : Gesture
  col : Nat
  row : Nat
  deriving DecidableEq, Repr, Inhabited

namespace Terminal

variable {π : Type}

/-! ## Keys and text -/

/-- Send bytes that a key stands for. -/
def typeBytes (t : Terminal π) (bytes : List UInt8) : Terminal π :=
  let t := t.send bytes
  if t.modes.scrollOnKey then t.snapView else t

/-- A byte as it is pasted: a line ends as the return key ends it. -/
def pasted (byte : UInt8) : UInt8 := if byte = 0x0A then 0x0D else byte

/-- Send pasted text, between brackets if the child program wants them. -/
def paste (t : Terminal π) (bytes : List UInt8) : Terminal π :=
  let body := bytes.map pasted
  if t.modes.bracketedPaste then
    t.send ([0x1B, 0x5B, 0x32, 0x30, 0x30, 0x7E] ++ body ++ [0x1B, 0x5B, 0x32, 0x30, 0x31, 0x7E])
  else t.send body

/-! ## Selecting -/

/-- The selected text. -/
def selectedText? (t : Terminal π) : Option (List Char) := do
  let selection ← t.selector.current
  t.selector.text? (t.bufferOf selection.screen)

/-- Select nothing. -/
def clearSelection (t : Terminal π) : Terminal π := { t with selector := t.selector.clear }

/-- Count a press of the pointer. -/
def countClick (t : Terminal π) (press : Press) : Terminal π :=
  { t with clicks := t.clicks.press press }

/-! ## The pointer -/

/-- A coordinate as it is reported, in one byte. -/
def reportByte (n : Nat) : UInt8 := UInt8.ofNat (min (n + 33) 255)

/-- The report of a button in a cell. -/
def buttonReport (code : Nat) (col row : Nat) : List UInt8 :=
  [0x1B, 0x5B, 0x4D, UInt8.ofNat (32 + code), reportByte col, reportByte row]

/-- What stands for a button in a report. -/
def buttonCode : Button → Nat
  | .left => 0
  | .middle => 1
  | .right => 2

/-- What stands for a gesture in a report, if it is reported. -/
def gestureCode? (modes : TerminalModes) (p : Pointer) : Option Nat :=
  match p.gesture with
  | .press _ => some (buttonCode p.button)
  | .release => if modes.buttonReports then some 3 else none
  | .drag => none

/-- The left button selects, and both the left and the right one extend. -/
def selectAt (t : Terminal π) (p : Pointer) (place : Position) : Terminal π :=
  let buffer := t.bufferOf t.active
  match p.button, p.gesture with
  | .left, .press clicks =>
    { t with selector := t.selector.click buffer place (max clicks 1) t.active }
  | .left, .drag => { t with selector := t.selector.extend buffer place }
  | .right, .press _ => { t with selector := t.selector.extend buffer place }
  | .right, .drag => { t with selector := t.selector.extend buffer place }
  | _, _ => t

/-- Take a gesture of the pointer. What lies outside the view is moved to its
edge. -/
def point (t : Terminal π) (p : Pointer) : Terminal π :=
  let col := min p.col t.screen.lastCol
  let row := min p.row t.screen.lastRow
  if t.modes.pressReports || t.modes.buttonReports then
    match gestureCode? t.modes p with
    | some code => t.send (buttonReport code col row)
    | none => t
  else t.selectAt p (Position.onScreen t.viewTop row col)

/-! ## The printer -/

/-- Print on another printer from now on. -/
def usePrinter (t : Terminal π) (printer : π) : Terminal π := { t with printer := some printer }

/-- Close the print pipe at once. -/
def closePipe (t : Terminal π) : Terminal π := { t with reader := t.reader.closePipe }

/-- Stop: what is being read is forgotten, and so are the printer and the
selection. -/
def shutdown (t : Terminal π) : Terminal π :=
  { t.clearSelection with reader := .ground, printer := none }

/-! ## The size -/

/-- The terminal at another size. All that points to a cell is forgotten. -/
def resize (t : Terminal π) (rows cols : Nat) : Except Fault (Terminal π) :=
  match Config.sizeFault? rows cols with
  | some fault => .error fault
  | none =>
    .ok { t with
      primary := (t.primary.resize rows cols).dropDamage
      alternate := (t.alternate.resize rows cols).dropDamage
      tabs := TabStops.fresh cols
      selector := t.selector.clear
      clicks := t.clicks.reset
      viewOffset := 0 }

end Terminal

end VideoTerminal
