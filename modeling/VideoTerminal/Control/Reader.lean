import VideoTerminal.Control.Sequence
import VideoTerminal.Control.Command
/-!
# The reader of control text

The bytes of a child program are read one at a time, and nothing is looked
at twice. Between two bytes all that matters of the past is what is being
collected, so it stands in the state itself: a character, an escape
sequence, a control sequence, a command, or bytes for the printer. A text
may therefore be cut anywhere.
-/

namespace VideoTerminal

/-- What is being collected. -/
inductive Reader where
  /-- Nothing. -/
  | ground
  /-- A character of several bytes: its first byte and what followed. -/
  | character (first : UInt8) (rest : List UInt8)
  /-- An escape sequence. -/
  | escape
  /-- An escape sequence that one more byte completes. -/
  | escapeBy (introducer : UInt8)
  /-- A control sequence. -/
  | sequence (read : Sequence)
  /-- A command. -/
  | command (bytes : List UInt8)
  /-- A command that may end with the next byte. -/
  | commandEscape (bytes : List UInt8)
  /-- Bytes for the printer, and those held back because the print pipe may
  close with them. -/
  | printing (held : List UInt8)
  deriving DecidableEq, Repr, Inhabited

namespace Reader

/-- Nothing is being collected. -/
def isGround (r : Reader) : Bool := r == .ground

/-- Bytes go to the printer. -/
def inPipe : Reader → Bool
  | .printing _ => true
  | _ => false

/-- The byte that starts an escape sequence. -/
def escapeByte : UInt8 := 0x1B

/-- A byte that gives up what is being collected. -/
def isCancel (byte : UInt8) : Bool := byte == 0x18 || byte == 0x1A

/-! ## One byte -/

/-- The action of a control byte. It is the same wherever control bytes act. -/
def control? (byte : UInt8) : Option Action :=
  match byte.toNat with
  | 0x05 => some .enquiry
  | 0x07 => some .bell
  | 0x08 => some .backspace
  | 0x09 => some .tab
  | 0x0A => some .lineFeed
  | 0x0B => some .lineFeed
  | 0x0C => some .lineFeed
  | 0x0D => some .carriageReturn
  | 0x0E => some (.invoke 1)
  | 0x0F => some (.invoke 0)
  | _ => none

/-- A byte when nothing is being collected. -/
def stepGround (byte : UInt8) : Reader × Option Action :=
  if byte = escapeByte then (.escape, none)
  else if byte < 0x20 then (.ground, control? byte)
  else if byte < 0x7F then (.ground, some (.print (Char.ofUInt8 byte)))
  else if 2 ≤ Utf8.announced byte then (.character byte [], none)
  else (.ground, none)

/-- A byte within a character. One that does not continue the character
drops it and is read anew. -/
def stepCharacter (first : UInt8) (rest : List UInt8) (byte : UInt8) : Reader × Option Action :=
  if Utf8.isContinuation byte then
    let rest := rest ++ [byte]
    if rest.length + 1 < Utf8.announced first then (.character first rest, none)
    else (.ground, (Utf8.decodeChar? (first :: rest)).map .print)
  else stepGround byte

/-- The action of an escape sequence that one byte completes. -/
def escapeAction? (final : Char) : Option Action :=
  match final with
  | '7' => some .saveCursor
  | '8' => some .restoreCursor
  | 'D' => some .index
  | 'M' => some .reverseIndex
  | 'E' => some .nextLine
  | 'H' => some .setTabStop
  | '6' => some .backIndex
  | '9' => some .forwardIndex
  | '=' => some .applicationKeypad
  | '>' => some .numericKeypad
  | 'c' => some .fullReset
  | 'Z' => some .primaryAttributes
  | 'n' => some (.invoke 2)
  | 'o' => some (.invoke 3)
  | _ => none

/-- A byte that says that one more byte completes the escape sequence. -/
def isIntroducer (byte : UInt8) : Bool :=
  "()*+#% ".toList.contains (Char.ofUInt8 byte)

/-- A byte of an escape sequence. -/
def stepEscape (byte : UInt8) : Reader × Option Action :=
  if byte = escapeByte then (.escape, none)
  else if isCancel byte then (.ground, none)
  else if byte < 0x20 then (.escape, control? byte)
  else if byte = 0x5B then (.sequence {}, none)
  else if byte = 0x5D then (.command [], none)
  else if isIntroducer byte then (.escapeBy byte, none)
  else (.ground, escapeAction? (Char.ofUInt8 byte))

/-- The action of an escape sequence that an introducer and one byte make. -/
def introducedAction? (introducer final : UInt8) : Option Action :=
  match Char.ofUInt8 introducer with
  | '(' => some (.designate 0 (Charset.ofDesignator final))
  | ')' => some (.designate 1 (Charset.ofDesignator final))
  | '*' => some (.designate 2 (Charset.ofDesignator final))
  | '+' => some (.designate 3 (Charset.ofDesignator final))
  | '#' => if final = 0x38 then some .align else none
  | _ => none

/-- The last byte of an escape sequence. -/
def stepEscapeBy (introducer byte : UInt8) : Reader × Option Action :=
  if byte = escapeByte then (.escape, none)
  else if isCancel byte then (.ground, none)
  else if byte < 0x20 then (.escapeBy introducer, control? byte)
  else (.ground, introducedAction? introducer byte)

/-- The state after a complete control sequence. -/
def afterSequence (action : Option Action) : Reader :=
  if action = some .openPipe then .printing [] else .ground

/-- A byte of a control sequence. Those that are no part of it are ignored. -/
def stepSequence (s : Sequence) (byte : UInt8) : Reader × Option Action :=
  if byte = escapeByte then (.escape, none)
  else if isCancel byte then (.ground, none)
  else if byte < 0x20 then (.sequence s, control? byte)
  else if byte ≤ 0x2F then (.sequence (s.intermediate byte), none)
  else if byte ≤ 0x39 then (.sequence (s.digit (byte.toNat - 0x30)), none)
  else if byte ≤ 0x3B then (.sequence s.separator, none)
  else if byte ≤ 0x3F then (.sequence (s.mark byte), none)
  else if byte ≤ 0x7E then (afterSequence (s.decode? byte), s.decode? byte)
  else (.sequence s, none)

/-- A byte of a command. -/
def stepCommand (bytes : List UInt8) (byte : UInt8) : Reader × Option Action :=
  if byte = 0x07 then (.ground, Command.decode? bytes)
  else if byte = escapeByte then (.commandEscape bytes, none)
  else if isCancel byte then (.ground, none)
  else (.command (Command.push bytes byte), none)

/-- A byte that ends a command. Any other one than the backslash gives the
command up and belongs to an escape sequence. -/
def stepCommandEscape (bytes : List UInt8) (byte : UInt8) : Reader × Option Action :=
  if byte = 0x5C then (.ground, Command.decode? bytes) else stepEscape byte

/-- The sequences that close the print pipe. -/
def pipeEnds : List (List UInt8) :=
  [[0x1B, 0x5B, 0x34, 0x69], [0x1B, 0x5B, 0x3F, 0x34, 0x69]]

/-- A byte while the print pipe is open. Bytes are held as long as the pipe
may close with them; the last byte of those released may be the start of
another try. -/
def stepPrinting (held : List UInt8) (byte : UInt8) : Reader × Option Action :=
  let bytes := held ++ [byte]
  if pipeEnds.contains bytes then (.ground, some .closePipe)
  else if pipeEnds.any bytes.isPrefixOf then (.printing bytes, none)
  else if byte = escapeByte ∧ held ≠ [] then (.printing [escapeByte], some (.printData held))
  else (.printing [], some (.printData bytes))

/-- Read one byte: the state after it, and the action that it completes. -/
def step (r : Reader) (byte : UInt8) : Reader × Option Action :=
  match r with
  | .ground => stepGround byte
  | .character first rest => stepCharacter first rest byte
  | .escape => stepEscape byte
  | .escapeBy introducer => stepEscapeBy introducer byte
  | .sequence s => stepSequence s byte
  | .command bytes => stepCommand bytes byte
  | .commandEscape bytes => stepCommandEscape bytes byte
  | .printing held => stepPrinting held byte

/-! ## Many bytes -/

/-- Read bytes: the state after them, and their actions in order. -/
def run (r : Reader) : List UInt8 → Reader × List Action
  | [] => (r, [])
  | byte :: bytes =>
    let next := r.step byte
    let rest := run next.1 bytes
    (rest.1, next.2.toList ++ rest.2)

/-- Join neighbouring bytes for the printer. -/
def joinData : List Action → List Action
  | [] => []
  | action :: rest =>
    match action, joinData rest with
    | .printData a, .printData b :: more => .printData (a ++ b) :: more
    | action, joined => action :: joined

/-- Read a chunk of bytes, with neighbouring bytes for the printer joined. -/
def feed (r : Reader) (bytes : List UInt8) : Reader × List Action :=
  let (after, actions) := r.run bytes
  (after, joinData actions)

/-- Close the print pipe at once. Bytes held back are dropped. -/
def closePipe (r : Reader) : Reader := if r.inPipe then .ground else r

/-- **A text may be cut anywhere**: the state is all that one part leaves for
the next. -/
theorem run_append (r : Reader) (a b : List UInt8) :
    r.run (a ++ b) = (((r.run a).1.run b).1, (r.run a).2 ++ ((r.run a).1.run b).2) := by
  induction a generalizing r with
  | nil => rfl
  | cons byte a ih => simp only [List.cons_append, run, ih, List.append_assoc]

end Reader

end VideoTerminal
