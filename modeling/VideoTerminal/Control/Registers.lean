import VideoTerminal.Control.Reader
/-!
# The registers of a reader

A reader may keep what it collects in registers, beside a tag that says what
it is in the middle of. A register is cleared when something new begins, not
when what was collected is over or given up. So registers hold remains of what
came before, and none of them may be looked at before it is cleared.
-/

namespace VideoTerminal

/-- What a reader is in the middle of. -/
inductive Phase where
  /-- Nothing. -/
  | ground
  /-- A character, of which so many bytes are still to come. -/
  | character (remaining : Nat)
  /-- An escape sequence. -/
  | escape
  /-- An escape sequence that one more byte completes. -/
  | escapeBy (introducer : UInt8)
  /-- A control sequence. -/
  | sequence
  /-- A command. -/
  | command
  /-- A command that may end with the next byte. -/
  | commandEscape
  /-- Bytes for the printer. -/
  | printing
  deriving DecidableEq, Repr, Inhabited

/-- A reader's phase and its registers. -/
structure Registers where
  phase : Phase := .ground
  /-- The control sequence as far as it was read. -/
  sequence : Sequence := {}
  /-- The bytes of the command. -/
  command : List UInt8 := []
  /-- Bytes of the command were dropped. -/
  truncated : Bool := false
  /-- The bytes of the character. -/
  buffer : Vector UInt8 4 := Vector.replicate 4 0
  /-- Number of bytes of the character that are there. -/
  filled : Nat := 0
  /-- Bytes held back because the print pipe may close with them. -/
  held : List UInt8 := []
  deriving DecidableEq, Repr, Inhabited

namespace Registers

open Reader (escapeByte isCancel control? escapeAction? isIntroducer introducedAction? pipeEnds
  joinData)

/-- Nothing is being collected. -/
def isGround (r : Registers) : Bool := r.phase == .ground

/-- Bytes go to the printer. -/
def inPipe (r : Registers) : Bool := r.phase == .printing

/-- Go on with another phase. -/
def become (r : Registers) (phase : Phase) : Registers := { r with phase }

/-! ## One byte -/

/-- A byte when nothing is being collected. -/
def stepGround (r : Registers) (byte : UInt8) : Registers × Option Action :=
  if byte = escapeByte then (r.become .escape, none)
  else if byte < 0x20 then (r, control? byte)
  else if byte < 0x7F then (r, some (.print (Char.ofUInt8 byte)))
  else if 2 ≤ Utf8.announced byte then
    ({ r with
      buffer := r.buffer.set 0 byte
      filled := 1
      phase := .character (Utf8.announced byte - 1) }, none)
  else (r, none)

/-- Put a byte into the buffer, as long as there is room. -/
def store (r : Registers) (byte : UInt8) : Registers :=
  if h : r.filled < 4 then { r with buffer := r.buffer.set r.filled byte, filled := r.filled + 1 }
  else r

/-- A byte within a character. One that does not continue the character
drops it and is read anew. -/
def stepCharacter (r : Registers) (remaining : Nat) (byte : UInt8) : Registers × Option Action :=
  if Utf8.isContinuation byte then
    let r := r.store byte
    if 1 < remaining then (r.become (.character (remaining - 1)), none)
    else
      ({ r.become .ground with filled := 0 },
        (Utf8.decodeChar? (r.buffer.toList.take r.filled)).map .print)
  else { r.become .ground with filled := 0 }.stepGround byte

/-- A byte of an escape sequence. -/
def stepEscape (r : Registers) (byte : UInt8) : Registers × Option Action :=
  if byte = escapeByte then (r, none)
  else if isCancel byte then (r.become .ground, none)
  else if byte < 0x20 then (r, control? byte)
  else if byte = 0x5B then ({ r.become .sequence with sequence := {} }, none)
  else if byte = 0x5D then ({ r.become .command with command := [], truncated := false }, none)
  else if isIntroducer byte then (r.become (.escapeBy byte), none)
  else (r.become .ground, escapeAction? (Char.ofUInt8 byte))

/-- The last byte of an escape sequence. -/
def stepEscapeBy (r : Registers) (introducer byte : UInt8) : Registers × Option Action :=
  if byte = escapeByte then (r.become .escape, none)
  else if isCancel byte then (r.become .ground, none)
  else if byte < 0x20 then (r, control? byte)
  else (r.become .ground, introducedAction? introducer byte)

/-- The end of a control sequence. Its parameters are handed over; all else of
it remains. Sequences that are not in order are left as they are. -/
def finishSequence (r : Registers) (final : UInt8) : Registers × Option Action :=
  if r.sequence.malformed || !r.sequence.intermediates.isEmpty then (r.become .ground, none)
  else
    let action := r.sequence.decode? final
    let r := { r.become .ground with sequence.closed := [], sequence.digits := none }
    (if action = some .openPipe then { r.become .printing with held := [] } else r, action)

/-- A byte of a control sequence. Those that are no part of it are ignored. -/
def stepSequence (r : Registers) (byte : UInt8) : Registers × Option Action :=
  if byte = escapeByte then (r.become .escape, none)
  else if isCancel byte then (r.become .ground, none)
  else if byte < 0x20 then (r, control? byte)
  else if byte ≤ 0x2F then ({ r with sequence := r.sequence.intermediate byte }, none)
  else if byte ≤ 0x39 then ({ r with sequence := r.sequence.digit (byte.toNat - 0x30) }, none)
  else if byte ≤ 0x3B then ({ r with sequence := r.sequence.separator }, none)
  else if byte ≤ 0x3F then ({ r with sequence := r.sequence.mark byte }, none)
  else if byte ≤ 0x7E then r.finishSequence byte
  else (r, none)

/-- Take one more byte of the command. -/
def push (r : Registers) (byte : UInt8) : Registers :=
  match Command.clean? byte with
  | none => r
  | some byte =>
    if r.command.length < Command.maxBytes then { r with command := r.command ++ [byte] }
    else { r with truncated := true }

/-- The end of a command, which is handed over. -/
def finishCommand (r : Registers) : Registers × Option Action :=
  ({ r.become .ground with command := [] }, Command.decode? r.command)

/-- A byte of a command. -/
def stepCommand (r : Registers) (byte : UInt8) : Registers × Option Action :=
  if byte = 0x07 then r.finishCommand
  else if byte = escapeByte then (r.become .commandEscape, none)
  else if isCancel byte then (r.become .ground, none)
  else (r.push byte, none)

/-- A byte that ends a command. Any other one than the backslash gives the
command up and belongs to an escape sequence. -/
def stepCommandEscape (r : Registers) (byte : UInt8) : Registers × Option Action :=
  if byte = 0x5C then r.finishCommand
  else { r.become .escape with command := [] }.stepEscape byte

/-- A byte while the print pipe is open. Bytes are held as long as the pipe
may close with them; the last byte of those released may be the start of
another try. -/
def stepPrinting (r : Registers) (byte : UInt8) : Registers × Option Action :=
  let bytes := r.held ++ [byte]
  if pipeEnds.contains bytes then ({ r.become .ground with held := [] }, some .closePipe)
  else if pipeEnds.any bytes.isPrefixOf then ({ r with held := bytes }, none)
  else if 1 < bytes.length ∧ byte = escapeByte then
    ({ r with held := [escapeByte] }, some (.printData bytes.dropLast))
  else ({ r with held := [] }, some (.printData bytes))

/-- Read one byte: the state after it, and the action that it completes. -/
def step (r : Registers) (byte : UInt8) : Registers × Option Action :=
  match r.phase with
  | .ground => r.stepGround byte
  | .character remaining => r.stepCharacter remaining byte
  | .escape => r.stepEscape byte
  | .escapeBy introducer => r.stepEscapeBy introducer byte
  | .sequence => r.stepSequence byte
  | .command => r.stepCommand byte
  | .commandEscape => r.stepCommandEscape byte
  | .printing => r.stepPrinting byte

/-! ## Many bytes -/

/-- Read bytes: the state after them, and their actions in order. -/
def run (r : Registers) : List UInt8 → Registers × List Action
  | [] => (r, [])
  | byte :: bytes =>
    let next := r.step byte
    let rest := run next.1 bytes
    (rest.1, next.2.toList ++ rest.2)

/-- Read a chunk of bytes, with neighbouring bytes for the printer joined. -/
def feed (r : Registers) (bytes : List UInt8) : Registers × List Action :=
  let (after, actions) := r.run bytes
  (after, joinData actions)

/-! ## The host -/

/-- Close the print pipe at once. Bytes held back are dropped. -/
def closePipe (r : Registers) : Registers :=
  if r.inPipe then { r.become .ground with held := [] } else r

/-- Forget what was being collected. -/
def reset (r : Registers) : Registers :=
  { r with
    phase := .ground
    sequence := {}
    command := []
    truncated := false
    filled := 0
    held := [] }

end Registers

end VideoTerminal
