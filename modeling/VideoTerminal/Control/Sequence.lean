import VideoTerminal.Control.Action
/-!
# Control sequences

A control sequence is a marker, parameters, intermediate bytes and a final
byte. It is collected byte by byte and stands for an action once the final
byte is there. Sequences with bytes in a wrong place, with intermediate
bytes, or with an unknown final byte stand for none.
-/

namespace VideoTerminal

/-- The sequence as far as it was read. -/
structure Sequence where
  /-- The parameters that a separator closed. -/
  closed : List Nat := []
  /-- The digits since the last separator. -/
  digits : Option Nat := none
  marker : Option UInt8 := none
  intermediates : List UInt8 := []
  /-- A byte was in a wrong place. -/
  malformed : Bool := false
  deriving DecidableEq, Repr, Inhabited

namespace Sequence

/-- Parameters beyond this number are dropped. -/
def maxParameters : Nat := 32

/-- A parameter above this value counts as this value. -/
def maxValue : Nat := 65535

/-- More intermediate bytes than this are one too many. -/
def maxIntermediates : Nat := 2

/-- Some parameter has begun. -/
def hasParameters (s : Sequence) : Bool := s.digits.isSome || !s.closed.isEmpty

/-- Take a digit. -/
def digit (s : Sequence) (value : Nat) : Sequence :=
  if s.intermediates.isEmpty then
    { s with digits := some (min (10 * s.digits.getD 0 + value) maxValue) }
  else { s with malformed := true }

/-- Close a parameter. One without digits is zero. -/
def close (s : Sequence) : Sequence :=
  { s with
    closed := if s.closed.length < maxParameters then s.closed ++ [s.digits.getD 0] else s.closed
    digits := none }

/-- Take a separator. -/
def separator (s : Sequence) : Sequence :=
  if s.intermediates.isEmpty then s.close else { s with malformed := true }

/-- Take a marker. There is one, before all parameters. -/
def mark (s : Sequence) (byte : UInt8) : Sequence :=
  if s.marker.isNone && !s.hasParameters then { s with marker := some byte }
  else { s with malformed := true }

/-- Take an intermediate byte. -/
def intermediate (s : Sequence) (byte : UInt8) : Sequence :=
  if s.intermediates.length < maxIntermediates then
    { s with intermediates := s.intermediates ++ [byte] }
  else { s with malformed := true }

/-- The parameters of a complete sequence. -/
def parameters (s : Sequence) : List Nat :=
  if s.hasParameters then s.close.closed else []

/-! ## Meaning -/

/-- A parameter that counts. Without it, or as zero, it is one. -/
def count (parameter : Option Nat) : Nat := max 1 (parameter.getD 1)

/-- A parameter that counts from one, counted from zero. -/
def ordinal (parameter : Option Nat) : Nat := count parameter - 1

/-- The action of a sequence without a marker. -/
def decodePlain (ps : List Nat) (final : Char) : Option Action :=
  let n := count ps[0]?
  let first := ps[0]?.getD 0
  match final with
  | 'A' => some (.cursorUp n)
  | 'B' => some (.cursorDown n)
  | 'e' => some (.cursorDown n)
  | 'C' => some (.cursorRight n)
  | 'a' => some (.cursorRight n)
  | 'D' => some (.cursorLeft n)
  | 'E' => some (.nextLines n)
  | 'F' => some (.previousLines n)
  | 'G' => some (.column (ordinal ps[0]?))
  | '\x60' => some (.column (ordinal ps[0]?))
  | 'd' => some (.row (ordinal ps[0]?))
  | 'H' => some (.position (ordinal ps[0]?) (ordinal ps[1]?))
  | 'f' => some (.position (ordinal ps[0]?) (ordinal ps[1]?))
  | 'I' => some (.forwardTab n)
  | 'Z' => some (.backTab n)
  | 'J' => (Erasure.ofParameter? first).map .eraseScreen
  | 'K' => (Erasure.ofParameter? first).map .eraseLine
  | '@' => some (.insertCells n)
  | 'P' => some (.deleteCells n)
  | 'X' => some (.eraseCells n)
  | 'L' => some (.insertLines n)
  | 'M' => some (.deleteLines n)
  | 'S' => some (.scrollUp n)
  | 'T' => some (.scrollDown n)
  | '^' => some (.scrollDown n)
  | 'r' => some (.setRegion (ordinal ps[0]?) ((ps[1]?.filter (0 < ·)).map (· - 1)))
  | 'm' => some (.select ps)
  | 'h' => some (.setModes ps)
  | 'l' => some (.resetModes ps)
  | 'g' => some (.clearTabStop first)
  | 'W' =>
    match first with
    | 0 => some .setTabStop
    | 2 => some (.clearTabStop 0)
    | 5 => some (.clearTabStop 3)
    | _ => none
  | 'c' => if first = 0 then some .primaryAttributes else none
  | 'n' => some (.statusReport first)
  | 'i' =>
    match first with
    | 0 => some .printScreen
    | 5 => some .openPipe
    | _ => none
  | 's' => some .saveCursor
  | 'u' => some .restoreCursor
  | _ => none

/-- The action of a sequence with a question mark. -/
def decodePrivate (ps : List Nat) (final : Char) : Option Action :=
  let first := ps[0]?.getD 0
  match final with
  | 'h' => some (.setPrivate ps)
  | 'l' => some (.resetPrivate ps)
  | 's' => some (.savePrivate ps)
  | 'r' => some (.restorePrivate ps)
  | 'J' => (Erasure.ofParameter? first).map .eraseScreen
  | 'K' => (Erasure.ofParameter? first).map .eraseLine
  | _ => none

/-- The action of a sequence that ends with the given byte. -/
def decode? (s : Sequence) (final : UInt8) : Option Action :=
  if s.malformed || !s.intermediates.isEmpty then none
  else
    match s.marker.map Char.ofUInt8, Char.ofUInt8 final with
    | none, c => decodePlain s.parameters c
    | some '?', c => decodePrivate s.parameters c
    | some '>', 'c' => some .secondaryAttributes
    | _, _ => none

end Sequence

end VideoTerminal
