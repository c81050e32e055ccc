/-!
# Printers

A printer takes bytes, and may fail at any time. What it does is its own
affair: the terminal only hands over bytes and hears whether they were all
taken.
-/

namespace VideoTerminal

/-- The states `π` are those of a printer. -/
class Printer (π : Type) where
  /-- Hand over bytes. If the printer does not take all of them, it says why. -/
  write : π → List UInt8 → π × Option String
  /-- Finish what was handed over. If that fails, the printer says why. -/
  flush : π → π × Option String

/-- A printer that keeps what it takes, and has only so much room. -/
structure Spool where
  /-- Number of bytes that it still takes; without it, all. -/
  room : Option Nat := none
  /-- Without room it takes nothing instead of refusing. -/
  stalls : Bool := false
  flushFails : Bool := false
  received : List UInt8 := []
  flushes : Nat := 0
  deriving DecidableEq, Repr, Inhabited

namespace Spool

/-- The bytes of those handed over that find room. -/
def taken (s : Spool) (bytes : List UInt8) : List UInt8 :=
  match s.room with
  | none => bytes
  | some n => bytes.take n

/-- Take the bytes that find room, and say why not all of them did. -/
def write (s : Spool) (bytes : List UInt8) : Spool × Option String :=
  let taken := s.taken bytes
  let fault :=
    if taken.length < bytes.length then
      some (if s.stalls then "failed to write whole buffer" else "sink full")
    else none
  ({ s with room := s.room.map (· - taken.length), received := s.received ++ taken }, fault)

/-- Count what was finished. -/
def flush (s : Spool) : Spool × Option String :=
  if s.flushFails then (s, some "flush failed") else ({ s with flushes := s.flushes + 1 }, none)

instance : Printer Spool := ⟨write, flush⟩

/-- The spool after its bytes were carried away. -/
def emptied (s : Spool) : Spool := { s with received := [], flushes := 0 }

end Spool

end VideoTerminal
