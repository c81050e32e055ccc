import VideoTerminal.Control.Action
import VideoTerminal.Text.Numeral
import VideoTerminal.Text.Utf8
/-!
# Commands to the host system

A command is a string of bytes: a code, a semicolon and a payload of text.
It names the window or its icon, sets a default colour, or asks the host for
something. Only so many bytes of the string are kept.
-/

namespace VideoTerminal

namespace Command

/-- Bytes beyond this number are dropped. -/
def maxBytes : Nat := 512

/-- A byte as it is kept. A tab is a blank, and no other control byte is
kept. -/
def clean? (byte : UInt8) : Option UInt8 :=
  if byte = 0x09 then some 0x20 else if byte < 0x20 then none else some byte

/-- Take one more byte of the string. -/
def push (bytes : List UInt8) (byte : UInt8) : List UInt8 :=
  if bytes.length < maxBytes then bytes ++ (clean? byte).toList else bytes

/-- The action of a code with its payload. -/
def ofCode? (code : Nat) (payload : String) : Option Action :=
  match code with
  | 0 => some (.setTitles payload)
  | 1 => some (.setIconName payload)
  | 2 => some (.setTitle payload)
  | 10 => some (.setColour .foreground payload)
  | 39 => some (.setColour .foreground payload)
  | 11 => some (.setColour .background payload)
  | 49 => some (.setColour .background payload)
  | 20 => some (.extension 20 payload)
  | 46 => some (.extension 46 payload)
  | 50 => some (.extension 50 payload)
  | _ => none

/-- The action of a complete string. -/
def decode? (bytes : List UInt8) : Option Action :=
  match bytes.dropWhile (· != 0x3B) with
  | [] => none
  | _ :: payload => do
    let code ← Numeral.read? 65535 ((bytes.takeWhile (· != 0x3B)).map Char.ofUInt8)
    ofCode? code (String.ofList (Utf8.lossy payload))

/-- The string never exceeds its limit. -/
theorem length_push_le {bytes : List UInt8} (byte : UInt8) (h : bytes.length ≤ maxBytes) :
    (push bytes byte).length ≤ maxBytes := by
  unfold push
  split
  · rw [List.length_append]
    have : (clean? byte).toList.length ≤ 1 := by cases clean? byte <;> simp
    omega
  · exact h

end Command

end VideoTerminal
