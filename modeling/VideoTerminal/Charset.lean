import VideoTerminal.Rendition.Basic
/-!
# Character sets

A terminal holds four designated character sets, one of which is invoked.
A glyph is translated through the invoked set when it is written, and the
cell keeps a mark of the set.
-/

namespace VideoTerminal

/-- A set that can be designated. -/
inductive Charset where
  | ascii
  | lineDrawing
  | unitedKingdom
  deriving DecidableEq, Repr, Inhabited

namespace Charset

/-- The set named by the last byte of a designation. Sets the terminal does
not have are taken for ASCII. -/
def ofDesignator (byte : UInt8) : Charset :=
  if byte = 0x30 then .lineDrawing
  else if byte = 0x41 then .unitedKingdom
  else .ascii

/-- The line drawing set: the lower case letters and their neighbours stand
for lines, corners and signs. -/
def lineGlyph : Char → Char
  | '_' => ' '
  | '\x60' => '◆'
  | 'a' => '▒'
  | 'b' => '␉'
  | 'c' => '␌'
  | 'd' => '␍'
  | 'e' => '␊'
  | 'f' => '°'
  | 'g' => '±'
  | 'h' => '␤'
  | 'i' => '␋'
  | 'j' => '┘'
  | 'k' => '┐'
  | 'l' => '┌'
  | 'm' => '└'
  | 'n' => '┼'
  | 'o' => '⎺'
  | 'p' => '⎻'
  | 'q' => '─'
  | 'r' => '⎼'
  | 's' => '⎽'
  | 't' => '├'
  | 'u' => '┤'
  | 'v' => '┴'
  | 'w' => '┬'
  | 'x' => '│'
  | 'y' => '≤'
  | 'z' => '≥'
  | '\x7b' => 'π'
  | '|' => '≠'
  | '\x7d' => '£'
  | '~' => '·'
  | c => c

/-- What a character stands for in the set. The United Kingdom set differs
from ASCII in one place. -/
def translate (set : Charset) (c : Char) : Char :=
  match set with
  | .ascii => c
  | .unitedKingdom => if c = '#' then '£' else c
  | .lineDrawing => lineGlyph c

/-- The mark left on cells that were written in the set. -/
def font : Charset → Flags
  | .ascii => {}
  | .lineDrawing => { lineDrawing := true }
  | .unitedKingdom => { unitedKingdom := true }

end Charset

/-- The place of the set that is invoked at first. -/
def Charsets.first : Fin 4 := 0

/-- The four designated sets and the number of the invoked one. -/
structure Charsets where
  g0 : Charset := .ascii
  g1 : Charset := .ascii
  g2 : Charset := .ascii
  g3 : Charset := .ascii
  invoked : Fin 4 := Charsets.first
  deriving DecidableEq, Repr, Inhabited

namespace Charsets

/-- Put a set into one of the four places. There is no fifth place. -/
def designate (s : Charsets) (slot : Nat) (set : Charset) : Charsets :=
  match slot with
  | 0 => { s with g0 := set }
  | 1 => { s with g1 := set }
  | 2 => { s with g2 := set }
  | 3 => { s with g3 := set }
  | _ => s

/-- Use the set in one of the four places from now on. -/
def invoke (s : Charsets) (slot : Nat) : Charsets :=
  if h : slot < 4 then { s with invoked := ⟨slot, h⟩ } else s

/-- The set in use. -/
def current (s : Charsets) : Charset :=
  match s.invoked with
  | 0 => s.g0
  | 1 => s.g1
  | 2 => s.g2
  | 3 => s.g3

end Charsets

end VideoTerminal
