import VideoTerminal.Rendition.Basic
/-!
# Selecting a rendition

A child program selects attributes and colours with a list of numbers.
Each number is a code of its own, but the two codes for an extended colour
take the numbers behind them as arguments: `5` and an index of the palette,
or `2` and three amounts. Unknown codes do nothing.
-/

namespace VideoTerminal

namespace Rendition

/-- An amount or index as it is stored; what is too large counts as the
largest. -/
def amount (n : Nat) : UInt8 :=
  UInt8.ofNat (min n 255)

/-- Read the arguments of an extended colour: the colour, if they are
complete, and the codes that follow them. Arguments that break off take
all that is left; what is no argument is not taken. -/
def extendedColour : List Nat → Option Colour × List Nat
  | 5 :: index :: rest => (some (.indexed (amount index)), rest)
  | 2 :: red :: green :: blue :: rest =>
    (some (.rgb (amount red) (amount green) (amount blue)), rest)
  | [5] => (none, [])
  | 2 :: _ => (none, [])
  | rest => (none, rest)

/-- Reading arguments never adds codes. -/
theorem extendedColour_length_le (codes : List Nat) :
    (extendedColour codes).2.length ≤ codes.length := by
  unfold extendedColour
  split <;> simp <;> omega

/-- The effect of one code that takes no arguments. -/
def selectOne (r : Rendition) (code : Nat) : Rendition :=
  match code with
  | 0 => {}
  | 1 => { r with flags.bold := true }
  | 2 => { r with flags.dim := true }
  | 4 => { r with flags.underline := true }
  | 5 => { r with flags.blink := true }
  | 7 => { r with flags.reverse := true }
  | 8 => { r with flags.hidden := true }
  | 22 => { r with flags.bold := false, flags.dim := false }
  | 24 => { r with flags.underline := false }
  | 25 => { r with flags.blink := false }
  | 27 => { r with flags.reverse := false }
  | 28 => { r with flags.hidden := false }
  | 39 => { r with foreground := .default }
  | 49 => { r with background := .default }
  | _ =>
    if 30 ≤ code ∧ code ≤ 37 then { r with foreground := .named (amount (code - 30)) }
    else if 40 ≤ code ∧ code ≤ 47 then { r with background := .named (amount (code - 40)) }
    else if 90 ≤ code ∧ code ≤ 97 then
      { r with foreground := .named (amount (code - 90 + 8)) }
    else if 100 ≤ code ∧ code ≤ 107 then
      { r with background := .named (amount (code - 100 + 8)) }
    else r

/-- Select the colour of the glyph or of the ground, by the code for one or
the other. Without a colour nothing is selected. -/
def selectColour (r : Rendition) (code : Nat) : Option Colour → Rendition
  | none => r
  | some colour =>
    if code = 38 then { r with foreground := colour } else { r with background := colour }

/-- Codes from left to right, each extended colour with its arguments. -/
def selectAll (r : Rendition) : List Nat → Rendition
  | [] => r
  | code :: rest =>
    if code = 38 ∨ code = 48 then
      selectAll (r.selectColour code (extendedColour rest).1) (extendedColour rest).2
    else selectAll (r.selectOne code) rest
termination_by codes => codes.length
decreasing_by
  · have := extendedColour_length_le rest
    simp only [List.length_cons]
    omega
  · simp

/-- A whole list of codes. The empty list stands for the code that resets. -/
def select (r : Rendition) (codes : List Nat) : Rendition :=
  if codes.isEmpty then {} else r.selectAll codes

end Rendition

end VideoTerminal
