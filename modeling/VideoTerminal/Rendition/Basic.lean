/-!
# Renditions

How a cell is drawn: a set of flags and two colours. Most flags are
attributes that a child program selects; two record the font a glyph was
written in, and two mark the halves of a glyph that fills two columns.
-/

namespace VideoTerminal

/-- A colour of glyph or ground. -/
inductive Colour where
  /-- The colour the display uses when none is selected. -/
  | default
  /-- One of the sixteen named colours, the bright ones last. -/
  | named (index : UInt8)
  /-- An entry of the palette of 256. -/
  | indexed (index : UInt8)
  /-- A mixture of red, green and blue. -/
  | rgb (red green blue : UInt8)
  deriving DecidableEq, Repr, Inhabited

/-- What is switched on in a rendition. -/
structure Flags where
  bold : Bool := false
  dim : Bool := false
  underline : Bool := false
  blink : Bool := false
  reverse : Bool := false
  hidden : Bool := false
  /-- The glyph was written in the line drawing set. -/
  lineDrawing : Bool := false
  /-- The glyph was written in the United Kingdom set. -/
  unitedKingdom : Bool := false
  /-- The cell is the left half of a glyph two columns wide. -/
  lead : Bool := false
  /-- The cell is the right half of a glyph two columns wide. -/
  trail : Bool := false
  deriving DecidableEq, Repr, Inhabited

namespace Flags

/-- All that is on in one set or the other. -/
def union (a b : Flags) : Flags where
  bold := a.bold || b.bold
  dim := a.dim || b.dim
  underline := a.underline || b.underline
  blink := a.blink || b.blink
  reverse := a.reverse || b.reverse
  hidden := a.hidden || b.hidden
  lineDrawing := a.lineDrawing || b.lineDrawing
  unitedKingdom := a.unitedKingdom || b.unitedKingdom
  lead := a.lead || b.lead
  trail := a.trail || b.trail

/-- The flags without the marks of a wide glyph. -/
def withoutGeometry (f : Flags) : Flags :=
  { f with lead := false, trail := false }

end Flags

/-- Flags, colour of the glyph and colour of the ground. -/
structure Rendition where
  flags : Flags := {}
  foreground : Colour := .default
  background : Colour := .default
  deriving DecidableEq, Repr, Inhabited

namespace Rendition

/-- The rendition that erasing leaves behind: the colours stay, every flag
is off. -/
def blank (r : Rendition) : Rendition :=
  { r with flags := {} }

/-- The rendition without the marks of a wide glyph. -/
def withoutGeometry (r : Rendition) : Rendition :=
  { r with flags := r.flags.withoutGeometry }

/-- The rendition with further flags switched on. -/
def withFlags (r : Rendition) (f : Flags) : Rendition :=
  { r with flags := r.flags.union f }

@[simp] theorem withoutGeometry_withoutGeometry (r : Rendition) :
    r.withoutGeometry.withoutGeometry = r.withoutGeometry := rfl

@[simp] theorem blank_withoutGeometry (r : Rendition) : r.blank.withoutGeometry = r.blank := rfl

@[simp] theorem blank_blank (r : Rendition) : r.blank.blank = r.blank := rfl

end Rendition

end VideoTerminal
