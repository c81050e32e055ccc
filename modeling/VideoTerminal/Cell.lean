import VideoTerminal.Rendition.Basic
/-!
# Cells

A cell is a glyph with its rendition. A glyph two columns wide takes two
cells, its lead and its trail; the trail holds a blank and is skipped
wherever text is read off.
-/

namespace VideoTerminal

/-- One place of the display. -/
structure Cell where
  glyph : Char := ' '
  rendition : Rendition := {}
  deriving DecidableEq, Repr, Inhabited

namespace Cell

/-- A glyph one column wide. -/
def ofGlyph (c : Char) (r : Rendition) : Cell :=
  ⟨c, r.withoutGeometry⟩

/-- A blank in the given rendition. -/
def blank (r : Rendition) : Cell :=
  ofGlyph ' ' r

/-- The left half of a glyph two columns wide. -/
def leadOf (c : Char) (r : Rendition) : Cell :=
  ⟨c, { r with flags := { r.flags.withoutGeometry with lead := true } }⟩

/-- The right half of a glyph two columns wide. -/
def trailOf (r : Rendition) : Cell :=
  ⟨' ', { r with flags := { r.flags.withoutGeometry with trail := true } }⟩

/-- The cell is the left half of a wide glyph. -/
def isLead (c : Cell) : Bool := c.rendition.flags.lead

/-- The cell is the right half of a wide glyph. -/
def isTrail (c : Cell) : Bool := c.rendition.flags.trail

/-- Columns covered by the glyph that starts here: none for a trail. -/
def width (c : Cell) : Nat :=
  if c.isLead then 2 else if c.isTrail then 0 else 1

/-- Another glyph in the same rendition. Whatever the cell was half of, it
is a glyph of its own now. -/
def withGlyph (c : Cell) (glyph : Char) : Cell :=
  ofGlyph glyph c.rendition

@[simp] theorem isLead_ofGlyph (c : Char) (r : Rendition) : (ofGlyph c r).isLead = false := rfl

@[simp] theorem isTrail_ofGlyph (c : Char) (r : Rendition) : (ofGlyph c r).isTrail = false := rfl

@[simp] theorem isLead_blank (r : Rendition) : (blank r).isLead = false := rfl

@[simp] theorem isTrail_blank (r : Rendition) : (blank r).isTrail = false := rfl

@[simp] theorem glyph_blank (r : Rendition) : (blank r).glyph = ' ' := rfl

@[simp] theorem isLead_leadOf (c : Char) (r : Rendition) : (leadOf c r).isLead = true := rfl

@[simp] theorem isTrail_leadOf (c : Char) (r : Rendition) : (leadOf c r).isTrail = false := rfl

@[simp] theorem isTrail_trailOf (r : Rendition) : (trailOf r).isTrail = true := rfl

@[simp] theorem isLead_trailOf (r : Rendition) : (trailOf r).isLead = false := rfl

end Cell

end VideoTerminal
