import VideoTerminal.Selection.Buffer
/-!
# What a click takes

A click takes the glyph it hits, the word around it, or the whole line of
text with all rows it wrapped over. A word is a longest run of glyphs of
one class: delimiters, white space, or all others.
-/

namespace VideoTerminal

/-- First and last position of a piece of the buffer. -/
structure Span where
  first : Position
  last : Position
  deriving DecidableEq, Repr, Inhabited

/-- How much a click takes. -/
inductive Depth where
  | glyph
  | word
  | line
  deriving DecidableEq, Repr, Inhabited

/-- The depth of a number of clicks in the same place: one for a glyph, two
for a word, three for a line, and then from the beginning. -/
def Depth.ofClicks (count : Nat) : Depth :=
  match (count - 1) % 3 with
  | 0 => .glyph
  | 1 => .word
  | _ => .line

/-- The classes that words are made of. -/
inductive GlyphClass where
  | word
  | delimiter
  | blank
  deriving DecidableEq, Repr, Inhabited

/-- The class of a glyph. -/
def GlyphClass.of (delimiters : List Char) (glyph : Char) : GlyphClass :=
  if glyph = ' ' ∨ glyph = '\t' then .blank
  else if delimiters.contains glyph then .delimiter
  else .word

namespace Buffer

/-- The class of the glyph at a position. Where there is no cell, it is that
of a blank. -/
def classAt (b : Buffer) (delimiters : List Char) (p : Position) : GlyphClass :=
  GlyphClass.of delimiters (((b.cell? (b.lead p)).map (·.glyph)).getD ' ')

/-- Go back from a position as long as the class stays. -/
def wordStart (b : Buffer) (delimiters : List Char) (kind : GlyphClass) (p : Position) :
    Position :=
  match h : b.prev? p with
  | none => p
  | some q =>
    have : b.before (b.lead q) < b.before p :=
      Nat.lt_of_le_of_lt (b.before_lead_le q) (before_lt_of_prev? h)
    if b.classAt delimiters q = kind then b.wordStart delimiters kind (b.lead q) else p
termination_by b.before p

/-- Go on from a position as long as the class stays. -/
def wordEnd (b : Buffer) (delimiters : List Char) (kind : GlyphClass) (p : Position) : Position :=
  match h : b.next? p with
  | none => p
  | some q =>
    have : b.behind (b.glyphEnd q) < b.behind p :=
      Nat.lt_of_le_of_lt (b.behind_glyphEnd_le q) (behind_lt_of_next? h)
    if b.classAt delimiters q = kind then b.wordEnd delimiters kind (b.glyphEnd q) else p
termination_by b.behind p

/-- The first line of the text that a line belongs to. -/
def textStart (b : Buffer) : Nat → Nat
  | 0 => 0
  | line + 1 => if b.continues line then b.textStart line else line + 1

/-- The last line of the text that a line belongs to. -/
def textEnd (b : Buffer) (line : Nat) : Nat :=
  if line + 1 < b.total ∧ b.continues line then b.textEnd (line + 1) else line
termination_by b.total - line

/-- What a click at a glyph takes. -/
def spanOf (b : Buffer) (delimiters : List Char) (depth : Depth) (p : Position) : Span :=
  match depth with
  | .glyph => ⟨p, b.glyphEnd p⟩
  | .word =>
    let kind := b.classAt delimiters p
    ⟨b.wordStart delimiters kind p, b.wordEnd delimiters kind (b.glyphEnd p)⟩
  | .line => ⟨⟨b.textStart p.line, 0⟩, ⟨b.textEnd p.line, b.lastCol⟩⟩

/-- What a click takes. A click outside the buffer hits the nearest cell, and
every click hits a whole glyph. -/
def spanAt (b : Buffer) (delimiters : List Char) (depth : Depth) (p : Position) : Span :=
  if b.isEmpty then ⟨p, p⟩ else b.spanOf delimiters depth (b.lead (b.clamp p))

end Buffer

end VideoTerminal
