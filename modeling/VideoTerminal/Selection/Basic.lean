import VideoTerminal.Screen.Basic
import VideoTerminal.Selection.Span
/-!
# Selections

A selection starts with what a click takes, and dragging extends it to cover
what a click would take at the pointer as well. Its text is that of its
rows, each as far as its text goes, with a line break behind every row that
does not go on in the next.
-/

namespace VideoTerminal

/-- A selected piece of the buffer. -/
structure Selection where
  /-- From here. -/
  anchor : Position
  /-- Up to here. -/
  extent : Position
  /-- What the first click took. -/
  origin : Span
  depth : Depth
  /-- The screen it was made on. -/
  screen : ScreenKind
  /-- The pointer was dragged. -/
  extended : Bool := false
  deriving DecidableEq, Repr, Inhabited

namespace Selection

/-- The selection that a click starts. -/
def start (b : Buffer) (delimiters : List Char) (p : Position) (depth : Depth)
    (screen : ScreenKind) : Selection :=
  let span := b.spanAt delimiters depth p
  { anchor := span.first, extent := span.last, origin := span, depth, screen }

/-- The selection that dragging to a position leaves. -/
def extendTo (s : Selection) (b : Buffer) (delimiters : List Char) (p : Position) : Selection :=
  let span := b.spanAt delimiters s.depth p
  { s with
    anchor := min s.origin.first span.first
    extent := max s.origin.last span.last
    extended := true }

/-- A click on a glyph selects nothing unless the pointer is dragged. -/
def isEmpty (s : Selection) : Bool := s.depth == .glyph && !s.extended

/-- Some line from `first` to `last` is selected in part. -/
def touches (s : Selection) (first last : Nat) : Bool :=
  s.anchor.line ≤ last && first ≤ s.extent.line

/-- The selection after lines were dropped at the start of the buffer, if
none of it was among them. -/
def shiftUp? (s : Selection) (count : Nat) : Option Selection :=
  if s.anchor.line < count then none
  else some { s with
    anchor := s.anchor.up count
    extent := s.extent.up count
    origin := ⟨s.origin.first.up count, s.origin.last.up count⟩ }

/-! ## Text -/

/-- The selected part of the text of a row. -/
def rowText (s : Selection) (row : Row) (line : Nat) : List Char :=
  let start := if line = s.anchor.line then s.anchor.col else 0
  let stop := if line = s.extent.line then s.extent.col + 1 else row.cols
  let cells := (row.cells.take (min stop row.textLength)).drop start
  (cells.filter (!·.isTrail)).map (·.glyph)

/-- The selected text of a line, with the break behind it. -/
def lineText (s : Selection) (b : Buffer) (last line : Nat) : List Char :=
  match b.lines[line]? with
  | none => []
  | some row => s.rowText row line ++ if line ≠ last ∧ !row.isWrapped then ['\n'] else []

/-- The selected text. -/
def text (s : Selection) (b : Buffer) : List Char :=
  if b.isEmpty then []
  else
    let last := min s.extent.line (b.total - 1)
    (List.range' s.anchor.line (last + 1 - s.anchor.line)).flatMap (s.lineText b last)

end Selection

end VideoTerminal
