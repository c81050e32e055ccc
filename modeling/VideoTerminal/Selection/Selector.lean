import VideoTerminal.Selection.Basic
/-!
# The selector

At most one piece of the buffer is selected. Presses and drags of the
pointer change it; output that changes its text, or drops it out of the
history, ends it.
-/

namespace VideoTerminal

/-- The selection, and what ends a word. -/
structure Selector where
  delimiters : List Char
  current : Option Selection := none
  deriving DecidableEq, Repr, Inhabited

namespace Selector

/-- The delimiters that are used when none are chosen. -/
def defaultDelimiters : String := "\x22&\x27()*,;<=>?@[\\]^\x60\x7b|\x7d~"

/-- A press starts a new selection. -/
def click (s : Selector) (b : Buffer) (p : Position) (clicks : Nat) (screen : ScreenKind) :
    Selector :=
  { s with current := some (Selection.start b s.delimiters p (Depth.ofClicks clicks) screen) }

/-- A drag extends the selection, if there is one. -/
def extend (s : Selector) (b : Buffer) (p : Position) : Selector :=
  { s with current := s.current.map (·.extendTo b s.delimiters p) }

/-- Select nothing. -/
def clear (s : Selector) : Selector := { s with current := none }

/-- Lines were dropped at the start of the buffer. More than there can be
count as so many. -/
def evicted (s : Selector) (count : Nat) : Selector :=
  if count = 0 then s
  else { s with current := s.current.bind (·.shiftUp? (min count Position.maxLine)) }

/-- The text of lines of a screen changed. A selection that touches them
there ends. -/
def changed (s : Selector) (screen : ScreenKind) (first last : Nat) : Selector :=
  { s with
    current := s.current.filter fun sel => !(sel.screen == screen && sel.touches first last) }

/-- A selection made on a screen ends. -/
def leave (s : Selector) (screen : ScreenKind) : Selector :=
  { s with current := s.current.filter fun sel => sel.screen != screen }

/-- The selected text, if anything is selected. -/
def text? (s : Selector) (b : Buffer) : Option (List Char) :=
  (s.current.filter (!·.isEmpty)).map (·.text b)

end Selector

end VideoTerminal
