import VideoTerminal.Screen.Edit
/-!
# Saving and resetting

The cursor is saved with its rendition, its character sets and two of the
modes. Coming back without having saved goes home.
-/

namespace VideoTerminal

namespace Screen

/-- Save the cursor. -/
def saveCursor (s : Screen) : Screen :=
  { s with saved := some {
      cursor := s.cursor, rendition := s.rendition, charsets := s.charsets
      autowrap := s.modes.autowrap, origin := s.modes.origin } }

/-- Come back to what was saved, moved into the screen where the screen is
smaller by now. -/
def restoreCursor (s : Screen) : Screen :=
  let saved := s.saved.getD { autowrap := s.wrapsByDefault }
  { s with
    cursor := ⟨min saved.cursor.row s.lastRow, min saved.cursor.col s.lastCol⟩
    rendition := saved.rendition
    charsets := saved.charsets
    modes.autowrap := saved.autowrap
    modes.origin := saved.origin
    modes.wrapPending := false }

/-- Fill the screen with a letter, to align a display by. -/
def align (s : Screen) : Screen :=
  { s with
    grid := s.grid.fill 'E' {}
    cursor := {}
    region := s.fullRegion
    modes.origin := false
    modes.wrapPending := false }.damaged 0 s.lastRow

/-- The state after switching on. The history stays. -/
def reset (s : Screen) : Screen :=
  { s.resetRows 0 s.height {} with
    cursor := {}
    region := s.fullRegion
    modes := { autowrap := s.wrapsByDefault }
    rendition := {}
    charsets := {}
    saved := none }.damaged 0 s.lastRow

end Screen

end VideoTerminal
