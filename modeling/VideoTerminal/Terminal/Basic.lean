import VideoTerminal.Config
import VideoTerminal.Control.Reader
import VideoTerminal.Screen.Print
import VideoTerminal.Selection.Clicks
import VideoTerminal.TabStops
import VideoTerminal.Terminal.Modes
/-!
# Terminals

A terminal is two screens, of which one is shown, with a reader for what the
child program sends, a selection, and all that both screens share. What it
has to say goes into two queues: bytes for the child program, and events for
the host.
-/

namespace VideoTerminal

/-- What the host is told. -/
inductive Event where
  | bell
  | titleChanged (text : String)
  | iconNameChanged (text : String)
  | colourChanged (which : DefaultColour) (value : String)
  /-- The child program asks for something that only the host can grant. -/
  | extension (code : Nat) (payload : String)
  /-- The text of the screen was printed. -/
  | printScreen (text : String)
  | screenChanged (kind : ScreenKind)
  deriving DecidableEq, Repr, Inhabited

/-- A terminal with a printer of type `π`, if it has one. -/
structure Terminal (π : Type) where
  config : Config
  primary : Screen
  alternate : Screen
  /-- The screen that is shown. -/
  active : ScreenKind := .primary
  reader : Reader := .ground
  selector : Selector
  clicks : ClickTracker
  tabs : TabStops
  modes : TerminalModes := {}
  /-- The private modes that were saved, the newest first. -/
  savedModes : List (PrivateMode × Bool) := []
  title : String := ""
  iconName : String := ""
  /-- Bytes for the child program. -/
  output : List UInt8 := []
  /-- Events for the host. -/
  events : List Event := []
  /-- Number of rows that the view is scrolled back into the history. -/
  viewOffset : Nat := 0
  printer : Option π := none
  deriving Inhabited

namespace Terminal

variable {π : Type}

/-- A terminal as the host configures it. -/
def create (config : Config) : Except Fault (Terminal π) :=
  match config.fault? with
  | some fault => .error fault
  | none =>
    .ok {
      config
      primary := Screen.blank .primary config.rows config.cols config.capacity config.autowrap
      alternate := Screen.blank .alternate config.rows config.cols 0 config.autowrap
      selector := { delimiters := config.delimiters.toList }
      clicks := { interval := config.clickInterval }
      tabs := TabStops.fresh config.cols }

/-! ## The screens -/

/-- One of the screens. -/
def screenOf (t : Terminal π) : ScreenKind → Screen
  | .primary => t.primary
  | .alternate => t.alternate

/-- The screen that is shown. -/
def screen (t : Terminal π) : Screen := t.screenOf t.active

/-- Change one of the screens. -/
def modifyOf (t : Terminal π) (kind : ScreenKind) (f : Screen → Screen) : Terminal π :=
  match kind with
  | .primary => { t with primary := f t.primary }
  | .alternate => { t with alternate := f t.alternate }

/-- Change the screen that is shown. -/
def modifyScreen (t : Terminal π) (f : Screen → Screen) : Terminal π := t.modifyOf t.active f

/-- Mark all rows of the screen that is shown. -/
def markAll (t : Terminal π) : Terminal π :=
  t.modifyScreen fun s => { s with grid := s.grid.markAll }

/-- The buffer of one of the screens. -/
def bufferOf (t : Terminal π) (kind : ScreenKind) : Buffer :=
  Buffer.of (t.screenOf kind).history (t.screenOf kind).grid

/-! ## The queues -/

/-- Send bytes to the child program. -/
def send (t : Terminal π) (bytes : List UInt8) : Terminal π :=
  { t with output := t.output ++ bytes }

/-- Tell the host. -/
def tell (t : Terminal π) (event : Event) : Terminal π :=
  { t with events := t.events ++ [event] }

/-- Both queues were carried away. -/
def drained (t : Terminal π) : Terminal π := { t with output := [], events := [] }

end Terminal

end VideoTerminal
