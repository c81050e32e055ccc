import VideoTerminal.Row.Edit
import VideoTerminal.Rendition.Select
import VideoTerminal.Charset
import VideoTerminal.TabStops
import VideoTerminal.Grid
import VideoTerminal.History
import VideoTerminal.Control.Reader
import VideoTerminal.Control.Registers
import VideoTerminal.Text.Blank
import VideoTerminal.Screen.Motion
import VideoTerminal.Screen.Print
import VideoTerminal.Screen.Save
import VideoTerminal.Screen.Resize
import VideoTerminal.Selection.Selector
import VideoTerminal.Selection.Clicks
import VideoTerminal.Terminal.Feed
import VideoTerminal.Terminal.Host
import VideoTerminal.Proofs.Grid.Change
import VideoTerminal.Proofs.Row.Law
import VideoTerminal.Proofs.Row.Pieces
import VideoTerminal.Proofs.Row.Tiled
import VideoTerminal.Proofs.Row.Origin
import VideoTerminal.Proofs.Row.Covered
import VideoTerminal.Proofs.Row.Resized
import VideoTerminal.Proofs.Row.Undone
import VideoTerminal.Proofs.Screen.Sound
import VideoTerminal.Proofs.Screen.Change
import VideoTerminal.Proofs.Terminal.Reach
import VideoTerminal.Proofs.Screen.Blind
import VideoTerminal.Proofs.Screen.Bare
import VideoTerminal.Proofs.Screen.Report
import VideoTerminal.Proofs.Screen.Resize
import VideoTerminal.Proofs.Screen.RoundTrip
import VideoTerminal.Proofs.Selection.Span
import VideoTerminal.Proofs.Selection.Text
import VideoTerminal.Proofs.Terminal.Blind
import VideoTerminal.Proofs.Terminal.Change
import VideoTerminal.Proofs.Terminal.Marks
import VideoTerminal.Proofs.Terminal.Selected
import VideoTerminal.Proofs.Terminal.Split
import VideoTerminal.Proofs.Terminal.Whole
import VideoTerminal.Proofs.Terminal.Resize
import VideoTerminal.Proofs.Control.Text
import VideoTerminal.Proofs.Control.Sequence
import VideoTerminal.Proofs.Control.Registers
import VideoTerminal.Proofs.Control.Decoding
import VideoTerminal.Proofs.Control.Lossy
import VideoTerminal.Proofs.Control.Command
import VideoTerminal.Proofs.Selection.Whole
import VideoTerminal.Proofs.Terminal.Widen
import VideoTerminal.Proofs.Row.Typed
import VideoTerminal.Proofs.Screen.Typed
import VideoTerminal.Proofs.Terminal.Scroll
import VideoTerminal.Proofs.Terminal.Reported
import VideoTerminal.Proofs.Terminal.Typed
import VideoTerminal.Proofs.Terminal.Copied
import VideoTerminal.Proofs.Terminal.Alternate
import VideoTerminal.Proofs.Terminal.Course
import VideoTerminal.Proofs.Terminal.Configured
import VideoTerminal.Proofs.Terminal.Reset
import VideoTerminal.Proofs.Screen.Region
import VideoTerminal.Proofs.Screen.Lines
import VideoTerminal.Proofs.Screen.Redone
import VideoTerminal.Proofs.Screen.Unplaced
import VideoTerminal.Proofs.Rendition.Composed
import VideoTerminal.Proofs.Selection.Order
import VideoTerminal.Proofs.Selection.Seen
import VideoTerminal.Proofs.Selection.Words
import VideoTerminal.Proofs.Selection.Hull
import VideoTerminal.Proofs.Terminal.Lasting
import VideoTerminal.Proofs.Terminal.Consistent
import VideoTerminal.Proofs.Control.Pipe
import VideoTerminal.Proofs.Terminal.Requests
import VideoTerminal.Proofs.Terminal.Piped
import VideoTerminal.Proofs.Terminal.Seen
import VideoTerminal.Proofs.Terminal.Leftover
import VideoTerminal.Proofs.Terminal.Untouched
import VideoTerminal.Proofs.Terminal.Restored
import VideoTerminal.Proofs.Control.Plain
import VideoTerminal.Proofs.Control.Small
import VideoTerminal.Proofs.Terminal.Noted
import VideoTerminal.Proofs.Terminal.Growth
import VideoTerminal.Proofs.Terminal.Saved
import VideoTerminal.Proofs.Terminal.Styled
import VideoTerminal.Proofs.Checked.Row
import VideoTerminal.Proofs.Checked.Grid
import VideoTerminal.Proofs.Checked.TabStops
import VideoTerminal.Proofs.TabStops.Counted
import VideoTerminal.Proofs.Checked.Screen
import VideoTerminal.Proofs.Checked.Resize
import VideoTerminal.Proofs.Checked.Selection
import VideoTerminal.Proofs.Checked.Reader
import VideoTerminal.Proofs.Control.Tidy
import VideoTerminal.Proofs.Checked.Action
import VideoTerminal.Proofs.Checked.Feed
import VideoTerminal.Proofs.Checked.Host
