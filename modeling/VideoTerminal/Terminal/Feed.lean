import VideoTerminal.Terminal.Perform
/-!
# Feeding a terminal

The bytes of a child program are read, and their actions performed in order.
Only the printer can fail; what would follow is dropped then. A printer that
does not take its bytes loses the print pipe.
-/

namespace VideoTerminal

/-- A terminal after an operation, and why the operation broke off. -/
structure Outcome (π : Type) where
  terminal : Terminal π
  fault : Option Fault := none

namespace Outcome

variable {π : Type}

/-- Go on, unless something failed. -/
def andThen (o : Outcome π) (f : Terminal π → Outcome π) : Outcome π :=
  match o.fault with
  | none => f o.terminal
  | some _ => o

/-- Change the terminal, unless something failed. -/
def map (o : Outcome π) (f : Terminal π → Terminal π) : Outcome π :=
  o.andThen fun t => ⟨f t, none⟩

end Outcome

namespace Terminal

variable {π : Type} [Printer π]

/-! ## Printing -/

/-- Hand bytes to the printer. If it does not take them, the print pipe is
closed. Without a printer they are dropped. -/
def print (t : Terminal π) (bytes : List UInt8) : Outcome π :=
  match t.printer with
  | none => ⟨t, none⟩
  | some printer =>
    let (printer, failure) := Printer.write printer bytes
    let t := { t with printer := some printer }
    match failure with
    | none => ⟨t, none⟩
    | some reason => ⟨{ t with reader := t.reader.closePipe }, some (.printer reason)⟩

/-- Have the printer finish. -/
def flush (t : Terminal π) : Outcome π :=
  match t.printer with
  | none => ⟨t, none⟩
  | some printer =>
    let (printer, failure) := Printer.flush printer
    ⟨{ t with printer := some printer }, failure.map .printer⟩

/-- Print the text of the screen, and tell the host. -/
def printScreen (t : Terminal π) : Outcome π :=
  let text := String.ofList t.screenText
  (((t.print text.toUTF8.toList).andThen (·.print [0x0A])).andThen flush).map
    (·.tell (.printScreen text))

/-! ## Actions -/

/-- The effect of an action. -/
def act [Glyph.Widths] (t : Terminal π) (action : Action) : Outcome π :=
  match action with
  | .printScreen => t.printScreen
  | .printData bytes => t.print bytes
  | .closePipe => t.flush
  | action => ⟨t.perform action, none⟩

/-- The effect of an action, with the selection kept to what was selected. -/
def apply [Glyph.Widths] (t : Terminal π) (action : Action) : Outcome π :=
  (t.act action).map absorbDamage

/-- The effect of actions, up to one that fails. -/
def applyAll [Glyph.Widths] (t : Terminal π) : List Action → Outcome π
  | [] => ⟨t, none⟩
  | action :: rest => (t.apply action).andThen (·.applyAll rest)

/-! ## Bytes -/

/-- Bring the view back to the screen if output does that, and in any case
into the history. -/
def settle (t : Terminal π) (sent : Bool) : Terminal π :=
  let t := if sent && t.modes.scrollOnOutput then t.snapView else t
  { t with viewOffset := min t.viewOffset t.screen.history.length }

/-- Take bytes of the child program. -/
def feed [Glyph.Widths] (t : Terminal π) (bytes : List UInt8) : Outcome π :=
  let (reader, actions) := t.reader.feed bytes
  ({ t with reader }.applyAll actions).map (·.settle !bytes.isEmpty)

end Terminal

end VideoTerminal
