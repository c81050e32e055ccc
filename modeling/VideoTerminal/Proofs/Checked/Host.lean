import VideoTerminal.Proofs.Checked.Feed
import VideoTerminal.Proofs.Checked.Resize
/-!
# A host on a machine

Whatever a host does with a reachable terminal, no number leaves its range and
nothing is looked for where it is not, as long as the size fits into 16 bits and
the history is short (`checked_of_reach`). Calls of the host that are not here
count nothing and look for nothing.
-/

namespace VideoTerminal

namespace Terminal

open Checked

variable {π : Type}

/-! ## What a machine does -/

/-- The line of the buffer that the view starts with. -/
def viewTopChecked (t : Terminal π) : Option Nat :=
  sub t.screen.history.length (min t.viewOffset t.screen.history.length)

/-- The row that is seen at a place of the view. Below the history it is a row
of the screen. -/
def visibleRowChecked (t : Terminal π) (i : Nat) : Option (Option Row) := do
  let line := (← t.viewTopChecked) + i
  if t.screen.height ≤ i then pure none
  else if line < t.screen.history.length then pure t.screen.history.lines[line]?
  else pure t.screen.grid.rows[← to16 (← sub line t.screen.history.length)]?

/-- The selected text. -/
def selectedTextChecked (t : Terminal π) : Option (Option (List Char)) := do
  match t.selector.current with
  | none => pure none
  | some selection =>
    t.selector.textChecked (t.bufferOf selection.screen)
      (t.screenOf selection.screen).history.length

/-- Count a press of the pointer. -/
def countClickChecked (t : Terminal π) (press : Press) : Option (Terminal π) := do
  let count ← if t.clicks.repeats press then add32 (t.clicks.count % 3) 1 else pure 1
  pure { t with clicks := { t.clicks with last := some press, count } }

/-- The report of a button in a cell. -/
def buttonReportChecked (code col row : Nat) : Option (List UInt8) := do
  pure [0x1B, 0x5B, 0x4D, UInt8.ofNat (← add8 32 code), reportByte col, reportByte row]

/-- The left button selects, and both the left and the right one extend. -/
def selectAtChecked (t : Terminal π) (p : Pointer) (place : Position) : Option (Terminal π) := do
  let buffer := t.bufferOf t.active
  let above := t.screen.history.length
  match p.button, p.gesture with
  | .left, .press clicks =>
    pure { t with
      selector := ← t.selector.clickChecked buffer above place (max clicks 1) t.active }
  | .left, .drag => pure { t with selector := ← t.selector.extendChecked buffer above place }
  | .right, .press _ => pure { t with selector := ← t.selector.extendChecked buffer above place }
  | .right, .drag => pure { t with selector := ← t.selector.extendChecked buffer above place }
  | _, _ => pure t

/-- Take a gesture of the pointer. -/
def pointChecked (t : Terminal π) (p : Pointer) : Option (Terminal π) := do
  let col := min p.col t.screen.lastCol
  let row := min p.row t.screen.lastRow
  if t.modes.pressReports || t.modes.buttonReports then
    match gestureCode? t.modes p with
    | some code => pure (t.send (← buttonReportChecked code col row))
    | none => pure t
  else
    let top ← to32 (← t.viewTopChecked)
    t.selectAtChecked p ⟨← add32 top row, col⟩

/-- The terminal at another size. -/
def resizeChecked (t : Terminal π) (rows cols : Nat) : Option (Except Fault (Terminal π)) := do
  match Config.sizeFault? rows cols with
  | some fault => pure (.error fault)
  | none =>
    let alternate ← t.alternate.resizeChecked rows cols
    let primary ← t.primary.resizeChecked rows cols
    pure (.ok { t with
      primary := primary.dropDamage
      alternate := alternate.dropDamage
      tabs := TabStops.fresh cols
      selector := t.selector.clear
      clicks := t.clicks.reset
      viewOffset := 0 })

/-! ## Nothing of it fails -/

variable {rows cols : Nat} {t : Terminal π}

theorem viewTopChecked_eq (t : Terminal π) : t.viewTopChecked = some t.viewTop :=
  sub_eq (Nat.min_le_right _ _)

theorem visibleRowChecked_eq (h : t.InOrder rows cols) (hrows : rows < 65536) (i : Nat) :
    t.visibleRowChecked i = some (t.visibleRow? i) := by
  have hheight := h.sound.screen.height_eq
  have htop : t.viewTop ≤ t.screen.history.length := Nat.sub_le _ _
  unfold visibleRowChecked visibleRow?
  rw [viewTopChecked_eq, Option.bind_eq_bind, Option.bind_some]
  dsimp only
  by_cases hin : i < t.screen.height
  · have hlines : (t.bufferOf t.active).lines = t.screen.history.lines ++ t.screen.grid.rows := rfl
    rw [if_neg (Nat.not_le.2 hin), if_pos hin, hlines]
    by_cases habove : t.viewTop + i < t.screen.history.length
    · rw [if_pos habove, List.getElem?_append_left habove]
      rfl
    · have hbelow : t.screen.history.length ≤ t.viewTop + i := Nat.le_of_not_lt habove
      rw [if_neg habove, sub_eq hbelow, List.getElem?_append_right hbelow, Option.bind_some,
        to16_eq (by omega)]
      rfl
  · rw [if_pos (Nat.le_of_not_lt hin), if_neg hin]
    rfl

/-- Lines and columns can be counted. -/
theorem counted_bufferOf (h : t.InOrder rows cols) (hrows : rows < 65536) (hcols : cols < 65536)
    (hshort : t.Short) (kind : ScreenKind) :
    (t.bufferOf kind).Counted (t.screenOf kind).history.length := by
  have hs := h.sound.screenOf kind
  have hlength := h.length_lt hshort kind
  have htotal : (t.bufferOf kind).total = (t.screenOf kind).history.length + rows := by
    rw [← hs.height]
    exact List.length_append
  have hwidth : (t.bufferOf kind).cols = cols := hs.width
  exact ⟨by omega, by omega, by omega, by omega⟩

theorem selectedTextChecked_eq (h : t.InOrder rows cols) (hrows : rows < 65536)
    (hcols : cols < 65536) (hshort : t.Short) :
    t.selectedTextChecked = some t.selectedText? := by
  unfold selectedTextChecked selectedText?
  cases hsel : t.selector.current with
  | none => rfl
  | some selection =>
    exact Selector.textChecked_eq (counted_bufferOf h hrows hcols hshort selection.screen) _

theorem countClickChecked_eq (t : Terminal π) (press : Press) :
    t.countClickChecked press = some (t.countClick press) := by
  have hmod := Nat.mod_lt t.clicks.count (show 0 < 3 by decide)
  unfold countClickChecked countClick ClickTracker.press
  split
  · rw [add32_eq (by omega)]
    rfl
  · rfl

theorem buttonReportChecked_eq {modes : TerminalModes} {p : Pointer} {code : Nat}
    (hcode : gestureCode? modes p = some code) (col row : Nat) :
    buttonReportChecked code col row = some (buttonReport code col row) := by
  have hle : code ≤ 3 := by
    unfold gestureCode? buttonCode at hcode
    split at hcode
    · split at hcode <;> cases hcode <;> decide
    · split at hcode <;> cases hcode
      decide
    · cases hcode
  unfold buttonReportChecked
  rw [add8_eq (by omega)]
  rfl

theorem selectAtChecked_eq (h : t.InOrder rows cols) (hrows : rows < 65536)
    (hcols : cols < 65536) (hshort : t.Short) (p : Pointer) (place : Position) :
    t.selectAtChecked p place = some (t.selectAt p place) := by
  have hcounted := counted_bufferOf h hrows hcols hshort t.active
  have hextend : t.selector.extendChecked (t.bufferOf t.active) t.screen.history.length place =
      some (t.selector.extend (t.bufferOf t.active) place) :=
    Selector.extendChecked_eq hcounted _ _
  have hclick : ∀ clicks, t.selector.clickChecked (t.bufferOf t.active) t.screen.history.length
      place clicks t.active = some (t.selector.click (t.bufferOf t.active) place clicks t.active) :=
    fun clicks => Selector.clickChecked_eq hcounted _ _ _ _
  obtain ⟨button, gesture, col, row⟩ := p
  unfold selectAtChecked selectAt
  cases button with
  | left =>
    cases gesture with
    | press clicks =>
      dsimp only
      rw [hclick]
      rfl
    | drag =>
      dsimp only
      rw [hextend]
      rfl
    | release => rfl
  | middle => cases gesture <;> rfl
  | right =>
    cases gesture with
    | press | drag =>
      dsimp only
      rw [hextend]
      rfl
    | release => rfl

theorem pointChecked_eq (h : t.InOrder rows cols) (hrows : rows < 65536) (hcols : cols < 65536)
    (hshort : t.Short) (p : Pointer) : t.pointChecked p = some (t.point p) := by
  have hlength : t.screen.history.length < 2147483648 := h.length_lt hshort t.active
  have htop : t.viewTop ≤ t.screen.history.length := Nat.sub_le _ _
  have hlast := h.sound.screen.lastRow_lt
  unfold pointChecked point
  dsimp only
  split
  · cases hcode : gestureCode? t.modes p with
    | none => rfl
    | some code =>
      dsimp only
      rw [buttonReportChecked_eq hcode]
      rfl
  · rw [viewTopChecked_eq, Option.bind_eq_bind, Option.bind_some, to32_eq (by omega),
      Option.bind_some, add32_eq (by omega)]
    exact selectAtChecked_eq h hrows hcols hshort p _

theorem resizeChecked_eq (h : t.InOrder rows cols) {height : Nat} (hheight : height < 65536)
    (width : Nat) : t.resizeChecked height width = some (t.resize height width) := by
  unfold resizeChecked resize
  cases Config.sizeFault? height width with
  | some fault => rfl
  | none =>
    dsimp only
    rw [Screen.resizeChecked_eq h.sound.alternate hheight, Option.bind_eq_bind, Option.bind_some,
      Screen.resizeChecked_eq h.sound.primary hheight]
    rfl

/-- **No number of a reachable terminal leaves its range**, and nothing is
looked for where it is not. Rows, columns and parameters are counted with 16
bits, lines with 32 bits; differences are not negative, rows and cells are in
their grid, and pieces of a row or a grid begin before they end, within it. So
every byte is taken as the terminal takes it, and so are bytes as long as the
history is short before each of their actions, a resize to a size of 16 bits,
every gesture and press of the pointer and a reset; every row of the view is
found, and so is the selected text. -/
theorem checked_of_reach [Glyph.Widths] [Printer π] (h : Reach rows cols t) (hrows : rows ≤ 65535)
    (hcols : cols ≤ 65535) (hshort : t.primary.history.length < 2147483648) :
    (∀ byte, t.feedChecked [byte] = some (t.feed [byte])) ∧
      (∀ bytes, (∀ before action after, (t.reader.feed bytes).2 = before ++ action :: after →
          (({ t with reader := (t.reader.feed bytes).1 } : Terminal π).applyAll
            before).terminal.primary.history.length < 2147483648) →
        t.feedChecked bytes = some (t.feed bytes)) ∧
      (∀ height width, height ≤ 65535 → width ≤ 65535 →
        t.resizeChecked height width = some (t.resize height width)) ∧
      (∀ p, t.pointChecked p = some (t.point p)) ∧
      (∀ press, t.countClickChecked press = some (t.countClick press)) ∧
      t.fullResetChecked = some t.fullReset ∧
      (∀ i, t.visibleRowChecked i = some (t.visibleRow? i)) ∧
      t.selectedTextChecked = some t.selectedText? := by
  have hin := h.inOrder
  have hrows' : rows < 65536 := Nat.lt_succ_of_le hrows
  have hcols' : cols < 65536 := Nat.lt_succ_of_le hcols
  refine ⟨fun byte => ?_, fun bytes hbefore => feedChecked_eq hin h.reads hrows' hcols' hbefore,
    fun height width hheight _ => resizeChecked_eq hin (Nat.lt_succ_of_le hheight) width,
    pointChecked_eq hin hrows' hcols' hshort, countClickChecked_eq t,
    fullResetChecked_eq hin.sound, visibleRowChecked_eq hin hrows',
    selectedTextChecked_eq hin hrows' hcols' hshort⟩
  -- before the one action of a byte nothing was done yet
  refine feedChecked_eq hin h.reads hrows' hcols' fun before action after hactions => ?_
  have hone : (before ++ action :: after).length ≤ 1 := by
    rw [← hactions, Reader.feed_singleton]
    cases (t.reader.step byte).2 with
    | none => exact Nat.zero_le 1
    | some action => exact Nat.le_refl 1
  obtain rfl : before = [] := by
    refine List.eq_nil_of_length_eq_zero ?_
    rw [List.length_append, List.length_cons] at hone
    omega
  exact hshort

attribute [local instance] Glyph.unicode

/-- At the largest size there is, a double click beyond the last cell. -/
theorem checked_of_reach_largest :
    Reach 65535 65535 (plain 65535 65535) ∧
      (plain 65535 65535).primary.history.length < 2147483648 ∧
      (plain 65535 65535).pointChecked ⟨.left, .press 2, 65535, 65535⟩ =
        some ((plain 65535 65535).point ⟨.left, .press 2, 65535, 65535⟩) := by
  have hreach := reach_plain 65535 65535 (by decide) (by decide)
  have hshort : (plain 65535 65535).primary.history.length < 2147483648 := by decide
  exact ⟨hreach, hshort,
    (checked_of_reach hreach (by decide) (by decide) hshort).2.2.2.1 _⟩

end Terminal

end VideoTerminal
