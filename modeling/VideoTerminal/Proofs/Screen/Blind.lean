import VideoTerminal.Screen.Motion
import VideoTerminal.Screen.Print
import VideoTerminal.Screen.Save
/-!
# Marks do not matter

Marks on rows are for the display. What an operation does to all the rest of
a screen is the same whatever rows are marked: it is blind to marks.
-/

namespace VideoTerminal

/-- A grid without its marks. -/
def Grid.unmarked (g : Grid) : Grid := { g with dirty := [] }

theorem Grid.unmarked_scrollUp (g : Grid) (top bottom n : Nat) (r : Rendition) :
    (g.unmarked.scrollUp top bottom n r).unmarked = (g.scrollUp top bottom n r).unmarked := by
  unfold scrollUp extent height
  dsimp only [unmarked]
  split <;> rfl

theorem Grid.unmarked_scrollDown (g : Grid) (top bottom n : Nat) (r : Rendition) :
    (g.unmarked.scrollDown top bottom n r).unmarked = (g.scrollDown top bottom n r).unmarked := by
  unfold scrollDown extent height
  dsimp only [unmarked]
  split <;> rfl

namespace Screen

/-- A screen without the marks of its rows. -/
def unmarked (s : Screen) : Screen := { s with grid := s.grid.unmarked }

/-- The operation does not look at marks. -/
def Blind (f : Screen → Screen) : Prop := ∀ s, (f s.unmarked).unmarked = (f s).unmarked

namespace Blind

variable {f g : Screen → Screen}

theorem congr (hf : Blind f) {s s' : Screen} (h : s'.unmarked = s.unmarked) :
    (f s').unmarked = (f s).unmarked := by
  rw [← hf s', h, hf s]

theorem comp (hg : Blind g) (hf : Blind f) : Blind fun s => g (f s) :=
  fun s => hg.congr (hf s)

theorem ite {c : Screen → Prop} [DecidablePred c] (hc : ∀ s, c s.unmarked ↔ c s) (hf : Blind f)
    (hg : Blind g) : Blind fun s => if c s then f s else g s := by
  intro s
  dsimp only
  by_cases h : c s
  · rw [if_pos h, if_pos ((hc s).2 h)]
    exact hf s
  · rw [if_neg h, if_neg (fun h' => h ((hc s).1 h'))]
    exact hg s

theorem skip : Blind fun s => s := fun _ => rfl

/-! ## Motion -/

theorem cancelWrap : Blind Screen.cancelWrap := fun _ => rfl

theorem backspace : Blind Screen.backspace := by
  refine ite (fun _ => Iff.rfl) cancelWrap ?_
  refine ite (fun _ => Iff.rfl) (fun _ => rfl) ?_
  exact ite (fun _ => Iff.rfl) (fun _ => rfl) skip

/-! ## Scrolling -/

theorem shiftUp (top bottom n : Nat) : Blind (·.shiftUp top bottom n) := by
  intro s
  have hgrid := s.grid.unmarked_scrollUp top bottom n s.eraser
  unfold Screen.shiftUp Screen.unmarked
  dsimp only
  exact congrArg (fun grid => ({ s with grid } : Screen)) hgrid

theorem shiftDown (top bottom n : Nat) : Blind (·.shiftDown top bottom n) := by
  intro s
  have hgrid := s.grid.unmarked_scrollDown top bottom n s.eraser
  unfold Screen.shiftDown Screen.unmarked
  dsimp only
  exact congrArg (fun grid => ({ s with grid } : Screen)) hgrid

theorem damaged (top bottom : Nat) : Blind (·.damaged top bottom) := fun _ => rfl

theorem remember (rows : List Row) : Blind (·.remember rows) := fun _ => rfl

theorem scrollUp (count : Nat) : Blind (·.scrollUp count) := by
  refine ite (fun _ => Iff.rfl) skip (ite (fun _ => Iff.rfl) (fun s => ?_) fun s => ?_)
  · exact (damaged _ _).congr ((remember _).congr (shiftUp _ _ _ s))
  · exact (damaged _ _).congr (shiftUp _ _ _ s)

theorem scrollDown (count : Nat) : Blind (·.scrollDown count) := by
  intro s
  exact (damaged _ _).congr (Blind.shiftDown s.region.top s.region.bottom count s)

theorem scrollBy (count : Int) : Blind (·.scrollBy count) := by
  unfold Screen.scrollBy
  split
  · exact skip
  · exact scrollUp _
  · exact scrollDown _

theorem index : Blind Screen.index := by
  have hdown : Blind fun s => if s.cursor.row = s.region.bottom then s.scrollUp 1
      else if s.cursor.row < s.lastRow then s.atRow (s.cursor.row + 1) else s :=
    ite (fun _ => Iff.rfl) (scrollUp 1) (ite (fun _ => Iff.rfl) (fun _ => rfl) skip)
  exact hdown.comp cancelWrap

theorem reverseIndex : Blind Screen.reverseIndex := by
  have hup : Blind fun s => if s.cursor.row = s.region.top then s.scrollDown 1
      else s.atRow (s.cursor.row - 1) :=
    ite (fun _ => Iff.rfl) (scrollDown 1) fun _ => rfl
  exact hup.comp cancelWrap

/-! ## Erasing, inserting and deleting -/

theorem eraseScreen (part : Erasure) : Blind (·.eraseScreen part) := by
  intro s
  cases part <;> rfl

theorem editCells (count : Nat) (edit : Row → Nat → Nat → Rendition → Row) :
    Blind (·.editCells count edit) :=
  ite (fun _ => Iff.rfl) cancelWrap fun _ => rfl

theorem backIndex : Blind Screen.backIndex :=
  ite (fun _ => Iff.rfl) (fun _ => rfl) fun _ => rfl

theorem forwardIndex : Blind Screen.forwardIndex :=
  ite (fun _ => Iff.rfl) (fun _ => rfl) fun _ => rfl

theorem editLines (count : Nat) {shift : Screen → Nat → Nat → Nat → Screen}
    (hshift : ∀ top bottom n, Blind fun s => shift s top bottom n) :
    Blind (·.editLines count shift) := by
  have hcolumn : Blind (·.atColumn 0) := fun _ => rfl
  refine ite (fun _ => Iff.rfl) (ite (fun _ => Iff.rfl) cancelWrap fun s => ?_) skip
  exact (damaged _ _).congr (hcolumn.congr ((hshift _ _ _).congr (cancelWrap s)))

/-! ## Writing and saving -/

theorem wrap : Blind Screen.wrap := by
  have hmark : Blind fun s => s.cancelWrap.modifyLine fun row => row.withEnd .wrapped :=
    fun _ => rfl
  have hcolumn : Blind (·.atColumn 0) := fun _ => rfl
  exact hcolumn.comp (index.comp hmark)

theorem place [Glyph.Widths] (glyph : Char) (width : Nat) (font : Flags) :
    Blind (·.place glyph width font) := by
  have hadvance : Blind (·.advance width) := ite (fun _ => Iff.rfl) (fun _ => rfl) fun _ => rfl
  exact fun s => hadvance.congr rfl

theorem print [Glyph.Widths] (c : Char) : Blind (·.print c) := by
  refine ite (fun _ => Iff.rfl) skip fun s => ?_
  -- the glyph does not depend on marks, and is written to the screen after the wrap
  have hready : Blind fun s => if s.modes.wrapPending = true then s.wrap else s :=
    ite (fun _ => Iff.rfl) wrap skip
  have hwrite : ∀ (glyph : Char) (width : Nat) (font : Flags), Blind fun s =>
      if width = 2 ∧ s.cols ≤ s.cursor.col + 1 then
        if s.modes.autowrap = true ∧ 2 ≤ s.cols then s.wrap.place glyph width font else s
      else s.place glyph width font :=
    fun glyph width font => ite (fun _ => Iff.rfl)
      (ite (fun _ => Iff.rfl) ((place glyph width font).comp wrap) skip) (place glyph width font)
  exact (hwrite _ _ _).comp hready s

end Blind

end Screen

end VideoTerminal
