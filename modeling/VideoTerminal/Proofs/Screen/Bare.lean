import VideoTerminal.Proofs.Screen.Blind
/-!
# The past of a screen

What went by leaves a history, marks and reports of damage behind. No
operation but a resize goes by them: what it does to the bare screen, which is
all the rest, is the same whatever went by before. And none changes what a
reset falls back on.
-/

namespace VideoTerminal

namespace Screen

/-- A screen without its past. -/
def bare (s : Screen) : Screen :=
  { s with grid := s.grid.unmarked, history := {}, damage := {} }

/-- The operation does not go by the past, and keeps the default. -/
structure Heedless (f : Screen → Screen) : Prop where
  bare (s : Screen) : (f s.bare).bare = (f s).bare
  default (s : Screen) : (f s).wrapsByDefault = s.wrapsByDefault

namespace Heedless

variable {f g : Screen → Screen}

/-- Screens that differ in their past do so afterwards. -/
theorem congr (hf : Heedless f) {s s' : Screen} (h : s'.bare = s.bare) :
    (f s').bare = (f s).bare := by
  rw [← hf.bare s', h, hf.bare s]

theorem skip : Heedless fun s => s := ⟨fun _ => rfl, fun _ => rfl⟩

theorem comp (hg : Heedless g) (hf : Heedless f) : Heedless fun s => g (f s) :=
  ⟨fun s => hg.congr (hf.bare s), fun s => (hg.default (f s)).trans (hf.default s)⟩

theorem ite {c : Screen → Prop} [DecidablePred c] (hc : ∀ s, c s.bare ↔ c s) (hf : Heedless f)
    (hg : Heedless g) : Heedless fun s => if c s then f s else g s := by
  constructor
  · intro s
    by_cases h : c s
    · rw [if_pos h, if_pos ((hc s).2 h)]
      exact hf.bare s
    · rw [if_neg h, if_neg (fun h' => h ((hc s).1 h'))]
      exact hg.bare s
  · intro s
    split
    · exact hf.default s
    · exact hg.default s

/-- What the operation does may depend on what the bare screen says. -/
theorem reading {α : Type} {p : Screen → α} {f : α → Screen → Screen} (hp : ∀ s, p s.bare = p s)
    (hf : ∀ a, Heedless (f a)) : Heedless fun s => f (p s) s := by
  constructor
  · intro s
    rw [hp s]
    exact (hf (p s)).bare s
  · intro s
    exact (hf (p s)).default s

/-- An operation that leaves the same bare screen behind. -/
theorem of_bare (hg : Heedless g) (h : ∀ s, (f s).bare = (g s).bare) : Heedless f := by
  constructor
  · intro s
    rw [h, h]
    exact hg.bare s
  · intro s
    have hdefault := congrArg Screen.wrapsByDefault (h s)
    exact hdefault.trans (hg.default s)

/-! ## Motion -/

theorem cancelWrap : Heedless Screen.cancelWrap := ⟨fun _ => rfl, fun _ => rfl⟩

theorem atColumn (col : Nat) : Heedless (·.atColumn col) := ⟨fun _ => rfl, fun _ => rfl⟩

theorem backspace : Heedless Screen.backspace := by
  refine ite (fun _ => Iff.rfl) cancelWrap ?_
  refine ite (fun _ => Iff.rfl) ⟨fun _ => rfl, fun _ => rfl⟩ ?_
  exact ite (fun _ => Iff.rfl) ⟨fun _ => rfl, fun _ => rfl⟩ skip

/-! ## Scrolling -/

theorem shiftUp (top bottom n : Nat) : Heedless (·.shiftUp top bottom n) := by
  refine ⟨fun s => ?_, fun _ => rfl⟩
  have hgrid := s.grid.unmarked_scrollUp top bottom n s.eraser
  unfold Screen.shiftUp Screen.bare
  dsimp only
  exact congrArg (fun grid => ({ s with grid, history := {}, damage := {} } : Screen)) hgrid

theorem shiftDown (top bottom n : Nat) : Heedless (·.shiftDown top bottom n) := by
  refine ⟨fun s => ?_, fun _ => rfl⟩
  have hgrid := s.grid.unmarked_scrollDown top bottom n s.eraser
  unfold Screen.shiftDown Screen.bare
  dsimp only
  exact congrArg (fun grid => ({ s with grid, history := {}, damage := {} } : Screen)) hgrid

theorem damaged (top bottom : Nat) : Heedless (·.damaged top bottom) :=
  ⟨fun _ => rfl, fun _ => rfl⟩

/-- Whether rows that leave are kept is all that the history is asked for. -/
theorem bare_scrollUp (s : Screen) (count : Nat) :
    (s.scrollUp count).bare =
      (s.shiftUp s.region.top s.region.bottom (min count s.region.height)).bare := by
  unfold Screen.scrollUp
  dsimp only
  split
  · rename_i hzero
    rw [hzero]
    unfold Screen.shiftUp
    rw [Grid.scrollUp_eq_self (Nat.zero_min _)]
  · split <;> rfl

theorem scrollUp (count : Nat) : Heedless (·.scrollUp count) := by
  have hshift : Heedless fun s =>
      s.shiftUp s.region.top s.region.bottom (min count s.region.height) :=
    reading (p := Screen.region)
      (f := fun region s => s.shiftUp region.top region.bottom (min count region.height))
      (fun _ => rfl) fun _ => shiftUp _ _ _
  exact hshift.of_bare fun s => bare_scrollUp s count

theorem scrollDown (count : Nat) : Heedless (·.scrollDown count) := by
  have hshift : Heedless fun s => s.shiftDown s.region.top s.region.bottom count :=
    reading (p := Screen.region)
      (f := fun region s => s.shiftDown region.top region.bottom count)
      (fun _ => rfl) fun _ => shiftDown _ _ _
  exact hshift.of_bare fun _ => rfl

theorem scrollBy (count : Int) : Heedless (·.scrollBy count) := by
  unfold Screen.scrollBy
  split
  · exact skip
  · exact scrollUp _
  · exact scrollDown _

theorem index : Heedless Screen.index := by
  have hdown : Heedless fun s => if s.cursor.row = s.region.bottom then s.scrollUp 1
      else if s.cursor.row < s.lastRow then s.atRow (s.cursor.row + 1) else s :=
    ite (fun _ => Iff.rfl) (scrollUp 1)
      (ite (fun _ => Iff.rfl) ⟨fun _ => rfl, fun _ => rfl⟩ skip)
  exact hdown.comp cancelWrap

theorem reverseIndex : Heedless Screen.reverseIndex := by
  have hup : Heedless fun s => if s.cursor.row = s.region.top then s.scrollDown 1
      else s.atRow (s.cursor.row - 1) :=
    ite (fun _ => Iff.rfl) (scrollDown 1) ⟨fun _ => rfl, fun _ => rfl⟩
  exact hup.comp cancelWrap

/-! ## Erasing, inserting and deleting -/

theorem eraseScreen (part : Erasure) : Heedless (·.eraseScreen part) := by
  constructor
  · intro s
    cases part <;> rfl
  · intro s
    cases part <;> rfl

theorem editCells (count : Nat) (edit : Row → Nat → Nat → Rendition → Row) :
    Heedless (·.editCells count edit) :=
  ite (fun _ => Iff.rfl) cancelWrap ⟨fun _ => rfl, fun _ => rfl⟩

theorem backIndex : Heedless Screen.backIndex :=
  ite (fun _ => Iff.rfl) ⟨fun _ => rfl, fun _ => rfl⟩ ⟨fun _ => rfl, fun _ => rfl⟩

theorem forwardIndex : Heedless Screen.forwardIndex :=
  ite (fun _ => Iff.rfl) ⟨fun _ => rfl, fun _ => rfl⟩ ⟨fun _ => rfl, fun _ => rfl⟩

theorem editLines (count : Nat) {shift : Screen → Nat → Nat → Nat → Screen}
    (hshift : ∀ top bottom n, Heedless fun s => shift s top bottom n) :
    Heedless (·.editLines count shift) := by
  have hedit : ∀ row bottom : Nat, Heedless fun s =>
      (((shift s.cancelWrap row bottom (min count (bottom + 1 - row))).atColumn 0).damaged
        row bottom) := fun row bottom =>
    (damaged row bottom).comp ((atColumn 0).comp ((hshift row bottom _).comp cancelWrap))
  refine ite (fun _ => Iff.rfl) (ite (fun _ => Iff.rfl) cancelWrap ?_) skip
  exact reading (p := fun s => (s.cursor.row, s.region.bottom))
    (f := fun place s => (((shift s.cancelWrap place.1 place.2
      (min count (place.2 + 1 - place.1))).atColumn 0).damaged place.1 place.2))
    (fun _ => rfl) fun place => hedit place.1 place.2

/-! ## Writing -/

theorem wrap : Heedless Screen.wrap := by
  have hmark : Heedless fun s => s.cancelWrap.modifyLine fun row => row.withEnd .wrapped :=
    ⟨fun _ => rfl, fun _ => rfl⟩
  exact (atColumn 0).comp (index.comp hmark)

theorem place [Glyph.Widths] (glyph : Char) (width : Nat) (font : Flags) :
    Heedless (·.place glyph width font) := by
  have hadvance : Heedless (·.advance width) :=
    ite (fun _ => Iff.rfl) ⟨fun _ => rfl, fun _ => rfl⟩ ⟨fun _ => rfl, fun _ => rfl⟩
  have hwrite : Heedless fun s => s.editLine fun row =>
      (if s.modes.insert then row.insertBlanks s.cursor.col width s.eraser else row).write
        s.cursor.col glyph (s.rendition.withFlags font) := ⟨fun _ => rfl, fun _ => rfl⟩
  exact hadvance.comp hwrite

theorem print [Glyph.Widths] (c : Char) : Heedless (·.print c) := by
  have hready : Heedless fun s => if s.modes.wrapPending = true then s.wrap else s :=
    ite (fun _ => Iff.rfl) wrap skip
  have hwrite : ∀ (glyph : Char) (width : Nat) (font : Flags), Heedless fun s =>
      if width = 2 ∧ s.cols ≤ s.cursor.col + 1 then
        if s.modes.autowrap = true ∧ 2 ≤ s.cols then s.wrap.place glyph width font else s
      else s.place glyph width font :=
    fun glyph width font => ite (fun _ => Iff.rfl)
      (ite (fun _ => Iff.rfl) ((place glyph width font).comp wrap) skip) (place glyph width font)
  -- the set is read before the wrap, which keeps it
  have hprint := reading (p := fun s => s.charsets.current) (fun _ => rfl) fun set =>
    ite (c := fun _ => Glyph.width (set.translate c) = 0) (fun _ => Iff.rfl) skip
      ((hwrite (set.translate c) (Glyph.width (set.translate c)) set.font).comp hready)
  exact hprint

end Heedless

end Screen

end VideoTerminal
