import VideoTerminal.Proofs.Terminal.Lasting
import VideoTerminal.Proofs.Terminal.Reported
import VideoTerminal.Proofs.Terminal.Untouched
/-!
# A saved cursor lasts

What was saved of the cursor of a screen is overwritten by few actions: those
that save it, and the one that forgets all of it. All others leave it alone, on
either screen and from one screen to the other, also those that come back to
it. Since nothing that is fed changes the size of a screen, coming back does not
move the cursor either.
-/

namespace VideoTerminal

/-! ## Screens -/

namespace Screen

/-- The operation leaves what was saved. -/
def Retains (f : Screen → Screen) : Prop := ∀ s, (f s).saved = s.saved

namespace Retains

variable {f g : Screen → Screen}

theorem skip : Retains fun s => s := fun _ => rfl

theorem comp (hg : Retains g) (hf : Retains f) : Retains fun s => g (f s) :=
  fun s => (hg (f s)).trans (hf s)

theorem ite {c : Screen → Prop} [DecidablePred c] (hf : Retains f) (hg : Retains g) :
    Retains fun s => if c s then f s else g s := by
  intro s
  dsimp only
  split
  · exact hf s
  · exact hg s

theorem scrollUp (count : Nat) : Retains (·.scrollUp count) :=
  ite skip (ite (fun _ => rfl) fun _ => rfl)

theorem scrollBy (count : Int) : Retains (·.scrollBy count) := by
  unfold Screen.scrollBy
  split
  · exact skip
  · exact scrollUp _
  · exact fun _ => rfl

theorem index : Retains Screen.index := by
  have hdown : Retains fun s => if s.cursor.row = s.region.bottom then s.scrollUp 1
      else if s.cursor.row < s.lastRow then s.atRow (s.cursor.row + 1) else s :=
    ite (scrollUp 1) (ite (fun _ => rfl) skip)
  exact hdown.comp (f := cancelWrap) fun _ => rfl

theorem reverseIndex : Retains Screen.reverseIndex := ite (fun _ => rfl) fun _ => rfl

theorem backspace : Retains Screen.backspace :=
  ite (fun _ => rfl) (ite (fun _ => rfl) (ite (fun _ => rfl) skip))

theorem eraseScreen (part : Erasure) : Retains (·.eraseScreen part) := by
  cases part <;> exact fun _ => rfl

theorem editCells (count : Nat) (edit : Row → Nat → Nat → Rendition → Row) :
    Retains (·.editCells count edit) := ite (fun _ => rfl) fun _ => rfl

theorem editLines (count : Nat) {shift : Screen → Nat → Nat → Nat → Screen}
    (hshift : ∀ s top bottom n, (shift s top bottom n).saved = s.saved) :
    Retains (·.editLines count shift) :=
  ite (ite (fun _ => rfl) fun _ => hshift _ _ _ _) skip

theorem backIndex : Retains Screen.backIndex := ite (fun _ => rfl) fun _ => rfl

theorem forwardIndex : Retains Screen.forwardIndex := ite (fun _ => rfl) fun _ => rfl

theorem wrap : Retains Screen.wrap :=
  index.comp (f := fun s => s.cancelWrap.modifyLine fun row => row.withEnd .wrapped) fun _ => rfl

variable [Glyph.Widths]

theorem place (glyph : Char) (width : Nat) (font : Flags) :
    Retains (·.place glyph width font) := by
  have hadvance : Retains (·.advance width) := ite (fun _ => rfl) fun _ => rfl
  exact fun s => hadvance _

theorem print (c : Char) : Retains (·.print c) := by
  refine ite skip fun s => ?_
  have hready : Retains fun s => if s.modes.wrapPending = true then s.wrap else s := ite wrap skip
  have hwrite : ∀ (glyph : Char) (width : Nat) (font : Flags), Retains fun s =>
      if width = 2 ∧ s.cols ≤ s.cursor.col + 1 then
        if s.modes.autowrap = true ∧ 2 ≤ s.cols then s.wrap.place glyph width font else s
      else s.place glyph width font :=
    fun glyph width font => ite (ite ((place glyph width font).comp wrap) skip)
      (place glyph width font)
  exact (hwrite _ _ _).comp hready s

/-- No action on the screen changes what was saved, but the one that saves. -/
theorem onScreen? {tabs : TabStops} {action : Action} (hf : Terminal.onScreen? tabs action = some f)
    (hsave : action ≠ .saveCursor) : Retains f := by
  cases action with
  | print c => cases hf; exact print c
  | lineFeed | index => cases hf; exact index
  | nextLine => cases hf; exact index.comp (f := carriageReturn) fun _ => rfl
  | reverseIndex => cases hf; exact reverseIndex
  | backspace => cases hf; exact backspace
  | scrollUp n | scrollDown n => cases hf; exact scrollBy _
  | insertLines n | deleteLines n => cases hf; exact editLines n fun _ _ _ _ => rfl
  | insertCells n | deleteCells n | eraseCells n => cases hf; exact editCells n _
  | eraseScreen part => cases hf; exact eraseScreen part
  | backIndex => cases hf; exact backIndex
  | forwardIndex => cases hf; exact forwardIndex
  | saveCursor => exact absurd rfl hsave
  | carriageReturn | tab | forwardTab | backTab | invoke | designate | cursorUp | cursorDown
  | cursorRight | cursorLeft | nextLines | previousLines | column | row | position | setRegion
  | eraseLine | select | restoreCursor | align =>
    cases hf
    exact fun _ => rfl
  | _ => cases hf

end Retains

end Screen

namespace Terminal

variable {π : Type} {rows cols : Nat} {t : Terminal π} {kind : ScreenKind} {action : Action}

/-! ## What overwrites a saved cursor -/

/-- The action saves the cursor of a screen, or forgets what was saved. -/
def overwrites (t : Terminal π) (kind : ScreenKind) (action : Action) : Bool :=
  match action with
  | .saveCursor => t.active == kind
  | .fullReset => true
  | action => t.switchesOverwrite kind (t.switches action)

section Feeding

variable [Glyph.Widths]

/-- None of the actions overwrites what was saved, up to one that fails. -/
def keepsSaved [Printer π] (t : Terminal π) (kind : ScreenKind) : List Action → Bool
  | [] => true
  | action :: rest =>
    !t.overwrites kind action &&
      ((t.apply action).fault.isSome || (t.apply action).terminal.keepsSaved kind rest)

/-- Nothing that is fed does. -/
def feedKeepsSaved [Printer π] (t : Terminal π) (kind : ScreenKind) (bytes : List UInt8) : Bool :=
  { t with reader := (t.reader.feed bytes).1 }.keepsSaved kind (t.reader.feed bytes).2

/-! ## What leaves it -/

theorem saved_perform (h : t.overwrites kind action = false) :
    AgreeOn Screen.saved kind t (t.perform action) := by
  have hswitches : action ≠ .saveCursor → action ≠ .fullReset →
      t.switchesOverwrite kind (t.switches action) = false := by
    intro hsave hreset
    cases action with
    | saveCursor => exact absurd rfl hsave
    | fullReset => exact absurd rfl hreset
    | _ => exact h
  have hreset : action ≠ .fullReset := by
    rintro rfl
    cases h
  unfold perform
  split
  · rename_i f hf
    by_cases hsave : action = .saveCursor
    · -- it saves the cursor of the screen that is shown, so it is about the other one
      subst hsave
      cases hf
      have hhidden : kind ≠ t.active := fun heq => ne_of_beq_false h heq.symm
      exact congrArg Screen.saved (screenOf_modifyScreen t Screen.saveCursor hhidden)
    · exact AgreeOn.modifyScreen (Screen.Retains.onScreen? hf hsave) t
  · rename_i hnone
    have hsave : action ≠ .saveCursor := by
      rintro rfl
      cases hnone
    refine AgreeOn.onTerminal (fun _ hsaved => hsaved) hreset fun hover => ?_
    rw [hswitches hsave hreset] at hover
    cases hover

variable [Printer π]

/-- **One action.** -/
theorem saved_apply (h : t.overwrites kind action = false) :
    AgreeOn Screen.saved kind t (t.apply action).terminal := by
  have hsame : ∀ {t' : Terminal π}, t.Same t' → AgreeOn Screen.saved kind t t' :=
    fun h => .of_eq h.primary h.alternate
  have hact : AgreeOn Screen.saved kind t (t.act action).terminal := by
    unfold act
    split
    · exact hsame (same_printScreen t)
    · exact hsame (same_print t _)
    · exact hsame (same_flush t)
    · exact saved_perform h
  refine holds_andThen (p := AgreeOn Screen.saved kind t) hact fun {t'} ht => ht.trans ?_
  exact AgreeOn.modifyScreen (f := Screen.dropDamage) (fun _ => rfl) t'

/-- **Many actions**, up to one that fails. -/
theorem saved_applyAll {actions : List Action} (h : t.keepsSaved kind actions = true) :
    AgreeOn Screen.saved kind t (t.applyAll actions).terminal := by
  induction actions generalizing t with
  | nil => exact .refl t
  | cons action actions ih =>
    obtain ⟨hfirst, hrest⟩ := Bool.and_eq_true_iff.1 h
    have happly : AgreeOn Screen.saved kind t (t.apply action).terminal :=
      saved_apply (Bool.not_eq_true' _ ▸ hfirst)
    unfold applyAll Outcome.andThen
    cases hfault : (t.apply action).fault with
    | some fault => exact happly
    | none =>
      rw [hfault] at hrest
      exact happly.trans (ih hrest)

/-- **Whatever is fed.** -/
theorem saved_feed {bytes : List UInt8} (h : t.feedKeepsSaved kind bytes = true) :
    AgreeOn Screen.saved kind t (t.feed bytes).terminal := by
  have hread : AgreeOn Screen.saved kind t ({ t with reader := (t.reader.feed bytes).1 }.applyAll
      (t.reader.feed bytes).2).terminal := saved_applyAll h
  refine holds_andThen (p := AgreeOn Screen.saved kind t) hread fun {t'} ht => ht.trans ?_
  have hquiet : ((t'.settle !bytes.isEmpty).screenOf kind).quiet.saved =
      (t'.screenOf kind).quiet.saved := by
    rw [(Unmoved.settle t' !bytes.isEmpty).screens kind]
  exact hquiet

/-! ## Coming back -/

/-- **A saved cursor survives whatever is fed**, if nothing of it saves the
cursor of the same screen or resets the terminal, and the screen is shown
again in the end. Coming back puts cursor, rendition, character sets and the two
modes where they were when the cursor was saved, cancels a pending wrap, and
changes nothing else of the screen. -/
theorem restoreCursor_feed (h : Reach rows cols t) {bytes : List UInt8}
    (hkeeps : (t.modifyScreen Screen.saveCursor).feedKeepsSaved t.active bytes = true)
    (hshown : ((t.modifyScreen Screen.saveCursor).feed bytes).terminal.active = t.active) :
    let s := ((t.modifyScreen Screen.saveCursor).feed bytes).terminal.screen
    s.restoreCursor =
      { s with
        cursor := t.screen.cursor
        rendition := t.screen.rendition
        charsets := t.screen.charsets
        modes.autowrap := t.screen.modes.autowrap
        modes.origin := t.screen.modes.origin
        modes.wrapPending := false } := by
  intro s
  have hsound := (h.sound Row.law_fits).screen
  have hafter := (Sound.feed Row.law_fits
    ((h.sound Row.law_fits).modifyScreen fun hs => hs.saveCursor) bytes).screen
  have hslot : (t.modifyScreen Screen.saveCursor).screenOf t.active = t.screen.saveCursor := by
    have hscreen := screen_modifyScreen t Screen.saveCursor
    rwa [screen, (modifyScreen_rest t Screen.saveCursor).1] at hscreen
  have hsaved : s.saved = t.screen.saveCursor.saved := by
    have hsame := saved_feed hkeeps
    unfold AgreeOn at hsame
    rw [hslot, ← hshown] at hsame
    exact hsame
  -- no size changed, so the place is still on the screen
  have hrow : min t.screen.cursor.row s.lastRow = t.screen.cursor.row := by
    rw [hafter.lastRow_eq]
    exact Nat.min_eq_left (Nat.le_sub_one_of_lt hsound.row)
  have hcol : min t.screen.cursor.col s.lastCol = t.screen.cursor.col := by
    rw [hafter.lastCol_eq]
    exact Nat.min_eq_left (Nat.le_sub_one_of_lt hsound.col)
  unfold Screen.restoreCursor
  rw [hsaved]
  unfold Screen.saveCursor
  dsimp only [Option.getD_some]
  rw [hrow, hcol]

end Feeding

attribute [local instance] Glyph.unicode

/-- In between the alternate screen is shown, another cursor is saved there and
the rendition changes. Back on the primary screen its cursor is come back to
once already, and goes home, and lines do not wrap any more. -/
theorem restoreCursor_feed_visit :
    let t := ((plain 3 5).feed [0x1B, 0x5B, 0x31, 0x3B, 0x33, 0x31, 0x6D, 0x1B, 0x5B, 0x32, 0x3B,
      0x34, 0x48]).terminal
    let bytes : List UInt8 := [0x78, 0x1B, 0x5B, 0x3F, 0x34, 0x37, 0x68, 0x1B, 0x37, 0x1B, 0x5B,
      0x6D, 0x79, 0x1B, 0x5B, 0x3F, 0x34, 0x37, 0x6C, 0x1B, 0x38, 0x1B, 0x5B, 0x48, 0x1B, 0x5B,
      0x3F, 0x37, 0x6C, 0x7A]
    let after := ((t.modifyScreen Screen.saveCursor).feed bytes).terminal
    (Reach 3 5 t ∧ (t.modifyScreen Screen.saveCursor).feedKeepsSaved t.active bytes = true ∧
        after.active = t.active) ∧
      (after.screen.cursor = ⟨0, 1⟩ ∧ after.screen.modes.autowrap = false) ∧
      after.screen.restoreCursor.cursor = ⟨1, 3⟩ ∧
      after.screen.restoreCursor.modes.autowrap = true ∧
      after.screen.restoreCursor.rendition =
        { foreground := .named 1, flags := { bold := true } } := by
  intro t bytes after
  have hreach : Reach 3 5 t := (reach_plain 3 5 (by decide) (by decide)).feed _
  have hkeeps : (t.modifyScreen Screen.saveCursor).feedKeepsSaved t.active bytes = true := by
    decide +kernel
  have hshown : after.active = t.active := by decide +kernel
  refine ⟨⟨hreach, hkeeps, hshown⟩, by decide +kernel, ?_⟩
  rw [restoreCursor_feed hreach hkeeps hshown]
  decide +kernel

end Terminal

end VideoTerminal
