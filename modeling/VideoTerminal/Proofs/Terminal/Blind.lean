import VideoTerminal.Proofs.Screen.Blind
import VideoTerminal.Terminal.Feed
/-!
# What actions do not look at

But for those that print, no action looks at the marks of rows, at the offset
of the view, at the reader or at the printer. So a terminal may be seen
through a veil, which takes the marks away and puts others of the rest in
place: acting under the veil is acting, seen through the veil. A veil leaves
a view at the screen where it is, since actions may put it there.
-/

namespace VideoTerminal

/-- What stands in place of what actions do not look at. -/
structure Veil (π : Type) where
  offset : Nat → Nat
  reader : Reader → Reader
  printer : Option π → Option π
  top : offset 0 = 0

namespace Veil

variable {π : Type}

/-- The veil that puts nothing in place. -/
def clear : Veil π := ⟨id, id, id, rfl⟩

/-- The veil that hides the printer, and puts another offset and another
reader in place. -/
def cover (φ : Nat → Nat) (hφ : φ 0 = 0) (ρ : Reader → Reader) : Veil π :=
  ⟨φ, ρ, fun _ => none, hφ⟩

/-- The veil that hides the printer. -/
def hidden : Veil π := cover id rfl id

end Veil

namespace Terminal

variable {π : Type}

/-- A terminal without its marks, seen through a veil. -/
def seen (v : Veil π) (t : Terminal π) : Terminal π :=
  { t with
    primary := t.primary.unmarked
    alternate := t.alternate.unmarked
    viewOffset := v.offset t.viewOffset
    reader := v.reader t.reader
    printer := v.printer t.printer }

@[simp] theorem screen_seen (v : Veil π) (t : Terminal π) :
    (t.seen v).screen = t.screen.unmarked := by
  unfold screen screenOf
  dsimp only [seen]
  cases t.active <;> rfl

/-- Acting under a veil is acting, seen through the veil. -/
def Blind (f : Terminal π → Terminal π) : Prop :=
  ∀ (v : Veil π) (t : Terminal π), (f (t.seen v)).seen Veil.clear = (f t).seen v

namespace Blind

variable {f g : Terminal π → Terminal π}

/-- Terminals that look the same through two veils still do after acting. -/
theorem congr (hf : Blind f) {v w : Veil π} {t t' : Terminal π} (h : t'.seen w = t.seen v) :
    (f t').seen w = (f t).seen v := by
  rw [← hf w t', h, hf v t]

theorem comp (hg : Blind g) (hf : Blind f) : Blind fun t => g (f t) :=
  fun v t => hg.congr (hf v t)

theorem skip : Blind fun t : Terminal π => t := fun _ _ => rfl

theorem ite {c : Terminal π → Prop} [DecidablePred c] (hc : ∀ v t, c (seen v t) ↔ c t)
    (hf : Blind f) (hg : Blind g) : Blind fun t => if c t then f t else g t := by
  intro v t
  dsimp only
  by_cases h : c t
  · rw [if_pos h, if_pos ((hc v t).2 h)]
    exact hf v t
  · rw [if_neg h, if_neg (fun h' => h ((hc v t).1 h'))]
    exact hg v t

theorem foldl {α : Type} {step : Terminal π → α → Terminal π}
    (hstep : ∀ a, Blind fun t => step t a) (as : List α) :
    Blind fun t : Terminal π => as.foldl step t := by
  induction as with
  | nil => exact skip
  | cons a as ih => exact ih.comp (hstep a)

theorem modifyScreen {f : Screen → Screen} (hf : Screen.Blind f) :
    Blind fun t : Terminal π => t.modifyScreen f := by
  intro v t
  unfold Terminal.modifyScreen modifyOf
  dsimp only [seen]
  split
  · rw [hf]
    rfl
  · rw [hf]
    rfl

/-! ## Switching -/

theorem changeScreen (kind : ScreenKind) : Blind fun t : Terminal π => t.changeScreen kind := by
  refine ite (fun _ _ => Iff.rfl) skip fun v t => ?_
  have hshow : Blind fun t : Terminal π => { t with active := kind, viewOffset := 0 } := by
    intro v t
    dsimp only [seen]
    rw [v.top]
    rfl
  have hdraw : ∀ rendition : Rendition, Blind fun t : Terminal π =>
      t.modifyScreen fun s => { s with rendition, grid := s.grid.markAll } :=
    fun rendition => modifyScreen fun _ => rfl
  have hleave : Blind fun t : Terminal π =>
      { t with selector := t.selector.leave kind.other }.tell (.screenChanged kind) :=
    fun _ _ => rfl
  -- the rendition comes from the screen that was shown, where it is the same under the veil
  have hrendition : (t.seen v).screen.rendition = t.screen.rendition := by
    rw [screen_seen]
    rfl
  dsimp only
  rw [hrendition]
  exact hleave.comp ((hdraw t.screen.rendition).comp hshow) v t

theorem fullReset : Blind (fullReset : Terminal π → Terminal π) := by
  have hreset : Blind fun t : Terminal π => { t with
      primary := t.primary.reset.dropDamage
      alternate := t.alternate.reset.dropDamage
      tabs := TabStops.fresh t.screen.cols
      modes := {}
      savedModes := []
      title := ""
      iconName := ""
      selector := t.selector.clear
      viewOffset := 0 } := by
    intro v t
    dsimp only
    rw [screen_seen]
    simp only [seen, v.top]
    rfl
  exact hreset.comp (changeScreen .primary)

theorem markAll : Blind (markAll : Terminal π → Terminal π) := modifyScreen fun _ => rfl

theorem setPrivate (mode : PrivateMode) (on : Bool) :
    Blind fun t : Terminal π => t.setPrivate mode on := by
  cases mode with
  | wideLines =>
    have herase : Screen.Blind fun s => (s.setRegion 0 s.lastRow).eraseScreen .all := fun _ => rfl
    exact (modifyScreen herase).comp (f := fun t => { t with modes.wideLines := on })
      fun _ _ => rfl
  | reverseVideo =>
    refine ite (fun _ _ => Iff.rfl) skip ?_
    exact markAll.comp (f := fun t => { t with modes.reverseVideo := on }) fun _ _ => rfl
  | origin =>
    exact modifyScreen (f := fun s => { s with modes.origin := on }.home) fun _ => rfl
  | autowrap => exact modifyScreen (f := (·.setAutowrap on)) fun _ => rfl
  | cursorVisible =>
    exact modifyScreen (f := fun s => { s with modes.cursorVisible := on }) fun _ => rfl
  | alternate => exact changeScreen _
  | alternateErased =>
    refine ite (fun _ _ => Iff.rfl) (changeScreen .alternate) ?_
    refine ite (fun _ _ => Iff.rfl) ?_ skip
    exact (changeScreen .primary).comp
      (f := fun t => { t with alternate := (t.alternate.eraseScreen .all).dropDamage })
      fun _ _ => rfl
  | savedCursor =>
    refine modifyScreen ?_
    split
    · exact fun _ => rfl
    · exact fun _ => rfl
  | alternateSaved =>
    refine ite (fun _ _ => Iff.rfl) ?_ ?_
    · have herase : Blind fun t : Terminal π =>
          { t with alternate := t.alternate.eraseScreen .all } := fun _ _ => rfl
      exact herase.comp ((changeScreen .alternate).comp
        (f := fun t => { t with primary := t.primary.saveCursor }) fun _ _ => rfl)
    · have hrestore : Blind fun t : Terminal π =>
          { t with primary := t.primary.restoreCursor } := fun _ _ => rfl
      exact hrestore.comp (changeScreen .primary)
  | applicationCursor | pressReports | applicationKeypad | buttonReports | scrollOnOutput
  | scrollOnKey | bracketedPaste => exact fun _ _ => rfl

/-! ## Actions -/

theorem absorbDamage : Blind (absorbDamage : Terminal π → Terminal π) := by
  intro v t
  have htaken : ∀ selector : Selector, Blind fun t : Terminal π =>
      { t.modifyScreen Screen.dropDamage with selector } := by
    intro selector
    have hset : Blind fun t : Terminal π => { t with selector } := fun _ _ => rfl
    exact hset.comp (modifyScreen fun _ => rfl)
  have hselector : (t.seen v).absorbDamage.selector = t.absorbDamage.selector := by
    unfold Terminal.absorbDamage
    dsimp only
    rw [screen_seen]
    rfl
  change ({ (t.seen v).modifyScreen Screen.dropDamage with
    selector := (t.seen v).absorbDamage.selector } : Terminal π).seen _ = _
  rw [hselector]
  exact htaken t.absorbDamage.selector v t

theorem savePrivate (mode : PrivateMode) : Blind fun t : Terminal π => t.savePrivate mode := by
  intro v t
  have hvalue : (t.seen v).privateMode? mode = t.privateMode? mode := by
    unfold privateMode?
    rw [screen_seen]
    cases mode <;> rfl
  unfold Terminal.savePrivate
  dsimp only
  rw [hvalue]
  cases t.privateMode? mode <;> rfl

theorem restorePrivate (mode : PrivateMode) :
    Blind fun t : Terminal π => t.restorePrivate mode := by
  intro v t
  have hsaved : (t.seen v).savedModes.lookup mode = t.savedModes.lookup mode := rfl
  unfold Terminal.restorePrivate
  dsimp only
  rw [hsaved]
  cases t.savedModes.lookup mode with
  | none => rfl
  | some on => exact setPrivate mode on v t

theorem setModes (modes : List Nat) (on : Bool) :
    Blind fun t : Terminal π => t.setModes modes on := by
  refine foldl (fun mode => ?_) modes
  exact ite (fun _ _ => Iff.rfl)
    (modifyScreen (f := fun s => { s with modes.insert := on }) fun _ => rfl) skip

theorem onTerminal (action : Action) : Blind fun t : Terminal π => t.onTerminal action := by
  cases action with
  | setPrivate modes => exact foldl (fun mode => setPrivate mode true) _
  | resetPrivate modes => exact foldl (fun mode => setPrivate mode false) _
  | savePrivate modes => exact foldl savePrivate _
  | restorePrivate modes => exact foldl restorePrivate _
  | setModes modes => exact setModes modes true
  | resetModes modes => exact setModes modes false
  | fullReset => exact fullReset
  | setTabStop =>
    intro v t
    dsimp only [Terminal.onTerminal]
    rw [screen_seen]
    rfl
  | clearTabStop which =>
    intro v t
    dsimp only [Terminal.onTerminal, clearTabStop]
    rw [screen_seen]
    split <;> rfl
  | statusReport which =>
    intro v t
    dsimp only [Terminal.onTerminal, answer]
    rw [screen_seen]
    split <;> rfl
  | _ => first | exact skip | exact fun _ _ => rfl

theorem onScreen? [Glyph.Widths] {tabs : TabStops} {action : Action} {f : Screen → Screen}
    (hf : Terminal.onScreen? tabs action = some f) : Screen.Blind f := by
  cases action with
  | print c => cases hf; exact Screen.Blind.print c
  | lineFeed => cases hf; exact Screen.Blind.index
  | index => cases hf; exact Screen.Blind.index
  | reverseIndex => cases hf; exact Screen.Blind.reverseIndex
  | nextLine =>
    cases hf
    exact Screen.Blind.index.comp (f := Screen.carriageReturn) fun _ => rfl
  | backspace => cases hf; exact Screen.Blind.backspace
  | scrollUp n => cases hf; exact Screen.Blind.scrollBy _
  | scrollDown n => cases hf; exact Screen.Blind.scrollBy _
  | insertLines n => cases hf; exact Screen.Blind.editLines n Screen.Blind.shiftDown
  | deleteLines n => cases hf; exact Screen.Blind.editLines n Screen.Blind.shiftUp
  | insertCells n => cases hf; exact Screen.Blind.editCells n _
  | deleteCells n => cases hf; exact Screen.Blind.editCells n _
  | eraseCells n => cases hf; exact Screen.Blind.editCells n _
  | eraseScreen part => cases hf; exact Screen.Blind.eraseScreen part
  | backIndex => cases hf; exact Screen.Blind.backIndex
  | forwardIndex => cases hf; exact Screen.Blind.forwardIndex
  | carriageReturn | tab | forwardTab | backTab | invoke | designate | cursorUp | cursorDown
  | cursorRight | cursorLeft | nextLines | previousLines | column | row | position | setRegion
  | eraseLine | select | saveCursor | restoreCursor | align =>
    cases hf
    exact fun _ => rfl
  | _ => cases hf

/-- **No action looks behind the veil.** -/
theorem perform [Glyph.Widths] (action : Action) :
    Blind fun t : Terminal π => t.perform action := by
  intro v t
  dsimp only
  unfold Terminal.perform
  rw [show (t.seen v).tabs = t.tabs from rfl]
  cases hf : Terminal.onScreen? t.tabs action with
  | some f => exact modifyScreen (onScreen? hf) v t
  | none => exact onTerminal action v t

/-! ## What stays behind the veil -/

theorem printer_eq (hf : Blind f) (t : Terminal π) : (f t).printer = t.printer := by
  -- a veil that puts the terminal's own printer in place changes nothing
  let own : Veil π := ⟨id, id, fun _ => t.printer, rfl⟩
  have hsame : (f t).seen Veil.clear = (f t).seen own := hf.congr (v := own) rfl
  have hprinter := congrArg Terminal.printer hsame
  exact hprinter

theorem reader_eq (hf : Blind f) (t : Terminal π) : (f t).reader = t.reader := by
  let own : Veil π := ⟨id, fun _ => t.reader, id, rfl⟩
  have hsame : (f t).seen Veil.clear = (f t).seen own := hf.congr (v := own) rfl
  have hreader := congrArg Terminal.reader hsame
  exact hreader

end Blind

end Terminal

end VideoTerminal
