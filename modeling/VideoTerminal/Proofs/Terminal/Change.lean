import VideoTerminal.Proofs.Screen.Report
import VideoTerminal.Proofs.Terminal.Sound
/-!
# What changes a terminal

An action on the screen changes rows in place, unless it writes or scrolls.
An action on what both screens share changes the screen that is shown in
place, or draws one anew: then all of its rows are marked, the view is at the
screen, and nothing is selected (`Shows`).
-/

namespace VideoTerminal

namespace Terminal

variable {π : Type} {P : Nat → Row → Prop} {rows cols : Nat} {t t' t'' : Terminal π}

/-! ## Actions on the screen -/

/-- What holds after every change in place, and after writing and scrolling,
holds after every action on the screen. -/
theorem onScreen?_elim [Glyph.Widths] {p : Screen → Prop} {tabs : TabStops} {action : Action}
    {f : Screen → Screen} (hf : onScreen? tabs action = some f) {s : Screen}
    (amended : ∀ {s'}, s.Amends s' → p s') (print : ∀ c, p (s.print c)) (index : p s.index)
    (nextLine : p s.carriageReturn.index) (scroll : ∀ n, p (s.scrollBy n)) : p (f s) := by
  cases action with
  | print c => cases hf; exact print c
  | lineFeed => cases hf; exact index
  | index => cases hf; exact index
  | nextLine => cases hf; exact nextLine
  | scrollUp n => cases hf; exact scroll n
  | scrollDown n => cases hf; exact scroll (-n)
  | reverseIndex => cases hf; exact amended (Screen.Amends.reverseIndex s)
  | backspace => cases hf; exact amended (Screen.Amends.backspace s)
  | insertLines n => cases hf; exact amended (Screen.Amends.insertLines s n)
  | deleteLines n => cases hf; exact amended (Screen.Amends.deleteLines s n)
  | insertCells n => cases hf; exact amended (Screen.Amends.editCells s n _)
  | deleteCells n => cases hf; exact amended (Screen.Amends.editCells s n _)
  | eraseCells n => cases hf; exact amended (Screen.Amends.editCells s n _)
  | eraseScreen part => cases hf; exact amended (Screen.Amends.eraseScreen s part)
  | eraseLine part => cases hf; exact amended (Screen.Amends.eraseLine s part)
  | backIndex => cases hf; exact amended (Screen.Amends.backIndex s)
  | forwardIndex => cases hf; exact amended (Screen.Amends.forwardIndex s)
  | align => cases hf; exact amended (Screen.Amends.align s)
  | carriageReturn | tab | forwardTab | backTab | invoke | designate | cursorUp | cursorDown
  | cursorRight | cursorLeft | nextLines | previousLines | column | row | position | setRegion
  | select | saveCursor | restoreCursor =>
    cases hf
    exact amended (Screen.Amends.of_eq rfl rfl rfl)
  | _ => cases hf

/-! ## Actions on what both screens share -/

/-- What is selected is selected on the screen that is shown. -/
def Aligned (t : Terminal π) : Prop :=
  ∀ sel, t.selector.current = some sel → sel.screen = t.active

/-- No screen still has to report lines that left its history. -/
def Settled (t : Terminal π) : Prop := ∀ kind, (t.screenOf kind).damage.evicted = 0

/-- Both terminals show the same, and the same is selected in them. -/
structure Same (t t' : Terminal π) : Prop where
  primary : t'.primary = t.primary
  alternate : t'.alternate = t.alternate
  active : t'.active = t.active
  offset : t'.viewOffset = t.viewOffset
  selector : t'.selector = t.selector

namespace Same

theorem refl (t : Terminal π) : t.Same t := ⟨rfl, rfl, rfl, rfl, rfl⟩

theorem withReader (t : Terminal π) (reader : Reader) : t.Same { t with reader } :=
  ⟨rfl, rfl, rfl, rfl, rfl⟩

theorem trans (h : t.Same t') (h' : t'.Same t'') : t.Same t'' :=
  ⟨h'.primary.trans h.primary, h'.alternate.trans h.alternate, h'.active.trans h.active,
    h'.offset.trans h.offset, h'.selector.trans h.selector⟩

theorem screen (h : t.Same t') : t'.screen = t.screen := by
  unfold Terminal.screen screenOf
  rw [h.active, h.primary, h.alternate]

end Same

/-- The screen that is shown was drawn anew. -/
structure Anew (t : Terminal π) : Prop where
  marked : ∀ i, ¬ t.screen.grid.Clean i
  gone : t.selector.current = none
  top : t.viewOffset = 0

/-- The same screen is shown from the same line on, and changed in place. -/
structure Amends (t t' : Terminal π) : Prop where
  active : t'.active = t.active
  offset : t'.viewOffset = t.viewOffset
  selector : t'.selector = t.selector
  screen : t.screen.Amends t'.screen

/-- A change of what is shown that moves no line of it. -/
structure Shows (t t' : Terminal π) : Prop where
  settled : t.Settled → t'.Settled
  shown : t'.Anew ∨ t.Amends t'

namespace Shows

theorem refl (t : Terminal π) : t.Shows t :=
  ⟨id, Or.inr ⟨rfl, rfl, rfl, Screen.Amends.refl _⟩⟩

theorem trans (h : t.Shows t') (h' : t'.Shows t'') : t.Shows t'' := by
  refine ⟨fun hs => h'.settled (h.settled hs), ?_⟩
  rcases h'.shown with hnew' | hin'
  · exact Or.inl hnew'
  · rcases h.shown with hnew | hin
    · refine Or.inl ⟨fun i hi => hnew.marked i (hin'.screen.clean i hi).1, ?_, ?_⟩
      · rw [hin'.selector]
        exact hnew.gone
      · rw [hin'.offset]
        exact hnew.top
    · exact Or.inr ⟨hin'.active.trans hin.active, hin'.offset.trans hin.offset,
        hin'.selector.trans hin.selector, hin.screen.trans hin'.screen⟩

theorem aligned (h : t.Shows t') (ha : t.Aligned) : t'.Aligned := by
  intro sel hsel
  rcases h.shown with hnew | hin
  · rw [hnew.gone] at hsel
    cases hsel
  · rw [hin.selector] at hsel
    rw [hin.active]
    exact ha sel hsel

/-- Both screens changed in place, and which one is shown did not. -/
theorem of_screens (hp : t.primary.Amends t'.primary) (ha : t.alternate.Amends t'.alternate)
    (hactive : t'.active = t.active) (hoffset : t'.viewOffset = t.viewOffset)
    (hselector : t'.selector = t.selector) : t.Shows t' := by
  have hof : ∀ kind, (t.screenOf kind).Amends (t'.screenOf kind) := by
    intro kind
    cases kind with
    | primary => exact hp
    | alternate => exact ha
  refine ⟨fun hs kind => (hof kind).evicted.trans (hs kind),
    Or.inr ⟨hactive, hoffset, hselector, ?_⟩⟩
  unfold screen
  rw [hactive]
  exact hof t.active

theorem of_same (h : t.Same t') : t.Shows t' := by
  refine of_screens ?_ ?_ h.active h.offset h.selector
  · rw [h.primary]
    exact Screen.Amends.refl _
  · rw [h.alternate]
    exact Screen.Amends.refl _

theorem modifyScreen {f : Screen → Screen} (hf : ∀ s : Screen, s.Amends (f s)) :
    t.Shows (t.modifyScreen f) := by
  unfold Terminal.modifyScreen modifyOf
  split
  · exact of_screens (hf _) (Screen.Amends.refl _) rfl rfl rfl
  · exact of_screens (Screen.Amends.refl _) (hf _) rfl rfl rfl

/-- What each of some steps does, all of them do. -/
theorem foldl {α : Type} {step : Terminal π → α → Terminal π}
    (hstep : ∀ (t : Terminal π) (a : α), t.Aligned → t.Shows (step t a)) (h : t.Aligned)
    (as : List α) : t.Shows (as.foldl step t) := by
  induction as generalizing t with
  | nil => exact refl t
  | cons a as ih => exact (hstep t a h).trans (ih ((hstep t a h).aligned h))

end Shows

theorem settled_changeScreen (h : t.Settled) (kind : ScreenKind) :
    (t.changeScreen kind).Settled := by
  unfold changeScreen
  split
  · exact h
  · intro k
    cases kind <;> cases k <;> first | exact h .primary | exact h .alternate

/-- Another screen is drawn anew, and what was selected on the one before is
not selected any more. -/
theorem anew_changeScreen (h : t.Aligned) {kind : ScreenKind} (hne : t.active ≠ kind) :
    (t.changeScreen kind).Anew := by
  unfold changeScreen
  rw [if_neg hne]
  have hother : kind.other = t.active := by
    cases kind <;> cases hactive : t.active <;> simp_all [ScreenKind.other]
  refine ⟨fun i => ?_, ?_, ?_⟩
  · cases kind <;> exact Grid.not_clean_markAll
  · have hgone : (t.selector.leave kind.other).current = none := by
      unfold Selector.leave
      cases hsel : t.selector.current with
      | none => rfl
      | some sel =>
        have hscreen := h sel hsel
        simp [hother, hscreen]
    cases kind <;> exact hgone
  · cases kind <;> rfl

theorem shows_changeScreen (h : t.Aligned) (kind : ScreenKind) :
    t.Shows (t.changeScreen kind) := by
  refine ⟨fun hs => settled_changeScreen hs kind, ?_⟩
  by_cases hsame : t.active = kind
  · have heq : t.changeScreen kind = t := by
      unfold changeScreen
      rw [if_pos hsame]
    rw [heq]
    exact (Shows.refl t).shown
  · exact Or.inl (anew_changeScreen h hsame)

theorem shows_markAll (t : Terminal π) : t.Shows t.markAll :=
  Shows.modifyScreen Screen.Amends.markAll

theorem shows_setPrivate (h : t.Aligned) (mode : PrivateMode) (on : Bool) :
    t.Shows (t.setPrivate mode on) := by
  cases mode with
  | wideLines =>
    have hmode : t.Shows { t with modes.wideLines := on } := Shows.of_same ⟨rfl, rfl, rfl, rfl, rfl⟩
    exact hmode.trans (Shows.modifyScreen fun s =>
      (Screen.Amends.setRegion s _ _).trans (Screen.Amends.eraseScreen _ _))
  | reverseVideo =>
    simp only [setPrivate, setReverseVideo]
    split
    · exact Shows.refl t
    · have hmode : t.Shows { t with modes.reverseVideo := on } :=
        Shows.of_same ⟨rfl, rfl, rfl, rfl, rfl⟩
      exact hmode.trans (shows_markAll _)
  | origin =>
    exact Shows.modifyScreen (f := fun s => { s with modes.origin := on }.home)
      fun _ => Screen.Amends.of_eq rfl rfl rfl
  | autowrap =>
    exact Shows.modifyScreen (f := (·.setAutowrap on)) fun _ => Screen.Amends.of_eq rfl rfl rfl
  | cursorVisible =>
    exact Shows.modifyScreen (f := fun s => { s with modes.cursorVisible := on })
      fun _ => Screen.Amends.of_eq rfl rfl rfl
  | alternate => exact shows_changeScreen h _
  | alternateErased =>
    simp only [setPrivate, setAlternateErased]
    split
    · exact shows_changeScreen h _
    · split
      · rename_i hactive
        -- the alternate screen is erased behind the back of the selection, which ends anyway
        let erased : Terminal π := { t with alternate := (t.alternate.eraseScreen .all).dropDamage }
        refine ⟨fun hs => settled_changeScreen (t := erased) (fun kind => ?_) .primary, Or.inl ?_⟩
        · cases kind with
          | primary => exact hs .primary
          | alternate => rfl
        · have hne : erased.active ≠ .primary := by
            change t.active ≠ .primary
            rw [hactive]
            decide
          exact anew_changeScreen (t := erased) h hne
      · exact Shows.refl t
  | savedCursor =>
    refine Shows.modifyScreen fun s => ?_
    split <;> exact Screen.Amends.of_eq rfl rfl rfl
  | alternateSaved =>
    simp only [setPrivate, setAlternateSaved]
    split
    · have hsaved : t.Shows { t with primary := t.primary.saveCursor } :=
        Shows.of_screens (Screen.Amends.of_eq rfl rfl rfl) (Screen.Amends.refl _) rfl rfl rfl
      refine (hsaved.trans (shows_changeScreen (hsaved.aligned h) .alternate)).trans ?_
      refine Shows.of_screens (Screen.Amends.refl _) ?_ rfl rfl rfl
      exact Screen.Amends.eraseScreen _ .all
    · refine (shows_changeScreen h .primary).trans ?_
      refine Shows.of_screens ?_ (Screen.Amends.refl _) rfl rfl rfl
      exact Screen.Amends.of_eq rfl rfl rfl
  | applicationCursor | pressReports | applicationKeypad | buttonReports | scrollOnOutput
  | scrollOnKey | bracketedPaste => exact Shows.of_same ⟨rfl, rfl, rfl, rfl, rfl⟩

theorem settled_fullReset (t : Terminal π) : t.fullReset.Settled := by
  intro kind
  cases kind <;> rfl

theorem shows_fullReset (hs : t.Sound P rows cols) : t.Shows t.fullReset := by
  refine ⟨fun _ => settled_fullReset t, Or.inl ⟨fun i hi => ?_, rfl, rfl⟩⟩
  have hp := hs.changeScreen .primary
  -- the primary screen is shown, and all of its rows are reset
  have hshown : t.fullReset.screen = (t.changeScreen .primary).primary.reset.dropDamage := by
    have hactive : t.fullReset.active = .primary := by
      change (t.changeScreen .primary).active = .primary
      unfold changeScreen
      split
      · assumption
      · rfl
    unfold screen
    rw [hactive]
    rfl
  rw [hshown] at hi
  change ((t.changeScreen .primary).primary.grid.resetRows 0
    (t.changeScreen .primary).primary.height {}).Clean i at hi
  obtain ⟨hclean, hout⟩ := Grid.clean_resetRows hi
  obtain ⟨hlt, -⟩ := List.getElem?_eq_some_iff.1 hclean
  have hmarks := hp.primary.marks
  have hheight := hp.primary.height_eq
  omega

/-- Actions on what both screens share move no line. -/
theorem shows_onTerminal (hs : t.Sound P rows cols) (h : t.Aligned) (action : Action) :
    t.Shows (t.onTerminal action) := by
  have hset : ∀ (modes : List Nat) (on : Bool), t.Shows (t.setPrivates modes on) :=
    fun modes on => Shows.foldl (fun t mode ht => shows_setPrivate ht mode on) h _
  have hmodes : ∀ (modes : List Nat) (on : Bool), t.Shows (t.setModes modes on) := by
    refine fun modes on => Shows.foldl (fun t mode _ => ?_) h modes
    unfold setMode
    split
    · exact Shows.modifyScreen (f := fun s => { s with modes.insert := on })
        fun _ => Screen.Amends.of_eq rfl rfl rfl
    · exact Shows.refl t
  cases action with
  | setPrivate modes => exact hset modes true
  | resetPrivate modes => exact hset modes false
  | savePrivate modes =>
    refine Shows.foldl (fun t mode _ => ?_) h _
    unfold savePrivate
    split
    · exact Shows.refl t
    · exact Shows.of_same ⟨rfl, rfl, rfl, rfl, rfl⟩
  | restorePrivate modes =>
    refine Shows.foldl (fun t mode ht => ?_) h _
    unfold restorePrivate
    split
    · exact Shows.refl t
    · exact shows_setPrivate ht mode _
  | setModes modes => exact hmodes modes true
  | resetModes modes => exact hmodes modes false
  | fullReset => exact shows_fullReset hs
  | clearTabStop which =>
    simp only [onTerminal, clearTabStop]
    split <;> exact Shows.of_same ⟨rfl, rfl, rfl, rfl, rfl⟩
  | statusReport which =>
    simp only [onTerminal, answer]
    split <;> exact Shows.of_same ⟨rfl, rfl, rfl, rfl, rfl⟩
  | _ => exact Shows.of_same ⟨rfl, rfl, rfl, rfl, rfl⟩

end Terminal

end VideoTerminal
