import VideoTerminal.Proofs.Terminal.Leftover
/-!
# What actions on both screens leave alone

Actions on both screens switch modes, and some of these erase a screen, move
its cursor, come back to a cursor that was saved, or show another screen. None
of them touches a history. What was saved of a cursor is written by two of the
switches, one of which saves the cursor of the screen that is shown and the
other that of the primary one, and by a reset of the terminal. A request may
switch many modes, so it is followed switch by switch.
-/

namespace VideoTerminal

/-- What is read of a screen depends on nothing but its history and what was
saved of its cursor. -/
def Screen.Deep {α : Type} (g : Screen → α) : Prop :=
  ∀ {s s' : Screen}, s'.history = s.history → s'.saved = s.saved → g s' = g s

namespace Terminal

variable {π α : Type} {g : Screen → α} {t t' t'' : Terminal π} {kind : ScreenKind}

/-! ## What overwrites a saved cursor -/

/-- Switching a mode saves the cursor of a screen. -/
def switchOverwrites (t : Terminal π) (kind : ScreenKind) (mode : PrivateMode) (on : Bool) : Bool :=
  match mode with
  | .savedCursor => on && t.active == kind
  | .alternateSaved => on && kind == .primary
  | _ => false

/-- One of the switches does, each of them made after those before it. -/
def switchesOverwrite (t : Terminal π) (kind : ScreenKind) : List (PrivateMode × Bool) → Bool
  | [] => false
  | (mode, on) :: rest =>
    t.switchOverwrites kind mode on || (t.setPrivate mode on).switchesOverwrite kind rest

/-! ## One screen -/

/-- The same is read of a screen of both terminals. -/
def AgreeOn (g : Screen → α) (kind : ScreenKind) (t t' : Terminal π) : Prop :=
  g (t'.screenOf kind) = g (t.screenOf kind)

namespace AgreeOn

theorem of_eq (hprimary : t'.primary = t.primary) (halternate : t'.alternate = t.alternate) :
    AgreeOn g kind t t' := by
  cases kind with
  | primary => exact congrArg g hprimary
  | alternate => exact congrArg g halternate

theorem refl (t : Terminal π) : AgreeOn g kind t t := rfl

theorem trans (h : AgreeOn g kind t t') (h' : AgreeOn g kind t' t'') : AgreeOn g kind t t'' :=
  Eq.trans h' h

theorem modifyOf {f : Screen → Screen} (hf : ∀ s, g (f s) = g s) (t : Terminal π)
    (changed : ScreenKind) : AgreeOn g kind t (t.modifyOf changed f) := by
  unfold AgreeOn
  cases changed <;> cases kind <;> first | rfl | exact hf _

theorem modifyScreen {f : Screen → Screen} (hf : ∀ s, g (f s) = g s) (t : Terminal π) :
    AgreeOn g kind t (t.modifyScreen f) := modifyOf hf t t.active

theorem changeScreen (hg : Screen.Deep g) (t : Terminal π) (shown : ScreenKind) :
    AgreeOn g kind t (t.changeScreen shown) := by
  unfold Terminal.changeScreen
  split
  · exact refl t
  · unfold AgreeOn
    cases shown <;> cases kind <;> exact hg rfl rfl

/-- **One switch**, if it does not save the cursor, or if this does not show in
what is read. -/
theorem setPrivate (hg : Screen.Deep g) {mode : PrivateMode} {on : Bool}
    (hsave : t.switchOverwrites kind mode on = true → ∀ s, g (Screen.saveCursor s) = g s) :
    AgreeOn g kind t (t.setPrivate mode on) := by
  cases mode with
  | wideLines =>
    exact modifyScreen (f := fun s => (s.setRegion 0 s.lastRow).eraseScreen .all)
      (fun _ => hg rfl rfl) { t with modes.wideLines := on }
  | reverseVideo =>
    simp only [Terminal.setPrivate, setReverseVideo]
    split
    · exact refl t
    · exact modifyScreen (f := fun s => { s with grid := s.grid.markAll }) (fun _ => hg rfl rfl)
        { t with modes.reverseVideo := on }
  | origin =>
    exact modifyScreen (f := fun s => { s with modes.origin := on }.home) (fun _ => hg rfl rfl) t
  | autowrap => exact modifyScreen (f := (·.setAutowrap on)) (fun _ => hg rfl rfl) t
  | cursorVisible =>
    exact modifyScreen (f := fun s => { s with modes.cursorVisible := on }) (fun _ => hg rfl rfl) t
  | savedCursor =>
    cases on with
    | false => exact modifyScreen (f := Screen.restoreCursor) (fun _ => hg rfl rfl) t
    | true =>
      by_cases hshown : kind = t.active
      · subst hshown
        exact modifyScreen (f := Screen.saveCursor) (hsave (beq_self_eq_true t.active)) t
      · exact congrArg g (screenOf_modifyScreen t Screen.saveCursor hshown)
  | alternate => exact changeScreen hg t _
  | alternateErased =>
    simp only [Terminal.setPrivate, setAlternateErased]
    split
    · exact changeScreen hg t _
    · split
      · exact (modifyOf (f := fun s => (s.eraseScreen .all).dropDamage) (fun _ => hg rfl rfl) t
          .alternate).trans (changeScreen hg _ _)
      · exact refl t
  | alternateSaved =>
    cases on with
    | false =>
      exact (changeScreen hg t .primary).trans
        (modifyOf (f := Screen.restoreCursor) (fun _ => hg rfl rfl) _ .primary)
    | true =>
      -- the cursor of the primary screen is saved, whichever is shown
      have hsaved : AgreeOn g kind t (t.modifyOf .primary Screen.saveCursor) := by
        cases kind with
        | primary => exact modifyOf (hsave rfl) t .primary
        | alternate => rfl
      exact (hsaved.trans (changeScreen hg _ .alternate)).trans
        (modifyOf (f := (·.eraseScreen .all)) (fun _ => hg rfl rfl) _ .alternate)
  | applicationCursor | pressReports | applicationKeypad | buttonReports | scrollOnOutput
  | scrollOnKey | bracketedPaste => exact of_eq rfl rfl

/-- **Many switches**, one after the other. -/
theorem foldl_setPrivate (hg : Screen.Deep g) {switches : List (PrivateMode × Bool)}
    (hsave : t.switchesOverwrite kind switches = true → ∀ s, g (Screen.saveCursor s) = g s) :
    AgreeOn g kind t (switches.foldl (fun t s => t.setPrivate s.1 s.2) t) := by
  induction switches generalizing t with
  | nil => exact refl t
  | cons s switches ih =>
    unfold switchesOverwrite at hsave
    rw [Bool.or_eq_true] at hsave
    exact (setPrivate hg fun hfirst => hsave (Or.inl hfirst)).trans
      (ih fun hrest => hsave (Or.inr hrest))

/-- **Actions on both screens**, but for a reset. -/
theorem onTerminal (hg : Screen.Deep g) {action : Action} (hreset : action ≠ .fullReset)
    (hsave : t.switchesOverwrite kind (t.switches action) = true →
      ∀ s, g (Screen.saveCursor s) = g s) : AgreeOn g kind t (t.onTerminal action) := by
  have hmodes : ∀ (modes : List Nat) (on : Bool), AgreeOn g kind t (t.setModes modes on) := by
    refine fun modes on => List.foldlRecOn (motive := AgreeOn g kind t) modes _ (refl t)
      fun t' ih mode _ => ih.trans ?_
    unfold setMode
    split
    · exact modifyScreen (f := fun s => { s with modes.insert := on }) (fun _ => hg rfl rfl) t'
    · exact refl t'
  cases action with
  | setPrivate modes | resetPrivate modes =>
    have hswitches := foldl_setPrivate hg hsave
    unfold switches at hswitches
    rw [List.foldl_map] at hswitches
    exact hswitches
  | restorePrivate modes =>
    have hswitches := foldl_setPrivate hg hsave
    unfold switches at hswitches
    rw [← restorePrivates_eq_foldl] at hswitches
    exact hswitches
  | savePrivate modes =>
    refine List.foldlRecOn (motive := AgreeOn g kind t) _ _ (refl t) fun t' ih mode _ => ?_
    unfold savePrivate
    split <;> exact ih
  | setModes modes => exact hmodes modes true
  | resetModes modes => exact hmodes modes false
  | fullReset => exact absurd rfl hreset
  | clearTabStop which =>
    simp only [Terminal.onTerminal, clearTabStop]
    split <;> exact of_eq rfl rfl
  | statusReport which =>
    simp only [Terminal.onTerminal, answer]
    split <;> exact of_eq rfl rfl
  | _ => exact of_eq rfl rfl

end AgreeOn

end Terminal

end VideoTerminal
