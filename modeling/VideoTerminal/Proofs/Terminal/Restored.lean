import VideoTerminal.Proofs.Screen.Redone
import VideoTerminal.Proofs.Terminal.Consistent
import VideoTerminal.Proofs.Terminal.Course
import VideoTerminal.Proofs.Terminal.Leftover
/-!
# Modes that are saved and restored

A child program saves the values of private modes to come back to them later. If
nothing was switched meanwhile, each mode is switched to the value that it has.
For most modes this does nothing. But a mode that erases, brings the cursor home or
comes back to a saved cursor does so whatever its value was, and then a terminal
stays as it was just if its screen leaves nothing to do (`restored_iff_idle`).
-/

namespace VideoTerminal

namespace Terminal

variable {π : Type} {rows cols : Nat} {t t' : Terminal π} {kind : ScreenKind}
  {mode : PrivateMode} {modes : List PrivateMode}

/-! ## What is saved -/

/-- The saved cursor is neither on nor off, and has no saved value. -/
def Valued (t : Terminal π) : Prop := ∀ saved ∈ t.savedModes, saved.1 ≠ .savedCursor

namespace Valued

theorem of_eq (h : t.Valued) (hsaved : t'.savedModes = t.savedModes) : t'.Valued := by
  intro saved hmem
  rw [hsaved] at hmem
  exact h saved hmem

theorem lookup (h : t.Valued) : t.savedModes.lookup .savedCursor = none :=
  List.lookup_eq_none_iff.2 fun saved hmem => bne_iff_ne.2 (h saved hmem).symm

theorem modifyScreen (h : t.Valued) (f : Screen → Screen) : (t.modifyScreen f).Valued :=
  h.of_eq (savedModes_modifyScreen t f)

theorem changeScreen (h : t.Valued) (kind : ScreenKind) : (t.changeScreen kind).Valued :=
  h.of_eq (savedModes_changeScreen t kind)

theorem setPrivate (h : t.Valued) (mode : PrivateMode) (on : Bool) :
    (t.setPrivate mode on).Valued :=
  h.of_eq (savedModes_setPrivate t mode on)

theorem savePrivate (h : t.Valued) (mode : PrivateMode) : (t.savePrivate mode).Valued := by
  unfold Terminal.savePrivate
  split
  · exact h
  · rename_i on hon
    refine List.forall_mem_cons.2 ⟨?_, fun saved hmem => h saved (List.mem_filter.1 hmem).1⟩
    rintro rfl
    cases hon

theorem onTerminal (h : t.Valued) (action : Action) : (t.onTerminal action).Valued := by
  cases action with
  | setPrivate modes => exact List.foldlRecOn _ _ h fun _ h mode _ => h.setPrivate mode true
  | resetPrivate modes => exact List.foldlRecOn _ _ h fun _ h mode _ => h.setPrivate mode false
  | savePrivate modes => exact List.foldlRecOn _ _ h fun _ h mode _ => h.savePrivate mode
  | restorePrivate modes =>
    refine List.foldlRecOn _ _ h fun t h mode _ => ?_
    unfold restorePrivate
    split
    · exact h
    · exact h.setPrivate mode _
  | setModes modes | resetModes modes =>
    refine List.foldlRecOn _ _ h fun t h mode _ => ?_
    unfold setMode
    split
    · exact h.modifyScreen _
    · exact h
  | fullReset => exact fun saved hmem => absurd hmem List.not_mem_nil
  | clearTabStop which =>
    simp only [Terminal.onTerminal, clearTabStop]
    split <;> exact h.of_eq rfl
  | statusReport which =>
    simp only [Terminal.onTerminal, answer]
    split <;> exact h.of_eq rfl
  | _ => exact h.of_eq rfl

end Valued

theorem lasting_valued [Glyph.Widths] : Lasting (Valued (π := π)) where
  aside _ _ _ h := h.of_eq rfl
  markAll h := h.modifyScreen _
  tell _ h := h.of_eq rfl
  perform {t} action h := by
    unfold Terminal.perform
    cases onScreen? t.tabs action with
    | some f => exact h.modifyScreen f
    | none => exact h.onTerminal action
  absorbDamage {t} h := (h.modifyScreen Screen.dropDamage).of_eq rfl

theorem Valued.viewAt [Glyph.Widths] (h : t.Valued) (offset : Nat) : (t.viewAt offset).Valued :=
  lasting_valued.viewAt h offset

theorem Reach.valued [Glyph.Widths] [Printer π] (h : Reach rows cols t) : t.Valued := by
  induction h with
  | create h =>
    unfold Terminal.create at h
    split at h
    · cases h
    · cases h
      exact fun saved hmem => absurd hmem List.not_mem_nil
  | feed bytes _ ih => exact lasting_valued.feed ih bytes
  | resize hr _ ih =>
    unfold Terminal.resize at hr
    split at hr
    · cases hr
    · cases hr
      exact ih.of_eq rfl
  | point p _ ih =>
    unfold Terminal.point selectAt
    dsimp only
    split
    · split <;> exact ih.of_eq rfl
    · split <;> exact ih.of_eq rfl
  | scrollView distance _ ih => exact ih.viewAt _
  | changeScreen kind _ ih => exact ih.changeScreen kind
  | fullReset => exact fun saved hmem => absurd hmem List.not_mem_nil
  | typeBytes bytes _ ih =>
    rename_i t _
    have hsent : (t.send bytes).Valued := ih.of_eq rfl
    rcases t.typeBytes_cases bytes with heq | heq
    · rw [heq]
      exact hsent
    · rw [heq]
      exact hsent.viewAt 0
  | paste bytes _ ih =>
    unfold Terminal.paste
    dsimp only
    split <;> exact ih.of_eq rfl
  | clearMarks _ ih => exact ih.modifyScreen _
  | countClick | clearSelection | drained | usePrinter | closePipe | shutdown =>
    rename_i ih
    exact ih.of_eq rfl

theorem lookup_filter_ne {mode' : PrivateMode} (h : mode' ≠ mode)
    (saved : List (PrivateMode × Bool)) :
    (saved.filter fun s => s.1 != mode).lookup mode' = saved.lookup mode' := by
  induction saved with
  | nil => rfl
  | cons s saved ih =>
    rw [List.filter_cons, List.lookup_cons]
    by_cases hs : s.1 = mode
    · rw [if_neg (by rw [hs, bne_self_eq_false]; exact Bool.false_ne_true), ih, hs,
        beq_false_of_ne h]
    · rw [if_pos (bne_iff_ne.2 hs), List.lookup_cons, ih]

theorem eq_savedCursor_of_privateMode? (h : t.privateMode? mode = none) : mode = .savedCursor := by
  cases mode <;> first | rfl | cases h

/-- Saving a mode leaves the saved values of the others. -/
theorem lookup_savePrivate (h : t.Valued) (mode mode' : PrivateMode) :
    (t.savePrivate mode).savedModes.lookup mode' =
      if mode' = mode then t.privateMode? mode else t.savedModes.lookup mode' := by
  unfold savePrivate
  by_cases hmode : mode' = mode
  · rw [if_pos hmode, hmode]
    split
    · rename_i hnone
      rw [hnone, eq_savedCursor_of_privateMode? hnone, h.lookup]
    · rename_i on hon
      rw [hon, List.lookup_cons_self]
  · rw [if_neg hmode]
    split
    · rfl
    · dsimp only
      rw [List.lookup_cons, beq_false_of_ne hmode, lookup_filter_ne hmode]

/-- Saving changes nothing but what is saved. -/
theorem savePrivates_eq (t : Terminal π) (modes : List PrivateMode) :
    modes.foldl savePrivate t =
      { t with savedModes := (modes.foldl savePrivate t).savedModes } := by
  induction modes using List.reverseRecOn with
  | nil => rfl
  | append_singleton modes mode ih =>
    rw [List.foldl_append, List.foldl_cons, List.foldl_nil, ih]
    unfold savePrivate
    split <;> rfl

/-- The saved values of the modes that were saved are those that they have. -/
theorem lookup_savePrivates (h : t.Valued) (hmode : mode ∈ modes) :
    (modes.foldl savePrivate t).savedModes.lookup mode = t.privateMode? mode := by
  induction modes using List.reverseRecOn with
  | nil => cases hmode
  | append_singleton modes mode' ih =>
    have hvalued : (modes.foldl savePrivate t).Valued :=
      List.foldlRecOn _ _ h fun _ h mode _ => h.savePrivate mode
    rw [List.foldl_append, List.foldl_cons, List.foldl_nil, lookup_savePrivate hvalued]
    split
    · rename_i heq
      rw [heq, savePrivates_eq]
      rfl
    · rename_i hne
      exact ih ((List.mem_append.1 hmode).resolve_right fun h => hne (List.mem_singleton.1 h))

/-! ## What is restored -/

/-- The screen that is shown changes by `f`. Which one is shown, the modes and their
saved values, and what can be told of the other screen stay. -/
structure Changed (f : Screen → Screen) (t t' : Terminal π) : Prop where
  active : t'.active = t.active
  modes : t'.modes = t.modes
  saved : t'.savedModes = t.savedModes
  screen : t'.screen = f t.screen
  hidden : (t.screenOf t.active.other).Alike (t'.screenOf t.active.other)

theorem Changed.refl (t : Terminal π) : Changed id t t := ⟨rfl, rfl, rfl, rfl, .refl _⟩

theorem modes_modifyScreen (t : Terminal π) (f : Screen → Screen) :
    (t.modifyScreen f).modes = t.modes := by
  unfold modifyScreen modifyOf
  cases t.active <;> rfl

theorem Changed.modifyScreen (t : Terminal π) (f : Screen → Screen) :
    Changed f t (t.modifyScreen f) where
  active := (modifyScreen_rest t f).1
  modes := modes_modifyScreen t f
  saved := savedModes_modifyScreen t f
  screen := screen_modifyScreen t f
  hidden := by
    rw [screenOf_modifyScreen t f t.active.other_ne]
    exact .refl _

theorem Changed.absorbDamage (t : Terminal π) : Changed Screen.dropDamage t t.absorbDamage :=
  have h := modifyScreen t Screen.dropDamage
  ⟨h.active, h.modes, h.saved, h.screen, h.hidden⟩

/-- A mode of the terminal that gets the value that it has. -/
theorem Changed.of_modes {modes : TerminalModes} (h : modes = t.modes) :
    Changed id t { t with modes } := ⟨rfl, h, rfl, rfl, .refl _⟩

theorem and_not_of_not_both {a b : Bool} (h : ¬ (a = true ∧ b = true)) : (b && !a) = b := by
  cases a <;> cases b <;> first | rfl | exact absurd ⟨rfl, rfl⟩ h

theorem changeScreen_of_active (h : t.active = kind) : t.changeScreen kind = t := if_pos h

/-- The primary screen comes back to its saved cursor once more. -/
theorem Changed.comeBack (h : t.active = .primary) :
    Changed Screen.restoreCursor t (t.setAlternateSaved false) := by
  have hback : t.setAlternateSaved false = t.modifyScreen Screen.restoreCursor := by
    unfold setAlternateSaved
    rw [if_neg Bool.false_ne_true, changeScreen_of_active h, modifyScreen_primary h]
  rw [hback]
  exact .modifyScreen t _

/-- The alternate screen is erased once more, and the cursor of the primary one is
saved behind it. -/
theorem Changed.enter (h : t.active = .alternate) :
    Changed (·.eraseScreen .all) t (t.setAlternateSaved true) := by
  have henter : t.setAlternateSaved true =
      { t with primary := t.primary.saveCursor, alternate := t.alternate.eraseScreen .all } := by
    unfold setAlternateSaved
    have hsaved := changeScreen_of_active (t := { t with primary := t.primary.saveCursor }) h
    rw [if_pos rfl]
    dsimp only
    rw [hsaved]
  rw [henter]
  refine ⟨rfl, rfl, rfl, ?_, ?_⟩
  · unfold Terminal.screen screenOf
    dsimp only
    rw [h]
  · unfold screenOf
    rw [h]
    exact ⟨rfl, rfl, rfl, rfl⟩

/-- **Switched to the value that it has, a mode changes no more than the screen that
is shown.** The modes of that screen may have come back to others meanwhile, and get
the values that they had. -/
theorem Changed.setPrivate {t₀ : Terminal π} {on : Bool} (hactive : t.active = t₀.active)
    (hmodes : t.modes = t₀.modes)
    (hreports : ¬ (t.modes.pressReports = true ∧ t.modes.buttonReports = true))
    (hon : t₀.privateMode? mode = some on) :
    Changed (Screen.redo t₀.active t₀.screen · mode) t (t.setPrivate mode on) := by
  cases mode with
  | applicationCursor | applicationKeypad | scrollOnOutput | scrollOnKey | bracketedPaste =>
    cases hon
    exact .of_modes (by rw [← hmodes])
  | wideLines =>
    cases hon
    have hsame : ({ t with modes.wideLines := t₀.modes.wideLines } : Terminal π) = t := by
      rw [← hmodes]
    have hset : t.setWideLines t₀.modes.wideLines =
        t.modifyScreen fun s => (s.setRegion 0 s.lastRow).eraseScreen .all :=
      congrArg (Terminal.modifyScreen · _) hsame
    change Changed _ t (t.setWideLines _)
    rw [hset]
    exact .modifyScreen t _
  | reverseVideo =>
    cases hon
    have hsame : t.setReverseVideo t₀.modes.reverseVideo = t := if_pos (by rw [hmodes])
    change Changed _ t (t.setReverseVideo _)
    rw [hsame]
    exact .refl t
  | pressReports =>
    cases hon
    refine .of_modes ?_
    rw [← hmodes, and_not_of_not_both hreports]
  | buttonReports =>
    cases hon
    refine .of_modes ?_
    rw [← hmodes, and_not_of_not_both fun h => hreports h.symm]
  | origin | autowrap | cursorVisible =>
    cases hon
    exact .modifyScreen t _
  | alternate =>
    cases hon
    have hstay : t.changeScreen (if t₀.active == .alternate then .alternate else .primary) = t :=
      changeScreen_of_active (hactive.trans (by cases t₀.active <;> rfl))
    change Changed _ t (t.changeScreen _)
    rw [hstay]
    exact .refl t
  | alternateErased =>
    cases hon
    have hstay : t.setAlternateErased (t₀.active == .alternate) = t := by
      unfold setAlternateErased
      cases hkind : t₀.active with
      | primary =>
        rw [if_neg (by decide), if_neg (by rw [hactive, hkind]; decide)]
      | alternate =>
        rw [if_pos (by decide)]
        exact changeScreen_of_active (hactive.trans hkind)
    change Changed _ t (t.setAlternateErased _)
    rw [hstay]
    exact .refl t
  | alternateSaved =>
    cases hon
    cases hkind : t₀.active with
    | primary => exact .comeBack (hactive.trans hkind)
    | alternate => exact .enter (hactive.trans hkind)
  | savedCursor => cases hon

/-- What became of `t₀` when each mode of a run was switched to the value that it has
there. -/
structure Retraced (t₀ : Terminal π) (modes : List PrivateMode) (t : Terminal π) : Prop where
  active : t.active = t₀.active
  screen : t₀.screen.Redone t₀.active modes t.screen
  hidden : (t₀.screenOf t₀.active.other).Alike (t.screenOf t₀.active.other)
  modes : t.modes = t₀.modes
  saved : t.savedModes = t₀.savedModes

namespace Retraced

variable {P : Nat → Row → Prop} {shown : ScreenKind} {t₀ : Terminal π}

theorem nil (t : Terminal π) : t.Retraced [] t :=
  ⟨rfl, .nil _ _, .refl _, rfl, rfl⟩

/-- **One mode more.** -/
theorem restore (hs : t₀.screen.Sound P shown rows cols)
    (hreports : ¬ (t₀.modes.pressReports = true ∧ t₀.modes.buttonReports = true))
    (hvalue : t₀.savedModes.lookup mode = t₀.privateMode? mode) (h : t₀.Retraced modes t) :
    t₀.Retraced (modes ++ [mode]) (t.restorePrivate mode) := by
  have hredone := h.screen.redo hs mode
  unfold restorePrivate
  rw [h.saved, hvalue]
  cases hon : t₀.privateMode? mode with
  | none =>
    cases eq_savedCursor_of_privateMode? hon
    exact ⟨h.active, hredone, h.hidden, h.modes, h.saved⟩
  | some on =>
    have hreports' : ¬ (t.modes.pressReports = true ∧ t.modes.buttonReports = true) := by
      rw [h.modes]
      exact hreports
    have hset := Changed.setPrivate h.active h.modes hreports' hon
    have hhidden := hset.hidden
    rw [h.active] at hhidden
    refine ⟨hset.active.trans h.active, ?_, h.hidden.trans hhidden, hset.modes.trans h.modes,
      hset.saved.trans h.saved⟩
    dsimp only
    rw [hset.screen]
    exact hredone

/-- **The whole run**, from the first mode to the last. -/
theorem restoreAll (hs : t.screen.Sound P shown rows cols)
    (hreports : ¬ (t.modes.pressReports = true ∧ t.modes.buttonReports = true))
    (hvalue : ∀ mode ∈ modes, t.savedModes.lookup mode = t.privateMode? mode) :
    t.Retraced modes (modes.foldl restorePrivate t) := by
  induction modes using List.reverseRecOn with
  | nil => exact nil t
  | append_singleton modes mode ih =>
    rw [List.foldl_append, List.foldl_cons, List.foldl_nil]
    exact (ih fun mode hmem => hvalue mode (List.mem_append_left _ hmem)).restore hs hreports
      (hvalue mode List.mem_concat_self)

end Retraced

/-! ## Saved and restored -/

/-- All that can be told of a terminal by its private modes, by which screen it shows
and by both screens is the same. -/
structure Undisturbed (t t' : Terminal π) : Prop where
  modes : ∀ mode, t'.privateMode? mode = t.privateMode? mode
  active : t'.active = t.active
  screens : ∀ kind, (t.screenOf kind).Alike (t'.screenOf kind)

theorem privateMode?_congr (hactive : t'.active = t.active) (hmodes : t'.modes = t.modes)
    (hscreen : t'.screen.modes = t.screen.modes) (mode : PrivateMode) :
    t'.privateMode? mode = t.privateMode? mode := by
  cases mode <;> simp only [privateMode?, hactive, hmodes, hscreen]

/-- As far as the screen that is shown decides. -/
theorem undisturbed_iff_alike (hactive : t'.active = t.active) (hmodes : t'.modes = t.modes)
    (hhidden : (t.screenOf t.active.other).Alike (t'.screenOf t.active.other)) :
    t.Undisturbed t' ↔ t.screen.Alike t'.screen := by
  have hscreen : t'.screen = t'.screenOf t.active := congrArg t'.screenOf hactive
  rw [hscreen]
  constructor
  · exact fun h => h.screens t.active
  · intro h
    refine ⟨privateMode?_congr hactive hmodes ?_, hactive, fun kind => ?_⟩
    · rw [hscreen]
      exact h.modes
    · rcases kind.eq_or_eq_other t.active with heq | heq
      · rw [heq]
        exact h
      · rw [heq]
        exact hhidden

/-- Modes were saved, and it was asked what there was to report: what the modes have
is what was saved of them. -/
theorem lookup_saved (h : t.Valued) (hmode : mode ∈ modes) :
    let t' := (modes.foldl savePrivate t).absorbDamage
    t'.savedModes.lookup mode = t'.privateMode? mode := by
  intro t'
  have habsorbed := Changed.absorbDamage (modes.foldl savePrivate t)
  have hkept := savePrivates_eq t modes
  have hscreen : t'.screen.modes = t.screen.modes := by
    rw [habsorbed.screen, hkept]
    rfl
  rw [habsorbed.saved, lookup_savePrivates h hmode]
  exact (privateMode?_congr (habsorbed.active.trans (congrArg Terminal.active hkept))
    (habsorbed.modes.trans (congrArg Terminal.modes hkept)) hscreen mode).symm

section

variable [Printer π] [Glyph.Widths]

/-- **What becomes of a terminal** whose modes are saved and at once restored. -/
theorem applyAll_save_restore (h : Reach rows cols t) (numbers : List Nat) :
    let r := t.applyAll [.savePrivate numbers, .restorePrivate numbers]
    r.fault = none ∧ r.terminal.active = t.active ∧ r.terminal.modes = t.modes ∧
      (t.screenOf t.active.other).Alike (r.terminal.screenOf t.active.other) ∧
      t.screen.Redone t.active (numbers.filterMap PrivateMode.ofNumber?) r.terminal.screen := by
  intro r
  generalize hmodes : numbers.filterMap PrivateMode.ofNumber? = modes
  have hrun : r = ⟨(modes.foldl restorePrivate
      (modes.foldl savePrivate t).absorbDamage).absorbDamage, none⟩ := by
    rw [← hmodes]
    rfl
  have hsaved : modes.foldl savePrivate t = _ := savePrivates_eq t modes
  have hbefore := Changed.absorbDamage (modes.foldl savePrivate t)
  have hlookup := fun mode (hmode : mode ∈ modes) => lookup_saved h.valued hmode
  generalize (modes.foldl savePrivate t).absorbDamage = t₁ at hrun hbefore hlookup
  rw [hsaved] at hbefore
  have hactive : t₁.active = t.active := hbefore.active
  have hsame : t₁.modes = t.modes := hbefore.modes
  have hscreen : t₁.screen = t.screen.dropDamage := hbefore.screen
  have hhidden : (t.screenOf t.active.other).Alike (t₁.screenOf t.active.other) := hbefore.hidden
  have hretraced : t₁.Retraced modes (modes.foldl restorePrivate t₁) := by
    have hsound : t₁.screen.Sound Row.Fits t.active rows cols := by
      rw [hscreen]
      exact (h.sound Row.law_fits).screen.dropDamage
    refine .restoreAll hsound ?_ hlookup
    rw [hsame]
    exact h.fitted.reports
  generalize modes.foldl restorePrivate t₁ = t₂ at hrun hretraced
  have hafter := Changed.absorbDamage t₂
  rw [hrun]
  refine ⟨rfl, hafter.active.trans (hretraced.active.trans hactive),
    hafter.modes.trans (hretraced.modes.trans hsame), ?_, ?_⟩
  · have hstill := hretraced.hidden
    have hagain := hafter.hidden
    rw [hretraced.active] at hagain
    rw [hactive] at hstill hagain
    exact (hhidden.trans hstill).trans hagain
  · have hredone := hretraced.screen
    rw [hactive, hscreen] at hredone
    dsimp only
    rw [hafter.screen]
    exact hredone.of_dropDamage.dropDamage

/-- **When saving private modes and restoring them at once changes nothing.** It never
fails. The same screen is shown afterwards, the modes of the terminal are the same, and
so is what can be told of the screen that is not shown. The values of the private modes
and what can be told of the screen that is shown are the same just if the run of modes
finds nothing to do there. A run without the width, the origin and the alternate
screen with the saved cursor finds nothing to do on any screen. -/
theorem restored_iff_idle (h : Reach rows cols t) (numbers : List Nat) :
    let r := t.applyAll [.savePrivate numbers, .restorePrivate numbers]
    let modes := numbers.filterMap PrivateMode.ofNumber?
    r.fault = none ∧ r.terminal.active = t.active ∧ r.terminal.modes = t.modes ∧
      (t.screenOf t.active.other).Alike (r.terminal.screenOf t.active.other) ∧
      (t.Undisturbed r.terminal ↔ t.screen.Idle t.active modes) ∧
      ((∀ mode ∈ modes, mode.cancels = false) → t.Undisturbed r.terminal) := by
  intro r modes
  obtain ⟨hdone, hactive, hmodes, hhidden, hredone⟩ := applyAll_save_restore h numbers
  have hiff : t.Undisturbed r.terminal ↔ t.screen.Idle t.active modes :=
    (undisturbed_iff_alike hactive hmodes hhidden).trans hredone.alike_iff
  exact ⟨hdone, hactive, hmodes, hhidden, hiff, fun hnone => hiff.2 (.of_none hnone)⟩

end

attribute [local instance] Glyph.unicode

/-- On an empty screen, with the cursor at home, even the width and the origin do
nothing. -/
theorem restored_iff_idle_empty :
    let t := ((plain 2 3).feed [0x1B, 0x5B, 0x3F, 0x35, 0x68]).terminal
    let r := t.applyAll [.savePrivate [3, 5, 6], .restorePrivate [3, 5, 6]]
    Reach 2 3 t ∧ t.modes.reverseVideo = true ∧ t.Undisturbed r.terminal := by
  intro t r
  have hreach : Reach 2 3 t :=
    (reach_plain 2 3 (by decide) (by decide)).feed [0x1B, 0x5B, 0x3F, 0x35, 0x68]
  have hidle : t.screen.Idle t.active ([3, 5, 6].filterMap PrivateMode.ofNumber?) := by
    refine ⟨by decide, fun _ => by decide, by decide, fun hany => ?_, fun hlast => ?_,
      fun hlast => ?_⟩
    · cases hany
    · cases hlast
    · cases hlast
  exact ⟨hreach, by decide, (restored_iff_idle hreach [3, 5, 6]).2.2.2.2.1.2 hidle⟩

/-- What was written is erased, and the cursor goes home, though the width was saved
as it was. -/
theorem not_restored :
    let t := ((plain 2 3).feed [0x61, 0x62]).terminal
    let r := t.applyAll [.savePrivate [3], .restorePrivate [3]]
    Reach 2 3 t ∧ ¬ t.Undisturbed r.terminal := by
  intro t r
  have hreach : Reach 2 3 t := (reach_plain 2 3 (by decide) (by decide)).feed [0x61, 0x62]
  have hmoved : (r.terminal.screenOf .primary).cursor ≠ (t.screenOf .primary).cursor := by decide
  exact ⟨hreach, fun h => hmoved (h.screens .primary).cursor⟩

end Terminal

end VideoTerminal
