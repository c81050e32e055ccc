import VideoTerminal.Proofs.Selection.Span
import VideoTerminal.Proofs.Terminal.Change
import VideoTerminal.Proofs.Terminal.Reach
/-!
# Between two actions

After every action the selection is told what the screen that is shown has to
report, so that no report of lines that left a history is left over; the view
lies in the history; and what is selected is selected on the screen that is
shown. A terminal of which this holds is steady. Every reachable one is.
-/

namespace VideoTerminal

namespace Terminal

variable {π : Type} {P : Nat → Row → Prop} {rows cols : Nat} {t t' : Terminal π}

/-! ## The screen that is shown -/

theorem screen_modifyScreen (t : Terminal π) (f : Screen → Screen) :
    (t.modifyScreen f).screen = f t.screen := by
  unfold modifyScreen modifyOf screen
  cases t.active <;> rfl

theorem screenOf_modifyScreen (t : Terminal π) (f : Screen → Screen) {kind : ScreenKind}
    (h : kind ≠ t.active) : (t.modifyScreen f).screenOf kind = t.screenOf kind := by
  unfold modifyScreen modifyOf screenOf
  cases hactive : t.active <;> cases kind <;> first | rfl | exact absurd hactive.symm h

theorem modifyScreen_rest (t : Terminal π) (f : Screen → Screen) :
    (t.modifyScreen f).active = t.active ∧ (t.modifyScreen f).viewOffset = t.viewOffset ∧
      (t.modifyScreen f).selector = t.selector := by
  unfold modifyScreen modifyOf
  cases t.active <;> exact ⟨rfl, rfl, rfl⟩

/-! ## Reports are taken -/

/-- A selection that outlives a report moved up by the lines that left the
history, and none of its lines is among those reported. -/
theorem of_absorbDamage {sel' : Selection} (h : t.absorbDamage.selector.current = some sel') :
    ∃ sel, t.selector.current = some sel ∧
      min t.screen.damage.evicted Position.maxLine ≤ sel.anchor.line ∧
      sel' = sel.up (min t.screen.damage.evicted Position.maxLine) ∧
      (sel.screen = t.active → ∀ i, t.screen.damage.Covers i →
        ¬ (sel'.anchor.line ≤ t.screen.history.length + i ∧
          t.screen.history.length + i ≤ sel'.extent.line)) := by
  unfold absorbDamage at h
  dsimp only at h
  split at h
  · rename_i hrows
    obtain ⟨sel, hsel, hle, hup⟩ := Selector.of_evicted h
    refine ⟨sel, hsel, hle, hup, ?_⟩
    rintro - i ⟨first, last, hsome, -⟩
    rw [hrows] at hsome
    cases hsome
  · rename_i top bottom hrows
    obtain ⟨hcurrent, htouches⟩ := Option.filter_eq_some_iff.1 h
    obtain ⟨sel, hsel, hle, hup⟩ := Selector.of_evicted hcurrent
    refine ⟨sel, hsel, hle, hup, ?_⟩
    rintro hactive i ⟨first, last, hsome, hi⟩ hin
    rw [hrows] at hsome
    cases hsome
    have hscreen : sel'.screen = t.active := by
      rw [hup]
      exact hactive
    simp only [hscreen, beq_self_eq_true, Bool.true_and, Selection.touches, Bool.not_eq_true',
      Bool.and_eq_false_iff, decide_eq_false_iff_not] at htouches
    omega

theorem screen_absorbDamage (t : Terminal π) : t.absorbDamage.screen = t.screen.dropDamage :=
  screen_modifyScreen t Screen.dropDamage

theorem screenOf_absorbDamage (t : Terminal π) {kind : ScreenKind} (h : kind ≠ t.active) :
    t.absorbDamage.screenOf kind = t.screenOf kind :=
  screenOf_modifyScreen t Screen.dropDamage h

theorem active_absorbDamage (t : Terminal π) : t.absorbDamage.active = t.active :=
  (modifyScreen_rest t Screen.dropDamage).1

theorem viewOffset_absorbDamage (t : Terminal π) : t.absorbDamage.viewOffset = t.viewOffset :=
  (modifyScreen_rest t Screen.dropDamage).2.1

/-! ## Steady terminals -/

/-- Nothing is left to report of a history, what is selected is on the screen
that is shown, and the view lies in its history. -/
structure Steady (t : Terminal π) : Prop where
  settled : t.Settled
  aligned : t.Aligned
  view : t.viewOffset ≤ t.screen.history.length

namespace Steady

theorem shows (h : t.Steady) (h' : t.Shows t') : t'.Steady := by
  refine ⟨h'.settled h.settled, h'.aligned h.aligned, ?_⟩
  rcases h'.shown with hnew | hin
  · rw [hnew.top]
    exact Nat.zero_le _
  · rw [hin.offset, hin.screen.history]
    exact h.view

theorem of_same (h : t.Steady) (hsame : t.Same t') : t'.Steady := h.shows (Shows.of_same hsame)

/-- Taking the reports leaves nothing to report, if the screen that is not
shown has nothing to report. -/
theorem absorbDamage (hother : ∀ kind, kind ≠ t.active → (t.screenOf kind).damage.evicted = 0)
    (ha : t.Aligned) (hv : t.viewOffset ≤ t.screen.history.length) : t.absorbDamage.Steady := by
  refine ⟨fun kind => ?_, fun sel' hsel' => ?_, ?_⟩
  · by_cases hkind : kind = t.active
    · have hscreen : t.absorbDamage.screenOf kind = t.screen.dropDamage := by
        rw [hkind, ← active_absorbDamage t]
        exact screen_absorbDamage t
      rw [hscreen]
      rfl
    · rw [screenOf_absorbDamage t hkind]
      exact hother kind hkind
  · obtain ⟨sel, hsel, -, rfl, -⟩ := of_absorbDamage hsel'
    rw [active_absorbDamage]
    exact ha sel hsel
  · rw [screen_absorbDamage, viewOffset_absorbDamage]
    exact hv

theorem viewAt (h : t.Steady) {offset : Nat} (hle : offset ≤ t.screen.history.length) :
    (t.viewAt offset).Steady := by
  unfold Terminal.viewAt
  split
  · exact h
  · have hmoved : ({ t with viewOffset := offset } : Terminal π).Steady :=
      ⟨h.settled, h.aligned, hle⟩
    exact hmoved.shows (shows_markAll _)

end Steady

/-- Nothing was done with the terminal since it got its size: nothing is left
to report of a history, nothing is selected, and the view is at the screen. -/
structure Fresh (t : Terminal π) : Prop where
  settled : t.Settled
  gone : t.selector.current = none
  top : t.viewOffset = 0

theorem fresh_create {config : Config} (h : Terminal.create config = .ok t) : t.Fresh := by
  unfold Terminal.create at h
  split at h
  · cases h
  · cases h
    refine ⟨fun kind => ?_, rfl, rfl⟩
    cases kind <;> rfl

theorem fresh_resize {height width : Nat} (h : t.resize height width = .ok t') : t'.Fresh := by
  unfold Terminal.resize at h
  split at h
  · cases h
  · cases h
    refine ⟨fun kind => ?_, rfl, rfl⟩
    cases kind <;> rfl

theorem Fresh.steady (h : t.Fresh) : t.Steady := by
  refine ⟨h.settled, fun sel hsel => ?_, ?_⟩
  · rw [h.gone] at hsel
    cases hsel
  · rw [h.top]
    exact Nat.zero_le _

/-! ## Actions -/

/-- A row that is clean after a change was clean before it, and what the
terminal shows is the same as far as that row and the history go. -/
def Redraws (t t' : Terminal π) : Prop :=
  ∀ i, t'.screen.grid.Clean i → t.screen.grid.Clean i ∧ t'.active = t.active ∧
    t'.viewOffset = t.viewOffset ∧ t'.screen.grid.rows[i]? = t.screen.grid.rows[i]? ∧
    t'.screen.history = t.screen.history

namespace Redraws

theorem refl (t : Terminal π) : t.Redraws t := fun _ h => ⟨h, rfl, rfl, rfl, rfl⟩

theorem trans {t'' : Terminal π} (h : t.Redraws t') (h' : t'.Redraws t'') : t.Redraws t'' := by
  intro i hi
  obtain ⟨hi', hactive', hoffset', hrow', hhistory'⟩ := h' i hi
  obtain ⟨hi, hactive, hoffset, hrow, hhistory⟩ := h i hi'
  exact ⟨hi, hactive'.trans hactive, hoffset'.trans hoffset, hrow'.trans hrow,
    hhistory'.trans hhistory⟩

theorem of_shows (h : t.Shows t') : t.Redraws t' := by
  intro i hi
  rcases h.shown with hnew | hin
  · exact absurd hi (hnew.marked i)
  · obtain ⟨hclean, hrow⟩ := hin.screen.clean i hi
    exact ⟨hclean, hin.active, hin.offset, hrow, hin.screen.history⟩

/-- A terminal that shows the same screen. -/
theorem of_eq (hactive : t'.active = t.active) (hoffset : t'.viewOffset = t.viewOffset)
    (hgrid : t'.screen.grid = t.screen.grid) (hhistory : t'.screen.history = t.screen.history) :
    t.Redraws t' := by
  intro i hi
  rw [hgrid] at hi ⊢
  exact ⟨hi, hactive, hoffset, rfl, hhistory⟩

theorem absorbDamage (t : Terminal π) : t.Redraws t.absorbDamage := by
  refine of_eq (active_absorbDamage t) (viewOffset_absorbDamage t) ?_ ?_
  · rw [screen_absorbDamage]
    rfl
  · rw [screen_absorbDamage]
    rfl

/-- Moving the view marks all rows. -/
theorem viewAt (t : Terminal π) (offset : Nat) : t.Redraws (t.viewAt offset) := by
  unfold Terminal.viewAt
  split
  · exact refl t
  · intro i hi
    have hnone : ¬ ({ t with viewOffset := offset } : Terminal π).markAll.screen.grid.Clean i := by
      unfold markAll modifyScreen modifyOf screen
      dsimp only
      cases t.active <;> exact Grid.not_clean_markAll
    exact absurd hi hnone

end Redraws

/-- What an action on the screen leaves of the marks. -/
theorem redraws_onScreen? [Glyph.Widths] (law : Row.Law P) {tabs : TabStops} {action : Action}
    {f : Screen → Screen} (hf : onScreen? tabs action = some f) {kind : ScreenKind} {s : Screen}
    (h : s.Sound P kind rows cols) : s.Redraws (f s) := by
  refine onScreen?_elim hf Screen.Amends.redraws ?_ ?_ ?_ ?_
  · exact Screen.redraws_print law h
  · exact Screen.redraws_index h
  · have hreturn : s.Amends s.carriageReturn := Screen.Amends.of_eq rfl rfl rfl
    exact hreturn.redraws.trans (Screen.redraws_index h.carriageReturn)
  · exact Screen.redraws_scrollBy h

/-- What an action does before its reports are taken: it does not touch the
screen that is not shown, or it moves no line. -/
theorem perform_cases [Glyph.Widths] (t : Terminal π) (action : Action) (hs : t.Sound P rows cols)
    (ha : t.Aligned) :
    (∃ f, onScreen? t.tabs action = some f ∧ t.perform action = t.modifyScreen f) ∨
      t.Shows (t.perform action) := by
  unfold perform
  cases hf : onScreen? t.tabs action with
  | some f => exact Or.inl ⟨f, rfl, rfl⟩
  | none => exact Or.inr (shows_onTerminal hs ha action)

theorem steady_perform [Glyph.Widths] (law : Row.Law P) (hs : t.Sound P rows cols) (h : t.Steady)
    (action : Action) : (t.perform action).absorbDamage.Steady ∧
      t.Redraws (t.perform action).absorbDamage := by
  rcases t.perform_cases action hs h.aligned with ⟨f, hf, heq⟩ | hshows
  · have hredraws := redraws_onScreen? law hf hs.screen
    obtain ⟨hactive, hoffset, hselector⟩ := modifyScreen_rest t f
    rw [heq]
    constructor
    · refine Steady.absorbDamage (fun kind hkind => ?_) (fun sel hsel => ?_) ?_
      · rw [hactive] at hkind
        rw [screenOf_modifyScreen t f hkind]
        exact h.settled kind
      · rw [hselector] at hsel
        rw [hactive]
        exact h.aligned sel hsel
      · rw [hoffset, screen_modifyScreen]
        exact Nat.le_trans h.view hredraws.grows
    · refine Redraws.trans (fun i hi => ?_) (Redraws.absorbDamage _)
      rw [screen_modifyScreen] at hi ⊢
      obtain ⟨hclean, hrow, hhistory⟩ := hredraws.clean i hi
      exact ⟨hclean, hactive, hoffset, hrow, hhistory⟩
  · have hsteady := h.shows hshows
    exact ⟨Steady.absorbDamage (fun kind _ => hsteady.settled kind) hsteady.aligned hsteady.view,
      (Redraws.of_shows hshows).trans (Redraws.absorbDamage _)⟩

theorem Same.andThen {o : Outcome π} (h : t.Same o.terminal) {f : Terminal π → Outcome π}
    (hf : ∀ t : Terminal π, t.Same (f t).terminal) : t.Same (o.andThen f).terminal := by
  unfold Outcome.andThen
  split
  · exact h.trans (hf _)
  · exact h

/-- The view of a steady terminal lies in its history as it is. -/
theorem settle_eq (h : t.Steady) (sent : Bool) :
    t.settle sent = if sent && t.modes.scrollOnOutput then t.snapView else t := by
  have hclamp : ∀ {t : Terminal π}, t.Steady →
      ({ t with viewOffset := min t.viewOffset t.screen.history.length } : Terminal π) = t :=
    fun h => by rw [Nat.min_eq_left h.view]
  have hsnap : t.snapView.Steady := h.viewAt (Nat.zero_le _)
  unfold settle
  split
  · exact hclamp hsnap
  · exact hclamp h

theorem steady_settle (h : t.Steady) (sent : Bool) :
    (t.settle sent).Steady ∧ t.Redraws (t.settle sent) := by
  rw [settle_eq h]
  split
  · exact ⟨h.viewAt (Nat.zero_le _), Redraws.viewAt t 0⟩
  · exact ⟨h, Redraws.refl t⟩

section Bytes

variable [Printer π]

/-- Printing changes nothing that is shown, whether it fails or not. -/
theorem same_print (t : Terminal π) (bytes : List UInt8) : t.Same (t.print bytes).terminal := by
  unfold print
  split
  · exact Same.refl t
  · dsimp only
    split <;> exact ⟨rfl, rfl, rfl, rfl, rfl⟩

theorem same_flush (t : Terminal π) : t.Same t.flush.terminal := by
  unfold flush
  split
  · exact Same.refl t
  · exact ⟨rfl, rfl, rfl, rfl, rfl⟩

theorem same_printScreen (t : Terminal π) : t.Same t.printScreen.terminal := by
  have htext := ((same_print t (String.ofList t.screenText).toUTF8.toList).andThen
    fun t => same_print t [0x0A]).andThen same_flush
  exact htext.andThen fun t => ⟨rfl, rfl, rfl, rfl, rfl⟩

variable [Glyph.Widths]

/-- An action either has the printer do something, or it cannot fail. -/
theorem act_cases (t : Terminal π) (action : Action) :
    t.Same (t.act action).terminal ∨ t.act action = ⟨t.perform action, none⟩ := by
  unfold act
  split
  · exact Or.inl (same_printScreen t)
  · exact Or.inl (same_print t _)
  · exact Or.inl (same_flush t)
  · exact Or.inr rfl

/-- An action on the screen cannot fail. -/
theorem act_onScreen? (t : Terminal π) {action : Action} {f : Screen → Screen}
    (hf : onScreen? t.tabs action = some f) : t.act action = ⟨t.modifyScreen f, none⟩ := by
  have hperform : t.perform action = t.modifyScreen f := by
    unfold perform
    rw [hf]
  rw [← hperform]
  cases action <;> first | rfl | cases hf

/-- **One action leaves a terminal steady, and marks what it changes.** -/
theorem steady_apply (law : Row.Law P) (hs : t.Sound P rows cols) (h : t.Steady)
    (action : Action) : (t.apply action).terminal.Steady ∧ t.Redraws (t.apply action).terminal := by
  unfold apply
  rcases t.act_cases action with hsame | heq
  · -- a printer leaves all that is shown alone, and reports are taken unless it fails
    have hshows := Shows.of_same hsame
    have hsteady := h.shows hshows
    unfold Outcome.map Outcome.andThen
    split
    · exact ⟨Steady.absorbDamage (fun kind _ => hsteady.settled kind) hsteady.aligned hsteady.view,
        (Redraws.of_shows hshows).trans (Redraws.absorbDamage _)⟩
    · exact ⟨hsteady, Redraws.of_shows hshows⟩
  · rw [heq]
    exact steady_perform law hs h action

theorem steady_applyAll (law : Row.Law P) (hs : t.Sound P rows cols) (h : t.Steady)
    (actions : List Action) :
    (t.applyAll actions).terminal.Steady ∧ t.Redraws (t.applyAll actions).terminal := by
  induction actions generalizing t with
  | nil => exact ⟨h, Redraws.refl t⟩
  | cons action actions ih =>
    obtain ⟨hsteady, hredraws⟩ := steady_apply law hs h action
    unfold applyAll Outcome.andThen
    split
    · obtain ⟨hsteady', hredraws'⟩ := ih (hs.apply law action) hsteady
      exact ⟨hsteady', hredraws.trans hredraws'⟩
    · exact ⟨hsteady, hredraws⟩

theorem feed_eq (t : Terminal π) (bytes : List UInt8) :
    t.feed bytes = ({ t with reader := (t.reader.feed bytes).1 }.applyAll
      (t.reader.feed bytes).2).map (·.settle !bytes.isEmpty) := rfl

theorem steady_feed (law : Row.Law P) (hs : t.Sound P rows cols) (h : t.Steady)
    (bytes : List UInt8) :
    (t.feed bytes).terminal.Steady ∧ t.Redraws (t.feed bytes).terminal := by
  have hread : t.Shows { t with reader := (t.reader.feed bytes).1 } :=
    Shows.of_same (Same.withReader t _)
  have hsound : ({ t with reader := (t.reader.feed bytes).1 } : Terminal π).Sound P rows cols :=
    hs.of_eq rfl rfl
  obtain ⟨hsteady, hredraws⟩ :=
    steady_applyAll law hsound (h.shows hread) (t.reader.feed bytes).2
  rw [feed_eq]
  generalize ({ t with reader := (t.reader.feed bytes).1 }.applyAll (t.reader.feed bytes).2) = o
    at hsteady hredraws ⊢
  unfold Outcome.map Outcome.andThen
  split
  · obtain ⟨hsettled, hsettle⟩ := steady_settle hsteady !bytes.isEmpty
    exact ⟨hsettled, ((Redraws.of_shows hread).trans hredraws).trans hsettle⟩
  · exact ⟨hsteady, (Redraws.of_shows hread).trans hredraws⟩

end Bytes

/-! ## The host -/

theorem steady_point (h : t.Steady) (p : Pointer) : (t.point p).Steady := by
  -- what is selected anew is selected on the screen that is shown
  have hselect : ∀ s : Selector, (∀ sel, s.current = some sel → sel.screen = t.active) →
      ({ t with selector := s } : Terminal π).Steady := fun s hs => ⟨h.settled, hs, h.view⟩
  have hextend : ∀ (b : Buffer) (place : Position),
      ({ t with selector := t.selector.extend b place } : Terminal π).Steady := by
    refine fun b place => hselect _ fun sel' hsel' => ?_
    obtain ⟨sel, hsel, rfl⟩ := Option.map_eq_some_iff.1 hsel'
    exact h.aligned sel hsel
  unfold point
  dsimp only
  split
  · split
    · exact h.of_same ⟨rfl, rfl, rfl, rfl, rfl⟩
    · exact h
  · unfold selectAt
    dsimp only
    split
    · refine hselect _ fun sel hsel => ?_
      cases hsel
      rfl
    · exact hextend _ _
    · exact hextend _ _
    · exact hextend _ _
    · exact h

theorem typeBytes_cases (t : Terminal π) (bytes : List UInt8) :
    t.typeBytes bytes = t.send bytes ∨ t.typeBytes bytes = (t.send bytes).viewAt 0 := by
  unfold typeBytes
  dsimp only
  split
  · exact Or.inr rfl
  · exact Or.inl rfl

theorem steady_typeBytes (h : t.Steady) (bytes : List UInt8) : (t.typeBytes bytes).Steady := by
  have hsent : (t.send bytes).Steady := h.of_same ⟨rfl, rfl, rfl, rfl, rfl⟩
  rcases t.typeBytes_cases bytes with heq | heq
  · rw [heq]
    exact hsent
  · rw [heq]
    exact hsent.viewAt (Nat.zero_le _)

theorem steady_clearMarks (h : t.Steady) : t.clearMarks.Steady := by
  obtain ⟨hactive, hoffset, hselector⟩ :=
    modifyScreen_rest t fun s => { s with grid := s.grid.clearMarks }
  refine ⟨fun kind => ?_, fun sel hsel => ?_, ?_⟩
  · have hdamage : (t.clearMarks.screenOf kind).damage = (t.screenOf kind).damage := by
      unfold clearMarks modifyScreen modifyOf
      cases t.active <;> cases kind <;> rfl
    rw [hdamage]
    exact h.settled kind
  · exact (h.aligned sel (hselector ▸ hsel)).trans hactive.symm
  · unfold clearMarks
    rw [screen_modifyScreen, hoffset]
    exact h.view

/-- **Every reachable terminal is steady.** -/
theorem Reach.steady [Glyph.Widths] [Printer π] (h : Reach rows cols t) : t.Steady := by
  induction h with
  | create h => exact (fresh_create h).steady
  | feed bytes h ih => exact (steady_feed Row.law_fits (h.sound Row.law_fits) ih bytes).1
  | resize hr _ _ => exact (fresh_resize hr).steady
  | point p _ ih => exact steady_point ih p
  | scrollView distance _ ih => exact ih.viewAt (Nat.min_le_right _ _)
  | changeScreen kind _ ih => exact ih.shows (shows_changeScreen ih.aligned kind)
  | fullReset h ih => exact ih.shows (shows_fullReset (h.sound Row.law_fits))
  | typeBytes bytes _ ih => exact steady_typeBytes ih bytes
  | paste bytes _ ih =>
    unfold Terminal.paste
    dsimp only
    split <;> exact ih.of_same ⟨rfl, rfl, rfl, rfl, rfl⟩
  | clearSelection _ ih => exact ⟨ih.settled, fun _ hsel => (by cases hsel), ih.view⟩
  | clearMarks _ ih => exact steady_clearMarks ih
  | shutdown _ ih => exact ⟨ih.settled, fun _ hsel => (by cases hsel), ih.view⟩
  | countClick | drained | usePrinter | closePipe =>
    rename_i ih
    exact ih.of_same ⟨rfl, rfl, rfl, rfl, rfl⟩

end Terminal

end VideoTerminal
