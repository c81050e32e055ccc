import Mathlib.Logic.Function.Basic
import VideoTerminal.Proofs.Terminal.Steady
/-!
# Reports that are left over

After an action the screen that is shown is asked what it has to report of its
text. One request may switch many modes, and some of them change a screen while
others leave it: what the screen that is not shown any more would have to
report is not asked for. All that decides about this is which screen is shown
and which ones have something to report (`Ledger`). A run of switches is
followed there, switch by switch (`ledger_setPrivate`), and what is left over
is what the run leaves to the screen that is not shown (`damage_dropped_iff`).
-/

namespace VideoTerminal

/-- The private modes that choose the screen that is shown. -/
def PrivateMode.choosesScreen (mode : PrivateMode) : Bool :=
  mode == .alternate || mode == .alternateErased || mode == .alternateSaved

/-- The screen that such a mode chooses. -/
def ScreenKind.chosen (on : Bool) : ScreenKind := if on then .alternate else .primary

theorem ScreenKind.other_ne (kind : ScreenKind) : kind.other ≠ kind := by cases kind <;> decide

theorem ScreenKind.eq_or_eq_other (kind shown : ScreenKind) :
    kind = shown ∨ kind = shown.other := by
  cases kind <;> cases shown <;> decide

/-- Which screen is shown, and which ones have changed rows to report. -/
structure Ledger where
  shown : ScreenKind
  owes : ScreenKind → Bool

namespace Ledger

/-- Choose the screen that is shown. -/
def choose (l : Ledger) (kind : ScreenKind) : Ledger := { l with shown := kind }

/-- A screen has something to report from now on, or nothing any more. -/
def note (l : Ledger) (kind : ScreenKind) (owes : Bool) : Ledger :=
  { l with owes := Function.update l.owes kind owes }

theorem owes_note (l : Ledger) (kind : ScreenKind) (owes : Bool) (kind' : ScreenKind) :
    (l.note kind owes).owes kind' = if kind' = kind then owes else l.owes kind' :=
  Function.update_apply l.owes kind owes kind'

/-- What switching a private mode does to the ledger. -/
def switch (l : Ledger) (mode : PrivateMode) (on : Bool) : Ledger :=
  match mode with
  | .wideLines => l.note l.shown true
  | .alternate => l.choose (.chosen on)
  | .alternateErased =>
    if on then l.choose .alternate
    else if l.shown = .alternate then (l.note .alternate false).choose .primary
    else l
  | .alternateSaved => if on then (l.choose .alternate).note .alternate true else l.choose .primary
  | _ => l

/-- Switch modes one after the other, each to its own value. -/
def run (l : Ledger) (switches : List (PrivateMode × Bool)) : Ledger :=
  switches.foldl (fun l s => l.switch s.1 s.2) l

/-! ### Many modes to one value

Switched all on or all off, modes choose one screen. If it is shown already, no
switch concerns the other one; if not, it is shown from the first of them on
that chooses a screen.
-/

section

variable {l : Ledger} {on : Bool}

theorem run_append (switches switches' : List (PrivateMode × Bool)) :
    l.run (switches ++ switches') = (l.run switches).run switches' := List.foldl_append

/-- Once the screen that is chosen is shown, it stays so, and nothing happens to
the other one. -/
theorem run_chosen (hshown : l.shown = .chosen on) (modes : List PrivateMode) :
    (l.run (modes.map (·, on))).shown = l.shown ∧
      (l.run (modes.map (·, on))).owes l.shown.other = l.owes l.shown.other := by
  induction modes generalizing l with
  | nil => exact ⟨rfl, rfl⟩
  | cons mode modes ih =>
    have hstep : (l.switch mode on).shown = l.shown ∧
        (l.switch mode on).owes l.shown.other = l.owes l.shown.other := by
      have hne := l.shown.other_ne
      cases mode <;> cases on <;>
        simp_all [switch, choose, note, ScreenKind.chosen, ScreenKind.other]
    obtain ⟨hsame, howes⟩ := ih (hstep.1.trans hshown)
    rw [hstep.1] at hsame howes
    exact ⟨hsame, howes.trans hstep.2⟩

/-- As long as no screen is chosen the same one is shown, and only a switch of
its width gives it something to report. -/
theorem run_staying (on : Bool) {modes : List PrivateMode}
    (hstay : ∀ m ∈ modes, m.choosesScreen = false) :
    (l.run (modes.map (·, on))).shown = l.shown ∧
      ∀ kind, (l.run (modes.map (·, on))).owes kind = true ↔
        l.owes kind = true ∨ kind = l.shown ∧ .wideLines ∈ modes := by
  induction modes generalizing l with
  | nil => exact ⟨rfl, fun kind => by simp [run]⟩
  | cons mode modes ih =>
    obtain ⟨hmode, hrest⟩ := List.forall_mem_cons.1 hstay
    have hstep : (l.switch mode on).shown = l.shown ∧
        ∀ kind, (l.switch mode on).owes kind = true ↔
          l.owes kind = true ∨ kind = l.shown ∧ mode = .wideLines := by
      cases mode with
      | wideLines => exact ⟨rfl, fun kind => by simp [switch, owes_note, or_comm]⟩
      | alternate | alternateErased | alternateSaved => cases hmode
      | _ => exact ⟨rfl, fun kind => by simp [switch]⟩
    obtain ⟨hshown, howes⟩ := ih (l := l.switch mode on) hrest
    refine ⟨hshown.trans hstep.1, fun kind => (howes kind).trans ?_⟩
    rw [hstep.1, hstep.2 kind, List.mem_cons, eq_comm (a := PrivateMode.wideLines), or_assoc,
      and_or_left]

/-- The first mode that chooses the other screen leaves this one with what it
has to report, unless it erases what it leaves. -/
theorem switch_leaving (hshown : l.shown ≠ .chosen on) {mode : PrivateMode}
    (hmode : mode.choosesScreen = true) :
    (l.switch mode on).shown = .chosen on ∧
      ((l.switch mode on).owes (ScreenKind.chosen on).other = true ↔
        l.owes l.shown = true ∧ ¬ (mode = .alternateErased ∧ on = false)) := by
  have hother : (ScreenKind.chosen on).other = l.shown :=
    ((l.shown.eq_or_eq_other (.chosen on)).resolve_left hshown).symm
  cases mode with
  | alternate => exact ⟨rfl, by simp [switch, choose, hother]⟩
  | alternateErased =>
    cases on with
    | true => exact ⟨rfl, by simp [switch, choose, hother]⟩
    | false =>
      have halternate : l.shown = .alternate := hother.symm
      refine ⟨?_, ?_⟩
      · unfold switch
        dsimp only
        rw [if_neg Bool.false_ne_true, if_pos halternate]
        rfl
      · rw [hother]
        simp [switch, choose, owes_note, halternate]
  | alternateSaved =>
    cases on with
    | true =>
      have hprimary : l.shown = .primary := hother.symm
      exact ⟨rfl, by simp [switch, choose, owes_note, hother, hprimary]⟩
    | false => exact ⟨rfl, by simp [switch, choose, hother]⟩
  | _ => cases hmode

/-- The first mode of a request that chooses a screen settles what the screen it
leaves is owed: whatever comes behind it concerns the other screen alone. -/
theorem owes_run_first (hnone : ∀ kind, l.owes kind = false) {on : Bool}
    (hshown : l.shown ≠ .chosen on) {before after : List PrivateMode} {mode : PrivateMode}
    (hbefore : ∀ m ∈ before, m.choosesScreen = false) (hmode : mode.choosesScreen = true) :
    let l' := l.run ((before ++ mode :: after).map (·, on))
    l'.owes l'.shown.other = true ↔
      .wideLines ∈ before ∧ ¬ (mode = .alternateErased ∧ on = false) := by
  obtain ⟨hstay, howed⟩ := run_staying (l := l) on hbefore
  obtain ⟨hleft, hleaves⟩ := switch_leaving (hstay ▸ hshown) hmode
  obtain ⟨hsame, howes⟩ := run_chosen hleft after
  have hrun : l.run ((before ++ mode :: after).map (·, on)) =
      ((l.run (before.map (·, on))).switch mode on).run (after.map (·, on)) := by
    rw [List.map_append, run_append]
    rfl
  dsimp only
  rw [hrun, hsame, howes, hleft, hleaves, howed, hstay, hnone]
  simp

/-- **What a request that switches all its modes on, or all of them off, leaves
to the screen that it leaves**: what the width erased before, if the mode that
chose the other screen did not erase it once more. -/
theorem owes_run_iff (hnone : ∀ kind, l.owes kind = false) (on : Bool)
    (modes : List PrivateMode) :
    let l' := l.run (modes.map (·, on))
    l'.owes l'.shown.other = true ↔
      l.shown ≠ .chosen on ∧ ∃ before mode after, modes = before ++ mode :: after ∧
        (∀ m ∈ before, m.choosesScreen = false) ∧ .wideLines ∈ before ∧
        mode.choosesScreen = true ∧ ¬ (mode = .alternateErased ∧ on = false) := by
  intro l'
  by_cases hshown : l.shown = .chosen on
  · obtain ⟨hsame, howes⟩ := run_chosen hshown modes
    refine iff_of_false ?_ fun h => h.1 hshown
    change (l.run _).owes (l.run _).shown.other ≠ true
    rw [hsame, howes, hnone]
    exact Bool.false_ne_true
  · rw [and_iff_right hshown]
    constructor
    · intro howes
      cases hfind : modes.find? PrivateMode.choosesScreen with
      | none =>
        -- no screen was chosen, and the one that is not shown was left alone
        obtain ⟨hstay, howed⟩ := run_staying (l := l) on fun m hm =>
          Bool.eq_false_iff.2 (List.find?_eq_none.1 hfind m hm)
        change (l.run _).owes (l.run _).shown.other = true at howes
        rw [hstay, howed, hnone] at howes
        exact absurd howes (by simp [l.shown.other_ne])
      | some mode =>
        obtain ⟨hmode, before, after, hmodes, hbefore⟩ := List.find?_eq_some_iff_append.1 hfind
        have hbefore : ∀ m ∈ before, m.choosesScreen = false := fun m hm => by
          simpa using hbefore m hm
        subst hmodes
        obtain ⟨hwide, herased⟩ := (owes_run_first hnone hshown hbefore hmode).1 howes
        exact ⟨before, mode, after, rfl, hbefore, hwide, hmode, herased⟩
    · rintro ⟨before, mode, after, rfl, hbefore, hwide, hmode, herased⟩
      exact (owes_run_first hnone hshown hbefore hmode).2 ⟨hwide, herased⟩

end

end Ledger

theorem Damage.isSome_rows_addRows (d : Damage) (top bottom : Nat) :
    (d.addRows top bottom).rows.isSome = true := by
  unfold addRows
  cases d.rows <;> rfl

/-- Erasing a screen leaves it something to report. -/
theorem Screen.isSome_rows_eraseScreen_all (s : Screen) :
    (s.eraseScreen .all).damage.rows.isSome = true :=
  Damage.isSome_rows_addRows _ _ _

namespace Terminal

variable {π : Type} {rows cols : Nat} {t : Terminal π}

/-- The ledger of a terminal. -/
def ledger (t : Terminal π) : Ledger :=
  ⟨t.active, fun kind => (t.screenOf kind).damage.rows.isSome⟩

/-! ## One switch -/

theorem ledger_modifyOf (t : Terminal π) (kind : ScreenKind) (f : Screen → Screen) :
    (t.modifyOf kind f).ledger = t.ledger.note kind (f (t.screenOf kind)).damage.rows.isSome := by
  unfold ledger modifyOf Ledger.note
  cases kind with
  | primary | alternate =>
    congr 1
    funext kind
    cases kind <;> rfl

/-- A change of a screen that reports nothing. -/
theorem ledger_modifyOf_of_damage (t : Terminal π) (kind : ScreenKind) {f : Screen → Screen}
    (hf : ∀ s : Screen, (f s).damage = s.damage) : (t.modifyOf kind f).ledger = t.ledger := by
  rw [ledger_modifyOf, hf]
  unfold Ledger.note
  congr 1
  exact Function.update_eq_self kind t.ledger.owes

theorem ledger_changeScreen (t : Terminal π) (kind : ScreenKind) :
    (t.changeScreen kind).ledger = t.ledger.choose kind := by
  unfold changeScreen
  split
  · rename_i hactive
    subst hactive
    rfl
  · exact ledger_modifyOf_of_damage _ kind fun _ => rfl

theorem ledger_setAlternateErased (t : Terminal π) (on : Bool) :
    (t.setAlternateErased on).ledger = t.ledger.switch .alternateErased on := by
  unfold setAlternateErased Ledger.switch
  dsimp only
  cases on with
  | true => exact ledger_changeScreen t .alternate
  | false =>
    rw [if_neg Bool.false_ne_true, if_neg Bool.false_ne_true]
    by_cases hactive : t.active = .alternate
    · -- what the alternate screen would report is dropped
      have hshown : t.ledger.shown = .alternate := hactive
      rw [if_pos hactive, if_pos hshown, ledger_changeScreen]
      exact congrArg (Ledger.choose · .primary)
        (ledger_modifyOf t .alternate fun s => (s.eraseScreen .all).dropDamage)
    · have hshown : ¬ t.ledger.shown = .alternate := hactive
      rw [if_neg hactive, if_neg hshown]

theorem ledger_setAlternateSaved (t : Terminal π) (on : Bool) :
    (t.setAlternateSaved on).ledger = t.ledger.switch .alternateSaved on := by
  unfold setAlternateSaved Ledger.switch
  cases on with
  | true =>
    rw [if_pos rfl]
    have hsaved : ({ t with primary := t.primary.saveCursor } : Terminal π).ledger = t.ledger :=
      ledger_modifyOf_of_damage t .primary fun _ => rfl
    refine (ledger_modifyOf _ .alternate fun s => s.eraseScreen .all).trans ?_
    rw [ledger_changeScreen, hsaved, Screen.isSome_rows_eraseScreen_all]
    rfl
  | false =>
    rw [if_neg Bool.false_ne_true]
    have hback : ({ t.changeScreen .primary with
        primary := (t.changeScreen .primary).primary.restoreCursor } : Terminal π).ledger =
          (t.changeScreen .primary).ledger := ledger_modifyOf_of_damage _ .primary fun _ => rfl
    exact hback.trans (ledger_changeScreen t .primary)

/-- **Each switch does to the ledger what it does to the terminal.** -/
theorem ledger_setPrivate (t : Terminal π) (mode : PrivateMode) (on : Bool) :
    (t.setPrivate mode on).ledger = t.ledger.switch mode on := by
  cases mode with
  | wideLines =>
    refine (ledger_modifyOf _ _ _).trans ?_
    rw [Screen.isSome_rows_eraseScreen_all]
    rfl
  | reverseVideo =>
    simp only [setPrivate, setReverseVideo]
    split
    · rfl
    · exact ledger_modifyOf_of_damage _ _ fun _ => rfl
  | origin | autowrap | cursorVisible => exact ledger_modifyOf_of_damage _ _ fun _ => rfl
  | savedCursor =>
    refine ledger_modifyOf_of_damage _ _ fun s => ?_
    split <;> rfl
  | alternate => exact ledger_changeScreen t _
  | alternateErased => exact ledger_setAlternateErased t on
  | alternateSaved => exact ledger_setAlternateSaved t on
  | applicationCursor | pressReports | applicationKeypad | buttonReports | scrollOnOutput
  | scrollOnKey | bracketedPaste => rfl

/-! ## One action -/

/-- The switches of a request, one after the other. -/
def switches (t : Terminal π) : Action → List (PrivateMode × Bool)
  | .setPrivate modes => (modes.filterMap PrivateMode.ofNumber?).map (·, true)
  | .resetPrivate modes => (modes.filterMap PrivateMode.ofNumber?).map (·, false)
  | .restorePrivate modes =>
    (modes.filterMap PrivateMode.ofNumber?).filterMap fun mode =>
      (t.savedModes.lookup mode).map (mode, ·)
  | _ => []

/-- A run of switches does to the ledger what its switches do. -/
theorem ledger_foldl (switches : List (PrivateMode × Bool)) (t : Terminal π) :
    (switches.foldl (fun t s => t.setPrivate s.1 s.2) t).ledger = t.ledger.run switches := by
  induction switches generalizing t with
  | nil => rfl
  | cons s switches ih =>
    rw [List.foldl_cons, ih, ledger_setPrivate]
    rfl

theorem ledger_setPrivates (t : Terminal π) (modes : List Nat) (on : Bool) :
    (t.setPrivates modes on).ledger =
      t.ledger.run ((modes.filterMap PrivateMode.ofNumber?).map (·, on)) := by
  rw [← ledger_foldl, List.foldl_map]
  rfl

theorem savedModes_modifyScreen (t : Terminal π) (f : Screen → Screen) :
    (t.modifyScreen f).savedModes = t.savedModes := by
  unfold modifyScreen modifyOf
  cases t.active <;> rfl

theorem savedModes_changeScreen (t : Terminal π) (kind : ScreenKind) :
    (t.changeScreen kind).savedModes = t.savedModes := by
  unfold changeScreen
  split
  · rfl
  · exact savedModes_modifyScreen _ _

/-- Switching a mode leaves the values that were saved. -/
theorem savedModes_setPrivate (t : Terminal π) (mode : PrivateMode) (on : Bool) :
    (t.setPrivate mode on).savedModes = t.savedModes := by
  cases mode with
  | wideLines | origin | autowrap | cursorVisible | savedCursor =>
    exact savedModes_modifyScreen _ _
  | reverseVideo =>
    simp only [setPrivate, setReverseVideo]
    split
    · rfl
    · exact savedModes_modifyScreen _ _
  | alternate => exact savedModes_changeScreen t _
  | alternateErased =>
    simp only [setPrivate, setAlternateErased]
    split
    · exact savedModes_changeScreen t _
    · split
      · exact savedModes_changeScreen _ _
      · rfl
  | alternateSaved =>
    simp only [setPrivate, setAlternateSaved]
    split <;> exact savedModes_changeScreen _ _
  | applicationCursor | pressReports | applicationKeypad | buttonReports | scrollOnOutput
  | scrollOnKey | bracketedPaste => rfl

/-- A mode without a saved value is not switched. -/
theorem restorePrivates_eq_foldl (t : Terminal π) (modes : List PrivateMode) :
    modes.foldl restorePrivate t =
      (modes.filterMap fun mode => (t.savedModes.lookup mode).map (mode, ·)).foldl
        (fun t s => t.setPrivate s.1 s.2) t := by
  induction modes generalizing t with
  | nil => rfl
  | cons mode modes ih =>
    rw [List.foldl_cons, ih, List.filterMap_cons]
    unfold restorePrivate
    cases t.savedModes.lookup mode with
    | none => rfl
    | some on =>
      dsimp only [Option.map_some]
      rw [List.foldl_cons, savedModes_setPrivate]

/-- All that an action on both screens does to the ledger is what its switches
do, unless it resets the terminal. -/
theorem ledger_onTerminal (t : Terminal π) {action : Action} (hreset : action ≠ .fullReset) :
    (t.onTerminal action).ledger = t.ledger.run (t.switches action) := by
  have hmodes : ∀ (modes : List Nat) (on : Bool), (t.setModes modes on).ledger = t.ledger := by
    refine fun modes on => List.foldlRecOn
      (motive := fun t' : Terminal π => t'.ledger = t.ledger) modes _ rfl fun t' ih mode _ => ?_
    unfold setMode
    split
    · rw [← ih]
      exact ledger_modifyOf_of_damage _ _ fun _ => rfl
    · exact ih
  cases action with
  | setPrivate modes => exact ledger_setPrivates t modes true
  | resetPrivate modes => exact ledger_setPrivates t modes false
  | restorePrivate modes =>
    change ((modes.filterMap PrivateMode.ofNumber?).foldl restorePrivate t).ledger = _
    rw [restorePrivates_eq_foldl, ledger_foldl]
    rfl
  | savePrivate modes =>
    refine List.foldlRecOn (motive := fun t' : Terminal π => t'.ledger = t.ledger) _ _ rfl
      fun t' ih mode _ => ?_
    unfold savePrivate
    split <;> exact ih
  | setModes modes => exact hmodes modes true
  | resetModes modes => exact hmodes modes false
  | fullReset => exact absurd rfl hreset
  | clearTabStop which =>
    simp only [onTerminal, clearTabStop]
    split <;> rfl
  | statusReport which =>
    simp only [onTerminal, answer]
    split <;> rfl
  | _ => rfl

/-- An action on the screen that is shown switches nothing. -/
theorem switches_of_onScreen? [Glyph.Widths] (t : Terminal π) {tabs : TabStops} {action : Action}
    {f : Screen → Screen} (hf : onScreen? tabs action = some f) : t.switches action = [] := by
  cases action <;> first | rfl | cases hf

section

variable [Printer π] [Glyph.Widths]

/-- **Which screen is shown after an action, and what the other one owes**: what
its switches make of both, unless it resets the terminal. -/
theorem hidden_act (t : Terminal π) {action : Action} (hreset : action ≠ .fullReset) :
    let l := t.ledger.run (t.switches action)
    (t.act action).terminal.active = l.shown ∧
      (t.act action).terminal.ledger.owes l.shown.other = l.owes l.shown.other := by
  intro l
  cases hf : onScreen? t.tabs action with
  | some f =>
    have hl : l = t.ledger := by
      change t.ledger.run (t.switches action) = _
      rw [t.switches_of_onScreen? hf]
      rfl
    rw [t.act_onScreen? hf, hl]
    refine ⟨(modifyScreen_rest t f).1, ?_⟩
    -- only the screen that is shown may owe more than before
    have hledger : (t.modifyScreen f).ledger = _ := ledger_modifyOf t t.active f
    rw [hledger, Ledger.owes_note]
    exact if_neg t.active.other_ne
  | none =>
    have hledger : (t.act action).terminal.ledger = l := by
      have hsame : ∀ {t' : Terminal π}, t.Same t' → t'.ledger = t.ledger := by
        intro t' h
        unfold ledger screenOf
        rw [h.active, h.primary, h.alternate]
      unfold act
      split
      · exact hsame (same_printScreen t)
      · exact hsame (same_print t _)
      · exact hsame (same_flush t)
      · change (t.perform action).ledger = l
        unfold perform
        rw [hf]
        exact ledger_onTerminal t hreset
    rw [hledger]
    exact ⟨congrArg Ledger.shown hledger, rfl⟩

/-- After an action that was done to its end, the screen that is shown has
nothing left to report, and the other one has what it had before reports were
taken. -/
theorem ledger_apply {action : Action} (hdone : (t.apply action).fault = none) :
    (t.apply action).terminal.ledger =
      (t.act action).terminal.ledger.note (t.act action).terminal.active false := by
  have hact : (t.act action).fault = none := by
    cases hfault : (t.act action).fault with
    | none => rfl
    | some fault =>
      unfold apply Outcome.map Outcome.andThen at hdone
      rw [hfault] at hdone
      cases hdone.symm.trans hfault
  have hafter : (t.apply action).terminal = (t.act action).terminal.absorbDamage := by
    unfold apply Outcome.map Outcome.andThen
    rw [hact]
  rw [hafter]
  exact ledger_modifyOf _ _ Screen.dropDamage

/-- An action leaves nothing to report if the screen that is not shown owes
nothing. -/
theorem damage_eq_empty_iff (h : Reach rows cols t) (action : Action)
    (hdone : (t.apply action).fault = none) :
    let l := t.ledger.run (t.switches action)
    (∀ kind, ((t.apply action).terminal.screenOf kind).damage = {}) ↔
      action = .fullReset ∨ l.owes l.shown.other = false := by
  intro l
  have hsettled := (steady_apply Row.law_fits (h.sound Row.law_fits) h.steady action).1.settled
  have hempty : ∀ kind, ((t.apply action).terminal.screenOf kind).damage = {} ↔
      (t.apply action).terminal.ledger.owes kind = false := by
    intro kind
    have hevicted := hsettled kind
    change _ ↔ ((t.apply action).terminal.screenOf kind).damage.rows.isSome = false
    cases hdamage : ((t.apply action).terminal.screenOf kind).damage with
    | mk reported evicted =>
      rw [hdamage] at hevicted
      cases hevicted
      cases reported <;> simp
  have howes : ∀ kind, (t.apply action).terminal.ledger.owes kind =
      if kind = (t.act action).terminal.active then false
      else (t.act action).terminal.ledger.owes kind := by
    intro kind
    rw [ledger_apply hdone]
    exact Ledger.owes_note _ _ _ _
  by_cases hreset : action = .fullReset
  · -- both screens are told to forget what they have to report
    refine iff_of_true (fun kind => (hempty kind).2 ?_) (Or.inl hreset)
    rw [howes, hreset]
    split
    · rfl
    · cases kind <;> rfl
  · obtain ⟨hshown, hother⟩ := hidden_act t hreset
    rw [hshown] at howes
    rw [or_iff_right hreset, ← hother]
    constructor
    · intro hall
      have hhidden := (hempty _).1 (hall l.shown.other)
      rwa [howes, if_neg l.shown.other_ne] at hhidden
    · intro hnone kind
      rw [hempty, howes]
      rcases kind.eq_or_eq_other l.shown with heq | heq
      · rw [if_pos heq]
      · rw [heq, if_neg l.shown.other_ne]
        exact hnone

/-- **When a report is left over, by mistake.** After an action neither screen has
anything to report if and only if the action resets the terminal, or its
switches leave nothing to the screen that is not shown in the end. If there was
nothing to report before, a request that switches all its modes on, or all of
them off, leaves something just if the screen that is shown is not the one that
is chosen so, its width is switched before the first mode that chooses the other
one, and that mode does not erase it once more: that is what mode 1047 does when
it is switched off, and no other. -/
theorem damage_dropped_iff (h : Reach rows cols t) :
    (∀ action : Action, (t.apply action).fault = none →
      let l := t.ledger.run (t.switches action)
      (∀ kind, ((t.apply action).terminal.screenOf kind).damage = {}) ↔
        action = .fullReset ∨ l.owes l.shown.other = false) ∧
    ((∀ kind, (t.screenOf kind).damage = {}) → ∀ (modes : List Nat) (on : Bool),
      let t' := (t.apply (if on then .setPrivate modes else .resetPrivate modes)).terminal
      (∃ kind, (t'.screenOf kind).damage ≠ {}) ↔
        t.active ≠ .chosen on ∧ ∃ before mode after,
          modes.filterMap PrivateMode.ofNumber? = before ++ mode :: after ∧
            (∀ m ∈ before, m.choosesScreen = false) ∧ .wideLines ∈ before ∧
            mode.choosesScreen = true ∧ ¬ (mode = .alternateErased ∧ on = false)) := by
  refine ⟨fun action hdone => damage_eq_empty_iff h action hdone, fun hnone modes on => ?_⟩
  intro t'
  have howes : ∀ kind, t.ledger.owes kind = false := fun kind => by
    change (t.screenOf kind).damage.rows.isSome = false
    rw [hnone]
    rfl
  have howed := Ledger.owes_run_iff howes on (modes.filterMap PrivateMode.ofNumber?)
  refine Iff.trans ?_ howed
  generalize haction : (if on then Action.setPrivate modes else Action.resetPrivate modes) = action
  have hdone : (t.apply action).fault = none ∧ action ≠ .fullReset ∧
      t.switches action = (modes.filterMap PrivateMode.ofNumber?).map (·, on) := by
    rw [← haction]
    cases on <;> exact ⟨rfl, by simp, rfl⟩
  have hiff := damage_eq_empty_iff h action hdone.1
  dsimp only at hiff
  rw [or_iff_right hdone.2.1, hdone.2.2] at hiff
  rw [← Bool.not_eq_false, ← hiff]
  change (∃ kind, ((t.apply (if on then _ else _)).terminal.screenOf kind).damage ≠ {}) ↔ _
  rw [haction]
  exact not_forall.symm

end

attribute [local instance] Glyph.unicode

/-- The alternate screen is chosen before the width is switched, and nothing is
left over. -/
theorem damage_dropped_iff_chosenFirst :
    let action : Action := .setPrivate [47, 3]
    Reach 2 3 (plain 2 3) ∧ ((plain 2 3).apply action).fault = none ∧
      ∀ kind, (((plain 2 3).apply action).terminal.screenOf kind).damage = {} := by
  have hreach : Reach 2 3 (plain 2 3) := reach_plain 2 3 (by decide) (by decide)
  exact ⟨hreach, rfl, ((damage_dropped_iff hreach).1 (.setPrivate [47, 3]) rfl).2
    (Or.inr (by decide +kernel))⟩

/-- The other way round the primary screen is erased and left, and its rows are
still to be reported. -/
theorem not_damage_dropped :
    let action : Action := .setPrivate [3, 47]
    Reach 2 3 (plain 2 3) ∧ ((plain 2 3).apply action).fault = none ∧
      (((plain 2 3).apply action).terminal.screenOf .primary).damage = { rows := some (0, 1) } :=
  ⟨reach_plain 2 3 (by decide) (by decide), rfl, by decide +kernel⟩

end Terminal

end VideoTerminal
