import VideoTerminal.Proofs.Checked.Action
import VideoTerminal.Proofs.Checked.Selection
import VideoTerminal.Proofs.Terminal.Consistent
import VideoTerminal.Proofs.Terminal.Growth
import VideoTerminal.Proofs.Terminal.Noted
/-!
# Feeding a terminal on a machine

After every action the rows that the screen reports become lines of the buffer,
which are counted with 32 bits, and the selection moves up by the lines that
left the history. All of that fits as long as the history is short: an action
adds no more than a screen to it. So what an action takes is that the terminal
is in order, which every action keeps, and a short history before it.
-/

namespace VideoTerminal

namespace Terminal

open Checked

variable {π : Type}

/-! ## What a machine does -/

/-- Tell the selection what became of the text of the screen that is shown. -/
def absorbDamageChecked (t : Terminal π) : Option (Terminal π) := do
  let damage := t.screen.damage
  let selector ← t.selector.evictedChecked damage.evicted
  match damage.rows with
  | none => pure { t.modifyScreen Screen.dropDamage with selector }
  | some (top, bottom) =>
    let base ← to32 t.screen.history.length
    let first ← add32 base top
    let last ← add32 base bottom
    pure { t.modifyScreen Screen.dropDamage with
      selector := selector.changed t.active first last }

section Bytes

variable [Printer π] [Glyph.Widths]

/-- The effect of an action. The printer counts nothing. -/
def actChecked (t : Terminal π) (action : Action) : Option (Outcome π) := do
  match action with
  | .printScreen => pure t.printScreen
  | .printData bytes => pure (t.print bytes)
  | .closePipe => pure t.flush
  | action => pure ⟨← t.performChecked action, none⟩

/-- The effect of an action, with the selection kept to what was selected. -/
def applyChecked (t : Terminal π) (action : Action) : Option (Outcome π) := do
  let o ← t.actChecked action
  match o.fault with
  | none => pure ⟨← o.terminal.absorbDamageChecked, none⟩
  | some _ => pure o

/-- The effect of actions, up to one that fails. -/
def applyAllChecked (t : Terminal π) : List Action → Option (Outcome π)
  | [] => pure ⟨t, none⟩
  | action :: rest => do
    let o ← t.applyChecked action
    match o.fault with
    | none => o.terminal.applyAllChecked rest
    | some _ => pure o

/-- Take bytes of the child program. -/
def feedChecked (t : Terminal π) (bytes : List UInt8) : Option (Outcome π) := do
  let (reader, actions) ← t.reader.feedChecked bytes
  let o ← ({ t with reader } : Terminal π).applyAllChecked actions
  pure (o.map (·.settle !bytes.isEmpty))

end Bytes

/-! ## Terminals in order -/

/-- What every action keeps, and what none fails with. -/
structure InOrder (rows cols : Nat) (t : Terminal π) : Prop where
  sound : t.Sound Row.Fits rows cols
  noted : t.Noted rows
  fitted : t.Fitted cols
  steady : t.Steady
  selects : t.Selects
  laid : t.Laid cols

/-- The history has lines enough left to count with 32 bits. -/
def Short (t : Terminal π) : Prop := t.primary.history.length < 2147483648

variable {rows cols : Nat} {t : Terminal π}

namespace InOrder

theorem withReader (h : t.InOrder rows cols) (reader : Reader) :
    ({ t with reader } : Terminal π).InOrder rows cols where
  sound := h.sound.of_eq rfl rfl
  noted := h.noted.of_eq rfl rfl
  fitted := h.fitted.of_eq rfl rfl
  steady := h.steady.of_same (Same.withReader t reader)
  selects := h.selects.of_eq rfl rfl
  laid := h.laid.of_eq rfl

/-- Only the primary screen has a history. -/
theorem length_lt (h : t.InOrder rows cols) (hshort : t.Short) (kind : ScreenKind) :
    (t.screenOf kind).history.length < 2147483648 := by
  cases kind with
  | primary => exact hshort
  | alternate =>
    have hnil : t.alternate.history.lines = [] := h.sound.alternate.history_nil
    change t.alternate.history.lines.length < 2147483648
    rw [hnil]
    decide

variable [Printer π]

theorem apply [Glyph.Widths] (h : t.InOrder rows cols) (action : Action) :
    (t.apply action).terminal.InOrder rows cols :=
  have hfollows := follows_apply Row.law_fits h.sound h.steady h.selects action
  { sound := h.sound.apply Row.law_fits action
    noted := (lasting_noted.apply ⟨h.sound, h.noted⟩ action).2
    fitted := (lasting_fitted.apply ⟨h.sound, h.fitted⟩ action).2
    steady := (steady_apply Row.law_fits h.sound h.steady action).1
    selects := hfollows.selects h.selects
    laid := hfollows.laid h.laid }

end InOrder

theorem Reach.inOrder [Glyph.Widths] [Printer π] (h : Reach rows cols t) : t.InOrder rows cols :=
  ⟨h.sound Row.law_fits, h.noted, h.fitted, h.steady, h.selects, h.laid⟩

/-! ## Nothing of it fails -/

theorem absorbDamageChecked_eq (hnoted : t.screen.Noted rows) (hlaid : t.Laid cols)
    (hrows : rows < 65536) (hlength : t.screen.history.length < 4294901760) :
    t.absorbDamageChecked = some t.absorbDamage := by
  unfold absorbDamageChecked absorbDamage
  dsimp only
  rw [Selector.evictedChecked_eq hlaid, Option.bind_eq_bind, Option.bind_some]
  cases hreport : t.screen.damage.rows with
  | none => rfl
  | some report =>
    obtain ⟨top, bottom⟩ := report
    obtain ⟨htop, hbottom⟩ := hnoted top bottom hreport
    dsimp only
    simp only [to32_eq (show t.screen.history.length < 4294967296 by omega),
      add32_eq (show t.screen.history.length + top < 4294967296 by omega),
      add32_eq (show t.screen.history.length + bottom < 4294967296 by omega),
      Option.bind_eq_bind, Option.bind_some]
    rfl

/-- A selection that is there before the reports are taken was there before the
action. -/
theorem InOrder.laid_perform [Glyph.Widths] (h : t.InOrder rows cols) (action : Action) :
    (t.perform action).Laid cols := by
  rcases t.perform_cases action h.sound h.steady.aligned with ⟨f, -, heq⟩ | hshows
  · rw [heq]
    exact h.laid.of_eq (modifyScreen_rest t f).2.2
  · rcases hshows.shown with hnew | hin
    · exact laid_of_gone hnew.gone
    · exact h.laid.of_eq hin.selector

section Bytes

variable [Printer π] [Glyph.Widths]

theorem actChecked_eq (h : t.InOrder rows cols) (hrows : rows < 65536) (hcols : cols < 65536)
    {action : Action} (hsmall : action.Small) : t.actChecked action = some (t.act action) := by
  have hperform := performChecked_eq h.sound hrows hcols (h.fitted.tabs ▸ hcols) hsmall
  cases action with
  | printScreen | printData | closePipe => rfl
  | _ =>
    unfold actChecked act
    dsimp only
    rw [hperform]
    rfl

/-- **One action.** -/
theorem applyChecked_eq (h : t.InOrder rows cols) (hrows : rows < 65536) (hcols : cols < 65536)
    (hshort : t.Short) {action : Action} (hsmall : action.Small) :
    t.applyChecked action = some (t.apply action) := by
  have hlength := h.length_lt hshort
  have habsorb : (t.act action).terminal.absorbDamageChecked =
      some (t.act action).terminal.absorbDamage := by
    rcases t.act_cases action with hsame | heq
    · -- a printer changes nothing that is reported or selected
      refine absorbDamageChecked_eq (h.noted.of_eq hsame.primary hsame.alternate).screen
        (h.laid.of_eq hsame.selector) hrows ?_
      rw [hsame.screen]
      exact Nat.lt_of_lt_of_le (hlength t.active) (by decide)
    · rw [heq]
      have hgrows := length_perform_le Row.law_fits h.sound action (t.perform action).active
      have hbefore := hlength (t.perform action).active
      refine absorbDamageChecked_eq (h.noted.perform Row.law_fits h.sound action).screen
        (h.laid_perform action) hrows ?_
      change ((t.perform action).screenOf (t.perform action).active).history.length < _
      omega
  unfold applyChecked apply Outcome.map Outcome.andThen
  rw [actChecked_eq h hrows hcols hsmall, Option.bind_eq_bind, Option.bind_some]
  cases (t.act action).fault with
  | none =>
    dsimp only
    rw [habsorb]
    rfl
  | some fault => rfl

/-- **All actions**, if the history is short before each of them. -/
theorem applyAllChecked_eq (h : t.InOrder rows cols) (hrows : rows < 65536)
    (hcols : cols < 65536) {actions : List Action} (hsmall : ∀ action ∈ actions, action.Small)
    (hshort : ∀ before action after, actions = before ++ action :: after →
      (t.applyAll before).terminal.Short) :
    t.applyAllChecked actions = some (t.applyAll actions) := by
  induction actions generalizing t with
  | nil => rfl
  | cons action rest ih =>
    have hone := applyChecked_eq h hrows hcols (hshort [] action rest rfl)
      (hsmall action List.mem_cons_self)
    unfold applyAllChecked applyAll
    rw [hone, Option.bind_eq_bind, Option.bind_some]
    cases hfault : (t.apply action).fault with
    | some fault =>
      unfold Outcome.andThen
      rw [hfault]
      rfl
    | none =>
      rw [Outcome.andThen_eq hfault]
      refine ih (h.apply action) (fun other hin => hsmall other (List.mem_cons_of_mem _ hin))
        fun before other after hrest => ?_
      have hbefore := hshort (action :: before) other after (by rw [hrest, List.cons_append])
      rwa [applyAll, Outcome.andThen_eq hfault] at hbefore

/-- **Bytes**, if the history is short before each of their actions. -/
theorem feedChecked_eq (h : t.InOrder rows cols) (hreads : t.reader.Small) (hrows : rows < 65536)
    (hcols : cols < 65536) {bytes : List UInt8}
    (hshort : ∀ before action after, (t.reader.feed bytes).2 = before ++ action :: after →
      (({ t with reader := (t.reader.feed bytes).1 } : Terminal π).applyAll
        before).terminal.Short) :
    t.feedChecked bytes = some (t.feed bytes) := by
  unfold feedChecked
  rw [Reader.feedChecked_eq, Option.bind_eq_bind, Option.bind_some]
  dsimp only
  rw [applyAllChecked_eq (h.withReader _) hrows hcols (hreads.feed bytes).2 hshort]
  rfl

end Bytes

end Terminal

end VideoTerminal
