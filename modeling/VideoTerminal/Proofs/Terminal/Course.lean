import VideoTerminal.Proofs.Screen.Bare
import VideoTerminal.Terminal.Feed
/-!
# What an action can do

Whatever a child program sends, a few changes are all that can become of it: a
screen changes without going by its past, the cursor of the primary screen is
saved, another screen is shown, something is sent or told, or else something
changes that is neither. What is done may depend on what is in sight, and that
is all of a terminal but the past of its screens, the selection, the view, the
reader, the printer and the queues. A course is made of such changes. So what
holds of these changes holds of everything that a child program can do.
-/

namespace VideoTerminal

namespace Terminal

variable {π : Type} {t : Terminal π}

/-- What is in sight of a terminal. -/
def sight (t : Terminal π) : Terminal π where
  config := { answerback := t.config.answerback }
  primary := t.primary.bare
  alternate := t.alternate.bare
  active := t.active
  selector := default
  clicks := default
  tabs := t.tabs
  modes := t.modes
  savedModes := t.savedModes
  title := t.title
  iconName := t.iconName

/-- The second terminal has the screens of the first one, of which it shows the
same one, its configuration and its queues. -/
def Akin (t t' : Terminal π) : Prop :=
  t' = { t' with
    config := t.config
    primary := t.primary
    alternate := t.alternate
    active := t.active
    output := t.output
    events := t.events }

/-- A course of changes, each of which is done by what is in sight. -/
inductive Course : (Terminal π → Terminal π) → Prop
  | skip : Course fun t => t
  | comp {f g : Terminal π → Terminal π} (hg : Course g) (hf : Course f) : Course fun t => g (f t)
  | reading {α : Type} {p : Terminal π → α} {f : α → Terminal π → Terminal π}
      (hp : ∀ t, p t.sight = p t) (hf : ∀ a, Course (f a)) : Course fun t => f (p t) t
  /-- The screen that is shown changes. -/
  | shown {f : Screen → Screen} (hf : Screen.Heedless f) : Course fun t => t.modifyScreen f
  /-- The alternate screen changes, shown or not. -/
  | alternate {f : Screen → Screen} (hf : Screen.Heedless f) :
      Course fun t => t.modifyOf .alternate f
  /-- The cursor of the primary screen is saved, shown or not. -/
  | saved : Course fun t => t.modifyOf .primary Screen.saveCursor
  /-- A screen is shown. -/
  | switched (kind : ScreenKind) : Course fun t => t.changeScreen kind
  | sent (bytes : List UInt8) : Course fun t => t.send bytes
  /-- The host is told something else than that a screen is shown. -/
  | told (event : Event) (hother : ∀ kind, event ≠ .screenChanged kind) :
      Course fun t => t.tell event
  /-- Something else changes. -/
  | akin {f : Terminal π → Terminal π} (hakin : ∀ t : Terminal π, t.Akin (f t))
      (hsight : ∀ t, (f t.sight).sight = (f t).sight) : Course f

/-! ## What is in sight -/

theorem screen_sight (t : Terminal π) : t.sight.screen = t.screen.bare := by
  unfold screen screenOf
  dsimp only [sight]
  cases t.active <;> rfl

theorem screenText_sight (t : Terminal π) : t.sight.screenText = t.screenText := by
  unfold screenText
  rw [screen_sight]
  rfl

theorem active_changeScreen (t : Terminal π) (kind : ScreenKind) :
    (t.changeScreen kind).active = kind := by
  unfold changeScreen
  split
  · assumption
  · cases kind <;> rfl

theorem modifyScreen_primary (h : t.active = .primary) (f : Screen → Screen) :
    t.modifyScreen f = { t with primary := f t.primary } := by
  unfold modifyScreen modifyOf
  rw [h]

theorem modifyScreen_alternate (h : t.active = .alternate) (f : Screen → Screen) :
    t.modifyScreen f = { t with alternate := f t.alternate } := by
  unfold modifyScreen modifyOf
  rw [h]

@[simp] theorem active_modifyOf (t : Terminal π) (kind : ScreenKind) (f : Screen → Screen) :
    (t.modifyOf kind f).active = t.active := by
  cases kind <;> rfl

@[simp] theorem output_modifyOf (t : Terminal π) (kind : ScreenKind) (f : Screen → Screen) :
    (t.modifyOf kind f).output = t.output := by
  cases kind <;> rfl

@[simp] theorem events_modifyOf (t : Terminal π) (kind : ScreenKind) (f : Screen → Screen) :
    (t.modifyOf kind f).events = t.events := by
  cases kind <;> rfl

/-- Showing another screen tells so, and nothing else is sent or told. -/
theorem queues_changeScreen (t : Terminal π) (kind : ScreenKind) :
    (t.changeScreen kind).output = t.output ∧ (t.changeScreen kind).events =
      t.events ++ if t.active = kind then [] else [.screenChanged kind] := by
  unfold changeScreen
  by_cases hsame : t.active = kind
  · rw [if_pos hsame, if_pos hsame, List.append_nil]
    exact ⟨rfl, rfl⟩
  · rw [if_neg hsame, if_neg hsame]
    cases kind <;> exact ⟨rfl, rfl⟩

theorem sight_modifyOf {f : Screen → Screen} (hf : Screen.Heedless f) (t : Terminal π)
    (kind : ScreenKind) : (t.sight.modifyOf kind f).sight = (t.modifyOf kind f).sight := by
  cases kind with
  | primary =>
    exact congrArg (fun primary => { t.sight with primary }) (hf.bare t.primary)
  | alternate =>
    exact congrArg (fun alternate => { t.sight with alternate }) (hf.bare t.alternate)

theorem sight_changeScreen (t : Terminal π) (kind : ScreenKind) :
    (t.sight.changeScreen kind).sight = (t.changeScreen kind).sight := by
  have hrendition : t.sight.screen.rendition = t.screen.rendition := by
    rw [screen_sight]
    rfl
  have hactive : t.sight.active = t.active := rfl
  unfold changeScreen
  dsimp only
  rw [hrendition, hactive]
  split
  · rfl
  · cases kind <;> rfl

/-- The screen that is shown once the host was told all this, if `kind` was
shown before. -/
def shownAfter (kind : ScreenKind) (told : List Event) : ScreenKind :=
  told.foldl (fun kind event =>
    match event with
    | .screenChanged kind => kind
    | _ => kind) kind

/-- All is forgotten that is not on a screen. -/
def forget (t : Terminal π) : Terminal π :=
  { t with
    tabs := TabStops.fresh t.screen.cols
    modes := {}
    savedModes := []
    title := ""
    iconName := ""
    selector := t.selector.clear
    viewOffset := 0 }

namespace Course

variable {f g : Terminal π → Terminal π}

/-! ## What a course goes by -/

/-- What is in sight afterwards depends on what was in sight before. -/
theorem sight (hf : Course f) (t : Terminal π) : (f t.sight).sight = (f t).sight := by
  induction hf generalizing t with
  | skip => rfl
  | comp _ _ ihg ihf => rw [← ihg, ihf, ihg]
  | reading hp _ ih =>
    dsimp only
    rw [hp]
    exact ih _ t
  | shown hf =>
    have hactive : t.sight.active = t.active := rfl
    unfold modifyScreen
    dsimp only
    rw [hactive]
    exact sight_modifyOf hf t t.active
  | alternate hf => exact sight_modifyOf hf t .alternate
  | saved =>
    have hsave : Screen.Heedless Screen.saveCursor := ⟨fun _ => rfl, fun _ => rfl⟩
    exact sight_modifyOf hsave t .primary
  | switched kind => exact sight_changeScreen t kind
  | sent | told => rfl
  | akin _ hsight => exact hsight t

/-- And so does what is sent and told meanwhile. -/
theorem queues (hf : Course f) (t : Terminal π) :
    (f t).output = t.output ++ (f t.sight).output ∧
      (f t).events = t.events ++ (f t.sight).events := by
  induction hf generalizing t with
  | skip => exact ⟨(List.append_nil _).symm, (List.append_nil _).symm⟩
  | comp hg hf ihg ihf =>
    rename_i f g
    obtain ⟨hout, hevents⟩ := ihg (f t)
    obtain ⟨hout', hevents'⟩ := ihg (f t.sight)
    rw [hout, hevents, hout', hevents', (ihf t).1, (ihf t).2, hf.sight, List.append_assoc,
      List.append_assoc]
    exact ⟨rfl, rfl⟩
  | reading hp _ ih =>
    dsimp only
    rw [hp]
    exact ih _ t
  | shown | alternate | saved =>
    simp only [modifyScreen, output_modifyOf, events_modifyOf]
    exact ⟨(List.append_nil _).symm, (List.append_nil _).symm⟩
  | switched kind =>
    obtain ⟨hout, hevents⟩ := queues_changeScreen t kind
    obtain ⟨hout', hevents'⟩ := queues_changeScreen t.sight kind
    rw [hout, hevents, hout', hevents']
    exact ⟨(List.append_nil _).symm, rfl⟩
  | sent => exact ⟨rfl, (List.append_nil _).symm⟩
  | told => exact ⟨(List.append_nil _).symm, rfl⟩
  | akin hakin _ =>
    have hsame := hakin t
    have hsame' := hakin t.sight
    rw [hsame, hsame']
    exact ⟨(List.append_nil _).symm, (List.append_nil _).symm⟩

/-- **The host can tell which screen is shown**: it is told of every switch, and
of no other. -/
theorem active_eq (hf : Course f) (t : Terminal π) :
    (f t).active = shownAfter t.active (f t.sight).events := by
  induction hf generalizing t with
  | skip => rfl
  | comp hg hf ihg ihf =>
    rename_i f g
    rw [ihg (f t), ihf t, (hg.queues (f t.sight)).2, hf.sight]
    exact List.foldl_append.symm
  | reading hp _ ih =>
    dsimp only
    rw [hp]
    exact ih _ t
  | shown | alternate | saved =>
    simp only [modifyScreen, active_modifyOf, events_modifyOf]
    rfl
  | sent => rfl
  | switched kind =>
    have hactive : t.sight.active = t.active := rfl
    rw [(queues_changeScreen t.sight kind).2, active_changeScreen, hactive]
    by_cases hsame : t.active = kind
    · rw [if_pos hsame]
      exact hsame.symm
    · rw [if_neg hsame]
      rfl
  | told event hother =>
    cases event with
    | screenChanged kind => exact absurd rfl (hother kind)
    | _ => rfl
  | akin hakin =>
    rw [hakin t, hakin t.sight]
    rfl

/-! ## Switching -/

theorem ite {c : Terminal π → Prop} [DecidablePred c] (hc : ∀ t, c t.sight ↔ c t) (hf : Course f)
    (hg : Course g) : Course fun t => if c t then f t else g t := by
  have hchoice : ∀ b : Bool, Course fun t => if b = true then f t else g t := by
    intro b
    cases b with
    | false => exact hg
    | true => exact hf
  have hread := reading (p := fun t => decide (c t)) (fun t => decide_eq_decide.2 (hc t)) hchoice
  simp only [decide_eq_true_eq] at hread
  exact hread

theorem foldl {α : Type} {step : Terminal π → α → Terminal π}
    (hstep : ∀ a, Course fun t => step t a) (as : List α) :
    Course fun t : Terminal π => as.foldl step t := by
  induction as with
  | nil => exact skip
  | cons a as ih => exact ih.comp (hstep a)

theorem markAll : Course (markAll : Terminal π → Terminal π) :=
  shown ⟨fun _ => rfl, fun _ => rfl⟩

theorem fullReset : Course (fullReset : Terminal π → Terminal π) := by
  have hreset : Screen.Heedless fun s => s.reset.dropDamage := ⟨fun _ => rfl, fun _ => rfl⟩
  have hforget : Course (forget : Terminal π → Terminal π) := by
    refine akin (fun _ => rfl) fun t => ?_
    unfold forget
    rw [screen_sight]
    rfl
  have heq : (Terminal.fullReset : Terminal π → Terminal π) = fun t =>
      ((t.changeScreen .primary).forget.modifyScreen fun s => s.reset.dropDamage).modifyOf
        .alternate fun s => s.reset.dropDamage := by
    funext t
    have hactive : (t.changeScreen .primary).forget.active = .primary :=
      active_changeScreen t .primary
    rw [modifyScreen_primary hactive]
    rfl
  rw [heq]
  exact (alternate hreset).comp ((shown hreset).comp (hforget.comp (switched .primary)))

theorem setPrivate (mode : PrivateMode) (on : Bool) :
    Course fun t : Terminal π => t.setPrivate mode on := by
  cases mode with
  | wideLines =>
    have herase : Screen.Heedless fun s => (s.setRegion 0 s.lastRow).eraseScreen .all :=
      ⟨fun _ => rfl, fun _ => rfl⟩
    exact (shown herase).comp (f := fun t => { t with modes.wideLines := on })
      (akin (fun _ => rfl) fun _ => rfl)
  | reverseVideo =>
    refine ite (fun _ => Iff.rfl) skip ?_
    exact markAll.comp (f := fun t => { t with modes.reverseVideo := on })
      (akin (fun _ => rfl) fun _ => rfl)
  | origin =>
    exact shown (f := fun s => { s with modes.origin := on }.home) ⟨fun _ => rfl, fun _ => rfl⟩
  | autowrap => exact shown (f := (·.setAutowrap on)) ⟨fun _ => rfl, fun _ => rfl⟩
  | cursorVisible =>
    exact shown (f := fun s => { s with modes.cursorVisible := on }) ⟨fun _ => rfl, fun _ => rfl⟩
  | alternate => exact switched _
  | alternateErased =>
    have herase : Screen.Heedless fun s => (s.eraseScreen .all).dropDamage :=
      ⟨fun _ => rfl, fun _ => rfl⟩
    refine ite (fun _ => Iff.rfl) (switched .alternate) ?_
    exact ite (fun _ => Iff.rfl) ((switched .primary).comp (alternate herase)) skip
  | savedCursor =>
    refine shown ?_
    split <;> exact ⟨fun _ => rfl, fun _ => rfl⟩
  | alternateSaved =>
    have herase : Screen.Heedless (·.eraseScreen .all) := ⟨fun _ => rfl, fun _ => rfl⟩
    refine ite (fun _ => Iff.rfl) ((alternate herase).comp ((switched .alternate).comp saved)) ?_
    have hrestore : Screen.Heedless Screen.restoreCursor := ⟨fun _ => rfl, fun _ => rfl⟩
    have heq : (fun t : Terminal π => { t.changeScreen .primary with
        primary := (t.changeScreen .primary).primary.restoreCursor }) = fun t =>
        (t.changeScreen .primary).modifyScreen Screen.restoreCursor := by
      funext t
      rw [modifyScreen_primary (active_changeScreen t .primary)]
    rw [heq]
    exact (shown hrestore).comp (switched .primary)
  | applicationCursor | pressReports | applicationKeypad | buttonReports | scrollOnOutput
  | scrollOnKey | bracketedPaste => exact akin (fun _ => rfl) fun _ => rfl

/-! ## Actions -/

theorem savePrivate (mode : PrivateMode) : Course fun t : Terminal π => t.savePrivate mode := by
  refine akin (fun t => ?_) fun t => ?_
  · unfold Terminal.savePrivate
    split <;> rfl
  · have hvalue : t.sight.privateMode? mode = t.privateMode? mode := by
      unfold privateMode?
      rw [screen_sight]
      cases mode <;> rfl
    unfold Terminal.savePrivate
    rw [hvalue]
    cases t.privateMode? mode <;> rfl

theorem restorePrivate (mode : PrivateMode) :
    Course fun t : Terminal π => t.restorePrivate mode := by
  have hrestore : ∀ savedModes : List (PrivateMode × Bool), Course fun t : Terminal π =>
      ({ t with savedModes } : Terminal π).restorePrivate mode := by
    intro savedModes
    have hput : Course fun t : Terminal π => { t with savedModes } :=
      akin (fun _ => rfl) fun _ => rfl
    unfold Terminal.restorePrivate
    dsimp only
    cases savedModes.lookup mode with
    | none => exact hput
    | some on => exact (setPrivate mode on).comp hput
  exact reading (p := Terminal.savedModes) (fun _ => rfl) hrestore

theorem setMode (mode : Nat) (on : Bool) : Course fun t : Terminal π => t.setMode mode on :=
  ite (fun _ => Iff.rfl)
    (shown (f := fun s => { s with modes.insert := on }) ⟨fun _ => rfl, fun _ => rfl⟩) skip

theorem setTitle (text : String) : Course fun t : Terminal π => t.setTitle text :=
  (told (.titleChanged text) nofun).comp (f := fun t => { t with title := text })
    (akin (fun _ => rfl) fun _ => rfl)

theorem setIconName (text : String) : Course fun t : Terminal π => t.setIconName text :=
  (told (.iconNameChanged text) nofun).comp (f := fun t => { t with iconName := text })
    (akin (fun _ => rfl) fun _ => rfl)

theorem answer (which : Nat) : Course fun t : Terminal π => t.answer which := by
  unfold Terminal.answer
  split
  · exact sent statusReport
  · refine reading (p := fun t => positionReport t.screen) (fun t => ?_) sent
    rw [screen_sight]
    rfl
  · exact skip

theorem clearTabStop (which : Nat) : Course fun t : Terminal π => t.clearTabStop which := by
  unfold Terminal.clearTabStop
  split
  · refine akin (fun _ => rfl) fun t => ?_
    rw [screen_sight]
    rfl
  · exact akin (fun _ => rfl) fun _ => rfl
  · exact skip

theorem onTerminal (action : Action) : Course fun t : Terminal π => t.onTerminal action := by
  have hanswerback : Course fun t : Terminal π => t.send t.config.answerback :=
    reading (p := fun t => t.config.answerback) (fun _ => rfl) sent
  cases action with
  | setPrivate modes => exact foldl (fun mode => setPrivate mode true) _
  | resetPrivate modes => exact foldl (fun mode => setPrivate mode false) _
  | savePrivate modes => exact foldl savePrivate _
  | restorePrivate modes => exact foldl restorePrivate _
  | setModes modes => exact foldl (fun mode => setMode mode true) modes
  | resetModes modes => exact foldl (fun mode => setMode mode false) modes
  | fullReset => exact fullReset
  | setTabStop =>
    refine akin (fun _ => rfl) fun t => ?_
    dsimp only [Terminal.onTerminal]
    rw [screen_sight]
    rfl
  | clearTabStop which => exact clearTabStop which
  | applicationKeypad | numericKeypad => exact akin (fun _ => rfl) fun _ => rfl
  | primaryAttributes | enquiry => exact hanswerback
  | secondaryAttributes => exact sent versionReport
  | statusReport which => exact answer which
  | setTitles text => exact (setIconName text).comp (setTitle text)
  | setTitle text => exact setTitle text
  | setIconName text => exact setIconName text
  | bell | setColour | extension => exact told _ nofun
  | _ => exact skip

/-- No action on the screen goes by its past. -/
theorem heedless_onScreen? [Glyph.Widths] {tabs : TabStops} {action : Action}
    {f : Screen → Screen} (hf : Terminal.onScreen? tabs action = some f) : Screen.Heedless f := by
  cases action with
  | print c => cases hf; exact Screen.Heedless.print c
  | lineFeed => cases hf; exact Screen.Heedless.index
  | index => cases hf; exact Screen.Heedless.index
  | reverseIndex => cases hf; exact Screen.Heedless.reverseIndex
  | nextLine =>
    cases hf
    exact Screen.Heedless.index.comp (f := Screen.carriageReturn) ⟨fun _ => rfl, fun _ => rfl⟩
  | backspace => cases hf; exact Screen.Heedless.backspace
  | scrollUp n => cases hf; exact Screen.Heedless.scrollBy _
  | scrollDown n => cases hf; exact Screen.Heedless.scrollBy _
  | insertLines n => cases hf; exact Screen.Heedless.editLines n Screen.Heedless.shiftDown
  | deleteLines n => cases hf; exact Screen.Heedless.editLines n Screen.Heedless.shiftUp
  | insertCells n => cases hf; exact Screen.Heedless.editCells n _
  | deleteCells n => cases hf; exact Screen.Heedless.editCells n _
  | eraseCells n => cases hf; exact Screen.Heedless.editCells n _
  | eraseScreen part => cases hf; exact Screen.Heedless.eraseScreen part
  | backIndex => cases hf; exact Screen.Heedless.backIndex
  | forwardIndex => cases hf; exact Screen.Heedless.forwardIndex
  | carriageReturn | tab | forwardTab | backTab | invoke | designate | cursorUp | cursorDown
  | cursorRight | cursorLeft | nextLines | previousLines | column | row | position | setRegion
  | eraseLine | select | saveCursor | restoreCursor | align =>
    cases hf
    exact ⟨fun _ => rfl, fun _ => rfl⟩
  | _ => cases hf

theorem perform [Glyph.Widths] (action : Action) :
    Course fun t : Terminal π => t.perform action := by
  have hperform : ∀ tabs : TabStops, Course fun t : Terminal π =>
      ({ t with tabs } : Terminal π).perform action := by
    intro tabs
    have hput : Course fun t : Terminal π => { t with tabs } := akin (fun _ => rfl) fun _ => rfl
    unfold Terminal.perform
    dsimp only
    cases hf : onScreen? tabs action with
    | some f => exact (shown (heedless_onScreen? hf)).comp hput
    | none => exact (onTerminal action).comp hput
  exact reading (p := Terminal.tabs) (fun _ => rfl) hperform

theorem absorbDamage : Course (absorbDamage : Terminal π → Terminal π) := by
  have htaken : Course fun t : Terminal π => { t with selector := t.absorbDamage.selector } :=
    akin (fun _ => rfl) fun _ => rfl
  have heq : (Terminal.absorbDamage : Terminal π → Terminal π) = fun t =>
      { t with selector := t.absorbDamage.selector }.modifyScreen Screen.dropDamage := by
    funext t
    unfold Terminal.absorbDamage modifyScreen modifyOf
    dsimp only
    cases t.active <;> rfl
  have hdrop : Screen.Heedless Screen.dropDamage := ⟨fun _ => rfl, fun _ => rfl⟩
  rw [heq]
  exact (shown hdrop).comp htaken

end Course

/-! ## Bytes -/

/-- A terminal after a course from another one. -/
def Takes (t t' : Terminal π) : Prop := ∃ f, Course f ∧ f t = t'

namespace Takes

variable {t' t'' : Terminal π}

theorem of_course {f : Terminal π → Terminal π} (hf : Course f) (t : Terminal π) :
    t.Takes (f t) := ⟨f, hf, rfl⟩

theorem refl (t : Terminal π) : t.Takes t := of_course Course.skip t

theorem trans (h : t.Takes t') (h' : t'.Takes t'') : t.Takes t'' := by
  obtain ⟨f, hf, rfl⟩ := h
  obtain ⟨g, hg, rfl⟩ := h'
  exact ⟨fun t => g (f t), hg.comp hf, rfl⟩

/-- **What the host is told about screens is what is shown.** -/
theorem active_eq (h : t.Takes t') :
    ∃ told, t'.events = t.events ++ told ∧ t'.active = shownAfter t.active told := by
  obtain ⟨f, hf, rfl⟩ := h
  exact ⟨(f t.sight).events, (hf.queues t).2, hf.active_eq t⟩

/-- Another reader, another printer and another offset of the view are out of
sight. -/
theorem aside (t : Terminal π) (reader : Reader) (printer : Option π) (viewOffset : Nat) :
    t.Takes { t with reader, printer, viewOffset } :=
  ⟨fun t => { t with reader, printer, viewOffset }, .akin (fun _ => rfl) fun _ => rfl, rfl⟩

theorem viewAt (t : Terminal π) (offset : Nat) : t.Takes (t.viewAt offset) := by
  unfold Terminal.viewAt
  split
  · exact refl t
  · exact (aside t t.reader t.printer offset).trans (of_course Course.markAll _)

theorem settle (t : Terminal π) (sent : Bool) : t.Takes (t.settle sent) := by
  unfold Terminal.settle
  dsimp only
  split
  · exact (viewAt t 0).trans (aside _ _ _ _)
  · exact aside t _ _ _

/-- What comes next is taken whether it is done or not. -/
theorem andThen {o : Outcome π} (h : t.Takes o.terminal) {f : Terminal π → Outcome π}
    (hf : ∀ t : Terminal π, t.Takes (f t).terminal) : t.Takes (o.andThen f).terminal := by
  unfold Outcome.andThen
  split
  · exact h.trans (hf _)
  · exact h

theorem map {o : Outcome π} (h : t.Takes o.terminal) {f : Terminal π → Terminal π}
    (hf : ∀ t : Terminal π, t.Takes (f t)) : t.Takes (o.map f).terminal :=
  h.andThen hf

variable [Printer π]

theorem print (t : Terminal π) (bytes : List UInt8) : t.Takes (t.print bytes).terminal := by
  unfold Terminal.print
  split
  · exact refl t
  · dsimp only
    split
    · exact aside t t.reader _ t.viewOffset
    · exact aside t _ _ t.viewOffset

theorem flush (t : Terminal π) : t.Takes t.flush.terminal := by
  unfold Terminal.flush
  split
  · exact refl t
  · exact aside t t.reader _ t.viewOffset

theorem printScreen (t : Terminal π) : t.Takes t.printScreen.terminal := by
  unfold Terminal.printScreen
  dsimp only
  refine map (andThen (andThen (print t _) fun t => ?_) flush) fun t =>
    of_course (Course.told (.printScreen _) nofun) t
  exact print t [0x0A]

theorem act [Glyph.Widths] (t : Terminal π) (action : Action) :
    t.Takes (t.act action).terminal := by
  unfold Terminal.act
  split
  · exact printScreen t
  · exact print t _
  · exact flush t
  · exact of_course (Course.perform action) t

theorem apply [Glyph.Widths] (t : Terminal π) (action : Action) :
    t.Takes (t.apply action).terminal :=
  (act t action).map fun t => of_course Course.absorbDamage t

theorem applyAll [Glyph.Widths] (t : Terminal π) (actions : List Action) :
    t.Takes (t.applyAll actions).terminal := by
  induction actions generalizing t with
  | nil => exact refl t
  | cons action actions ih => exact (apply t action).andThen ih

/-- **Whatever a child program sends, it takes a course**, also where the
printer fails in the middle of it. -/
theorem feed [Glyph.Widths] (t : Terminal π) (bytes : List UInt8) :
    t.Takes (t.feed bytes).terminal := by
  have hread := aside t (t.reader.feed bytes).1 t.printer t.viewOffset
  exact (hread.trans (applyAll _ _)).map fun t => settle t _

end Takes

end Terminal

end VideoTerminal
