import VideoTerminal.Proofs.Control.Registers
import VideoTerminal.Proofs.Terminal.Configured
import VideoTerminal.Proofs.Terminal.Split
/-!
# A terminal that was reset

A full reset leaves in sight what a new terminal has in sight, and a course
depends on nothing else. So whatever a child program sends afterwards, it
cannot find out what was before: both terminals go on alike, and send and tell
the same.
-/

namespace VideoTerminal

/-- Printers that take all bytes from the states `good`, and stay in them. -/
structure Printer.Willing {π : Type} [Printer π] (good : π → Prop) : Prop where
  write {p : π} (bytes : List UInt8) :
    good p → (Printer.write p bytes).2 = none ∧ good (Printer.write p bytes).1
  flush {p : π} : good p → (Printer.flush p).2 = none ∧ good (Printer.flush p).1

theorem Printer.Accepts.willing {π : Type} [Printer π] {good : π → Prop}
    {received : π → List UInt8} (acc : Printer.Accepts good received) : Printer.Willing good := by
  constructor
  · intro p bytes h
    obtain ⟨htaken, hgood, -⟩ := acc.write bytes h
    exact ⟨htaken, hgood⟩
  · intro p h
    obtain ⟨htaken, hgood, -⟩ := acc.flush h
    exact ⟨htaken, hgood⟩

/-! ## What a reset falls back on -/

namespace Screen

variable {kind : ScreenKind} {rows cols : Nat} {s : Screen}

/-- All rows of a screen, reset at its width, are those of a new one. -/
theorem rows_reset (hs : s.Sound Row.Fits kind rows cols) :
    s.reset.grid.rows = List.replicate rows (Row.blank cols {}) := by
  rw [List.eq_replicate_iff]
  constructor
  · change (s.grid.resetRows 0 s.height {}).height = rows
    rw [Grid.height_resetRows]
    exact hs.height
  · intro row hrow
    obtain ⟨i, hi, rfl⟩ := List.mem_mapIdx.1 hrow
    have hlt : i < s.height := hi
    have hwidth : s.grid.rows[i].cols = cols := (hs.shown _ (List.getElem_mem hi)).width
    simp only [Nat.zero_le, decide_true, Bool.true_and, decide_eq_true hlt, if_true]
    exact congrArg (fun width => Row.blank width {}) hwidth

/-- **A screen that was reset is a new one**, but for its past. -/
theorem bare_reset (hs : s.Sound Row.Fits kind rows cols) (capacity : Nat) :
    s.reset.bare = (Screen.blank kind rows cols capacity s.wrapsByDefault).bare := by
  have hgrid : s.reset.grid.unmarked = (Grid.blank rows cols {}).unmarked := by
    have hrows := rows_reset hs
    have hwidth : s.reset.grid.cols = cols := hs.width
    unfold Grid.unmarked
    rw [hrows, hwidth]
    rfl
  have hregion : s.reset.region = ⟨0, rows - 1⟩ := by
    have hlast := hs.lastRow_eq
    change (⟨0, s.lastRow⟩ : Region) = _
    rw [hlast]
  have hkind : s.reset.kind = kind := hs.kind_eq
  unfold bare
  rw [hgrid, hregion, hkind]
  rfl

/-- What is the same on screens that differ in no more than their past. -/
theorem eq_of_bare {s' : Screen} (h : s.bare = s'.bare) :
    s.grid.rows = s'.grid.rows ∧ s.cursor = s'.cursor ∧ s.region = s'.region ∧
      s.modes = s'.modes ∧ s.rendition = s'.rendition ∧ s.charsets = s'.charsets ∧
      s.saved = s'.saved := by
  unfold bare Grid.unmarked at h
  simp only [Screen.mk.injEq, Grid.mk.injEq] at h
  obtain ⟨-, ⟨hrows, -⟩, -, hcursor, hregion, hmodes, -, hrendition, hcharsets, hsaved, -⟩ := h
  exact ⟨hrows, hcursor, hregion, hmodes, hrendition, hcharsets, hsaved⟩

end Screen

namespace Terminal

variable {π : Type} {rows cols : Nat} {t t' t'' : Terminal π}

/-- What a new terminal starts with. -/
theorem create_cases {config : Config} {fresh : Terminal π} (h : create config = .ok fresh) :
    fresh.reader = .ground ∧ fresh.output = [] ∧ fresh.events = [] := by
  unfold create at h
  split at h
  · cases h
  · cases h
    exact ⟨rfl, rfl, rfl⟩

/-- Any size with rows and columns is granted. -/
theorem create_eq (config : Config) (hrows : 0 < config.rows) (hcols : 0 < config.cols) :
    ∃ fresh : Terminal π, create config = .ok fresh := by
  have hsize : config.fault? = none := by
    unfold Config.fault? Config.sizeFault?
    exact if_neg (by omega)
  unfold create
  rw [hsize]
  exact ⟨_, rfl⟩

/-- **A terminal that was reset is a new one**, for all that is in sight. -/
theorem sight_fullReset (hs : t.Sound Row.Fits rows cols) (hconf : t.Configured)
    {fresh : Terminal π} (hfresh : create { t.config with rows, cols } = .ok fresh) :
    t.fullReset.sight = fresh.sight := by
  have hshown := hs.changeScreen .primary
  have hup := Upholds.changeScreen t .primary
  have hscreen : ∀ kind (s : Screen), s.Sound Row.Fits kind rows cols →
      s.wrapsByDefault = t.config.autowrap → ∀ capacity, s.reset.dropDamage.bare =
        (Screen.blank kind rows cols capacity t.config.autowrap).bare := by
    intro kind s hsound hdefault capacity
    rw [← hdefault]
    exact Screen.bare_reset hsound capacity
  have hprimary := hscreen .primary _ hshown.primary ((hup.default .primary).trans (hconf .primary))
    t.config.capacity
  have halternate := hscreen .alternate _ hshown.alternate
    ((hup.default .alternate).trans (hconf .alternate)) 0
  have hcols : (t.changeScreen .primary).screen.cols = cols := hshown.screen.cols_eq
  have hactive := active_changeScreen t .primary
  have hconfig := hup.config
  unfold create at hfresh
  split at hfresh
  · cases hfresh
  · cases hfresh
    unfold fullReset sight
    dsimp only
    rw [hprimary, halternate, hcols, hactive, hconfig]

/-- What is the same in terminals that have the same in sight. -/
theorem eq_of_sight (h : t.sight = t'.sight) :
    (∀ kind, (t.screenOf kind).bare = (t'.screenOf kind).bare) ∧ t.active = t'.active ∧
      t.tabs = t'.tabs ∧ t.modes = t'.modes ∧ t.title = t'.title ∧ t.iconName = t'.iconName := by
  unfold sight at h
  simp only [Terminal.mk.injEq] at h
  obtain ⟨-, hprimary, halternate, hactive, -, -, -, htabs, hmodes, -, htitle, hicon, -⟩ := h
  refine ⟨fun kind => ?_, hactive, htabs, hmodes, htitle, hicon⟩
  cases kind with
  | primary => exact hprimary
  | alternate => exact halternate

/-- What a reset does not touch. -/
structure Carries (t t' : Terminal π) : Prop where
  reader : t'.reader = t.reader
  printer : t'.printer = t.printer
  history : t'.primary.history = t.primary.history

namespace Carries

theorem trans (h : t.Carries t') (h' : t'.Carries t'') : t.Carries t'' :=
  ⟨h'.reader.trans h.reader, h'.printer.trans h.printer, h'.history.trans h.history⟩

theorem modifyOf (t : Terminal π) (kind : ScreenKind) {f : Screen → Screen}
    (hf : ∀ s, (f s).history = s.history) : t.Carries (t.modifyOf kind f) := by
  cases kind with
  | primary => exact ⟨rfl, rfl, hf _⟩
  | alternate => exact ⟨rfl, rfl, rfl⟩

theorem fullReset (t : Terminal π) : t.Carries t.fullReset := by
  have hshown : t.Carries (t.changeScreen .primary) := by
    unfold Terminal.changeScreen
    split <;> exact ⟨rfl, rfl, rfl⟩
  exact hshown.trans ⟨rfl, rfl, rfl⟩

theorem absorbDamage (t : Terminal π) : t.Carries t.absorbDamage := by
  have hdrop : t.Carries (t.modifyScreen Screen.dropDamage) := modifyOf t t.active fun _ => rfl
  exact hdrop.trans ⟨rfl, rfl, rfl⟩

theorem settle (t : Terminal π) (sent : Bool) : t.Carries (t.settle sent) := by
  have hmarks : ∀ t : Terminal π, t.Carries t.markAll := fun t =>
    modifyOf t t.active (f := fun s => { s with grid := s.grid.markAll }) fun _ => rfl
  have hview : t.Carries (t.viewAt 0) := by
    unfold viewAt
    split
    · exact ⟨rfl, rfl, rfl⟩
    · have hoffset : t.Carries { t with viewOffset := 0 } := ⟨rfl, rfl, rfl⟩
      exact hoffset.trans (hmarks _)
  unfold Terminal.settle
  dsimp only
  split
  · exact hview.trans ⟨rfl, rfl, rfl⟩
  · exact ⟨rfl, rfl, rfl⟩

end Carries

/-! ## Two terminals that go on alike -/

/-- The second terminal has in sight what the first one has, and had sent and
told something before. -/
structure Resembles (sent : List UInt8) (told : List Event) (t t' : Terminal π) : Prop where
  sight : t'.sight = t.sight
  output : t'.output = sent ++ t.output
  events : t'.events = told ++ t.events

namespace Resembles

variable {sent : List UInt8} {told : List Event}

/-- **A course cannot tell them apart.** -/
theorem of_course {f : Terminal π → Terminal π} (hf : Course f) (h : Resembles sent told t t') :
    Resembles sent told (f t) (f t') := by
  obtain ⟨hout, hevents⟩ := hf.queues t
  obtain ⟨hout', hevents'⟩ := hf.queues t'
  refine ⟨?_, ?_, ?_⟩
  · rw [← hf.sight t', h.sight, hf.sight]
  · rw [hout', hout, h.sight, h.output, List.append_assoc]
  · rw [hevents', hevents, h.sight, h.events, List.append_assoc]

/-- What is out of sight may become anything. -/
theorem of_rest {u u' : Terminal π} (h : Resembles sent told t t')
    (hsight : u.sight = t.sight ∧ u.output = t.output ∧ u.events = t.events)
    (hsight' : u'.sight = t'.sight ∧ u'.output = t'.output ∧ u'.events = t'.events) :
    Resembles sent told u u' := by
  obtain ⟨hu, hout, hevents⟩ := hsight
  obtain ⟨hu', hout', hevents'⟩ := hsight'
  refine ⟨?_, ?_, ?_⟩
  · rw [hu, hu', h.sight]
  · rw [hout, hout', h.output]
  · rw [hevents, hevents', h.events]

theorem screenText_eq (h : Resembles sent told t t') : t'.screenText = t.screenText := by
  rw [← screenText_sight t', h.sight, screenText_sight]

end Resembles

/-- Where the view is makes no difference. -/
theorem sight_viewAt (t : Terminal π) (offset : Nat) : (t.viewAt offset).sight = t.sight ∧
    (t.viewAt offset).output = t.output ∧ (t.viewAt offset).events = t.events := by
  unfold viewAt
  split
  · exact ⟨rfl, rfl, rfl⟩
  · unfold markAll modifyScreen modifyOf
    split <;> exact ⟨rfl, rfl, rfl⟩

theorem sight_settle (t : Terminal π) (sent : Bool) : (t.settle sent).sight = t.sight ∧
    (t.settle sent).output = t.output ∧ (t.settle sent).events = t.events := by
  unfold settle
  dsimp only
  split
  · exact sight_viewAt t 0
  · exact ⟨rfl, rfl, rfl⟩

theorem sight_absorbDamage (t : Terminal π) : t.absorbDamage.sight = t.sight := by
  have hdrop : (t.modifyScreen Screen.dropDamage).sight = t.sight := by
    cases hactive : t.active with
    | primary =>
      rw [modifyScreen_primary hactive]
      rfl
    | alternate =>
      rw [modifyScreen_alternate hactive]
      rfl
  exact hdrop

/-- Nothing happened but that the printer took what it was given. -/
def Hands (good : π → Prop) (t : Terminal π) (o : Outcome π) : Prop :=
  ∃ printer, o = ⟨{ t with printer }, none⟩ ∧ ∀ p, printer = some p → good p

section Printing

variable {good : π → Prop}

theorem Hands.andThen {o : Outcome π} {f : Terminal π → Outcome π} (h : Hands good t o)
    (hf : ∀ t : Terminal π, t.Ready good → Hands good t (f t)) : Hands good t (o.andThen f) := by
  obtain ⟨printer, rfl, hready⟩ := h
  obtain ⟨printer', hnext, hready'⟩ := hf { t with printer } hready
  exact ⟨printer', hnext, hready'⟩

/-- Both outcomes are without fault, and their terminals go on alike. -/
structure Repeats (good : π → Prop) (sent : List UInt8) (told : List Event) (o o' : Outcome π) :
    Prop where
  fault : o.fault = none
  fault' : o'.fault = none
  resembles : Resembles sent told o.terminal o'.terminal
  ready : o.terminal.Ready good
  ready' : o'.terminal.Ready good

namespace Repeats

variable {sent : List UInt8} {told : List Event} {o o' : Outcome π}

theorem of_hands (h : Resembles sent told t t') (hh : Hands good t o) (hh' : Hands good t' o') :
    Repeats good sent told o o' := by
  obtain ⟨printer, rfl, hready⟩ := hh
  obtain ⟨printer', rfl, hready'⟩ := hh'
  exact ⟨rfl, rfl, h.of_rest ⟨rfl, rfl, rfl⟩ ⟨rfl, rfl, rfl⟩, hready, hready'⟩

theorem andThen {f : Terminal π → Outcome π} (h : Repeats good sent told o o')
    (hf : Repeats good sent told (f o.terminal) (f o'.terminal)) :
    Repeats good sent told (o.andThen f) (o'.andThen f) := by
  rw [Outcome.andThen_eq h.fault, Outcome.andThen_eq h.fault']
  exact hf

/-- A course that leaves the printer alone is done alike. -/
theorem map {f : Terminal π → Terminal π} (hf : Course f) (hp : ∀ t, (f t).printer = t.printer)
    (h : Repeats good sent told o o') : Repeats good sent told (o.map f) (o'.map f) := by
  rw [Outcome.map_eq h.fault, Outcome.map_eq h.fault']
  exact ⟨rfl, rfl, h.resembles.of_course hf, h.ready.of_eq (hp _), h.ready'.of_eq (hp _)⟩

end Repeats

variable [Printer π]

theorem hands_print (will : Printer.Willing good) (h : t.Ready good) (bytes : List UInt8) :
    Hands good t (t.print bytes) := by
  unfold print
  cases hp : t.printer with
  | none => exact ⟨t.printer, rfl, h⟩
  | some p =>
    obtain ⟨htaken, hgood⟩ := will.write bytes (h p hp)
    dsimp only
    rw [htaken]
    refine ⟨_, rfl, fun q hq => ?_⟩
    cases hq
    exact hgood

theorem hands_flush (will : Printer.Willing good) (h : t.Ready good) : Hands good t t.flush := by
  unfold flush
  cases hp : t.printer with
  | none => exact ⟨t.printer, rfl, h⟩
  | some p =>
    obtain ⟨htaken, hgood⟩ := will.flush (h p hp)
    dsimp only
    rw [htaken]
    refine ⟨_, rfl, fun q hq => ?_⟩
    cases hq
    exact hgood

namespace Repeats

variable {sent : List UInt8} {told : List Event}

theorem printScreen (will : Printer.Willing good) (h : Resembles sent told t t')
    (hr : t.Ready good) (hr' : t'.Ready good) :
    Repeats good sent told t.printScreen t'.printScreen := by
  have htext := h.screenText_eq
  unfold Terminal.printScreen
  dsimp only
  rw [htext]
  generalize String.ofList t.screenText = text
  have hhands : ∀ t : Terminal π, t.Ready good → Hands good t
      (((t.print text.toUTF8.toList).andThen (·.print [0x0A])).andThen Terminal.flush) := by
    intro t ht
    have hline := (hands_print will ht text.toUTF8.toList).andThen fun t ht =>
      hands_print will ht [0x0A]
    exact hline.andThen fun t ht => hands_flush will ht
  exact (of_hands h (hhands t hr) (hhands t' hr')).map (Course.told (.printScreen text) nofun)
    fun _ => rfl

variable [Glyph.Widths]

theorem act (will : Printer.Willing good) (h : Resembles sent told t t') (hr : t.Ready good)
    (hr' : t'.Ready good) (action : Action) :
    Repeats good sent told (t.act action) (t'.act action) := by
  have hperform : ∀ action, Repeats good sent told ⟨t.perform action, none⟩
      ⟨t'.perform action, none⟩ := by
    intro action
    have hprinter := (Blind.perform (π := π) action).printer_eq
    exact ⟨rfl, rfl, h.of_course (Course.perform action), hr.of_eq (hprinter t),
      hr'.of_eq (hprinter t')⟩
  cases action with
  | printScreen => exact printScreen will h hr hr'
  | printData bytes => exact of_hands h (hands_print will hr bytes) (hands_print will hr' bytes)
  | closePipe => exact of_hands h (hands_flush will hr) (hands_flush will hr')
  | _ => exact hperform _

/-- **One action** is done alike. -/
theorem apply (will : Printer.Willing good) (h : Resembles sent told t t') (hr : t.Ready good)
    (hr' : t'.Ready good) (action : Action) :
    Repeats good sent told (t.apply action) (t'.apply action) :=
  (act will h hr hr' action).map Course.absorbDamage Blind.absorbDamage.printer_eq

theorem applyAll (will : Printer.Willing good) (h : Resembles sent told t t') (hr : t.Ready good)
    (hr' : t'.Ready good) (actions : List Action) :
    Repeats good sent told (t.applyAll actions) (t'.applyAll actions) := by
  induction actions generalizing t t' with
  | nil => exact ⟨rfl, rfl, h, hr, hr'⟩
  | cons action actions ih =>
    have hstep := apply will h hr hr' action
    exact hstep.andThen (ih hstep.resembles hstep.ready hstep.ready')

/-- **And so are all actions of some bytes**, if both readers start alike. -/
theorem feed (will : Printer.Willing good) (h : Resembles sent told t t') (hr : t.Ready good)
    (hr' : t'.Ready good) (hreader : t'.reader = t.reader) (bytes : List UInt8) :
    (t.feed bytes).fault = none ∧ (t'.feed bytes).fault = none ∧
      Resembles sent told (t.feed bytes).terminal (t'.feed bytes).terminal := by
  have hread : Resembles sent told { t with reader := (t.reader.feed bytes).1 }
      { t' with reader := (t.reader.feed bytes).1 } :=
    h.of_rest ⟨rfl, rfl, rfl⟩ ⟨rfl, rfl, rfl⟩
  have hran := applyAll will hread hr hr' (t.reader.feed bytes).2
  unfold Terminal.feed
  rw [hreader]
  dsimp only
  rw [Outcome.map_eq hran.fault, Outcome.map_eq hran.fault']
  exact ⟨rfl, rfl, hran.resembles.of_rest (sight_settle _ _) (sight_settle _ _)⟩

end Repeats

/-! ## Resetting -/

/-- The sequence that resets a terminal. -/
def resetSequence : List UInt8 := [0x1B, 0x63]

variable [Glyph.Widths]

/-- It does so whatever the reader is collecting, but for bytes for the
printer. -/
theorem feed_resetSequence (hpipe : t.reader.inPipe = false) :
    t.feed resetSequence =
      ⟨({ t with reader := .ground } : Terminal π).fullReset.absorbDamage.settle true, none⟩ := by
  have hrun : t.reader.run resetSequence = Reader.ground.run resetSequence :=
    Reader.run_escape hpipe (by decide) []
  have hread : t.reader.feed resetSequence = (.ground, [.fullReset]) := by
    unfold Reader.feed
    rw [hrun]
    rfl
  unfold feed
  rw [hread]
  rfl

/-- A terminal that was reset by its child program has in sight what a new one
has of the same size and configuration. -/
theorem resembles_reset (h : Reach rows cols t) (hpipe : t.reader.inPipe = false)
    {fresh : Terminal π} (hfresh : create { t.config with rows, cols } = .ok fresh)
    (printer : Option π) :
    let cleared := (t.feed resetSequence).terminal
    Resembles cleared.output cleared.events { fresh with printer } cleared := by
  intro cleared
  have hs : ({ t with reader := .ground } : Terminal π).Sound Row.Fits rows cols :=
    (h.sound Row.law_fits).of_eq rfl rfl
  have hconf : ({ t with reader := .ground } : Terminal π).Configured :=
    h.configured.of_upholds (.of_eq rfl rfl rfl)
  have hreset := sight_fullReset hs hconf hfresh
  obtain ⟨-, hout, hevents⟩ := create_cases hfresh
  have hsight : cleared.sight = fresh.sight := by
    have hcleared := congrArg Outcome.terminal (feed_resetSequence hpipe)
    change cleared = _ at hcleared
    rw [hcleared, (sight_settle _ _).1, sight_absorbDamage, hreset]
  refine ⟨hsight, ?_, ?_⟩
  · change cleared.output = cleared.output ++ fresh.output
    rw [hout, List.append_nil]
  · change cleared.events = cleared.events ++ fresh.events
    rw [hevents, List.append_nil]

/-- **A reset forgets everything but the history.** The terminal is not
printing, and its printer, if it has one, never fails. Once its child program
has reset it, whatever bytes come next leave on both screens, and of all else
that is in sight, what they leave on a new terminal of the same size and
configuration, whose printer never fails either, and they send and tell the
same. -/
theorem feed_reset_of_reach (will : Printer.Willing good) (h : Reach rows cols t)
    (hpipe : t.reader.inPipe = false) (hready : t.Ready good) (printer : Option π)
    (hprinter : ∀ p, printer = some p → good p) (w : List UInt8) :
    ∃ fresh : Terminal π, create { t.config with rows, cols } = .ok fresh ∧
      let cleared := t.feed resetSequence
      let after := cleared.terminal.feed w
      let anew := ({ fresh with printer } : Terminal π).feed w
      (cleared.fault = none ∧ after.fault = none ∧ anew.fault = none) ∧
        cleared.terminal.primary.history = t.primary.history ∧
        (∀ kind,
          let s := after.terminal.screenOf kind
          let s' := anew.terminal.screenOf kind
          s.grid.rows = s'.grid.rows ∧ s.cursor = s'.cursor ∧ s.region = s'.region ∧
            s.modes = s'.modes ∧ s.rendition = s'.rendition ∧ s.charsets = s'.charsets ∧
            s.saved = s'.saved) ∧
        (after.terminal.active = anew.terminal.active ∧
          after.terminal.tabs = anew.terminal.tabs ∧ after.terminal.modes = anew.terminal.modes ∧
          after.terminal.title = anew.terminal.title ∧
          after.terminal.iconName = anew.terminal.iconName) ∧
        after.terminal.output = cleared.terminal.output ++ anew.terminal.output ∧
        after.terminal.events = cleared.terminal.events ++ anew.terminal.events := by
  have hs := h.sound Row.law_fits
  obtain ⟨fresh, hfresh⟩ := create_eq (π := π) { t.config with rows, cols } hs.primary.rows_pos
    hs.primary.cols_pos
  obtain ⟨hground, -, -⟩ := create_cases hfresh
  have hcarries : (t.feed resetSequence).fault = none ∧
      ({ t with reader := .ground } : Terminal π).Carries (t.feed resetSequence).terminal := by
    rw [feed_resetSequence hpipe]
    exact ⟨rfl, ((Carries.fullReset _).trans (.absorbDamage _)).trans (.settle _ true)⟩
  obtain ⟨hcleared, hreader, hkept, hhistory⟩ := hcarries
  have halike := resembles_reset h hpipe hfresh printer
  obtain ⟨hfault, hfault', hgoes⟩ := Repeats.feed will halike hprinter (hready.of_eq hkept)
    (hreader.trans hground.symm) w
  obtain ⟨hscreens, hactive, htabs, hmodes, htitle, hicon⟩ := eq_of_sight hgoes.sight
  exact ⟨fresh, hfresh, ⟨hcleared, hfault', hfault⟩, hhistory,
    fun kind => Screen.eq_of_bare (hscreens kind), ⟨hactive, htabs, hmodes, htitle, hicon⟩,
    hgoes.output, hgoes.events⟩

end Printing

attribute [local instance] Glyph.unicode

/-- A terminal with a printer and a title. That lines wrap was saved, but they
do not, and no column is a tab stop. The region is the last row, the cursor is
saved in reverse video, the alternate screen is shown, and a command is being
read. -/
def cluttered : Terminal Spool :=
  (((plain 2 10).usePrinter {}).feed [0x1B, 0x5D, 0x32, 0x3B, 0x61, 0x07, 0x1B, 0x5B, 0x3F, 0x37,
    0x73, 0x1B, 0x5B, 0x3F, 0x37, 0x6C, 0x1B, 0x5B, 0x33, 0x67, 0x1B, 0x5B, 0x32, 0x72, 0x1B, 0x5B,
    0x37, 0x6D, 0x1B, 0x37, 0x1B, 0x5B, 0x3F, 0x31, 0x30, 0x34, 0x39, 0x68, 0x1B, 0x5D,
    0x32]).terminal

/-- Comes back to a saved mode and to a saved cursor, writes a letter, goes to
the next tab stop and asks for the position. -/
def probe : List UInt8 :=
  [0x1B, 0x5B, 0x3F, 0x37, 0x72, 0x1B, 0x38, 0x78, 0x09, 0x1B, 0x5B, 0x36, 0x6E]

/-- The answer to the probe is another one after the reset, and that of a new
terminal. -/
theorem feed_reset_of_reach_cluttered :
    (Reach 2 10 cluttered ∧ cluttered.reader.inPipe = false ∧
        cluttered.Ready fun s => s.room = none ∧ s.flushFails = false) ∧
      cluttered.title = "a" ∧
      (cluttered.feed probe).terminal.output = positionReport { cluttered.screen with
        cursor := ⟨0, 9⟩ } ∧
      ∃ fresh : Terminal Spool, create { cluttered.config with rows := 2, cols := 10 } = .ok fresh ∧
        let after := (cluttered.feed resetSequence).terminal.feed probe
        let anew := ({ fresh with printer := none } : Terminal Spool).feed probe
        after.terminal.title = anew.terminal.title ∧
          after.terminal.output =
            (cluttered.feed resetSequence).terminal.output ++ anew.terminal.output ∧
          after.terminal.output = positionReport { cluttered.screen with cursor := ⟨0, 8⟩ } := by
  have hprinting : Reach 2 10 ((plain 2 10).usePrinter {}) :=
    (reach_plain 2 10 (by decide) (by decide)).usePrinter {}
  have hreach : Reach 2 10 cluttered := hprinting.feed _
  have hpipe : cluttered.reader.inPipe = false := by decide +kernel
  have hready : cluttered.Ready fun s => s.room = none ∧ s.flushFails = false := by
    have hprinter : cluttered.printer = some {} := by decide +kernel
    intro p hp
    rw [hprinter] at hp
    cases hp
    exact ⟨rfl, rfl⟩
  have hreport : ((cluttered.feed resetSequence).terminal.feed probe).terminal.output =
      positionReport { cluttered.screen with cursor := ⟨0, 8⟩ } := by decide +kernel
  have hanswer : (cluttered.feed probe).terminal.output =
      positionReport { cluttered.screen with cursor := ⟨0, 9⟩ } := by decide +kernel
  have htitled : cluttered.title = "a" := by decide +kernel
  have hnone : ∀ p : Spool, none = some p → p.room = none ∧ p.flushFails = false := by
    intro p hp
    cases hp
  obtain ⟨fresh, hfresh, -, -, -, ⟨-, -, -, htitle, -⟩, houtput, -⟩ :=
    feed_reset_of_reach accepts_spool.willing hreach hpipe hready none hnone probe
  exact ⟨⟨hreach, hpipe, hready⟩, htitled, hanswer, fresh, hfresh, htitle, houtput, hreport⟩

end Terminal

end VideoTerminal
