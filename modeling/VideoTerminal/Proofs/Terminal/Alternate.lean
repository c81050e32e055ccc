import VideoTerminal.Proofs.Terminal.Course
import VideoTerminal.Proofs.Terminal.Resize
/-!
# Behind the alternate screen

A program that fills the whole screen shows the alternate one, and leaves the
primary one behind it with its cursor saved. Until the program switches back,
nothing it sends reaches the primary screen, but for saving its cursor again,
which saves what is saved already. Every switch is told to the host, and no
other (`Course.active_eq`), so that the events say whether there was one.
-/

namespace VideoTerminal

/-- A screen that comes back to its own cursor, in whatever rendition it is
meanwhile, is as it was, but that it is drawn anew and no wrap is pending. -/
theorem Screen.restoreCursor_saveCursor {P : Nat → Row → Prop} {kind : ScreenKind}
    {rows cols : Nat} {s : Screen} (hs : s.Sound P kind rows cols) (rendition : Rendition) :
    ({ s.saveCursor with rendition, grid := s.grid.markAll } : Screen).restoreCursor =
      { s.saveCursor with grid := s.grid.markAll, modes.wrapPending := false } := by
  -- the cursor that was saved is inside the screen
  have hrow : min s.cursor.row s.lastRow = s.cursor.row := by
    have hlt := hs.row
    have hlast := hs.lastRow_eq
    omega
  have hcol : min s.cursor.col s.lastCol = s.cursor.col := by
    have hlt := hs.col
    have hlast := hs.lastCol_eq
    omega
  have hcursor :
      (⟨min s.cursor.row s.lastRow, min s.cursor.col s.lastCol⟩ : Cursor) = s.cursor := by
    rw [hrow, hcol]
  exact congrArg (fun cursor => ({ s.saveCursor with
    grid := s.grid.markAll, cursor, modes.wrapPending := false } : Screen)) hcursor

namespace Terminal

variable {π : Type} {s : Screen} {t t' t'' : Terminal π}

/-- The alternate screen is shown, and a screen is behind it. -/
structure Behind (s : Screen) (t : Terminal π) : Prop where
  active : t.active = .alternate
  primary : t.primary = s

/-- A change that told the host something, `told`. Unless that was a switch to
the primary screen, a screen that was behind the alternate one still is. -/
def Spares (s : Screen) (t t' : Terminal π) : Prop :=
  ∃ told, t'.events = t.events ++ told ∧
    (t.Behind s → .screenChanged .primary ∉ told → t'.Behind s)

namespace Spares

/-- Nothing was told, and what is shown and what is behind it stay. -/
theorem of_eq (hevents : t'.events = t.events) (hactive : t'.active = t.active)
    (hprimary : t'.primary = t.primary) : t.Spares s t' := by
  refine ⟨[], ?_, ?_⟩
  · rw [hevents, List.append_nil]
  · intro h _
    exact ⟨hactive.trans h.active, hprimary.trans h.primary⟩

theorem refl (t : Terminal π) : t.Spares s t := of_eq rfl rfl rfl

theorem trans (h : t.Spares s t') (h' : t'.Spares s t'') : t.Spares s t'' := by
  obtain ⟨told, hevents, hkeeps⟩ := h
  obtain ⟨told', hevents', hkeeps'⟩ := h'
  refine ⟨told ++ told', ?_, ?_⟩
  · rw [hevents', hevents, List.append_assoc]
  · intro hbehind hstay
    rw [List.mem_append, not_or] at hstay
    exact hkeeps' (hkeeps hbehind hstay.1) hstay.2

theorem tell (t : Terminal π) (event : Event) : t.Spares s (t.tell event) :=
  ⟨[event], rfl, fun h _ => ⟨h.active, h.primary⟩⟩

/-- The screen that is shown is not the one behind it. -/
theorem modifyScreen (t : Terminal π) (f : Screen → Screen) : t.Spares s (t.modifyScreen f) := by
  refine ⟨[], ?_, ?_⟩
  · unfold Terminal.modifyScreen
    rw [events_modifyOf, List.append_nil]
  · intro h _
    rw [modifyScreen_alternate h.active]
    exact ⟨h.active, h.primary⟩

/-- What is saved of the screen behind is what is saved already. -/
theorem save (hs : s.saveCursor = s) (t : Terminal π) :
    t.Spares s (t.modifyOf .primary Screen.saveCursor) := by
  refine ⟨[], (List.append_nil _).symm, fun h _ => ⟨h.active, ?_⟩⟩
  change t.primary.saveCursor = s
  rw [h.primary, hs]

/-- From the alternate screen there is no other switch than the one that the
host is told. -/
theorem changeScreen (t : Terminal π) (kind : ScreenKind) : t.Spares s (t.changeScreen kind) := by
  refine ⟨_, (queues_changeScreen t kind).2, ?_⟩
  intro h hstay
  cases kind with
  | primary =>
    rw [h.active] at hstay
    exact absurd List.mem_cons_self hstay
  | alternate =>
    have hnothing : t.changeScreen .alternate = t := if_pos h.active
    rw [hnothing]
    exact h

/-- **A course spares what is behind the alternate screen**, or tells of a
switch. -/
theorem of_course (hs : s.saveCursor = s) {f : Terminal π → Terminal π} (hf : Course f)
    (t : Terminal π) : t.Spares s (f t) := by
  induction hf generalizing t with
  | skip => exact refl t
  | comp _ _ ihg ihf => exact (ihf t).trans (ihg _)
  | reading _ _ ih => exact ih _ t
  | shown => exact modifyScreen t _
  | alternate => exact of_eq rfl rfl rfl
  | saved => exact save hs t
  | switched kind => exact changeScreen t kind
  | sent => exact of_eq rfl rfl rfl
  | told event => exact tell t event
  | akin hakin =>
    rw [hakin t]
    exact of_eq rfl rfl rfl

theorem feed [Printer π] [Glyph.Widths] (hs : s.saveCursor = s) (t : Terminal π)
    (bytes : List UInt8) : t.Spares s (t.feed bytes).terminal := by
  obtain ⟨f, hf, hfed⟩ := Takes.feed t bytes
  rw [← hfed]
  exact of_course hs hf t

end Spares

/-! ## Entering and leaving -/

section Leaving

variable [Printer π] {rows cols : Nat}

/-- Leaving the alternate screen comes back to what was saved of the primary
one, which is drawn anew. -/
theorem apply_leave_primary [Glyph.Widths] (hactive : t.active = .alternate) :
    (t.apply (.resetPrivate [1049])).terminal.active = .primary ∧
      (t.apply (.resetPrivate [1049])).terminal.primary =
        ({ t.primary with
            rendition := t.alternate.rendition
            grid := t.primary.grid.markAll } : Screen).restoreCursor.dropDamage := by
  have hother : t.active ≠ .primary := by
    rw [hactive]
    decide
  have hshown : t.screen = t.alternate := by
    unfold screen
    rw [hactive]
    rfl
  change (t.setAlternateSaved false).absorbDamage.active = _ ∧
    (t.setAlternateSaved false).absorbDamage.primary = _
  unfold setAlternateSaved changeScreen
  rw [if_neg Bool.false_ne_true, if_neg hother, hshown]
  exact ⟨rfl, rfl⟩

/-- **A full-screen program cannot disturb the primary screen.** The program
enters the alternate screen, sends whatever it sends without a switch back,
which the host would be told, and leaves again. Then the primary screen shows
the rows it showed, with the history, the region and the cursor it had, and
goes on in the same rendition, character sets and modes, but that no wrap is
pending. -/
theorem primary_leave_of_reach [Glyph.Widths] (h : Reach rows cols t)
    (hactive : t.active = .primary) (w : List UInt8) :
    let entered := (t.apply (.setPrivate [1049])).terminal
    let worked := (entered.feed w).terminal
    let back := (worked.apply (.resetPrivate [1049])).terminal
    .screenChanged .primary ∉ worked.events.drop entered.events.length →
      worked.active = .alternate ∧ back.active = .primary ∧
        back.primary.grid.rows = t.primary.grid.rows ∧
        back.primary.history = t.primary.history ∧
        back.primary.region = t.primary.region ∧
        back.primary.cursor = t.primary.cursor ∧
        back.primary.rendition = t.primary.rendition ∧
        back.primary.charsets = t.primary.charsets ∧
        back.primary.modes = { t.primary.modes with wrapPending := false } := by
  intro entered worked back hstay
  obtain ⟨hsaved, halternate⟩ := apply_enter hactive
  have hentered : entered.Behind t.primary.saveCursor := ⟨halternate, hsaved⟩
  obtain ⟨told, hevents, hkeeps⟩ := Spares.feed (s := t.primary.saveCursor) rfl entered w
  have htold : worked.events.drop entered.events.length = told := by
    rw [hevents, List.drop_left]
  rw [htold] at hstay
  obtain ⟨hworked, hprimary⟩ := hkeeps hentered hstay
  obtain ⟨hback, hleft⟩ := apply_leave_primary hworked
  change worked.primary = _ at hprimary
  rw [hprimary] at hleft
  have hsound := (h.sound Row.law_fits).primary
  have hcame : back.primary = ({ t.primary.saveCursor with
      grid := t.primary.grid.markAll, modes.wrapPending := false } : Screen).dropDamage :=
    hleft.trans (congrArg Screen.dropDamage (Screen.restoreCursor_saveCursor hsound _))
  rw [hcame]
  exact ⟨hworked, hback, rfl, rfl, rfl, rfl, rfl, rfl, rfl⟩

end Leaving

attribute [local instance] Glyph.unicode

/-- A line that is filled with underlined letters. -/
def underlined : Terminal Spool :=
  ((plain 2 3).feed [0x1B, 0x5B, 0x34, 0x6D, 0x61, 0x62, 0x63]).terminal

/-- A program that enters the alternate screen once more, saves the cursor in
two ways elsewhere, in another rendition and another region, goes back to it,
breaks off a sequence, and sends a byte that no text has. -/
def intrusion : List UInt8 :=
  [0x1B, 0x5B, 0x3F, 0x31, 0x30, 0x34, 0x39, 0x68, 0x78, 0x1B, 0x37, 0x1B, 0x5B, 0x37, 0x6D,
    0x1B, 0x5B, 0x31, 0x3B, 0x31, 0x72, 0x1B, 0x5B, 0x3F, 0x31, 0x30, 0x34, 0x38, 0x68, 0x1B, 0x38,
    0x1B, 0x5B, 0x33, 0x18, 0xFF]

/-- The wrap that the filled line left pending is all that is gone. -/
theorem primary_leave_of_reach_underlined :
    let entered := (underlined.apply (.setPrivate [1049])).terminal
    let worked := (entered.feed intrusion).terminal
    let back := (worked.apply (.resetPrivate [1049])).terminal
    (Reach 2 3 underlined ∧ underlined.active = .primary ∧
        .screenChanged .primary ∉ worked.events.drop entered.events.length) ∧
      underlined.primary.modes.wrapPending = true ∧
      worked.alternate.rendition ≠ underlined.primary.rendition ∧
      back.primary.cursor = ⟨0, 2⟩ ∧ back.primary.rendition = underlined.primary.rendition ∧
      back.primary.modes = { underlined.primary.modes with wrapPending := false } := by
  have hreach : Reach 2 3 underlined := (reach_plain 2 3 (by decide) (by decide)).feed _
  have hactive : underlined.active = .primary := by decide
  have hplace : underlined.primary.cursor = ⟨0, 2⟩ := by decide
  have hwrap : underlined.primary.modes.wrapPending = true := by decide
  have hstay : .screenChanged .primary ∉
      ((underlined.apply (.setPrivate [1049])).terminal.feed intrusion).terminal.events.drop
        (underlined.apply (.setPrivate [1049])).terminal.events.length := by decide +kernel
  have hother : ((underlined.apply (.setPrivate [1049])).terminal.feed
      intrusion).terminal.alternate.rendition ≠ underlined.primary.rendition := by decide +kernel
  obtain ⟨-, -, -, -, -, hcursor, hrendition, -, hmodes⟩ :=
    primary_leave_of_reach hreach hactive intrusion hstay
  exact ⟨⟨hreach, hactive, hstay⟩, hwrap, hother, hcursor.trans hplace, hrendition, hmodes⟩

end Terminal

end VideoTerminal
