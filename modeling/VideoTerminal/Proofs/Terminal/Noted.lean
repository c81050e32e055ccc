import VideoTerminal.Proofs.Terminal.Lasting
import VideoTerminal.Proofs.Terminal.Reach
/-!
# Reports are about rows of the screen

A screen reports the first and the last of the rows whose text changed. Reports
add up until they are taken, and those of a screen that is not shown may wait
for long; but a resize drops them. So whatever is reported at any time is a row
that the screen has (`Reach.noted`).
-/

namespace VideoTerminal

namespace Screen

/-- The rows that are reported are among so many. -/
def Noted (rows : Nat) (s : Screen) : Prop :=
  ∀ first last, s.damage.rows = some (first, last) → first < rows ∧ last < rows

namespace Noted

variable {P : Nat → Row → Prop} {kind : ScreenKind} {rows cols : Nat} {s s' : Screen}

/-- A screen that reports the same rows. -/
theorem of_eq (h : s.Noted rows) (hrows : s'.damage.rows = s.damage.rows) : s'.Noted rows := by
  intro first last hdamage
  rw [hrows] at hdamage
  exact h first last hdamage

theorem dropDamage (s : Screen) : s.dropDamage.Noted rows := fun _ _ hdamage => by cases hdamage

theorem damaged (h : s.Noted rows) {top bottom : Nat} (htop : top < rows)
    (hbottom : bottom < rows) : (s.damaged top bottom).Noted rows := by
  intro first last hdamage
  change (s.damage.addRows top bottom).rows = some (first, last) at hdamage
  unfold Damage.addRows at hdamage
  cases hold : s.damage.rows with
  | none =>
    rw [hold] at hdamage
    cases hdamage
    exact ⟨htop, hbottom⟩
  | some range =>
    obtain ⟨hfirst, hlast⟩ := h _ _ hold
    rw [hold] at hdamage
    cases hdamage
    exact ⟨Nat.lt_of_le_of_lt (Nat.min_le_right _ _) htop, Nat.max_lt.2 ⟨hlast, hbottom⟩⟩

theorem editLine (hs : s.Sound P kind rows cols) (h : s.Noted rows) (f : Row → Row) :
    (s.editLine f).Noted rows :=
  damaged (s := s.modifyLine f) h hs.row hs.row

/-! ## Scrolling -/

theorem scrollUp (hs : s.Sound P kind rows cols) (h : s.Noted rows) (count : Nat) :
    (s.scrollUp count).Noted rows := by
  have hbottom := hs.bottom
  have htop := Nat.lt_of_le_of_lt hs.ordered hbottom
  unfold Screen.scrollUp
  dsimp only
  split
  · exact h
  · rename_i hpos
    have hfirst : s.region.bottom + 1 - min count s.region.height < rows := by omega
    split
    · exact damaged (h.of_eq rfl) hfirst hbottom
    · exact damaged (h.of_eq rfl) htop hbottom

theorem scrollDown (hs : s.Sound P kind rows cols) (h : s.Noted rows) (count : Nat) :
    (s.scrollDown count).Noted rows :=
  damaged (h.of_eq rfl) (Nat.lt_of_le_of_lt hs.ordered hs.bottom) hs.bottom

theorem scrollBy (hs : s.Sound P kind rows cols) (h : s.Noted rows) (count : Int) :
    (s.scrollBy count).Noted rows := by
  unfold Screen.scrollBy
  split
  · exact h
  · exact h.scrollUp hs _
  · exact h.scrollDown hs _

theorem index (hs : s.Sound P kind rows cols) (h : s.Noted rows) : s.index.Noted rows := by
  unfold Screen.index
  dsimp only
  split
  · exact scrollUp hs.cancelWrap (h.of_eq rfl) 1
  · split <;> exact h.of_eq rfl

theorem reverseIndex (hs : s.Sound P kind rows cols) (h : s.Noted rows) :
    s.reverseIndex.Noted rows := by
  unfold Screen.reverseIndex
  dsimp only
  split
  · exact scrollDown hs.cancelWrap (h.of_eq rfl) 1
  · exact h.of_eq rfl

/-! ## Erasing, inserting and deleting -/

theorem eraseLine (hs : s.Sound P kind rows cols) (h : s.Noted rows) (part : Erasure) :
    (s.eraseLine part).Noted rows :=
  editLine hs.cancelWrap (h.of_eq rfl) _

theorem eraseScreen (hs : s.Sound P kind rows cols) (h : s.Noted rows) (part : Erasure) :
    (s.eraseScreen part).Noted rows := by
  have hpos := hs.rows_pos
  have hlast := hs.lastRow_lt
  cases part with
  | toEnd => exact damaged ((h.eraseLine hs .toEnd).of_eq rfl) hs.row hlast
  | toStart => exact damaged ((h.eraseLine hs .toStart).of_eq rfl) hpos hs.row
  | all => exact damaged (h.of_eq rfl) hpos hlast

theorem editCells (hs : s.Sound P kind rows cols) (h : s.Noted rows) (count : Nat)
    (edit : Row → Nat → Nat → Rendition → Row) : (s.editCells count edit).Noted rows := by
  unfold Screen.editCells
  dsimp only
  split
  · exact h.of_eq rfl
  · exact editLine hs.cancelWrap (h.of_eq rfl) _

theorem backIndex (hs : s.Sound P kind rows cols) (h : s.Noted rows) :
    s.backIndex.Noted rows := by
  unfold Screen.backIndex
  dsimp only
  split
  · exact h.of_eq rfl
  · exact editLine hs.cancelWrap (h.of_eq rfl) _

theorem forwardIndex (hs : s.Sound P kind rows cols) (h : s.Noted rows) :
    s.forwardIndex.Noted rows := by
  unfold Screen.forwardIndex
  dsimp only
  split
  · exact h.of_eq rfl
  · exact editLine hs.cancelWrap (h.of_eq rfl) _

theorem editLines (hs : s.Sound P kind rows cols) (h : s.Noted rows) (count : Nat)
    {shift : Screen → Nat → Nat → Nat → Screen}
    (hshift : ∀ s top bottom n, (shift s top bottom n).damage = s.damage) :
    (s.editLines count shift).Noted rows := by
  unfold Screen.editLines
  dsimp only
  split
  · split
    · exact h.of_eq rfl
    · have hsame := congrArg Damage.rows (hshift s.cancelWrap s.cursor.row s.region.bottom
        (min count (s.region.bottom + 1 - s.cursor.row)))
      exact damaged (h.of_eq hsame) hs.row hs.bottom
  · exact h

/-! ## Writing, and the screen as a whole -/

theorem wrap [Glyph.Widths] (law : Row.Law P) (hs : s.Sound P kind rows cols)
    (h : s.Noted rows) : s.wrap.Noted rows :=
  have hmarked := hs.cancelWrap.modifyLine fun _ hp => law.wrapped hp
  (index hmarked (h.of_eq rfl)).of_eq rfl

theorem advance (h : s.Noted rows) (width : Nat) : (s.advance width).Noted rows := by
  unfold Screen.advance
  dsimp only
  split <;> exact h.of_eq rfl

theorem place [Glyph.Widths] (hs : s.Sound P kind rows cols) (h : s.Noted rows) (glyph : Char)
    (width : Nat) (font : Flags) : (s.place glyph width font).Noted rows :=
  advance (h.editLine hs _) width

theorem print [Glyph.Widths] (law : Row.Law P) (hs : s.Sound P kind rows cols)
    (h : s.Noted rows) (c : Char) : (s.print c).Noted rows := by
  unfold Screen.print
  dsimp only
  split
  · exact h
  · have hready : (if s.modes.wrapPending then s.wrap else s).Sound P kind rows cols ∧
        (if s.modes.wrapPending then s.wrap else s).Noted rows := by
      split
      · exact ⟨hs.wrap_screen law, h.wrap law hs⟩
      · exact ⟨hs, h⟩
    generalize (if s.modes.wrapPending then s.wrap else s) = ready at hready
    obtain ⟨hs, h⟩ := hready
    split
    · split
      · exact (h.wrap law hs).place (hs.wrap_screen law) _ _ _
      · exact h
    · exact h.place hs _ _ _

theorem align (hs : s.Sound P kind rows cols) (h : s.Noted rows) : s.align.Noted rows :=
  damaged (h.of_eq rfl) hs.rows_pos hs.lastRow_lt

end Noted

end Screen

namespace Terminal

variable {π : Type} {P : Nat → Row → Prop} {rows cols : Nat} {t t' : Terminal π}

/-- What an action on the screen reports is about its rows. -/
theorem noted_onScreen? [Glyph.Widths] (law : Row.Law P) {tabs : TabStops} {action : Action}
    {f : Screen → Screen} (hf : onScreen? tabs action = some f) {kind : ScreenKind} {s : Screen}
    (hs : s.Sound P kind rows cols) (h : s.Noted rows) : (f s).Noted rows := by
  cases action with
  | print c => cases hf; exact h.print law hs c
  | lineFeed => cases hf; exact h.index hs
  | index => cases hf; exact h.index hs
  | reverseIndex => cases hf; exact h.reverseIndex hs
  | nextLine => cases hf; exact Screen.Noted.index hs.carriageReturn (h.of_eq rfl)
  | backspace =>
    cases hf
    refine h.of_eq ?_
    unfold Screen.backspace
    split
    · rfl
    · split
      · rfl
      · split <;> rfl
  | scrollUp n => cases hf; exact h.scrollBy hs _
  | scrollDown n => cases hf; exact h.scrollBy hs _
  | insertLines n => cases hf; exact h.editLines hs n fun _ _ _ _ => rfl
  | deleteLines n => cases hf; exact h.editLines hs n fun _ _ _ _ => rfl
  | insertCells n => cases hf; exact h.editCells hs n _
  | deleteCells n => cases hf; exact h.editCells hs n _
  | eraseCells n => cases hf; exact h.editCells hs n _
  | eraseScreen part => cases hf; exact h.eraseScreen hs part
  | eraseLine part => cases hf; exact h.eraseLine hs part
  | backIndex => cases hf; exact h.backIndex hs
  | forwardIndex => cases hf; exact h.forwardIndex hs
  | align => cases hf; exact h.align hs
  | carriageReturn | tab | forwardTab | backTab | invoke | designate | cursorUp | cursorDown
  | cursorRight | cursorLeft | nextLines | previousLines | column | row | position | setRegion
  | select | saveCursor | restoreCursor =>
    cases hf
    exact h.of_eq rfl
  | _ => cases hf

/-- What both screens report is about their rows. -/
def Noted (rows : Nat) (t : Terminal π) : Prop := ∀ kind, (t.screenOf kind).Noted rows

namespace Noted

theorem screen (h : t.Noted rows) : t.screen.Noted rows := h t.active

/-- A terminal with the same screens. -/
theorem of_eq (h : t.Noted rows) (hprimary : t'.primary = t.primary)
    (halternate : t'.alternate = t.alternate) : t'.Noted rows := by
  intro kind
  cases kind with
  | primary => exact (h .primary).of_eq (congrArg (·.damage.rows) hprimary)
  | alternate => exact (h .alternate).of_eq (congrArg (·.damage.rows) halternate)

theorem modifyOf (h : t.Noted rows) (kind : ScreenKind) {f : Screen → Screen}
    (hf : (t.screenOf kind).Noted rows → (f (t.screenOf kind)).Noted rows) :
    (t.modifyOf kind f).Noted rows := by
  intro kind'
  cases kind with
  | primary =>
    cases kind' with
    | primary => exact hf (h .primary)
    | alternate => exact h .alternate
  | alternate =>
    cases kind' with
    | primary => exact h .primary
    | alternate => exact hf (h .alternate)

theorem modifyScreen (h : t.Noted rows) {f : Screen → Screen}
    (hf : t.screen.Noted rows → (f t.screen).Noted rows) : (t.modifyScreen f).Noted rows :=
  h.modifyOf t.active hf

theorem changeScreen (h : t.Noted rows) (kind : ScreenKind) : (t.changeScreen kind).Noted rows := by
  unfold Terminal.changeScreen
  split
  · exact h
  · have hshown : ({ t with active := kind, viewOffset := 0 } : Terminal π).Noted rows :=
      h.of_eq rfl rfl
    exact (hshown.modifyScreen fun hs => hs.of_eq rfl).of_eq rfl rfl

theorem fullReset (t : Terminal π) : t.fullReset.Noted rows := by
  intro kind
  cases kind <;> exact Screen.Noted.dropDamage _

theorem viewAt (h : t.Noted rows) (offset : Nat) : (t.viewAt offset).Noted rows := by
  unfold Terminal.viewAt
  split
  · exact h
  · exact modifyScreen (t := { t with viewOffset := offset }) (h.of_eq rfl rfl)
      fun hs => hs.of_eq rfl

theorem setPrivate (hs : t.Sound P rows cols) (h : t.Noted rows) (mode : PrivateMode)
    (on : Bool) : (t.setPrivate mode on).Noted rows := by
  cases mode with
  | wideLines =>
    have hmode : ({ t with modes.wideLines := on } : Terminal π).Noted rows := h.of_eq rfl rfl
    exact hmode.modifyScreen fun hn =>
      Screen.Noted.eraseScreen (hs.screen.setRegion _ _) (hn.of_eq rfl) .all
  | reverseVideo =>
    simp only [Terminal.setPrivate, setReverseVideo]
    split
    · exact h
    · exact modifyScreen (t := { t with modes.reverseVideo := on }) (h.of_eq rfl rfl)
        fun hn => hn.of_eq rfl
  | origin => exact h.modifyScreen fun hn => hn.of_eq rfl
  | autowrap => exact h.modifyScreen fun hn => hn.of_eq rfl
  | cursorVisible => exact h.modifyScreen fun hn => hn.of_eq rfl
  | savedCursor =>
    refine h.modifyScreen fun hn => ?_
    split <;> exact hn.of_eq rfl
  | alternate => exact h.changeScreen _
  | alternateErased =>
    simp only [Terminal.setPrivate, setAlternateErased]
    split
    · exact h.changeScreen _
    · split
      · exact changeScreen (h.modifyOf .alternate
          (f := fun s => (s.eraseScreen .all).dropDamage) fun _ => Screen.Noted.dropDamage _) _
      · exact h
  | alternateSaved =>
    simp only [Terminal.setPrivate, setAlternateSaved]
    split
    · have hsaved := h.modifyOf .primary (f := Screen.saveCursor) fun hn => hn.of_eq rfl
      have halternate := (hs.withPrimary hs.primary.saveCursor).changeScreen .alternate
      exact (hsaved.changeScreen .alternate).modifyOf .alternate (f := (·.eraseScreen .all))
        fun hn => hn.eraseScreen halternate.alternate .all
    · exact (h.changeScreen .primary).modifyOf .primary (f := Screen.restoreCursor)
        fun hn => hn.of_eq rfl
  | applicationCursor | pressReports | applicationKeypad | buttonReports | scrollOnOutput
  | scrollOnKey | bracketedPaste => exact h.of_eq rfl rfl

theorem onTerminal [Glyph.Widths] (law : Row.Law P) (hs : t.Sound P rows cols)
    (h : t.Noted rows) (action : Action) : (t.onTerminal action).Noted rows := by
  -- what a switch keeps, all of them keep, and the terminal stays sound meanwhile
  have hswitch : ∀ {t : Terminal π} (mode : PrivateMode) (on : Bool),
      t.Sound P rows cols ∧ t.Noted rows →
        (t.setPrivate mode on).Sound P rows cols ∧ (t.setPrivate mode on).Noted rows :=
    fun mode on h => ⟨h.1.setPrivate law mode on, h.2.setPrivate h.1 mode on⟩
  cases action with
  | setPrivate modes =>
    exact (List.foldlRecOn (motive := fun t : Terminal π => t.Sound P rows cols ∧ t.Noted rows)
      _ _ ⟨hs, h⟩ fun _ h mode _ => hswitch mode true h).2
  | resetPrivate modes =>
    exact (List.foldlRecOn (motive := fun t : Terminal π => t.Sound P rows cols ∧ t.Noted rows)
      _ _ ⟨hs, h⟩ fun _ h mode _ => hswitch mode false h).2
  | savePrivate modes =>
    refine List.foldlRecOn _ _ h fun t h mode _ => ?_
    unfold savePrivate
    split
    · exact h
    · exact h.of_eq rfl rfl
  | restorePrivate modes =>
    refine (List.foldlRecOn (motive := fun t : Terminal π => t.Sound P rows cols ∧ t.Noted rows)
      _ _ ⟨hs, h⟩ fun t h mode _ => ?_).2
    unfold restorePrivate
    split
    · exact h
    · exact hswitch mode _ h
  | setModes modes | resetModes modes =>
    refine List.foldlRecOn _ _ h fun t h mode _ => ?_
    unfold setMode
    split
    · exact h.modifyScreen fun hn => hn.of_eq rfl
    · exact h
  | fullReset => exact fullReset t
  | clearTabStop which =>
    simp only [Terminal.onTerminal, clearTabStop]
    split <;> exact h.of_eq rfl rfl
  | statusReport which =>
    simp only [Terminal.onTerminal, answer]
    split <;> exact h.of_eq rfl rfl
  | _ => exact h.of_eq rfl rfl

theorem perform [Glyph.Widths] (law : Row.Law P) (hs : t.Sound P rows cols) (h : t.Noted rows)
    (action : Action) : (t.perform action).Noted rows := by
  unfold Terminal.perform
  split
  · rename_i f hf
    exact h.modifyScreen fun hn => noted_onScreen? law hf hs.screen hn
  · exact h.onTerminal law hs action

theorem absorbDamage (h : t.Noted rows) : t.absorbDamage.Noted rows :=
  (h.modifyScreen fun _ => Screen.Noted.dropDamage _).of_eq rfl rfl

end Noted

/-- Reports stay about rows of the screen, whatever is sent. -/
theorem lasting_noted [Glyph.Widths] : Lasting fun t : Terminal π => t.Sound Row.Fits rows cols ∧
    t.Noted rows where
  aside _ _ _ h := ⟨h.1.of_eq rfl rfl, h.2.of_eq rfl rfl⟩
  markAll h := ⟨h.1.markAll, h.2.modifyScreen fun hn => hn.of_eq rfl⟩
  tell _ h := ⟨h.1.of_eq rfl rfl, h.2.of_eq rfl rfl⟩
  perform action h := ⟨h.1.perform Row.law_fits action, h.2.perform Row.law_fits h.1 action⟩
  absorbDamage h := ⟨h.1.absorbDamage, h.2.absorbDamage⟩

/-- **What a reachable terminal reports is about rows that it has.** -/
theorem Reach.noted [Glyph.Widths] [Printer π] (h : Reach rows cols t) : t.Noted rows := by
  induction h with
  | create h =>
    unfold Terminal.create at h
    split at h
    · cases h
    · cases h
      intro kind first last hdamage
      cases kind <;> cases hdamage
  | feed bytes h ih => exact (lasting_noted.feed ⟨h.sound Row.law_fits, ih⟩ bytes).2
  | resize hr _ _ =>
    unfold Terminal.resize at hr
    split at hr
    · cases hr
    · cases hr
      intro kind
      cases kind <;> exact Screen.Noted.dropDamage _
  | point p _ ih =>
    unfold Terminal.point selectAt
    dsimp only
    split
    · split <;> exact ih.of_eq rfl rfl
    · split <;> exact ih.of_eq rfl rfl
  | scrollView distance _ ih => exact ih.viewAt _
  | changeScreen kind _ ih => exact ih.changeScreen kind
  | fullReset _ _ => exact Noted.fullReset _
  | typeBytes bytes _ ih =>
    rename_i t _
    have hsent : (t.send bytes).Noted _ := ih.of_eq rfl rfl
    unfold Terminal.typeBytes
    dsimp only
    split
    · exact hsent.viewAt 0
    · exact hsent
  | paste bytes _ ih =>
    unfold Terminal.paste
    dsimp only
    split <;> exact ih.of_eq rfl rfl
  | clearMarks _ ih => exact ih.modifyScreen fun hn => hn.of_eq rfl
  | countClick | clearSelection | drained | usePrinter | closePipe | shutdown =>
    rename_i ih
    exact ih.of_eq rfl rfl

end Terminal

end VideoTerminal
