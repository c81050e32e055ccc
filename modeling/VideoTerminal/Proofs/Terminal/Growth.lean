import VideoTerminal.Proofs.Control.Small
import VideoTerminal.Proofs.Terminal.Requests
import VideoTerminal.Proofs.Terminal.Untouched
/-!
# How far an action goes

An action moves the cursor by numbers of 16 bits, since all that a reachable
terminal has read so far is small (`Reach.reads`), and it moves no more rows
into the history than the screen has (`length_perform_le`). So what is counted
after an action is not much larger than what was counted before it.
-/

namespace VideoTerminal

/-! ## Screens -/

namespace Screen

variable {P : Nat → Row → Prop} {kind : ScreenKind} {rows cols : Nat} {s s' : Screen}

theorem Amends.length_le (h : s.Amends s') : s'.history.length ≤ s.history.length + rows :=
  Nat.le_trans (Nat.le_of_eq (congrArg History.length h.history)) (Nat.le_add_right _ _)

theorem length_scrollUp_le (h : s.Sound P kind rows cols) (count : Nat) :
    (s.scrollUp count).history.length ≤ s.history.length + rows := by
  by_cases hfull : s.region = s.fullRegion ∧ s.keepsRows = true
  · obtain ⟨-, hlength, -⟩ := scrollUp_full h hfull.1 hfull.2 count rfl
    obtain ⟨hregion, -⟩ := extent_full h hfull.1
    omega
  · exact (amends_scrollUp hfull count).length_le

theorem length_scrollBy_le (h : s.Sound P kind rows cols) (count : Int) :
    (s.scrollBy count).history.length ≤ s.history.length + rows := by
  unfold Screen.scrollBy
  split
  · exact (Amends.refl s).length_le
  · exact length_scrollUp_le h _
  · exact (Amends.scrollDown s _).length_le

theorem length_index_le (h : s.Sound P kind rows cols) :
    s.index.history.length ≤ s.history.length + rows := by
  unfold Screen.index
  dsimp only
  split
  · exact length_scrollUp_le h.cancelWrap 1
  · split
    · exact (Amends.of_eq rfl rfl rfl : s.Amends _).length_le
    · exact (Amends.cancelWrap s).length_le

/-- A character is written after one wrap at most. -/
theorem length_print_le [Glyph.Widths] (law : Row.Law P) (h : s.Sound P kind rows cols) (c : Char) :
    (s.print c).history.length ≤ s.history.length + rows := by
  obtain ⟨ready, hready, hamends⟩ := s.amends_print c
  have hsame : (s.print c).history.length = ready.history.length :=
    congrArg History.length hamends.history
  rw [hsame]
  rcases hready with rfl | rfl
  · exact Nat.le_add_right _ _
  · exact length_index_le (h.cancelWrap.modifyLine fun _ hp => law.wrapped hp)

end Screen

namespace Terminal

variable {π : Type} {P : Nat → Row → Prop} {rows cols : Nat} {t t' t'' : Terminal π}

theorem length_onScreen?_le [Glyph.Widths] (law : Row.Law P) {tabs : TabStops} {action : Action}
    {f : Screen → Screen} (hf : onScreen? tabs action = some f) {kind : ScreenKind} {s : Screen}
    (h : s.Sound P kind rows cols) : (f s).history.length ≤ s.history.length + rows :=
  onScreen?_elim (p := fun s' => s'.history.length ≤ s.history.length + rows) hf
    Screen.Amends.length_le (Screen.length_print_le law h) (Screen.length_index_le h)
    (Screen.length_index_le h.carriageReturn) (Screen.length_scrollBy_le h)

/-! ## Histories that stay -/

/-- Both histories are what they were. -/
def SameHistories (t t' : Terminal π) : Prop :=
  ∀ kind, (t'.screenOf kind).history = (t.screenOf kind).history

/-- No action on both screens changes a history, and neither does a reset. -/
theorem sameHistories_onTerminal (t : Terminal π) (action : Action) :
    t.SameHistories (t.onTerminal action) := by
  have hdeep : Screen.Deep Screen.history := fun hhistory _ => hhistory
  intro kind
  by_cases hreset : action = .fullReset
  · subst hreset
    refine (AgreeOn.changeScreen hdeep t .primary).trans ?_
    cases kind <;> rfl
  · exact AgreeOn.onTerminal hdeep hreset fun _ _ => rfl

/-! ## Histories that grow -/

/-- **No history grows by more than a screen** with an action. -/
theorem length_perform_le [Glyph.Widths] (law : Row.Law P) (hs : t.Sound P rows cols)
    (action : Action) (kind : ScreenKind) :
    ((t.perform action).screenOf kind).history.length ≤
      (t.screenOf kind).history.length + rows := by
  unfold perform
  split
  · rename_i f hf
    by_cases hkind : kind = t.active
    · have hshown : (t.modifyScreen f).screenOf kind = f t.screen := by
        rw [hkind, ← (modifyScreen_rest t f).1]
        exact screen_modifyScreen t f
      rw [hshown, hkind]
      exact length_onScreen?_le law hf hs.screen
    · rw [screenOf_modifyScreen t f hkind]
      exact Nat.le_add_right _ _
  · rw [sameHistories_onTerminal t action kind]
    exact Nat.le_add_right _ _

/-! ## What is read -/

theorem reader_viewAt (t : Terminal π) (offset : Nat) : (t.viewAt offset).reader = t.reader := by
  unfold viewAt
  split
  · rfl
  · exact Blind.markAll.reader_eq _

theorem small_afterRequests {r : Reader} (h : r.Small)
    (failed : Option (Printer.Request × String)) : (r.afterRequests failed).Small := by
  unfold Reader.afterRequests
  split
  · exact h.closePipe
  · exact h

/-- What a reachable terminal is reading has numbers of 16 bits. -/
theorem Reach.reads [Glyph.Widths] [Printer π] (h : Reach rows cols t) : t.reader.Small := by
  induction h with
  | create h =>
    unfold Terminal.create at h
    split at h
    · cases h
    · cases h
      trivial
  | feed bytes _ ih =>
    rw [(answers_feed _ bytes).reader]
    exact small_afterRequests (ih.feed bytes).1 _
  | resize hr _ ih =>
    unfold Terminal.resize at hr
    split at hr
    · cases hr
    · cases hr
      exact ih
  | point p _ ih =>
    unfold Terminal.point selectAt
    dsimp only
    split
    · split <;> exact ih
    · split <;> exact ih
  | scrollView distance _ ih =>
    rw [Terminal.scrollView, reader_viewAt]
    exact ih
  | changeScreen kind _ ih =>
    rw [(Blind.changeScreen kind).reader_eq]
    exact ih
  | fullReset _ ih =>
    rw [Blind.fullReset.reader_eq]
    exact ih
  | typeBytes bytes _ ih =>
    unfold Terminal.typeBytes snapView
    dsimp only
    split
    · rw [reader_viewAt]
      exact ih
    · exact ih
  | paste bytes _ ih =>
    unfold Terminal.paste
    dsimp only
    split <;> exact ih
  | clearMarks _ ih =>
    have hblind : Screen.Blind fun s : Screen => { s with grid := s.grid.clearMarks } :=
      fun _ => rfl
    rw [Terminal.clearMarks, (Blind.modifyScreen hblind).reader_eq]
    exact ih
  | closePipe _ ih => exact ih.closePipe
  | shutdown _ _ => trivial
  | countClick | clearSelection | drained | usePrinter =>
    rename_i ih
    exact ih

end Terminal

end VideoTerminal
