import VideoTerminal.Proofs.Screen.Change
/-!
# What a screen reports

Rows that leave the screen stay lines of the buffer, and lines that leave the
history move all others. What is reported of a change is enough to follow
every line through it: a line that is not reported is the line it was, but
for the mark that its text goes on, which a wrap sets without a word
(`Reports`). This is all that a selection hears of what happened.
-/

namespace VideoTerminal

namespace History

/-- One push drops one line of a full history, and none of any other. -/
theorem lines_push {h : History} (hcap : 0 < h.capacity) (hle : h.length ≤ h.capacity)
    (row : Row) : (h.push row).lines = (h.lines ++ [row]).drop (h.evictions 1) := by
  have hcap' : h.capacity ≠ 0 := by omega
  unfold push isFull evictions
  simp only [if_neg hcap']
  by_cases hfull : h.length = h.capacity
  · have hne : h.lines ≠ [] := by
      intro hnil
      rw [length, hnil, List.length_nil] at hfull
      omega
    have hfull' : (decide (0 < h.capacity) && decide (h.capacity ≤ h.length)) = true := by
      simp [hcap, hfull]
    rw [if_pos hfull', hfull, Nat.sub_self, Nat.sub_zero, List.drop_one,
      List.tail_append_of_ne_nil hne]
  · have hroom : ¬ h.capacity ≤ h.length := by omega
    have hnone : 1 - (h.capacity - h.length) = 0 := by omega
    simp [hroom, hnone]

theorem evictions_le (h : History) (count : Nat) : h.evictions count ≤ count := by
  unfold evictions
  split <;> omega

/-- A history that is pushed to holds the newest lines, as many as it can. -/
theorem lines_pushAll {h : History} (hcap : 0 < h.capacity) (hle : h.length ≤ h.capacity)
    (rows : List Row) :
    (h.pushAll rows).lines = (h.lines ++ rows).drop (h.evictions rows.length) := by
  induction rows generalizing h with
  | nil =>
    unfold pushAll evictions
    rw [if_neg (by omega), List.length_nil, Nat.zero_sub]
    simp
  | cons row rows ih =>
    have hpush := lines_push hcap hle row
    have hone := h.evictions_le 1
    have hcap' : (h.push row).capacity = h.capacity := capacity_push h row
    have hlen : (h.push row).length = h.length + 1 - h.evictions 1 := by
      unfold length
      rw [hpush, List.length_drop, List.length_append, List.length_singleton]
    have hstep := ih (h := h.push row) (by omega) (hcap' ▸ length_push_le row hle)
    have hshift : (h.lines ++ [row]).drop (h.evictions 1) ++ rows =
        (h.lines ++ row :: rows).drop (h.evictions 1) := by
      have hin : h.evictions 1 ≤ (h.lines ++ [row]).length := by
        rw [List.length_append, List.length_singleton]
        omega
      rw [List.append_cons h.lines row rows]
      exact (List.drop_append_of_le_length hin).symm
    -- what the first push drops and what the others drop is dropped together
    have hcount : h.evictions 1 + (h.push row).evictions rows.length =
        h.evictions (row :: rows).length := by
      unfold evictions at hlen ⊢
      rw [hcap', hlen, List.length_cons, if_neg (by omega), if_neg (by omega), if_neg (by omega)]
      omega
    change ((h.push row).pushAll rows).lines = _
    rw [hstep, hpush, hshift, List.drop_drop, hcount]

end History

namespace Screen

/-- The lines of the buffer: those of the history and then the rows. -/
def lines (s : Screen) : List Row := s.history.lines ++ s.grid.rows

/-- A line of the buffer is among those reported. -/
def Reported (s : Screen) (line : Nat) : Prop :=
  ∃ i, line = s.history.length + i ∧ s.damage.Covers i

/-- What is not reported of a change is what it was: every line that did not
leave the history is found again, as many lines further up as left it, and is
the same but for the mark that its text goes on. -/
structure Reports (s s' : Screen) : Prop where
  bound : s'.damage.evicted ≤ maxScroll
  found : ∀ (line : Nat) (row : Row), s'.damage.evicted ≤ line → s.lines[line]? = some row →
    ¬ s'.Reported (line - s'.damage.evicted) →
    ∃ row', s'.lines[line - s'.damage.evicted]? = some row' ∧ row'.MarkedFrom row

namespace Reports

variable {P : Nat → Row → Prop} {kind : ScreenKind} {rows cols : Nat} {s s' s'' : Screen}

/-- Changes in place come after any change. -/
theorem amends (h : s.Reports s') (h' : s'.Amends s'') : s.Reports s'' := by
  have hhistory := h'.history
  have hevicted := h'.evicted
  refine ⟨hevicted ▸ h.bound, fun line row hle hrow hspared => ?_⟩
  rw [hevicted] at hle hspared ⊢
  have hspared' : ∀ i, line - s'.damage.evicted = s'.history.length + i → ¬ s''.damage.Covers i :=
    fun i hi hc => hspared ⟨i, by rw [hhistory]; exact hi, hc⟩
  have hsame : s''.lines[line - s'.damage.evicted]? = s'.lines[line - s'.damage.evicted]? := by
    unfold lines
    rw [hhistory]
    by_cases hin : line - s'.damage.evicted < s'.history.lines.length
    · rw [List.getElem?_append_left hin, List.getElem?_append_left hin]
    · rw [List.getElem?_append_right (by omega), List.getElem?_append_right (by omega)]
      refine (h'.spared _ (hspared' _ ?_)).2
      unfold History.length
      omega
  rw [hsame]
  refine h.found line row hle hrow ?_
  rintro ⟨i, hi, hc⟩
  exact (h'.spared i (hspared' i hi)).1 hc

theorem refl (hevicted : s.damage.evicted = 0) : s.Reports s := by
  refine ⟨by rw [hevicted]; exact Nat.zero_le _, fun line row _ hrow _ => ?_⟩
  rw [hevicted]
  exact ⟨row, hrow, Or.inl rfl⟩

/-- Changes in place move no line. -/
theorem of_amends (hevicted : s.damage.evicted = 0) (h : s.Amends s') : s.Reports s' :=
  (refl hevicted).amends h

/-- What came before a change was no more than a mark. -/
theorem of_marked (h : s'.Reports s'')
    (hmark : ∀ (line : Nat) (row : Row), s.lines[line]? = some row →
      ∃ row', s'.lines[line]? = some row' ∧ row'.MarkedFrom row) : s.Reports s'' := by
  refine ⟨h.bound, fun line row hle hrow hspared => ?_⟩
  obtain ⟨row', hrow', hmarked⟩ := hmark line row hrow
  obtain ⟨row'', hrow'', hmarked'⟩ := h.found line row' hle hrow' hspared
  exact ⟨row'', hrow'', hmarked.trans hmarked'⟩

end Reports

/-! ## Scrolling into the history -/

section Scroll

variable {P : Nat → Row → Prop} {kind : ScreenKind} {rows cols : Nat} {s : Screen}

/-- A region that covers the screen has all its rows. -/
theorem extent_full (h : s.Sound P kind rows cols) (hfull : s.region = s.fullRegion) :
    s.region.height = rows ∧ s.grid.extent s.region.top s.region.bottom = rows := by
  have hpos := h.rows_pos
  have hheight := h.height
  have hlast := h.lastRow_eq
  rw [hfull]
  unfold fullRegion Region.height Grid.extent Grid.height
  dsimp only
  omega

/-- A screen that scrolls as a whole moves its first rows into the history,
which loses as many lines as it has no place for. -/
theorem scrollUp_full (h : s.Sound P kind rows cols) (hfull : s.region = s.fullRegion)
    (hkeeps : s.keepsRows = true) (count : Nat) {n : Nat} (hn : min count s.region.height = n) :
    (s.scrollUp count).damage.evicted = s.damage.evicted + s.history.evictions n ∧
      (s.scrollUp count).history.length = s.history.length + n - s.history.evictions n ∧
      (s.scrollUp count).lines = s.lines.drop (s.history.evictions n) ++
        List.replicate n (Row.blank s.grid.cols s.eraser) := by
  have hheight := h.height
  obtain ⟨hregion, hextent⟩ := extent_full h hfull
  have hnle : n ≤ rows := by omega
  have hev := s.history.evictions_le n
  have hpos : 0 < s.history.capacity := by
    unfold keepsRows at hkeeps
    simp only [Bool.and_eq_true, decide_eq_true_eq] at hkeeps
    exact hkeeps.2
  unfold Screen.scrollUp
  dsimp only
  rw [hn]
  by_cases hzero : n = 0
  · subst hzero
    rw [if_pos rfl]
    have he : s.history.evictions 0 = 0 := by omega
    simp [he]
  · rw [if_neg hzero, if_pos ⟨hfull, hkeeps⟩]
    have htop : s.region.top = 0 := by
      rw [hfull]
      rfl
    -- the rows that leave are the first ones, and those that stay the others
    have hleaving : s.grid.leaving s.region.top s.region.bottom n = s.grid.rows.take n := by
      rw [Grid.leaving_eq, hextent, htop, List.drop_zero, Nat.min_eq_left hnle]
    have htake : (s.grid.rows.take n).length = n := by
      rw [List.length_take, hheight, Nat.min_eq_left hnle]
    have hstay : (s.shiftUp s.region.top s.region.bottom n).grid.rows =
        s.grid.rows.drop n ++ List.replicate n (Row.blank s.grid.cols s.eraser) := by
      have hmoved : n = min n (s.grid.extent s.region.top s.region.bottom) := by
        rw [hextent, Nat.min_eq_left hnle]
      unfold shiftUp
      rw [s.grid.rows_scrollUp_eq _ _ hmoved, hextent, htop, List.take_zero, List.nil_append,
        Nat.zero_add, Nat.zero_add, List.drop_of_length_le (Nat.le_of_eq hheight),
        List.append_nil, List.take_of_length_le]
      rw [List.length_drop]
      omega
    have hlines : (s.history.pushAll (s.grid.rows.take n)).lines =
        (s.history.lines ++ s.grid.rows.take n).drop (s.history.evictions n) := by
      rw [History.lines_pushAll hpos h.capacity, htake]
    rw [hleaving]
    refine ⟨?_, ?_, ?_⟩
    · change s.damage.evicted + s.history.evictions (s.grid.rows.take n).length = _
      rw [htake]
    · change (s.history.pushAll (s.grid.rows.take n)).lines.length = s.history.lines.length + n - _
      rw [hlines, List.length_drop, List.length_append, htake]
    · change (s.history.pushAll (s.grid.rows.take n)).lines ++
        (s.shiftUp s.region.top s.region.bottom n).grid.rows = _
      have hin : s.history.evictions n ≤ (s.history.lines ++ s.grid.rows.take n).length := by
        rw [List.length_append, htake]
        omega
      rw [hlines, hstay, ← List.append_assoc, ← List.drop_append_of_le_length hin,
        List.append_assoc s.history.lines, List.take_append_drop]
      rfl

/-- Any other scroll is a change in place. -/
theorem amends_scrollUp (h : ¬ (s.region = s.fullRegion ∧ s.keepsRows = true)) (count : Nat) :
    s.Amends (s.scrollUp count) := by
  unfold Screen.scrollUp
  dsimp only
  rw [if_neg h]
  split
  · exact Amends.refl s
  · exact Amends.shiftUp s _ _ _

theorem reports_scrollUp (h : s.Sound P kind rows cols) (hevicted : s.damage.evicted = 0)
    {count : Nat} (hcount : count ≤ maxScroll) : s.Reports (s.scrollUp count) := by
  by_cases hfull : s.region = s.fullRegion ∧ s.keepsRows = true
  · obtain ⟨hev, -, hlines⟩ := scrollUp_full h hfull.1 hfull.2 count rfl
    have hle := s.history.evictions_le (min count s.region.height)
    rw [hevicted, Nat.zero_add] at hev
    refine ⟨by omega, fun line row hline hrow _ => ⟨row, ?_, Or.inl rfl⟩⟩
    have hin : line < s.lines.length := (List.getElem?_eq_some_iff.1 hrow).1
    rw [hev] at hline ⊢
    rw [hlines, List.getElem?_append_left (by rw [List.length_drop]; omega), List.getElem?_drop,
      ← hrow]
    congr 1
    omega
  · exact Reports.of_amends hevicted (amends_scrollUp hfull count)

/-- Moving the cursor down moves no line unless it scrolls. -/
theorem reports_index (h : s.Sound P kind rows cols) (hevicted : s.damage.evicted = 0) :
    s.Reports s.index := by
  unfold Screen.index
  dsimp only
  split
  · refine Reports.of_marked (reports_scrollUp h.cancelWrap hevicted (by decide)) ?_
    exact fun line row hrow => ⟨row, hrow, Or.inl rfl⟩
  · split
    · exact Reports.of_amends hevicted (Amends.of_eq rfl rfl rfl)
    · exact Reports.of_amends hevicted (Amends.cancelWrap s)

/-- A wrap marks a row that it does not report. -/
theorem reports_wrap [Glyph.Widths] (law : Row.Law P) (h : s.Sound P kind rows cols)
    (hevicted : s.damage.evicted = 0) : s.Reports s.wrap := by
  have hmarked := h.cancelWrap.modifyLine (f := fun row => row.withEnd .wrapped)
    fun _ hp => law.wrapped hp
  refine Reports.of_marked ((reports_index hmarked hevicted).amends
    (Amends.of_eq rfl rfl rfl)) fun line row hrow => ?_
  change (s.history.lines ++ s.grid.rows)[line]? = some row at hrow
  change ∃ row', (s.history.lines ++ s.grid.rows.modify s.cursor.row _)[line]? = some row' ∧ _
  by_cases hin : line < s.history.lines.length
  · rw [List.getElem?_append_left hin] at hrow ⊢
    exact ⟨row, hrow, Or.inl rfl⟩
  · rw [List.getElem?_append_right (by omega)] at hrow ⊢
    rw [List.getElem?_modify, hrow]
    refine ⟨_, rfl, ?_⟩
    split
    · exact Or.inr rfl
    · exact Or.inl rfl

/-- A character is written in place, after one wrap at most. -/
theorem amends_print [Glyph.Widths] (s : Screen) (c : Char) :
    ∃ ready, (ready = s ∨ ready = s.wrap) ∧ ready.Amends (s.print c) := by
  unfold Screen.print
  dsimp only
  split
  · exact ⟨s, Or.inl rfl, Amends.refl s⟩
  · by_cases hw : s.modes.wrapPending = true
    · rw [if_pos hw]
      refine ⟨s.wrap, Or.inr rfl, ?_⟩
      split
      · split
        · -- behind a wrap there is room for a wide glyph wherever a line has two columns
          rename_i hwide hroom
          have hcol : s.wrap.cursor.col = 0 := rfl
          omega
        · exact Amends.refl _
      · exact Amends.place _ _ _ _
    · rw [if_neg hw]
      split
      · split
        · exact ⟨s.wrap, Or.inr rfl, Amends.place _ _ _ _⟩
        · exact ⟨s, Or.inl rfl, Amends.refl s⟩
      · exact ⟨s, Or.inl rfl, Amends.place _ _ _ _⟩

theorem reports_print [Glyph.Widths] (law : Row.Law P) (h : s.Sound P kind rows cols)
    (hevicted : s.damage.evicted = 0) (c : Char) : s.Reports (s.print c) := by
  obtain ⟨ready, hready, hamends⟩ := s.amends_print c
  rcases hready with rfl | rfl
  · exact Reports.of_amends hevicted hamends
  · exact (reports_wrap law h hevicted).amends hamends

theorem reports_scrollBy (h : s.Sound P kind rows cols) (hevicted : s.damage.evicted = 0)
    (count : Int) : s.Reports (s.scrollBy count) := by
  unfold Screen.scrollBy
  split
  · exact Reports.refl hevicted
  · exact reports_scrollUp h hevicted (Nat.min_le_right _ _)
  · exact Reports.of_amends hevicted (Amends.scrollDown s _)

end Scroll

/-! ## Marks -/

/-- A row that is clean after a change was clean before it and is the same,
and then the history is the same as well; in any case it did not shrink. -/
structure Redraws (s s' : Screen) : Prop where
  grows : s.history.length ≤ s'.history.length
  clean : ∀ i, s'.grid.Clean i →
    s.grid.Clean i ∧ s'.grid.rows[i]? = s.grid.rows[i]? ∧ s'.history = s.history

section Redraws

variable {P : Nat → Row → Prop} {kind : ScreenKind} {rows cols : Nat} {s s' s'' : Screen}

theorem Redraws.trans (h : s.Redraws s') (h' : s'.Redraws s'') : s.Redraws s'' := by
  refine ⟨Nat.le_trans h.grows h'.grows, fun i hi => ?_⟩
  obtain ⟨hi', hrow', hhistory'⟩ := h'.clean i hi
  obtain ⟨hi, hrow, hhistory⟩ := h.clean i hi'
  exact ⟨hi, hrow'.trans hrow, hhistory'.trans hhistory⟩

theorem Amends.redraws (h : s.Amends s') : s.Redraws s' := by
  have hgrows : s.history.length ≤ s'.history.length :=
    Nat.le_of_eq (congrArg History.length h.history).symm
  refine ⟨hgrows, fun i hi => ?_⟩
  obtain ⟨hclean, hrow⟩ := h.clean i hi
  exact ⟨hclean, hrow, h.history⟩

theorem redraws_scrollUp (h : s.Sound P kind rows cols) (count : Nat) :
    s.Redraws (s.scrollUp count) := by
  by_cases hfull : s.region = s.fullRegion ∧ s.keepsRows = true
  · obtain ⟨hregion, hextent⟩ := extent_full h hfull.1
    have hpos := h.rows_pos
    have htop : s.region.top = 0 := by
      rw [hfull.1]
      rfl
    have hgrows : s.history.length ≤ (s.scrollUp count).history.length := by
      obtain ⟨-, hlen, -⟩ := scrollUp_full h hfull.1 hfull.2 count rfl
      have hev := s.history.evictions_le (min count s.region.height)
      omega
    refine ⟨hgrows, fun i hi => ?_⟩
    unfold Screen.scrollUp at hi ⊢
    dsimp only at hi ⊢
    split
    · rename_i hzero
      rw [if_pos hzero] at hi
      exact ⟨hi, rfl, rfl⟩
    · rename_i hzero
      rw [if_neg hzero, if_pos hfull] at hi
      -- all rows scroll, so that none is clean any more
      have hout := Grid.clean_scrollUp_out (by omega) hi
      obtain ⟨hlt, -⟩ := List.getElem?_eq_some_iff.1 hout.1
      have hmarks := h.marks
      omega
  · exact (amends_scrollUp hfull count).redraws

theorem redraws_index (h : s.Sound P kind rows cols) : s.Redraws s.index := by
  unfold Screen.index
  dsimp only
  split
  · exact (Amends.cancelWrap s).redraws.trans (redraws_scrollUp h.cancelWrap 1)
  · split
    · exact ((Amends.cancelWrap s).trans (Amends.atRow _ _)).redraws
    · exact (Amends.cancelWrap s).redraws

theorem redraws_wrap [Glyph.Widths] (law : Row.Law P) (h : s.Sound P kind rows cols) :
    s.Redraws s.wrap := by
  have hmarked := h.cancelWrap.modifyLine (f := fun row => row.withEnd .wrapped)
    fun _ hp => law.wrapped hp
  have hmark : s.Redraws (s.cancelWrap.modifyLine fun row => row.withEnd .wrapped) := by
    refine ⟨Nat.le_refl _, fun i hi => ?_⟩
    obtain ⟨hclean, hne⟩ := Grid.clean_modifyRow hi
    exact ⟨hclean, Grid.rows_modifyRow hne, rfl⟩
  exact (hmark.trans (redraws_index hmarked)).trans (Amends.atColumn _ _).redraws

theorem redraws_print [Glyph.Widths] (law : Row.Law P) (h : s.Sound P kind rows cols) (c : Char) :
    s.Redraws (s.print c) := by
  obtain ⟨ready, hready, hamends⟩ := s.amends_print c
  rcases hready with rfl | rfl
  · exact hamends.redraws
  · exact (redraws_wrap law h).trans hamends.redraws

theorem redraws_scrollBy (h : s.Sound P kind rows cols) (count : Int) :
    s.Redraws (s.scrollBy count) := by
  unfold Screen.scrollBy
  split
  · exact (Amends.refl s).redraws
  · exact redraws_scrollUp h _
  · exact (Amends.scrollDown s _).redraws

end Redraws

end Screen

end VideoTerminal
