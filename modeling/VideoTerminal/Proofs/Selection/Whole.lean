import VideoTerminal.Proofs.Screen.Resize
import VideoTerminal.Proofs.Selection.Text
/-!
# Whole lines of text

A selection that starts in the first cell of the buffer and ends in the last
one of a line takes whole lines: what is written on each row, and a line
break behind every row but the last that does not go on in the next
(`text_append_lineBreak`). Three clicks in a row make such a selection
(`start_line`). A row that goes on counts as written up to its last
column. So wider rows have the same text exactly if none of them goes on
(`flatMap_withBreak_resized_iff`).
-/

namespace VideoTerminal

/-- A list of pieces with something added to each of them is the same exactly
if nothing is added to any. -/
theorem flatMap_append_replicate_iff {α β : Type} {f : α → List β} {added : α → Nat} {c : β}
    {l : List α} :
    l.flatMap (fun a => f a ++ List.replicate (added a) c) = l.flatMap f ↔
      ∀ a ∈ l, added a = 0 := by
  have hlength : (l.flatMap fun a => f a ++ List.replicate (added a) c).length =
      (l.flatMap f).length + (l.map added).sum := by
    induction l with
    | nil => rfl
    | cons a l ih =>
      simp only [List.flatMap_cons, List.length_append, List.length_replicate, List.map_cons,
        List.sum_cons]
      omega
  constructor
  · intro heq
    rw [heq] at hlength
    have hsum : (l.map added).sum = 0 := by omega
    exact fun a ha => List.sum_eq_zero_iff_forall_eq_nat.1 hsum _ (List.mem_map_of_mem ha)
  · intro hnone
    rw [List.flatMap_def, List.flatMap_def]
    refine congrArg List.flatten (List.map_congr_left fun a ha => ?_)
    rw [hnone a ha, List.replicate_zero, List.append_nil]

namespace Row

/-- The text of a row, up to its end. -/
def written (row : Row) : List Char :=
  ((row.cells.take row.textLength).filter (!·.isTrail)).map (·.glyph)

/-- A line break, unless the text goes on in the next row. -/
def lineBreak (row : Row) : List Char := if row.isWrapped then [] else ['\n']

/-- The text of a row and what separates it from that of the next. -/
def withBreak (row : Row) : List Char := row.written ++ row.lineBreak

theorem textLength_le (row : Row) : row.textLength ≤ row.cols := by
  unfold textLength
  split
  · exact Nat.min_le_right _ _
  · exact Nat.le_refl _

/-! ## Wider rows -/

theorem ending_resized (row : Row) (n : Nat) (r : Rendition) :
    (row.resized n r).ending = match row.ending with
      | .hard length => .hard (min length n)
      | .wrapped => .wrapped := by
  unfold resized
  split
  · rw [ending_eraseLeadAt]
    rfl
  · rfl

theorem isWrapped_resized (row : Row) (n : Nat) (r : Rendition) :
    (row.resized n r).isWrapped = row.isWrapped := by
  unfold isWrapped
  rw [ending_resized]
  cases row.ending <;> rfl

/-- **Blanks become text where a row goes on**: it counts as written up to its
last column, wherever that is now. -/
theorem written_resized {cols width : Nat} {row : Row} (h : Fits cols row) (hwidth : cols ≤ width)
    (hpos : 0 < width) (r : Rendition) :
    (row.resized width r).written =
      row.written ++ if row.isWrapped then List.replicate (width - cols) ' ' else [] := by
  have hcols : row.cells.length = cols := h.width
  have hcells : (row.resized width r).cells =
      row.cells ++ List.replicate (width - cols) (Cell.blank r) := by
    rw [cells_resized row r hpos, if_neg (by rw [h.width]; omega), h.width]
  have hending := ending_resized row width r
  unfold written textLength isWrapped
  rw [hcells, hending]
  cases hend : row.ending with
  | hard n =>
    have hn := h.within n hend
    have hlength : min (min n width) (row.resized width r).cols = n := by
      rw [cols_resized]
      omega
    have hshort : min n row.cols = n := by
      rw [h.width]
      omega
    dsimp only
    rw [hlength, hshort, List.take_append_of_le_length (by omega)]
    simp
  | wrapped =>
    have hall : (row.cells ++ List.replicate (width - cols) (Cell.blank r)).length = width := by
      rw [List.length_append, List.length_replicate]
      omega
    dsimp only
    rw [cols_resized, List.take_of_length_le (Nat.le_of_eq hall), Row.cols, List.take_length,
      List.filter_append, List.map_append]
    simp

/-- **Wider rows have the same text exactly if none of them goes on.** -/
theorem flatMap_withBreak_resized_iff {cols width : Nat} {rows : List Row}
    (h : ∀ row ∈ rows, Fits cols row) (hwidth : cols ≤ width) (hpos : 0 < width) (r : Rendition) :
    (rows.map (·.resized width r)).flatMap withBreak = rows.flatMap withBreak ↔
      width = cols ∨ ∀ row ∈ rows, row.isWrapped = false := by
  have hbreak : ∀ row ∈ rows, (row.resized width r).withBreak =
      row.withBreak ++ List.replicate (if row.isWrapped then width - cols else 0) ' ' := by
    intro row hrow
    unfold withBreak lineBreak
    rw [written_resized (h row hrow) hwidth hpos, isWrapped_resized]
    -- no line break comes behind the blanks of a row that goes on
    cases row.isWrapped <;> simp
  rw [List.flatMap_map, List.flatMap_def, List.map_congr_left hbreak, ← List.flatMap_def,
    flatMap_append_replicate_iff]
  constructor
  · intro hnone
    refine (Decidable.em (width = cols)).imp_right fun hne row hrow => ?_
    refine Bool.eq_false_iff.2 fun hwrapped => ?_
    have hzero := hnone row hrow
    rw [hwrapped, if_pos rfl] at hzero
    omega
  · rintro (rfl | hended) row hrow
    · rw [Nat.sub_self, ite_self]
    · rw [hended row hrow]
      rfl

end Row

/-! ## Whole lines of text -/

namespace Buffer

variable {b : Buffer} {line last : Nat}

/-- Text that goes on in every line up to this one starts with the buffer. -/
theorem textStart_eq_zero (h : ∀ i, i < line → b.continues i = true) : b.textStart line = 0 := by
  induction line with
  | zero => rfl
  | succ line ih =>
    unfold textStart
    rw [if_pos (h line (Nat.lt_succ_self line))]
    exact ih fun i hi => h i (Nat.lt_succ_of_lt hi)

/-- It ends with the first line that does not go on. -/
theorem textEnd_eq (hin : last < b.total) (hend : b.continues last = false) (hle : line ≤ last)
    (h : ∀ i, line ≤ i → i < last → b.continues i = true) : b.textEnd line = last := by
  fun_induction Buffer.textEnd b line with
  | case1 line hgoes ih =>
    have hne : line ≠ last := by
      rintro rfl
      rw [hend] at hgoes
      exact Bool.false_ne_true hgoes.2
    exact ih (by omega) fun i hi => h i (by omega)
  | case2 line hstays =>
    by_cases hne : line = last
    · exact hne
    · exact absurd ⟨by omega, h line (Nat.le_refl _) (by omega)⟩ hstays

end Buffer

namespace Selection

/-- Three clicks in a row take the whole text that a line belongs to. -/
theorem start_line {b : Buffer} (hb : b.isEmpty = false) (delimiters : List Char) {p : Position}
    (hline : p.line < b.total) (screen : ScreenKind) :
    start b delimiters p .line screen =
      { anchor := ⟨b.textStart p.line, 0⟩, extent := ⟨b.textEnd p.line, b.lastCol⟩
        origin := ⟨⟨b.textStart p.line, 0⟩, ⟨b.textEnd p.line, b.lastCol⟩⟩
        depth := .line, screen } := by
  have hsame : (b.lead (b.clamp p)).line = p.line := by
    rw [Buffer.line_lead]
    change min p.line (b.total - 1) = p.line
    omega
  unfold start Buffer.spanAt
  rw [hb, if_neg Bool.false_ne_true]
  unfold Buffer.spanOf
  dsimp only
  rw [hsame]

/-- What is selected from the first cell of a buffer to the last one of a
line. -/
def through (b : Buffer) (line : Nat) (screen : ScreenKind) : Selection where
  anchor := ⟨0, 0⟩
  extent := ⟨line, b.lastCol⟩
  origin := ⟨⟨0, 0⟩, ⟨0, 0⟩⟩
  depth := .glyph
  screen
  extended := true

/-- The pieces of a list, read off place by place. -/
theorem flatMap_range_eq {α β : Type} {f : Nat → List β} {g : α → List β} {l : List α} {n : Nat}
    (hn : n ≤ l.length) (h : ∀ i a, i < n → l[i]? = some a → f i = g a) :
    (List.range' 0 n).flatMap f = (l.take n).flatMap g := by
  induction n with
  | zero => rfl
  | succ n ih =>
    have hin : n < l.length := hn
    rw [List.range'_concat, List.flatMap_append, ih (Nat.le_of_lt hin)
      fun i a hi => h i a (Nat.lt_succ_of_lt hi), List.take_add_one, List.getElem?_eq_getElem hin,
      List.flatMap_append]
    have hlast := h n l[n] (Nat.lt_succ_self n) (List.getElem?_eq_getElem hin)
    simp [hlast]

section

variable {s : Selection} {b : Buffer} {row : Row} {line last : Nat}

/-- A line that is selected from its first cell to its last one adds all that
is written on it. -/
theorem rowText_eq_written (hanchor : s.anchor.col = 0) (hextent : s.extent.col = b.lastCol)
    (hpos : 0 < b.cols) (hrow : row.cols = b.cols) (line : Nat) :
    s.rowText row line = row.written := by
  have hlength := row.textLength_le
  have hstart : (if line = s.anchor.line then s.anchor.col else 0) = 0 := by
    rw [hanchor, ite_self]
  have hstop : min (if line = s.extent.line then s.extent.col + 1 else row.cols) row.textLength =
      row.textLength := by
    rw [hextent]
    unfold Buffer.lastCol
    split <;> omega
  unfold rowText Row.written
  dsimp only
  rw [hstart, hstop, List.drop_zero]

/-- **A selection of whole lines copies what is written on them**, each line
separated from the next where its text does not go on there. -/
theorem text_append_lineBreak (hanchor : s.anchor = ⟨0, 0⟩)
    (hextent : s.extent = ⟨last, b.lastCol⟩) (hpos : 0 < b.cols)
    (hwidth : ∀ row ∈ b.lines, row.cols = b.cols) (hlast : b.lines[last]? = some row) :
    s.text b ++ row.lineBreak = (b.lines.take (last + 1)).flatMap Row.withBreak := by
  have hin : last < b.total := (List.getElem?_eq_some_iff.1 hlast).1
  have hb : b.isEmpty = false := by
    unfold Buffer.isEmpty
    simp only [Bool.or_eq_false_iff, beq_eq_false_iff_ne]
    omega
  have hmin : min s.extent.line (b.total - 1) = last := by
    rw [hextent]
    dsimp only
    omega
  have hrowText : ∀ i row, b.lines[i]? = some row → s.rowText row i = row.written :=
    fun i row hrow => rowText_eq_written (by rw [hanchor]) (by rw [hextent]) hpos
      (hwidth row (List.mem_of_getElem? hrow)) i
  have hbefore : ∀ i row, i < last → b.lines[i]? = some row →
      s.lineText b last i = row.withBreak := by
    intro i row hi hrow
    unfold lineText Row.withBreak Row.lineBreak
    rw [hrow]
    dsimp only
    rw [hrowText i row hrow]
    have hne : i ≠ last := Nat.ne_of_lt hi
    cases row.isWrapped <;> simp [hne]
  have hend : s.lineText b last last = row.written := by
    unfold lineText
    rw [hlast]
    dsimp only
    rw [hrowText last row hlast, if_neg (fun h => h.1 rfl), List.append_nil]
  unfold text
  rw [hb, hmin, hanchor]
  dsimp only
  rw [if_neg Bool.false_ne_true, Nat.sub_zero, List.range'_concat, List.flatMap_append,
    flatMap_range_eq (Nat.le_of_lt hin) hbefore, List.take_add_one, hlast, List.flatMap_append,
    List.append_assoc]
  simp [hend, Row.withBreak]

end

end Selection

/-- So does one on a screen, whose rows are all as wide as it is. -/
theorem Screen.Sound.text_append_lineBreak {kind : ScreenKind} {rows cols : Nat} {s : Screen}
    (h : s.Sound Row.Fits kind rows cols) {sel : Selection} {row : Row} {last : Nat}
    (hanchor : sel.anchor = ⟨0, 0⟩)
    (hextent : sel.extent = ⟨last, (Buffer.of s.history s.grid).lastCol⟩)
    (hlast : s.lines[last]? = some row) :
    sel.text (Buffer.of s.history s.grid) ++ row.lineBreak =
      (s.lines.take (last + 1)).flatMap Row.withBreak :=
  Selection.text_append_lineBreak hanchor hextent (Nat.lt_of_lt_of_eq h.cols_pos h.width.symm)
    (fun _ hrow => (h.of_mem_lines hrow).width.trans h.width.symm) hlast

end VideoTerminal
