import VideoTerminal.Proofs.Row.Tiled
import VideoTerminal.Proofs.Selection.Whole
/-!
# Rows that text was typed on

A row on which text was typed from the first column on holds its glyphs side
by side, and blanks behind them (`ofText`); the next glyph goes behind the
others (`write_ofText`). A line of text goes over several rows where it is too
long for one: each row takes as many glyphs as fit (`Glyph.cut`), and all but
the last are marked as going on (`ofPieces`). Copying reads off the same
text, with blanks in the columns that a row was left with because the next
glyph was too wide for them.
-/

namespace VideoTerminal

namespace Glyph

variable [Widths] {cols : Nat} {cur text : List Char} {c : Char}

@[simp] theorem columns_nil : columns [] = 0 := rfl

@[simp] theorem columns_cons (c : Char) (text : List Char) :
    columns (c :: text) = width c + columns text := rfl

@[simp] theorem columns_append (a b : List Char) : columns (a ++ b) = columns a + columns b := by
  induction a with
  | nil => simp
  | cons c a ih => simp [ih, Nat.add_assoc]

/-- A text of narrow glyphs fills as many columns as it has glyphs. -/
theorem columns_eq_length (h : ∀ c ∈ text, width c = 1) : columns text = text.length := by
  induction text with
  | nil => rfl
  | cons c text ih =>
    rw [columns_cons, h c List.mem_cons_self, ih fun d hd => h d (List.mem_cons_of_mem c hd),
      List.length_cons, Nat.add_comm]

/-- A text cut into pieces, each of them as long as fits into the columns of a
row. The first one starts with what is on the row already. -/
def cut (cols : Nat) (cur : List Char) : List Char → List (List Char)
  | [] => [cur]
  | c :: text =>
    if columns cur + width c ≤ cols then cut cols (cur ++ [c]) text
    else cur :: cut cols [c] text

theorem cut_cons_fits (h : columns cur + width c ≤ cols) :
    cut cols cur (c :: text) = cut cols (cur ++ [c]) text := if_pos h

theorem cut_cons_full (h : ¬ columns cur + width c ≤ cols) :
    cut cols cur (c :: text) = cur :: cut cols [c] text := if_neg h

theorem cut_ne_nil (cols : Nat) (cur text : List Char) : cut cols cur text ≠ [] := by
  induction text generalizing cur with
  | nil => exact List.cons_ne_nil _ _
  | cons c text ih =>
    unfold cut
    split
    · exact ih _
    · exact List.cons_ne_nil _ _

/-- Nothing of the text is lost. -/
theorem flatten_cut (cols : Nat) (cur text : List Char) :
    (cut cols cur text).flatten = cur ++ text := by
  induction text generalizing cur with
  | nil => simp [cut]
  | cons c text ih =>
    unfold cut
    split
    · rw [ih, List.append_assoc, List.singleton_append]
    · rw [List.flatten_cons, ih, List.singleton_append]

/-- Every piece fits into the columns, if every glyph does. -/
theorem columns_cut_le (hcur : columns cur ≤ cols) (htext : ∀ c ∈ text, width c ≤ cols) :
    ∀ piece ∈ cut cols cur text, columns piece ≤ cols := by
  induction text generalizing cur with
  | nil => simpa [cut] using hcur
  | cons c text ih =>
    obtain ⟨hc, htext⟩ := List.forall_mem_cons.1 htext
    unfold cut
    split
    · rename_i hfits
      exact ih (by simpa using hfits) htext
    · refine List.forall_mem_cons.2 ⟨hcur, ih (by simpa using hc) htext⟩

/-- The glyphs of the pieces are those of the text. -/
theorem mem_of_mem_cut {piece : List Char} (hpiece : piece ∈ cut cols cur text) {c : Char}
    (hc : c ∈ piece) : c ∈ cur ++ text := by
  rw [← flatten_cut cols]
  exact List.mem_flatten.2 ⟨piece, hpiece, hc⟩

/-- Narrow glyphs leave no column free but in the last piece. -/
theorem columns_dropLast_cut (hcur : columns cur ≤ cols) (hcols : 0 < cols)
    (h : ∀ c ∈ text, width c = 1) :
    ∀ piece ∈ (cut cols cur text).dropLast, columns piece = cols := by
  induction text generalizing cur with
  | nil => exact fun _ hpiece => absurd hpiece List.not_mem_nil
  | cons c text ih =>
    obtain ⟨hc, htext⟩ := List.forall_mem_cons.1 h
    unfold cut
    split
    · exact ih (by rw [columns_append]; assumption) htext
    · rw [List.dropLast_cons_of_ne_nil (cut_ne_nil _ _ _)]
      refine List.forall_mem_cons.2 ⟨by omega, ih ?_ htext⟩
      rw [columns_cons, hc]
      exact hcols

/-- Text that fits into the columns is not cut. -/
theorem cut_eq_singleton (h : columns (cur ++ text) ≤ cols) :
    cut cols cur text = [cur ++ text] := by
  induction text generalizing cur with
  | nil => simp [cut]
  | cons c text ih =>
    rw [cut_cons_fits, ih, List.append_assoc, List.singleton_append]
    · simpa [Nat.add_assoc] using h
    · simp at h
      omega

/-- Behind a piece that fills the columns the text is cut anew. -/
theorem cut_append_full (hcur : columns (cur ++ text) = cols) {rest : List Char} (hc : 0 < width c)
    (hwidth : width c ≤ cols) :
    cut cols cur (text ++ c :: rest) = (cur ++ text) :: cut cols [] (c :: rest) := by
  induction text generalizing cur with
  | nil =>
    rw [List.append_nil] at hcur ⊢
    rw [List.nil_append, cut_cons_full (by omega), cut_cons_fits (by simpa using hwidth)]
    rfl
  | cons d text ih =>
    rw [List.cons_append, cut_cons_fits, ih, List.append_assoc, List.singleton_append]
    · simpa [Nat.add_assoc] using hcur
    · simp at hcur
      omega

/-- Number of rows that so many narrow glyphs take, and an empty line too. -/
def rowsFor (cols count : Nat) : Nat := max 1 ((count + cols - 1) / cols)

omit [Widths] in
theorem rowsFor_short {count : Nat} (hcols : 0 < cols) (h : count ≤ cols) :
    rowsFor cols count = 1 := by
  have hle : (count + cols - 1) / cols < 2 := Nat.div_lt_of_lt_mul (by omega)
  unfold rowsFor
  omega

omit [Widths] in
theorem rowsFor_long {count : Nat} (hcols : 0 < cols) (h : cols < count) :
    rowsFor cols count = rowsFor cols (count - cols) + 1 := by
  have hone : 1 ≤ (count - cols + cols - 1) / cols := Nat.div_pos (by omega) hcols
  have hstep : (count + cols - 1) / cols = (count - cols + cols - 1) / cols + 1 := by
    rw [← Nat.add_div_right _ hcols]
    congr 1
    omega
  unfold rowsFor
  omega

omit [Widths] in
/-- There is another row exactly if there are more glyphs than the rows up to
here have columns. -/
theorem succ_lt_rowsFor_iff {count i : Nat} (hcols : 0 < cols) :
    i + 1 < rowsFor cols count ↔ (i + 1) * cols < count := by
  have hdiv : i + 2 ≤ (count + cols - 1) / cols ↔ (i + 2) * cols ≤ count + cols - 1 :=
    Nat.le_div_iff_mul_le hcols
  have hmul : (i + 2) * cols = (i + 1) * cols + cols := Nat.succ_mul _ _
  unfold rowsFor
  omega

/-- **Narrow glyphs are cut by their number**: every row takes as many as it
has columns. -/
theorem cut_narrow (hcols : 0 < cols) (text : List Char) (h : ∀ c ∈ text, width c = 1) :
    cut cols [] text = (List.range (rowsFor cols text.length)).map fun i =>
      (text.drop (i * cols)).take cols := by
  by_cases hshort : text.length ≤ cols
  · rw [cut_eq_singleton (by rw [List.nil_append, columns_eq_length h]; exact hshort),
      rowsFor_short hcols hshort]
    simp [List.take_of_length_le hshort]
  · have hlong : cols < text.length := Nat.lt_of_not_le hshort
    have hhead : (text.take cols).length = cols := List.length_take_of_le (Nat.le_of_lt hlong)
    have hfull : columns ([] ++ text.take cols) = cols := by
      rw [List.nil_append, columns_eq_length fun c hc => h c (List.mem_of_mem_take hc), hhead]
    have htail : ∀ c ∈ text.drop cols, width c = 1 := fun c hc => h c (List.mem_of_mem_drop hc)
    have hlength : (text.drop cols).length = text.length - cols := List.length_drop
    have ih := cut_narrow hcols (text.drop cols) htail
    rw [hlength] at ih
    obtain ⟨c, rest, hrest⟩ : ∃ c rest, text.drop cols = c :: rest :=
      List.exists_cons_of_length_pos (by omega)
    have hc : width c = 1 := htail c (by rw [hrest]; exact List.mem_cons_self)
    -- the first row is full, and the others are those of what is left
    have hcut : cut cols [] (text.take cols ++ c :: rest) =
        ([] ++ text.take cols) :: cut cols [] (c :: rest) :=
      cut_append_full hfull (by omega) (by omega)
    rw [← hrest, List.take_append_drop, List.nil_append, ih] at hcut
    rw [hcut, rowsFor_long hcols hlong, List.range_succ_eq_map, List.map_cons, List.map_map,
      Nat.zero_mul, List.drop_zero]
    congr 1
    refine List.map_congr_left fun i _ => ?_
    rw [Function.comp_apply, List.drop_drop, Nat.succ_mul, Nat.add_comm]
termination_by text.length
decreasing_by omega

end Glyph

namespace Row

variable [Glyph.Widths] {cols : Nat} {text : List Char} {c : Char} {ending : RowEnd}

/-! ## The cells of a text -/

/-- The cells that a glyph fills, with nothing selected for its rendition. -/
def glyphCells (c : Char) : List Cell :=
  if Glyph.width c = 2 then [Cell.leadOf c {}, Cell.trailOf {}] else [Cell.ofGlyph c {}]

/-- A row with a text on it from the first column on. -/
def ofText (cols : Nat) (text : List Char) (ending : RowEnd) : Row where
  cells := text.flatMap glyphCells ++ List.replicate (cols - Glyph.columns text) (Cell.blank {})
  ending

theorem glyphCells_narrow (h : Glyph.width c = 1) : glyphCells c = [Cell.ofGlyph c {}] :=
  if_neg (by rw [h]; decide)

theorem glyphCells_wide (h : Glyph.width c = 2) :
    glyphCells c = [Cell.leadOf c {}, Cell.trailOf {}] := if_pos h

theorem narrow_or_wide (h : 0 < Glyph.width c) : Glyph.width c = 1 ∨ Glyph.width c = 2 := by
  have htwo := Glyph.width_le_two c
  omega

theorem length_glyphCells (h : 0 < Glyph.width c) : (glyphCells c).length = Glyph.width c := by
  rcases narrow_or_wide h with hnarrow | hwide
  · rw [glyphCells_narrow hnarrow, hnarrow]
    rfl
  · rw [glyphCells_wide hwide, hwide]
    rfl

theorem length_textCells (h : ∀ c ∈ text, 0 < Glyph.width c) :
    (text.flatMap glyphCells).length = Glyph.columns text := by
  induction text with
  | nil => rfl
  | cons c text ih =>
    obtain ⟨hc, htext⟩ := List.forall_mem_cons.1 h
    rw [List.flatMap_cons, List.length_append, length_glyphCells hc, ih htext, Glyph.columns_cons]

/-- Each glyph is read off once. -/
theorem glyphs_textCells (text : List Char) :
    ((text.flatMap glyphCells).filter (!·.isTrail)).map (·.glyph) = text := by
  induction text with
  | nil => rfl
  | cons c text ih =>
    have hc : ((glyphCells c).filter (!·.isTrail)).map (·.glyph) = [c] := by
      unfold glyphCells
      split <;> rfl
    rw [List.flatMap_cons, List.filter_append, List.map_append, hc, ih, List.singleton_append]

theorem cols_ofText (h : ∀ c ∈ text, 0 < Glyph.width c) (hfits : Glyph.columns text ≤ cols) :
    (ofText cols text ending).cols = cols := by
  rw [Row.cols, ofText, List.length_append, length_textCells h, List.length_replicate]
  omega

/-- Behind the text there are blanks. -/
theorem cell_ofText (h : ∀ c ∈ text, 0 < Glyph.width c) {i : Nat} (hbehind : Glyph.columns text ≤ i)
    (hin : i < cols) : (ofText cols text ending).cells[i]? = some (Cell.blank {}) := by
  rw [ofText, List.getElem?_append_right (by rw [length_textCells h]; exact hbehind),
    length_textCells h, List.getElem?_replicate, if_pos (by omega)]

/-- Its cells take the place of blanks. -/
theorem cells_place_ofText (h : ∀ c ∈ text, 0 < Glyph.width c) (hc : 0 < Glyph.width c)
    (hfits : Glyph.columns (text ++ [c]) ≤ cols) (ending after : RowEnd) :
    ((ofText cols text ending).place (Glyph.columns text) (Glyph.width c) c {}).cells =
      (ofText cols (text ++ [c]) after).cells := by
  have hsum : Glyph.columns (text ++ [c]) = Glyph.columns text + Glyph.width c := by simp
  have hrest : cols - Glyph.columns text =
      Glyph.width c + (cols - Glyph.columns (text ++ [c])) := by omega
  unfold place ofText
  dsimp only
  rw [hrest, List.flatMap_append, List.flatMap_singleton, ← length_textCells h]
  rcases narrow_or_wide hc with hnarrow | hwide
  · rw [glyphCells_narrow hnarrow, hnarrow, if_pos rfl, List.set_append_right _ _ (Nat.le_refl _),
      Nat.sub_self, Nat.add_comm, List.replicate_succ, List.set_cons_zero, List.append_assoc]
    rfl
  · rw [glyphCells_wide hwide, hwide, if_neg (by decide), List.set_append_right _ _ (Nat.le_refl _),
      List.set_append_right _ _ (Nat.le_add_right _ _), Nat.sub_self, Nat.add_sub_cancel_left,
      Nat.add_comm, List.replicate_succ, List.replicate_succ, List.set_cons_zero,
      List.set_cons_succ, List.set_cons_zero, List.append_assoc]
    rfl

/-- There are blanks where it goes, so that no glyph is cut in two. -/
theorem mendSpan_ofText (h : ∀ c ∈ text, 0 < Glyph.width c) {width : Nat} (hpos : 0 < width)
    (hroom : Glyph.columns text + width ≤ cols) :
    (ofText cols text ending).mendSpan (Glyph.columns text) width {} = ofText cols text ending := by
  have hbefore : (ofText cols text ending).mendBefore (Glyph.columns text) {} =
      ofText cols text ending := by
    unfold mendBefore trailAt
    rw [cell_ofText h (Nat.le_refl _) (by omega)]
    exact if_neg fun hcut => by cases hcut.2
  unfold mendSpan leadAt
  rw [hbefore, cell_ofText h (by omega) (by omega)]
  rfl

/-- **A glyph written behind a text becomes part of it.** -/
theorem write_ofText (h : ∀ c ∈ text, 0 < Glyph.width c) (hc : 0 < Glyph.width c)
    (hfits : Glyph.columns (text ++ [c]) ≤ cols) :
    (ofText cols text (.hard (Glyph.columns text))).write (Glyph.columns text) c {} =
      ofText cols (text ++ [c]) (.hard (Glyph.columns (text ++ [c]))) := by
  have hsum : Glyph.columns (text ++ [c]) = Glyph.columns text + Glyph.width c := by simp
  have hcols : (ofText cols text (.hard (Glyph.columns text))).cols = cols :=
    cols_ofText h (by omega)
  have hplace := cells_place_ofText h hc hfits (.hard (Glyph.columns text))
    (.hard (Glyph.columns (text ++ [c])))
  have hending : ((ofText cols text (.hard (Glyph.columns text))).place (Glyph.columns text)
      (Glyph.width c) c {}).ending = .hard (Glyph.columns text) := ending_place _ _ _ _ _
  have hspan : (ofText cols text (.hard (Glyph.columns text))).mendSpan (Glyph.columns text)
      (Glyph.width c) {} = ofText cols text (.hard (Glyph.columns text)) :=
    mendSpan_ofText h hc (by omega)
  generalize ofText cols text (.hard (Glyph.columns text)) = row at hcols hplace hending hspan ⊢
  have hroom : row.room (Glyph.columns text) c = Glyph.width c := by
    unfold room
    rw [hcols]
    exact if_pos (by omega)
  have hwrite : row.write (Glyph.columns text) c {} =
      (row.place (Glyph.columns text) (Glyph.width c) c {}).extendTo
        (Glyph.columns text + Glyph.width c) := by
    unfold write
    rw [hroom]
    obtain ⟨n, hn⟩ : ∃ n, Glyph.width c = n + 1 := Nat.exists_eq_add_one.2 hc
    rw [hn] at hspan ⊢
    change ((row.mendSpan _ (n + 1) {}).place _ (n + 1) c {}).extendTo _ = _
    rw [hspan]
  rw [hwrite]
  unfold extendTo
  rw [hending]
  dsimp only
  rw [cols_place, hcols, hplace, ← hsum, Nat.min_eq_left hfits, Nat.max_eq_right (by omega)]
  rfl

/-! ## The text of the cells -/

/-- A row that ends behind its text has that text. -/
theorem written_ofText_hard (h : ∀ c ∈ text, 0 < Glyph.width c)
    (hfits : Glyph.columns text ≤ cols) :
    (ofText cols text (.hard (Glyph.columns text))).written = text := by
  have hlength : (ofText cols text (.hard (Glyph.columns text))).textLength =
      (text.flatMap glyphCells).length := by
    rw [length_textCells h]
    exact Nat.min_eq_left (by rw [cols_ofText h hfits]; exact hfits)
  unfold written
  rw [hlength, ofText, List.take_left, glyphs_textCells]

/-- A row that goes on has its blanks for text as well. -/
theorem written_ofText_wrapped (text : List Char) :
    (ofText cols text .wrapped).written =
      text ++ List.replicate (cols - Glyph.columns text) ' ' := by
  have hlength : (ofText cols text .wrapped).textLength =
      (ofText cols text .wrapped).cells.length := rfl
  unfold written
  rw [hlength, List.take_length, ofText, List.filter_append, List.map_append, glyphs_textCells]
  simp

/-! ## A text on several rows -/

/-- The rows of a text that was cut into pieces: all but the last one go on. -/
def ofPieces (cols : Nat) (pieces : List (List Char)) : List Row :=
  pieces.dropLast.map (ofText cols · .wrapped) ++
    pieces.getLast?.toList.map fun piece => ofText cols piece (.hard (Glyph.columns piece))

theorem ofPieces_cons (piece : List Char) {pieces : List (List Char)} (h : pieces ≠ []) :
    ofPieces cols (piece :: pieces) = ofText cols piece .wrapped :: ofPieces cols pieces := by
  rw [ofPieces, List.dropLast_cons_of_ne_nil h, List.getLast?_cons_of_ne_nil h]
  rfl

theorem length_ofPieces {pieces : List (List Char)} (h : pieces ≠ []) :
    (ofPieces cols pieces).length = pieces.length := by
  have hpos : 0 < pieces.length := List.length_pos_iff.2 h
  rw [ofPieces, List.getLast?_eq_some_getLast h, List.length_append, List.length_map,
    List.length_dropLast, List.length_map]
  exact Nat.sub_add_cancel hpos

/-- All rows but the last one go on. -/
theorem isWrapped_of_ofPieces {above : List Row} {last : Row} {pieces : List (List Char)}
    (hne : pieces ≠ []) (h : above ++ [last] = ofPieces cols pieces) :
    ∀ row ∈ above, row.isWrapped = true := by
  rw [ofPieces, List.getLast?_eq_some_getLast hne] at h
  rw [List.append_inj_left' h rfl]
  intro row hrow
  obtain ⟨piece, -, rfl⟩ := List.mem_map.1 hrow
  rfl

/-- What a row that goes on is read as: its text, with blanks up to the last
column. -/
def padded (cols : Nat) (piece : List Char) : List Char :=
  piece ++ List.replicate (cols - Glyph.columns piece) ' '

theorem withBreak_ofText_wrapped (text : List Char) :
    (ofText cols text .wrapped).withBreak = padded cols text := by
  rw [withBreak, written_ofText_wrapped]
  exact List.append_nil _

theorem withBreak_ofText_hard (h : ∀ c ∈ text, 0 < Glyph.width c)
    (hfits : Glyph.columns text ≤ cols) :
    (ofText cols text (.hard (Glyph.columns text))).withBreak = text ++ ['\n'] := by
  rw [withBreak, written_ofText_hard h hfits]
  rfl

/-- The text of the rows, with a line break behind the last one. -/
theorem flatMap_withBreak_ofPieces {pieces : List (List Char)} (hne : pieces ≠ [])
    (h : ∀ piece ∈ pieces, ∀ c ∈ piece, 0 < Glyph.width c)
    (hfits : ∀ piece ∈ pieces, Glyph.columns piece ≤ cols) :
    (ofPieces cols pieces).flatMap withBreak =
      pieces.dropLast.flatMap (padded cols) ++ pieces.getLast hne ++ ['\n'] := by
  have hlast := List.getLast_mem hne
  rw [ofPieces, List.getLast?_eq_some_getLast hne, List.flatMap_append, List.flatMap_map]
  simp only [withBreak_ofText_wrapped, Option.toList_some, List.map_singleton,
    List.flatMap_singleton, withBreak_ofText_hard (h _ hlast) (hfits _ hlast), List.append_assoc]

/-- **The rows of a text read as the text itself exactly if all but the last
are filled.** -/
theorem flatMap_padded_eq_iff {pieces : List (List Char)} (hne : pieces ≠ [])
    (hfits : ∀ piece ∈ pieces, Glyph.columns piece ≤ cols) :
    pieces.dropLast.flatMap (padded cols) ++ pieces.getLast hne = pieces.flatten ↔
      ∀ piece ∈ pieces.dropLast, Glyph.columns piece = cols := by
  have hflatten : pieces.flatten = pieces.dropLast.flatMap id ++ pieces.getLast hne := by
    rw [List.flatMap_id]
    conv => lhs; rw [← List.dropLast_concat_getLast hne]
    rw [List.flatten_append, List.flatten_singleton]
  have hfree : pieces.dropLast.flatMap (padded cols) = pieces.dropLast.flatMap id ↔
      ∀ piece ∈ pieces.dropLast, cols - Glyph.columns piece = 0 := flatMap_append_replicate_iff
  rw [hflatten, List.append_left_inj, hfree]
  refine forall_congr' fun piece => forall_congr' fun hpiece => ?_
  have hle := hfits piece (List.dropLast_subset _ hpiece)
  omega

/-- The rows of narrow glyphs read as the line that they are. -/
theorem flatMap_withBreak_narrow (hcols : 0 < cols) {line : List Char}
    (h : ∀ c ∈ line, Glyph.width c = 1) :
    (ofPieces cols (Glyph.cut cols [] line)).flatMap withBreak = line ++ ['\n'] := by
  have hfits : ∀ piece ∈ Glyph.cut cols [] line, Glyph.columns piece ≤ cols :=
    Glyph.columns_cut_le (Nat.zero_le cols) fun c hc => (h c hc).symm ▸ hcols
  have hfull : ∀ piece ∈ (Glyph.cut cols [] line).dropLast, Glyph.columns piece = cols :=
    Glyph.columns_dropLast_cut (Nat.zero_le cols) hcols h
  rw [flatMap_withBreak_ofPieces (Glyph.cut_ne_nil _ _ _)
    (fun piece hpiece c hc => by rw [h c (Glyph.mem_of_mem_cut hpiece hc)]; exact Nat.one_pos)
    hfits, (flatMap_padded_eq_iff (Glyph.cut_ne_nil _ _ _) hfits).2 hfull, Glyph.flatten_cut]
  rfl

/-- The rows of a line of narrow glyphs: it is cut every `cols` glyphs, and a
row goes on if more of the line comes after it. -/
def ofLine (cols : Nat) (line : List Char) : List Row :=
  (List.range (Glyph.rowsFor cols line.length)).map fun i =>
    ofText cols ((line.drop (i * cols)).take cols)
      (if (i + 1) * cols < line.length then .wrapped else .hard (line.length - i * cols))

theorem ofPieces_cut_narrow (hcols : 0 < cols) {line : List Char}
    (h : ∀ c ∈ line, Glyph.width c = 1) :
    ofPieces cols (Glyph.cut cols [] line) = ofLine cols line := by
  obtain ⟨n, hn⟩ : ∃ n, Glyph.rowsFor cols line.length = n + 1 :=
    Nat.exists_eq_add_one.2 (Nat.lt_of_lt_of_le Nat.one_pos (Nat.le_max_left _ _))
  have hmore : ∀ i, i + 1 < n + 1 ↔ (i + 1) * cols < line.length := fun i => by
    rw [← hn]
    exact Glyph.succ_lt_rowsFor_iff hcols
  have hend : line.length ≤ n * cols + cols := by
    have hlast := hmore n
    rw [Nat.succ_mul] at hlast
    omega
  have hlast : Glyph.columns ((line.drop (n * cols)).take cols) = line.length - n * cols := by
    rw [Glyph.columns_eq_length fun c hc => h c (List.mem_of_mem_drop (List.mem_of_mem_take hc)),
      List.length_take, List.length_drop]
    omega
  rw [Glyph.cut_narrow hcols line h, ofPieces, ofLine, hn, List.range_succ, List.map_append,
    List.map_singleton, List.dropLast_concat, List.getLast?_concat, List.map_append, List.map_map]
  congr 1
  · refine List.map_congr_left fun i hi => ?_
    rw [Function.comp_apply, if_pos ((hmore i).1 (Nat.succ_lt_succ (List.mem_range.1 hi)))]
  · rw [List.map_singleton, if_neg (fun hlt => Nat.lt_irrefl _ ((hmore n).2 hlt)), ← hlast]
    rfl

end Row

end VideoTerminal
