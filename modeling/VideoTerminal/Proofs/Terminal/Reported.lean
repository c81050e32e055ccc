import VideoTerminal.Proofs.Control.Sequence
import VideoTerminal.Proofs.Screen.Blind
import VideoTerminal.Proofs.Terminal.Steady
/-!
# Where the cursor is

A child program that asks for the cursor is told its place in the form in which the
place is addressed. So it can send what it was told back, later, and the cursor comes
back. Between the two stand decimal digits, parameters that have a limit, rows that may
be counted from the region, and bounds that the cursor is kept to; none of them changes
the place.
-/

namespace VideoTerminal

namespace Sequence

variable {row col n : Nat}

open Terminal (decimal)

/-! ## Numbers in decimal digits -/

theorem toNat_toUInt8 {c : Char} (h : c.isDigit = true) :
    c.toUInt8.toNat = c.toNat ∧ 0x30 ≤ c.toNat ∧ c.toNat ≤ 0x39 := by
  have hc : 0x30 ≤ c.toNat ∧ c.toNat ≤ 0x39 := by
    simpa [Char.isDigit, UInt32.le_iff_toNat_le] using h
  refine ⟨?_, hc⟩
  have hmod : c.toUInt8.toNat = c.toNat % 256 := UInt32.toNat_toUInt8 c.val
  omega

theorem isDigit_decimal (n : Nat) : ∀ byte ∈ decimal n, isDigit byte = true := by
  intro byte hbyte
  obtain ⟨c, hc, rfl⟩ := List.mem_map.1 hbyte
  have hvalue := toNat_toUInt8 (Nat.isDigit_of_mem_toDigits (by decide) (by decide) hc)
  simp only [isDigit, Bool.and_eq_true, decide_eq_true_eq, UInt8.le_iff_toNat_le,
    UInt8.reduceToNat]
  omega

/-- **A number is read as it was written.** -/
theorem number_decimal (n : Nat) : number (decimal n) = n := by
  have hfold : ∀ (digits : List Char) (value : Nat), (∀ c ∈ digits, c.isDigit = true) →
      (digits.map Char.toUInt8).foldl (fun n digit => 10 * n + (digit.toNat - 0x30)) value =
        Nat.ofDigitChars 10 digits value := by
    intro digits
    induction digits with
    | nil => exact fun _ _ => rfl
    | cons c digits ih =>
      intro value hdigits
      obtain ⟨hc, hrest⟩ := List.forall_mem_cons.1 hdigits
      rw [List.map_cons, List.foldl_cons, (toNat_toUInt8 hc).1, ih _ hrest]
      rfl
  have hdigits : ∀ c ∈ Nat.toDigits 10 n, c.isDigit = true :=
    fun c hc => Nat.isDigit_of_mem_toDigits (by decide) (by decide) hc
  exact (hfold _ 0 hdigits).trans (Nat.ofDigitChars_toDigits (by decide) (by decide))

/-- A number that a parameter can hold is the parameter. -/
theorem field_decimal (h : n ≤ maxValue) : field (decimal n) = n := by
  unfold field
  rw [number_decimal, Nat.min_eq_left h]

theorem isSeparator_decimal (n : Nat) : ∀ byte ∈ decimal n, isSeparator byte = false :=
  fun byte hbyte => isSeparator_of_isDigit (isDigit_decimal n byte hbyte)

/-- Two numbers with a semicolon between them are two parameters. -/
theorem fields_decimal (hrow : row ≤ maxValue) (hcol : col ≤ maxValue) :
    fields (decimal row ++ 0x3B :: decimal col) = [row, col] := by
  rw [← fieldsAfter_nil, fieldsAfter_separator [] (isSeparator_decimal row) rfl,
    fieldsAfter_digits _ (isSeparator_decimal col), field_decimal hrow, field_decimal hcol]
  rfl

/-- A text of fields alone has no marker. -/
theorem meaning?_of_isFields {text : List UInt8} (h : isFields text = true) (final : UInt8) :
    meaning? text final = decodePlain (fields text) (Char.ofUInt8 final) := by
  have hmarker : leadingMarker text = none := by
    unfold leadingMarker
    rw [Option.filter_eq_none_iff]
    intro byte hbyte hmark
    have hfield := List.all_eq_true.1 h byte (List.mem_of_head? hbyte)
    simp only [isDigit, isSeparator, isMarker, Bool.and_eq_true, Bool.or_eq_true, beq_iff_eq,
      decide_eq_true_eq, UInt8.le_iff_toNat_le, UInt8.reduceToNat, ← UInt8.toNat_inj]
      at hfield hmark
    omega
  have hrest : unmarked text = text := by
    unfold unmarked
    rw [hmarker]
    rfl
  unfold meaning?
  rw [hrest, hmarker, if_pos h]
  rfl

/-- Two numbers with a semicolon between them address a place. -/
theorem meaning?_position (hrow : row ≤ maxValue) (hcol : col ≤ maxValue) :
    meaning? (decimal row ++ 0x3B :: decimal col) 0x48 = some (.position (row - 1) (col - 1)) := by
  have hfields : isFields (decimal row ++ 0x3B :: decimal col) = true := by
    refine List.all_eq_true.2 (List.forall_mem_append.2 ⟨fun byte hbyte => ?_,
      List.forall_mem_cons.2 ⟨rfl, fun byte hbyte => ?_⟩⟩)
    · rw [isDigit_decimal row byte hbyte, Bool.true_or]
    · rw [isDigit_decimal col byte hbyte, Bool.true_or]
  have hordinal : ∀ n : Nat, ordinal (some n) = n - 1 := by
    intro n
    unfold ordinal count
    rw [Option.getD_some]
    omega
  rw [meaning?_of_isFields hfields, fields_decimal hrow hcol]
  change some (Action.position (ordinal (some row)) (ordinal (some col))) = _
  rw [hordinal, hordinal]

end Sequence

namespace Reader

open Terminal (decimal)

/-- A text without foreign bytes is read as a whole. -/
theorem feed_text {text : List UInt8} {final : UInt8}
    (htext : ∀ byte ∈ text, Sequence.isPart byte = true) (hfinal : 0x40 ≤ final ∧ final ≤ 0x7E) :
    Reader.ground.feed ([0x1B, 0x5B] ++ text ++ [final]) =
      (afterSequence (Sequence.meaning? text final), (Sequence.meaning? text final).toList) := by
  have hopen : Reader.ground.run [0x1B, 0x5B] = (.sequence {}, []) := rfl
  have hfilter : text.filter Sequence.isPart = text := List.filter_eq_self.2 htext
  have hcontrol : text.filterMap control? = [] :=
    List.filterMap_eq_nil_iff.2 fun byte hbyte => control?_part (htext byte hbyte)
  refine feed_of_run ?_
  rw [run_append, run_append, hopen]
  dsimp only
  rw [run_sequence fun byte hbyte => by rw [htext byte hbyte, Bool.true_or], hfilter, hcontrol]
  dsimp only
  rw [run, step, stepSequence_final hfinal, Sequence.decode?_foldl_read htext]
  exact Prod.ext rfl (List.append_nil _)

/-- **A place that is written in decimal digits is gone to.** -/
theorem feed_position {row col : Nat} (hrow : row ≤ Sequence.maxValue)
    (hcol : col ≤ Sequence.maxValue) :
    Reader.ground.feed ([0x1B, 0x5B] ++ (decimal row ++ 0x3B :: decimal col) ++ [0x48]) =
      (.ground, [.position (row - 1) (col - 1)]) := by
  have hpart : ∀ n, ∀ byte ∈ decimal n, Sequence.isPart byte = true := by
    intro n byte hbyte
    have hdigit := Sequence.isDigit_decimal n byte hbyte
    simp only [Sequence.isDigit, Sequence.isPart, Bool.and_eq_true, decide_eq_true_eq,
      UInt8.le_iff_toNat_le, UInt8.reduceToNat] at hdigit ⊢
    omega
  have htext : ∀ byte ∈ decimal row ++ 0x3B :: decimal col, Sequence.isPart byte = true :=
    List.forall_mem_append.2 ⟨hpart row, List.forall_mem_cons.2 ⟨rfl, hpart col⟩⟩
  rw [feed_text htext (by decide), Sequence.meaning?_position hrow hcol]
  rfl

end Reader

namespace Screen

variable {P : Nat → Row → Prop} {kind : ScreenKind} {rows cols : Nat} {s : Screen}

/-- A screen without marks and reports. -/
def quiet (s : Screen) : Screen := { s.unmarked with damage := {} }

/-- The cursor is where it was, and no cell changed. -/
structure Still (s s' : Screen) : Prop where
  cursor : s'.cursor = s.cursor
  rows : s'.grid.rows = s.grid.rows
  history : s'.history = s.history

theorem Still.trans {s' s'' : Screen} (h : s.Still s') (h' : s'.Still s'') : s.Still s'' :=
  ⟨h'.cursor.trans h.cursor, h'.rows.trans h.rows, h'.history.trans h.history⟩

theorem Still.of_quiet {s' : Screen} (h : s'.quiet = s.quiet) : s.Still s' := by
  have hcursor : s'.quiet.cursor = s.quiet.cursor := by rw [h]
  have hrows : s'.quiet.grid.rows = s.quiet.grid.rows := by rw [h]
  have hhistory : s'.quiet.history = s.quiet.history := by rw [h]
  exact ⟨hcursor, hrows, hhistory⟩

theorem clamp_eq {low high place : Nat} (hlow : low ≤ place) (hhigh : place ≤ high) :
    clamp low high place = place := by
  unfold clamp
  omega

/-- **The place that is reported is the place of the cursor.** Rows may be counted from
the region, and then none outside it can be gone to. -/
theorem goto_reportedRow (h : s.Sound P kind rows cols)
    (hplace : s.modes.origin = false ∨ s.region.contains s.cursor.row = true) :
    s.Still (s.goto (.absolute (Terminal.reportedRow s)) (.absolute s.cursor.col)) := by
  have hlastCol : s.cursor.col ≤ s.lastCol := by
    rw [h.lastCol_eq]
    exact Nat.le_sub_one_of_lt h.col
  have hlastRow : s.cursor.row ≤ s.lastRow := by
    rw [h.lastRow_eq]
    exact Nat.le_sub_one_of_lt h.row
  have hcol : s.targetColumn (.absolute s.cursor.col) = s.cursor.col :=
    clamp_eq (Nat.zero_le _) hlastCol
  have hrow : s.targetRow (.absolute (Terminal.reportedRow s)) = s.cursor.row := by
    unfold targetRow Terminal.reportedRow
    by_cases horigin : s.modes.origin = true
    · have hin := hplace.resolve_left fun hfalse => Bool.false_ne_true (hfalse.symm.trans horigin)
      simp only [Region.contains, Bool.and_eq_true, decide_eq_true_eq] at hin
      dsimp only
      -- the top that the report takes away is added again
      rw [if_pos horigin, if_pos horigin, ← Int.natCast_add, Nat.sub_add_cancel hin.1]
      exact clamp_eq hin.1 hin.2
    · dsimp only
      rw [if_neg horigin, if_neg horigin]
      exact clamp_eq (Nat.zero_le _) hlastRow
  unfold goto
  rw [hrow, hcol]
  exact ⟨rfl, rfl, rfl⟩

end Screen

namespace Terminal

variable {π : Type} {rows cols : Nat} {t t' : Terminal π}

/-- Nothing is different but what is drawn and what is selected. -/
structure Unmoved (t t' : Terminal π) : Prop where
  active : t'.active = t.active
  reader : t'.reader = t.reader
  output : t'.output = t.output
  screens : ∀ kind, (t'.screenOf kind).quiet = (t.screenOf kind).quiet

namespace Unmoved

theorem refl (t : Terminal π) : t.Unmoved t := ⟨rfl, rfl, rfl, fun _ => rfl⟩

theorem trans {t'' : Terminal π} (h : t.Unmoved t') (h' : t'.Unmoved t'') :
    t.Unmoved t'' :=
  ⟨h'.active.trans h.active, h'.reader.trans h.reader, h'.output.trans h.output,
    fun kind => (h'.screens kind).trans (h.screens kind)⟩

theorem modifyOf {f : Screen → Screen} (hf : ∀ s : Screen, (f s).quiet = s.quiet)
    (t : Terminal π) (kind : ScreenKind) : t.Unmoved (t.modifyOf kind f) := by
  cases kind with
  | primary =>
    refine ⟨rfl, rfl, rfl, fun other => ?_⟩
    cases other with
    | primary => exact hf t.primary
    | alternate => rfl
  | alternate =>
    refine ⟨rfl, rfl, rfl, fun other => ?_⟩
    cases other with
    | primary => rfl
    | alternate => exact hf t.alternate

theorem modifyScreen {f : Screen → Screen} (hf : ∀ s : Screen, (f s).quiet = s.quiet)
    (t : Terminal π) : t.Unmoved (t.modifyScreen f) :=
  modifyOf hf t t.active

theorem absorbDamage (t : Terminal π) : t.Unmoved t.absorbDamage := by
  have h := modifyScreen (f := Screen.dropDamage) (fun _ => rfl) t
  exact ⟨h.active, h.reader, h.output, h.screens⟩

theorem viewAt (t : Terminal π) (offset : Nat) : t.Unmoved (t.viewAt offset) := by
  unfold Terminal.viewAt
  split
  · exact refl t
  · have hoffset : t.Unmoved { t with viewOffset := offset } := ⟨rfl, rfl, rfl, fun _ => rfl⟩
    exact hoffset.trans
      (modifyScreen (f := fun s => { s with grid := s.grid.markAll }) (fun _ => rfl) _)

theorem settle (t : Terminal π) (sent : Bool) : t.Unmoved (t.settle sent) := by
  have h : t.Unmoved (if sent && t.modes.scrollOnOutput then t.snapView else t) := by
    split
    · exact viewAt t 0
    · exact refl t
  exact h.trans ⟨rfl, rfl, rfl, fun _ => rfl⟩

theorem still (h : t.Unmoved t') (kind : ScreenKind) :
    (t.screenOf kind).Still (t'.screenOf kind) :=
  Screen.Still.of_quiet (h.screens kind)

theorem quiet_screen (h : t.Unmoved t') : t'.screen.quiet = t.screen.quiet := by
  unfold screen
  rw [h.active]
  exact h.screens t.active

end Unmoved

/-- If the screen that is shown stays still under an operation, both do. -/
theorem still_modifyScreen (t : Terminal π) {f : Screen → Screen}
    (h : t.screen.Still (f t.screen)) (kind : ScreenKind) :
    (t.screenOf kind).Still ((t.modifyScreen f).screenOf kind) := by
  by_cases hkind : kind = t.active
  · have hscreen := screen_modifyScreen t f
    unfold screen at h hscreen
    rw [(modifyScreen_rest t f).1, ← hkind] at hscreen
    rw [← hkind] at h
    rw [hscreen]
    exact h
  · rw [screenOf_modifyScreen t f hkind]
    exact Screen.Still.of_quiet rfl

section Feeding

variable [Printer π] [Glyph.Widths]

/-- Bytes that are one action do what it does, but for what is drawn and selected. -/
theorem feed_action {bytes : List UInt8} {reader : Reader} {action : Action}
    (hread : t.reader.feed bytes = (reader, [action]))
    (hact : ({ t with reader } : Terminal π).act action = ⟨t', none⟩) :
    ∃ after, t.feed bytes = ⟨after, none⟩ ∧ t'.Unmoved after := by
  refine ⟨t'.absorbDamage.settle !bytes.isEmpty, ?_,
    (Unmoved.absorbDamage t').trans (Unmoved.settle _ _)⟩
  rw [feed_eq, hread]
  dsimp only
  unfold applyAll apply
  rw [hact]
  rfl

theorem feed_single {bytes : List UInt8} {action : Action} (hground : t.reader = .ground)
    (hread : Reader.ground.feed bytes = (.ground, [action])) (hact : t.act action = ⟨t', none⟩) :
    ∃ after, t.feed bytes = ⟨after, none⟩ ∧ t'.Unmoved after := by
  have hsame : ({ t with reader := .ground } : Terminal π) = t := by rw [← hground]
  exact feed_action (hground.symm ▸ hread) (hsame.symm ▸ hact)

/-- **A report of the cursor leads back to it.** A child program asks where the cursor
is and is told, in decimal digits from one; if it sends the cursor to that place, the
cursor stays where it is, and no cell changes. In origin mode, places outside the region
have no address; and rows and columns are counted with 16 bits, as parameters are. -/
theorem report_leads_back (h : Reach rows cols t) (hrows : rows ≤ 65535) (hcols : cols ≤ 65535)
    (hground : t.reader = .ground)
    (hplace : t.screen.modes.origin = false ∨
      t.screen.region.contains t.screen.cursor.row = true) :
    ∃ row col asked back, 1 ≤ row ∧ 1 ≤ col ∧
      t.feed [0x1B, 0x5B, 0x36, 0x6E] = ⟨asked, none⟩ ∧
      asked.output =
        t.output ++ ([0x1B, 0x5B] ++ (decimal row ++ 0x3B :: decimal col) ++ [0x52]) ∧
      asked.feed ([0x1B, 0x5B] ++ (decimal row ++ 0x3B :: decimal col) ++ [0x48]) = ⟨back, none⟩ ∧
      back.active = t.active ∧ ∀ kind, (t.screenOf kind).Still (back.screenOf kind) := by
  have hcursor := (h.sound Row.law_fits).screen
  have hreported : reportedRow t.screen ≤ t.screen.cursor.row := by
    unfold reportedRow
    split <;> omega
  have hrow : reportedRow t.screen + 1 ≤ Sequence.maxValue :=
    Nat.le_trans (Nat.lt_of_le_of_lt hreported hcursor.row) hrows
  have hcol : t.screen.cursor.col + 1 ≤ Sequence.maxValue := Nat.le_trans hcursor.col hcols
  have hread : Reader.ground.feed [0x1B, 0x5B, 0x36, 0x6E] = (.ground, [.statusReport 6]) := by
    decide
  have hact : t.act (.statusReport 6) = ⟨t.send (positionReport t.screen), none⟩ := rfl
  obtain ⟨asked, hasked, hsent⟩ := feed_single hground hread hact
  have hquiet : asked.screen.quiet = t.screen.quiet := hsent.quiet_screen
  have hreach : Reach rows cols asked := by
    have hfeed := h.feed [0x1B, 0x5B, 0x36, 0x6E]
    rw [hasked] at hfeed
    exact hfeed
  -- the question moved neither the cursor nor the region
  have hstill : asked.screen.Still
      (asked.screen.goto (.absolute (reportedRow t.screen)) (.absolute t.screen.cursor.col)) := by
    have hplace' : asked.screen.quiet.modes.origin = false ∨
        asked.screen.quiet.region.contains asked.screen.quiet.cursor.row = true := by
      rw [hquiet]
      exact hplace
    have hrow' : reportedRow asked.screen.quiet = reportedRow t.screen.quiet := by rw [hquiet]
    have hcol' : asked.screen.cursor = t.screen.cursor := (Screen.Still.of_quiet hquiet).cursor
    have hgoto := Screen.goto_reportedRow (hreach.sound Row.law_fits).screen hplace'
    change reportedRow asked.screen = reportedRow t.screen at hrow'
    rw [hrow', hcol'] at hgoto
    exact hgoto
  obtain ⟨back, hback, hmoved⟩ := feed_single (hsent.reader.trans hground)
    (Reader.feed_position hrow hcol) (act_onScreen? asked rfl)
  refine ⟨reportedRow t.screen + 1, t.screen.cursor.col + 1, asked, back, Nat.le_add_left _ _,
    Nat.le_add_left _ _, hasked, hsent.output, hback, ?_, fun kind => ?_⟩
  · exact hmoved.active.trans ((modifyScreen_rest asked _).1.trans hsent.active)
  · exact (hsent.still kind).trans ((still_modifyScreen asked hstill kind).trans
      (hmoved.still kind))

end Feeding

attribute [local instance] Glyph.unicode

/-- In origin mode, in the last row of a region, the report counts from its top. -/
theorem report_leads_back_origin :
    let t := ((plain 4 5).feed [0x1B, 0x5B, 0x32, 0x3B, 0x33, 0x72, 0x1B, 0x5B, 0x3F, 0x36, 0x68,
      0x1B, 0x5B, 0x32, 0x3B, 0x34, 0x48]).terminal
    let asked := (t.feed [0x1B, 0x5B, 0x36, 0x6E]).terminal
    (Reach 4 5 t ∧ t.reader = .ground ∧ t.screen.modes.origin = true ∧
        t.screen.region = ⟨1, 2⟩ ∧ t.screen.cursor = ⟨2, 3⟩) ∧
      asked.output = [0x1B, 0x5B, 0x32, 0x3B, 0x34, 0x52] ∧
      (asked.feed [0x1B, 0x5B, 0x32, 0x3B, 0x34, 0x48]).terminal.screen.cursor = ⟨2, 3⟩ := by
  intro t asked
  have hreach : Reach 4 5 t := (reach_plain 4 5 (by decide) (by decide)).feed _
  have hground : t.reader = .ground := by decide
  have hregion : t.screen.region = ⟨1, 2⟩ := by decide
  have hcursor : t.screen.cursor = ⟨2, 3⟩ := by decide
  have houtput : asked.output = [0x1B, 0x5B] ++ [0x32, 0x3B, 0x34] ++ [0x52] := by decide
  obtain ⟨row, col, asked', back, -, -, hasked, hsent, hback, hactive, hstill⟩ :=
    report_leads_back hreach (by decide) (by decide) hground
      (Or.inr (by rw [hregion, hcursor]; decide))
  obtain rfl : asked = asked' := congrArg Outcome.terminal hasked
  have hnone : t.output = [] := by decide
  rw [houtput, hnone, List.nil_append] at hsent
  rw [← List.append_cancel_left (List.append_cancel_right hsent)] at hback
  refine ⟨⟨hreach, hground, by decide, hregion, hcursor⟩, houtput, ?_⟩
  have hafter : (asked.feed [0x1B, 0x5B, 0x32, 0x3B, 0x34, 0x48]).terminal = back :=
    congrArg Outcome.terminal hback
  rw [hafter, screen, hactive]
  exact (hstill t.active).cursor.trans hcursor

end Terminal

end VideoTerminal
