import VideoTerminal.Proofs.Control.Text
import VideoTerminal.Proofs.Screen.Typed
import VideoTerminal.Proofs.Terminal.Scroll
import VideoTerminal.Proofs.Terminal.Split
/-!
# Typing on a terminal

A terminal that was just created is fed lines of text. Each line takes rows of
its own, cut where the next glyph has no room, and the last row is that of the
cursor (`feed_lines`). What is copied from there is the text of these rows
(`Typed.text_append`).
-/

namespace VideoTerminal

namespace Terminal

section Typing

variable [Glyph.Widths] {π : Type} [Printer π] {rows cols capacity : Nat} {t : Terminal π}
  {above : List Row} {cur text : List Char}

/-- The primary screen is shown, and text is typed on it. -/
structure Typed (rows cols capacity : Nat) (above : List Row) (cur : List Char)
    (t : Terminal π) : Prop where
  active : t.active = .primary
  screen : t.primary.Typed rows cols capacity above cur

/-- An action on the screen does to the primary one what it does to a screen. -/
theorem apply_onScreen? (hactive : t.active = .primary) {action : Action} {f : Screen → Screen}
    (hf : onScreen? t.tabs action = some f) :
    ∃ t', t.apply action = ⟨t', none⟩ ∧ t'.active = .primary ∧
      t'.primary = (f t.primary).dropDamage := by
  have hafter : (t.modifyScreen f).absorbDamage.active = .primary := by
    rw [active_absorbDamage]
    exact (modifyScreen_rest t f).1.trans hactive
  refine ⟨(t.modifyScreen f).absorbDamage, ?_, hafter, ?_⟩
  · unfold apply
    rw [t.act_onScreen? hf]
    rfl
  · rw [← screen_of_primary hafter, screen_absorbDamage, screen_modifyScreen,
      screen_of_primary hactive]

/-- The rows of lines of text, each cut for itself. -/
def rowsOf (cols : Nat) (lines : List (List Char)) : List Row :=
  lines.flatMap fun line => Row.ofPieces cols (Glyph.cut cols [] line)

/-- The actions ran, and left the given rows: the last one is that of the
cursor. -/
def Types (rows cols capacity : Nat) (t : Terminal π) (actions : List Action)
    (written : List Row) : Prop :=
  ∃ t' above cur, t.applyAll actions = ⟨t', none⟩ ∧ t'.Typed rows cols capacity above cur ∧
    above ++ [Row.ofText cols cur (.hard (Glyph.columns cur))] = written

namespace Typed

/-- One action, and then others. -/
theorem step {t₁ : Terminal π} {action : Action} {actions : List Action} {written : List Row}
    (h : t.apply action = ⟨t₁, none⟩) (h₁ : Types rows cols capacity t₁ actions written) :
    Types rows cols capacity t (action :: actions) written := by
  obtain ⟨t', above, cur, happly, htyped, hrows⟩ := h₁
  refine ⟨t', above, cur, ?_, htyped, hrows⟩
  rw [applyAll, h]
  exact happly

/-- Actions that ran, and then others. -/
theorem after {t₁ : Terminal π} {first second : List Action} {written : List Row}
    (h : t.applyAll first = ⟨t₁, none⟩) (h₁ : Types rows cols capacity t₁ second written) :
    Types rows cols capacity t (first ++ second) written := by
  obtain ⟨t', above, cur, happly, htyped, hrows⟩ := h₁
  refine ⟨t', above, cur, ?_, htyped, hrows⟩
  rw [applyAll_append, h]
  exact happly

/-- **A text is typed row by row**, as it is cut. -/
theorem types_text (h : t.Typed rows cols capacity above cur)
    (htext : ∀ c ∈ text, 0 < Glyph.width c ∧ Glyph.width c ≤ cols)
    (hroom : above.length + (Glyph.cut cols cur text).length ≤ rows + capacity) :
    Types rows cols capacity t (text.map .print)
      (above ++ Row.ofPieces cols (Glyph.cut cols cur text)) := by
  induction text generalizing t above cur with
  | nil => exact ⟨t, above, cur, rfl, h, rfl⟩
  | cons c text ih =>
    obtain ⟨⟨hc, hwidth⟩, htext⟩ := List.forall_mem_cons.1 htext
    have hsum : Glyph.columns (cur ++ [c]) = Glyph.columns cur + Glyph.width c := by simp
    obtain ⟨t₁, happly, hactive, hprimary⟩ := apply_onScreen? h.active
      (show onScreen? t.tabs (.print c) = some (·.print c) from rfl)
    by_cases hfits : Glyph.columns cur + Glyph.width c ≤ cols
    · have hcut : Glyph.cut cols cur (c :: text) = Glyph.cut cols (cur ++ [c]) text :=
        Glyph.cut_cons_fits hfits
      have hone := h.screen.print hc hwidth fun hfull => absurd (hsum ▸ hfits) hfull
      rw [if_pos (hsum ▸ hfits)] at hone
      rw [hcut] at hroom ⊢
      exact step happly (ih ⟨hactive, hprimary ▸ hone.dropDamage⟩ htext hroom)
    · have hcut : Glyph.cut cols cur (c :: text) = cur :: Glyph.cut cols [c] text :=
        Glyph.cut_cons_full hfits
      have hne := Glyph.cut_ne_nil cols [c] text
      have hsome : 0 < (Glyph.cut cols [c] text).length := List.length_pos_iff.2 hne
      rw [hcut, List.length_cons] at hroom
      have hone := h.screen.print hc hwidth fun _ => by omega
      rw [if_neg (hsum ▸ hfits)] at hone
      have hrest := ih ⟨hactive, hprimary ▸ hone.dropDamage⟩ htext
        (by rw [List.length_append, List.length_singleton]; omega)
      rw [hcut, Row.ofPieces_cons cur hne, List.append_cons]
      exact step happly hrest

/-- A line break goes to the next row, behind what was written. -/
theorem types_lineBreak (h : t.Typed rows cols capacity above cur)
    (hroom : above.length + 2 ≤ rows + capacity) {actions : List Action} {written : List Row}
    (hmore : ∀ t' : Terminal π, t'.Typed rows cols capacity
      (above ++ [Row.ofText cols cur (.hard (Glyph.columns cur))]) [] →
        Types rows cols capacity t' actions written) :
    Types rows cols capacity t (.carriageReturn :: .lineFeed :: actions) written := by
  obtain ⟨t₁, happly₁, hactive₁, hprimary₁⟩ := apply_onScreen? h.active
    (show onScreen? t.tabs .carriageReturn = some Screen.carriageReturn from rfl)
  obtain ⟨t₂, happly₂, hactive₂, hprimary₂⟩ := apply_onScreen? hactive₁
    (show onScreen? t₁.tabs .lineFeed = some Screen.index from rfl)
  have hbroken := (h.screen.lineBreak hroom).dropDamage
  rw [hprimary₁] at hprimary₂
  exact step happly₁ (step happly₂ (hmore t₂ ⟨hactive₂, hprimary₂ ▸ hbroken⟩))

/-- **Lines are typed one after the other**, each on rows of its own. -/
theorem types_lines {lines : List (List Char)} (h : t.Typed rows cols capacity above [])
    (hne : lines ≠ [])
    (htext : ∀ line ∈ lines, ∀ c ∈ line, 0 < Glyph.width c ∧ Glyph.width c ≤ cols)
    (hroom : above.length + (rowsOf cols lines).length ≤ rows + capacity) :
    Types rows cols capacity t
      ([.carriageReturn, .lineFeed].intercalate (lines.map (·.map .print)))
      (above ++ rowsOf cols lines) := by
  induction lines generalizing t above with
  | nil => exact absurd rfl hne
  | cons line lines ih =>
    obtain ⟨hline, hlines⟩ := List.forall_mem_cons.1 htext
    have hcut : (Row.ofPieces cols (Glyph.cut cols [] line)).length =
        (Glyph.cut cols [] line).length := Row.length_ofPieces (Glyph.cut_ne_nil cols [] line)
    have hsplit : rowsOf cols (line :: lines) =
        Row.ofPieces cols (Glyph.cut cols [] line) ++ rowsOf cols lines := rfl
    rw [hsplit, List.length_append, hcut] at hroom
    have hfirst := h.types_text hline (by omega)
    rw [hsplit, ← List.append_assoc]
    cases lines with
    | nil =>
      rw [List.map_singleton, List.intercalate_singleton, rowsOf, List.flatMap_nil,
        List.append_nil]
      exact hfirst
    | cons next lines =>
      obtain ⟨t', above', cur, happly, htyped, hrows⟩ := hfirst
      have hlength := congrArg List.length hrows
      rw [List.length_append, List.length_append, hcut, List.length_singleton] at hlength
      -- there is at least one row for the next line
      have hnext : 0 < (rowsOf cols (next :: lines)).length := by
        have hpos := List.length_pos_iff.2 (Glyph.cut_ne_nil cols [] next)
        rw [rowsOf, List.flatMap_cons, List.length_append,
          Row.length_ofPieces (Glyph.cut_ne_nil cols [] next)]
        omega
      rw [List.map_cons, List.map_cons, List.intercalate_cons_cons, List.append_assoc]
      refine after happly (htyped.types_lineBreak (by omega) fun t'' htyped'' => ?_)
      rw [hrows] at htyped''
      exact ih htyped'' (List.cons_ne_nil _ _) hlines
        (by rw [List.length_append, hcut]; omega)

/-! ## From the first byte to the last -/

omit [Printer π] in
theorem viewAt (h : t.Typed rows cols capacity above cur) (offset : Nat) :
    (t.viewAt offset).Typed rows cols capacity above cur := by
  unfold Terminal.viewAt
  split
  · exact h
  · unfold Terminal.markAll modifyScreen
    dsimp only
    rw [h.active]
    exact ⟨rfl, h.screen.markAll⟩

omit [Printer π] in
theorem settle (h : t.Typed rows cols capacity above cur) (sent : Bool) :
    (t.settle sent).Typed rows cols capacity above cur := by
  have hview : ((if sent && t.modes.scrollOnOutput then t.snapView else t) : Terminal π).Typed rows
      cols capacity above cur := by
    split
    · exact h.viewAt 0
    · exact h
  exact ⟨hview.active, hview.screen⟩

omit [Printer π] in
/-- The buffer holds what was typed, and blank rows below. -/
theorem buffer_lines (h : t.Typed rows cols capacity above cur) :
    ∃ below, (t.bufferOf .primary).lines =
      above ++ [Row.ofText cols cur (.hard (Glyph.columns cur))] ++
        List.replicate below (Row.blank cols {}) := by
  obtain ⟨below, hlines⟩ := h.screen.lines
  exact ⟨below, hlines.trans (List.append_cons _ _ _)⟩

omit [Printer π] in
/-- What is copied from the first cell to the end of the row of the cursor: the
text of the rows, without the last line break. -/
theorem text_append (h : t.Typed rows cols capacity above cur) {sel : Selection}
    (hanchor : sel.anchor = ⟨0, 0⟩)
    (hextent : sel.extent = ⟨above.length, (t.bufferOf .primary).lastCol⟩) :
    sel.text (t.bufferOf .primary) ++ ['\n'] =
      (above ++ [Row.ofText cols cur (.hard (Glyph.columns cur))]).flatMap Row.withBreak := by
  obtain ⟨below, hlines⟩ := h.buffer_lines
  have hlast : (t.bufferOf .primary).lines[above.length]? =
      some (Row.ofText cols cur (.hard (Glyph.columns cur))) := by
    rw [hlines, List.append_assoc, List.getElem?_append_right (Nat.le_refl _), Nat.sub_self]
    rfl
  have hlength : (above ++ [Row.ofText cols cur (.hard (Glyph.columns cur))]).length =
      above.length + 1 := List.length_append
  have htext := h.screen.sound.text_append_lineBreak hanchor hextent hlast
  change _ = ((t.bufferOf .primary).lines.take (above.length + 1)).flatMap Row.withBreak at htext
  rw [hlines, List.take_left' hlength] at htext
  exact htext

end Typed

omit [Printer π] in
theorem typed_create {config : Config} (h : create config = .ok t)
    (hwraps : config.autowrap = true) :
    t.Typed config.rows config.cols config.capacity [] [] ∧ t.reader = .ground := by
  unfold create at h
  split at h
  · cases h
  · rename_i hsize
    cases h
    refine ⟨⟨rfl, ?_⟩, rfl⟩
    change (Screen.blank .primary config.rows config.cols config.capacity config.autowrap).Typed _ _
      _ _ _
    unfold Config.fault? Config.sizeFault? at hsize
    split at hsize
    · cases hsize
    · rw [hwraps]
      exact Screen.typed_blank (by omega) (by omega) config.capacity

/-- A character that is drawn is not a control, if no control has columns. -/
theorem plain_of_width (hcontrol : ∀ c, ¬ Reader.Plain c → Glyph.Widths.columns? c = none)
    {c : Char} (h : 0 < Glyph.width c) : Reader.Plain c := by
  refine Classical.byContradiction fun hplain => ?_
  rw [Glyph.width_of_none (hcontrol c hplain)] at h
  exact Nat.lt_irrefl 0 h

/-- **Lines that are fed to a new terminal** take rows of their own, each as
many as it is cut into. -/
theorem feed_lines (hcontrol : ∀ c, ¬ Reader.Plain c → Glyph.Widths.columns? c = none)
    {config : Config} (hcreate : create config = .ok t) (hwraps : config.autowrap = true)
    {lines : List (List Char)} (hne : lines ≠ [])
    (htext : ∀ line ∈ lines, ∀ c ∈ line, 0 < Glyph.width c ∧ Glyph.width c ≤ config.cols)
    (hroom : (rowsOf config.cols lines).length ≤ config.rows + config.capacity) :
    ∃ t' above cur, t.feed (Utf8.encode (['\r', '\n'].intercalate lines)) = ⟨t', none⟩ ∧
      t'.Typed config.rows config.cols config.capacity above cur ∧
      above ++ [Row.ofText config.cols cur (.hard (Glyph.columns cur))] =
        rowsOf config.cols lines := by
  obtain ⟨htyped, hreader⟩ := typed_create hcreate hwraps
  have hread := Reader.feed_lines fun line hline c hc => plain_of_width hcontrol
    (htext line hline c hc).1
  have hstart : ({ t with reader := .ground } : Terminal π).Typed config.rows config.cols
      config.capacity [] [] := ⟨htyped.active, htyped.screen⟩
  obtain ⟨t', above, cur, happly, htyped', hrows⟩ :=
    hstart.types_lines hne htext (by rw [List.length_nil, Nat.zero_add]; exact hroom)
  generalize Utf8.encode (['\r', '\n'].intercalate lines) = bytes at hread ⊢
  refine ⟨t'.settle !bytes.isEmpty, above, cur, ?_, htyped'.settle _, hrows⟩
  rw [feed_eq, hreader, hread, happly]
  rfl

end Typing

/-- In the tables that a terminal runs with no control has columns. -/
theorem columns?_control (c : Char) (h : ¬ Reader.Plain c) : Glyph.unicode.columns? c = none := by
  unfold Reader.Plain at h
  change (if c.toNat < 0xA0 then
    if 0x20 ≤ c.toNat ∧ c.toNat < 0x7F then some 1 else none else _) = none
  rw [if_pos (by omega), if_neg (by omega)]

end Terminal

end VideoTerminal
