import VideoTerminal.Proofs.Control.Registers
import VideoTerminal.Proofs.Rendition.Composed
import VideoTerminal.Proofs.Terminal.Piped
import VideoTerminal.Proofs.Terminal.Reported
/-!
# Selecting in one sequence or in two

A child program may send two lists of codes one after the other or join them
with a semicolon. All numbers of a joined list must be among the parameters
that a sequence may have, and the first list must not end inside an extended
colour, whose arguments the second one would go on with. An escape sequence is
read as such wherever the reader is, but for an open print pipe. There neither
way selects anything, unless the printer fails: that leaves the pipe, and then
a second sequence selects where one for both does not.
-/

namespace VideoTerminal

namespace Sequence

open Terminal (decimal)

variable {codes : List Nat}

/-- Numbers in decimal digits, with a semicolon between any two. -/
def spelled : List Nat → List UInt8
  | [] => []
  | [n] => decimal n
  | n :: next :: rest => decimal n ++ 0x3B :: spelled (next :: rest)

theorem spelled_cons {rest : List Nat} (n : Nat) (h : rest ≠ []) :
    spelled (n :: rest) = decimal n ++ 0x3B :: spelled rest := by
  cases rest with
  | nil => exact absurd rfl h
  | cons next rest => rfl

theorem spelled_append {a b : List Nat} (ha : a ≠ []) (hb : b ≠ []) :
    spelled (a ++ b) = spelled a ++ 0x3B :: spelled b := by
  induction a with
  | nil => exact absurd rfl ha
  | cons n rest ih =>
    cases rest with
    | nil => exact spelled_cons n hb
    | cons next rest =>
      rw [List.cons_append, spelled_cons n (List.append_ne_nil_of_right_ne_nil _ hb),
        ih (List.cons_ne_nil _ _), spelled_cons n (List.cons_ne_nil _ _), List.append_assoc]
      rfl

theorem isFields_spelled (codes : List Nat) : isFields (spelled codes) = true := by
  have hdecimal : ∀ n, isFields (decimal n) = true := fun n =>
    List.all_eq_true.2 fun byte hbyte => by rw [isDigit_decimal n byte hbyte, Bool.true_or]
  fun_induction spelled codes with
  | case1 => rfl
  | case2 n => exact hdecimal n
  | case3 n next rest ih =>
    unfold isFields at hdecimal ih ⊢
    rw [List.all_append, List.all_cons, hdecimal, ih]
    rfl

/-- A text of fields alone is part of a sequence. -/
theorem isPart_of_isFields {text : List UInt8} (h : isFields text = true) :
    ∀ byte ∈ text, isPart byte = true := by
  intro byte hbyte
  have hfield := List.all_eq_true.1 h byte hbyte
  simp only [isDigit, isSeparator, isPart, Bool.and_eq_true, Bool.or_eq_true, beq_iff_eq,
    decide_eq_true_eq, UInt8.le_iff_toNat_le, UInt8.reduceToNat, ← UInt8.toNat_inj]
    at hfield ⊢
  omega

theorem fieldsAfter_spelled (values : List Nat) (hne : codes ≠ [])
    (h : ∀ n ∈ codes, n ≤ maxValue) :
    fieldsAfter values (spelled codes) = (values ++ codes).take maxParameters := by
  fun_induction spelled codes generalizing values with
  | case1 => exact absurd rfl hne
  | case2 n =>
    have hdecimal : decimal n ≠ [] := fun hnil => Nat.toDigits_ne_nil (List.map_eq_nil_iff.1 hnil)
    rw [fieldsAfter_digits values (isSeparator_decimal n), if_neg fun hnil => hdecimal hnil.2,
      field_decimal (h n List.mem_cons_self)]
  | case3 n next rest ih =>
    obtain ⟨hn, hrest⟩ := List.forall_mem_cons.1 h
    rw [fieldsAfter_separator values (isSeparator_decimal n) rfl, field_decimal hn,
      ih _ (List.cons_ne_nil _ _) hrest, List.append_assoc]
    rfl

/-- **A list of numbers is read as it was written.** -/
theorem fields_spelled (hcount : codes.length ≤ maxParameters) (h : ∀ n ∈ codes, n ≤ maxValue) :
    fields (spelled codes) = codes := by
  by_cases hne : codes = []
  · rw [hne]
    rfl
  · rw [← fieldsAfter_nil, fieldsAfter_spelled [] hne h]
    exact List.take_of_length_le hcount

end Sequence

namespace Reader

open Sequence (spelled)

variable {r : Reader} {codes : List Nat} {bytes : List UInt8}

/-- The sequence that selects what a text says. -/
def selection (text : List UInt8) : List UInt8 := [0x1B, 0x5B] ++ text ++ [0x6D]

/-- **A list of codes is selected**, wherever the reader is, but for an open
print pipe. -/
theorem feed_selection (hpipe : r.inPipe = false) (hcount : codes.length ≤ Sequence.maxParameters)
    (hvalues : ∀ n ∈ codes, n ≤ Sequence.maxValue) :
    r.feed (selection (spelled codes)) = (.ground, [.select codes]) := by
  have hfields := Sequence.isFields_spelled codes
  have hmeaning : Sequence.meaning? (spelled codes) 0x6D = some (.select codes) := by
    rw [Sequence.meaning?_of_isFields hfields, Sequence.fields_spelled hcount hvalues]
    rfl
  have hground : r.feed (selection (spelled codes)) =
      Reader.ground.feed (selection (spelled codes)) := by
    have hbytes : selection (spelled codes) =
        escapeByte :: 0x5B :: (spelled codes ++ [0x6D]) := List.append_assoc _ _ _
    unfold feed
    rw [hbytes, run_escape hpipe (by decide)]
  rw [hground]
  unfold selection
  rw [feed_text (Sequence.isPart_of_isFields hfields) (by decide), hmeaning]
  rfl

/-! ## In the print pipe -/

/-- A byte that ends no closing sequence leaves the pipe open. -/
theorem stepPrinting_open {byte : UInt8} (h : byte ≠ 0x69) (held : List UInt8) :
    (stepPrinting held byte).1.inPipe = true ∧
      ∀ action, (stepPrinting held byte).2 = some action → action.isPiping = true := by
  have hend : pipeEnds.contains (held ++ [byte]) = false := by
    have hlast : ∀ closing ∈ pipeEnds, closing.getLast? = some 0x69 := by decide
    rw [List.contains_eq_mem, decide_eq_false_iff_not]
    intro hmem
    have hbyte := hlast _ hmem
    rw [List.getLast?_concat] at hbyte
    exact h (Option.some.inj hbyte)
  unfold stepPrinting
  dsimp only
  rw [hend, if_neg Bool.false_ne_true]
  split
  · exact ⟨rfl, fun action haction => nomatch haction⟩
  · split <;> exact ⟨rfl, fun action haction => by cases haction; rfl⟩

theorem run_open (h : r.inPipe = true) (hbytes : ∀ byte ∈ bytes, byte ≠ 0x69) :
    (r.run bytes).1.inPipe = true ∧ ∀ action ∈ (r.run bytes).2, action.isPiping = true := by
  induction bytes generalizing r with
  | nil => exact ⟨h, fun _ hmem => absurd hmem List.not_mem_nil⟩
  | cons byte bytes ih =>
    obtain ⟨hbyte, hrest⟩ := List.forall_mem_cons.1 hbytes
    cases r with
    | printing held =>
      obtain ⟨hopen, haction⟩ := stepPrinting_open hbyte held
      obtain ⟨hafter, hactions⟩ := ih hopen hrest
      exact ⟨hafter, List.forall_mem_append.2
        ⟨fun action hmem => haction action (Option.mem_toList.1 hmem), hactions⟩⟩
    | _ => cases h

/-- A text of fields does not close the pipe. -/
theorem selection_open {text : List UInt8} (h : Sequence.isFields text = true) :
    ∀ byte ∈ selection text, byte ≠ 0x69 := by
  rintro byte hbyte rfl
  rcases List.mem_append.1 hbyte with hbefore | hend
  · rcases List.mem_append.1 hbefore with hstart | htext
    · exact absurd hstart (by decide)
    · exact absurd (Sequence.isPart_of_isFields h _ htext) (by decide)
  · exact absurd hend (by decide)

end Reader

namespace Terminal

open Reader (selection)
open Sequence (spelled)

section Selecting

variable {π : Type} [Printer π] [Glyph.Widths] {t : Terminal π} {codes : List Nat}

/-- Out of the print pipe, a list of codes changes the rendition by what it
says. -/
theorem rendition_feed_selection (hpipe : t.reader.inPipe = false)
    (hcount : codes.length ≤ Sequence.maxParameters)
    (hvalues : ∀ n ∈ codes, n ≤ Sequence.maxValue) :
    ∃ after, t.feed (selection (spelled codes)) = ⟨after, none⟩ ∧ after.reader = .ground ∧
      after.screen.rendition = t.screen.rendition.select codes := by
  let f : Screen → Screen := fun s => { s with rendition := s.rendition.select codes }
  let ready : Terminal π := { t with reader := .ground }
  have hact : ready.act (.select codes) = ⟨ready.modifyScreen f, none⟩ := act_onScreen? ready rfl
  have hreader : (ready.modifyScreen f).reader = .ground := by
    unfold modifyScreen modifyOf
    split <;> rfl
  obtain ⟨after, hafter, hmoved⟩ := feed_action (Reader.feed_selection hpipe hcount hvalues) hact
  refine ⟨after, hafter, hmoved.reader.trans hreader, ?_⟩
  have hquiet : after.screen.quiet = (f ready.screen).quiet :=
    hmoved.quiet_screen.trans (congrArg Screen.quiet (screen_modifyScreen ready f))
  exact congrArg Screen.rendition hquiet

/-- In it, a text of fields leaves the rendition as it is, and the pipe open
unless the printer fails. -/
theorem rendition_feed_piped (hpipe : t.reader.inPipe = true) {text : List UInt8}
    (htext : Sequence.isFields text = true) :
    (t.feed (selection text)).terminal.screen.rendition = t.screen.rendition ∧
      ((t.feed (selection text)).fault = none →
        (t.feed (selection text)).terminal.reader.inPipe = true) := by
  obtain ⟨hopen, hpiping⟩ := Reader.run_open hpipe (Reader.selection_open htext)
  have hrendition : ∀ t : Terminal π, t.content.screen.rendition = t.screen.rendition := by
    intro t
    unfold content screen screenOf
    cases t.active <;> rfl
  refine ⟨?_, fun hfault => ?_⟩
  · rw [← hrendition, content_feed hpiping, hrendition]
  · obtain ⟨-, hserved, hreader⟩ := answers_feed t (selection text)
    rw [hfault] at hserved
    rw [hreader, Option.map_eq_none_iff.1 hserved.symm]
    exact hopen

/-- **Lists of codes compose.** A list that does not end inside an extended
colour and another one, none of them empty, select in turn what they select as
one. So they do in a terminal, in two control sequences and in one, if these
codes are no more than the parameters of a sequence; in the print pipe this
takes that the printer did not fail, since a failure leaves the pipe. And no
flag that is no attribute ever changes, but by a reset, which clears them
all. -/
theorem select_lists :
    (∀ a b : List Nat, a ≠ [] → b ≠ [] → Rendition.EndsOutside a →
      (∀ r : Rendition, r.select (a ++ b) = (r.select a).select b) ∧
        (a.length + b.length ≤ Sequence.maxParameters →
          (∀ n ∈ a ++ b, n ≤ Sequence.maxValue) → ∀ t : Terminal π,
          (t.reader.inPipe = true → (t.feed (selection (spelled a))).fault = none) →
          ((t.feed (selection (spelled a))).terminal.feed
              (selection (spelled b))).terminal.screen.rendition =
            (t.feed (selection (spelled a ++ 0x3B :: spelled b))).terminal.screen.rendition)) ∧
      ∀ (r : Rendition) (codes : List Nat), (r.select codes).flags.withoutAttributes =
        if Rendition.Resets codes then {} else r.flags.withoutAttributes := by
  refine ⟨fun a b ha hb hends => ⟨Rendition.select_append ha hb hends, ?_⟩,
    Rendition.withoutAttributes_select⟩
  intro hcount hvalues t hfault
  obtain ⟨hvaluesA, hvaluesB⟩ := List.forall_mem_append.1 hvalues
  rw [← Sequence.spelled_append ha hb]
  cases hpipe : t.reader.inPipe with
  | false =>
    -- the first sequence leaves the reader where the second one is read the same
    obtain ⟨first, hfirst, hground, hselected⟩ :=
      rendition_feed_selection hpipe (Nat.le_trans (Nat.le_add_right _ _) hcount) hvaluesA
    have hnext : first.reader.inPipe = false := by
      rw [hground]
      rfl
    obtain ⟨second, hsecond, -, hboth⟩ :=
      rendition_feed_selection hnext (Nat.le_trans (Nat.le_add_left _ _) hcount) hvaluesB
    obtain ⟨joined, hjoined, -, hone⟩ :=
      rendition_feed_selection hpipe (List.length_append ▸ hcount) hvalues
    rw [hfirst, hsecond, hjoined, hboth, hone, hselected, Rendition.select_append ha hb hends]
  | true =>
    -- none of the three sequences gets out of the pipe
    obtain ⟨hfirst, hopen⟩ := rendition_feed_piped hpipe (Sequence.isFields_spelled a)
    obtain ⟨hsecond, -⟩ :=
      rendition_feed_piped (hopen (hfault hpipe)) (Sequence.isFields_spelled b)
    obtain ⟨hjoined, -⟩ := rendition_feed_piped hpipe (Sequence.isFields_spelled (a ++ b))
    rw [hsecond, hfirst, hjoined]

end Selecting

attribute [local instance] Glyph.unicode

/-- An extended colour without arguments: what is behind it is a code of its
own, and the list that follows is read from its start. -/
theorem select_lists_odd :
    let t := plain 2 3
    let a := [1, 38, 7]
    let b := [48, 5, 9]
    let two := ((t.feed (selection (spelled a))).terminal.feed (selection (spelled b))).terminal
    let one := (t.feed (selection (spelled a ++ 0x3B :: spelled b))).terminal
    (a ≠ [] ∧ b ≠ [] ∧ Rendition.EndsOutside a ∧ t.reader.inPipe = false) ∧
      two.screen.rendition = one.screen.rendition ∧
      one.screen.rendition =
        { background := .indexed 9, flags := { bold := true, reverse := true } } := by
  intro t a b two one
  have hends : Rendition.EndsOutside a := by
    intro reading hlast
    have hreadings : (Rendition.readings a).filter Rendition.isExtended = [(38, [7])] := by
      simp [a, Rendition.readings, Rendition.extendedColour, Rendition.isExtended]
    rw [hreadings] at hlast
    cases hlast
    rfl
  have hpipe : t.reader.inPipe = false := rfl
  obtain ⟨-, hfeed⟩ := (select_lists (π := Spool)).1 a b (by decide) (by decide) hends
  refine ⟨⟨by decide, by decide, hends, hpipe⟩, ?_, by decide +kernel⟩
  exact hfeed (by decide) (by decide) t fun hopen => absurd (hpipe.symm.trans hopen) (by decide)

/-- In the print pipe, with a printer that takes nothing: the first of two
sequences fails and the pipe is left, so that the second one selects. Both in
one sequence fail at once and select nothing. -/
theorem not_select_lists :
    let t := (((plain 2 3).usePrinter { room := some 0 }).feed Reader.pipeStart).terminal
    let first := t.feed (selection (spelled [1]))
    let two := (first.terminal.feed (selection (spelled [4]))).terminal
    let one := (t.feed (selection (spelled [1] ++ 0x3B :: spelled [4]))).terminal
    (Reach 2 3 t ∧ Rendition.EndsOutside [1] ∧ t.reader.inPipe = true ∧
        first.fault = some (.printer "sink full")) ∧
      two.screen.rendition = { flags := { underline := true } } ∧ one.screen.rendition = {} ∧
        two.screen.rendition ≠ one.screen.rendition := by
  intro t first two one
  have hreach : Reach 2 3 t :=
    ((reach_plain 2 3 (by decide) (by decide)).usePrinter _).feed Reader.pipeStart
  have hends : Rendition.EndsOutside [1] := by
    intro reading hlast
    have hreadings : (Rendition.readings [1]).filter Rendition.isExtended = [] := by
      simp [Rendition.readings, Rendition.isExtended]
    rw [hreadings] at hlast
    cases hlast
  have htwo : two.screen.rendition = { flags := { underline := true } } := by decide +kernel
  have hone : one.screen.rendition = {} := by decide +kernel
  refine ⟨⟨hreach, hends, by decide +kernel, by decide +kernel⟩, htwo, hone, ?_⟩
  rw [htwo, hone]
  decide

end Terminal

end VideoTerminal
