import VideoTerminal.Proofs.Control.Plain
/-!
# Numbers of 16 bits

A parameter that is too large counts as the largest one of 16 bits. So the
numbers by which an action moves the cursor have at most 16 bits, whatever is
read: the parameters of a sequence are small as far as it was read
(`Sequence.Small`), every byte keeps them so, and an action takes its numbers
from them.
-/

namespace VideoTerminal

/-- The numbers by which an action moves the cursor have at most 16 bits. -/
def Action.Small : Action → Prop
  | .cursorUp n => n < 65536
  | .cursorDown n => n < 65536
  | .cursorRight n => n < 65536
  | .cursorLeft n => n < 65536
  | .nextLines n => n < 65536
  | .previousLines n => n < 65536
  | .column n => n < 65536
  | .row n => n < 65536
  | .position n m => n < 65536 ∧ m < 65536
  | _ => True

theorem Action.small_of_isPlain {action : Action} (h : action.isPlain = true) : action.Small := by
  cases action with
  | cursorUp | cursorDown | cursorRight | cursorLeft | nextLines | previousLines => cases h
  | column | row | position => cases h
  | _ => trivial

namespace Sequence

/-- The parameters have at most 16 bits. -/
structure Small (s : Sequence) : Prop where
  closed : ∀ n ∈ s.closed, n < 65536
  digits : ∀ n, s.digits = some n → n < 65536

variable {s : Sequence} {ps : List Nat}

/-! ## Collecting -/

theorem Small.digit (h : s.Small) (value : Nat) : (s.digit value).Small := by
  unfold Sequence.digit
  split
  · refine ⟨h.closed, fun n hn => ?_⟩
    cases hn
    exact Nat.lt_of_le_of_lt (Nat.min_le_right _ _) (by decide)
  · exact ⟨h.closed, h.digits⟩

theorem Small.close (h : s.Small) : s.close.Small := by
  have hlast : s.digits.getD 0 < 65536 := by
    cases hdigits : s.digits with
    | none => decide
    | some n => exact h.digits n hdigits
  refine ⟨fun n hn => ?_, fun n hn => by cases hn⟩
  change n ∈ (if s.closed.length < maxParameters then s.closed ++ [s.digits.getD 0]
    else s.closed) at hn
  split at hn
  · rcases List.mem_append.1 hn with hn | hn
    · exact h.closed n hn
    · rw [List.mem_singleton.1 hn]
      exact hlast
  · exact h.closed n hn

theorem Small.separator (h : s.Small) : s.separator.Small := by
  unfold Sequence.separator
  split
  · exact h.close
  · exact ⟨h.closed, h.digits⟩

theorem Small.mark (h : s.Small) (byte : UInt8) : (s.mark byte).Small := by
  unfold Sequence.mark
  split <;> exact ⟨h.closed, h.digits⟩

theorem Small.intermediate (h : s.Small) (byte : UInt8) : (s.intermediate byte).Small := by
  unfold Sequence.intermediate
  split <;> exact ⟨h.closed, h.digits⟩

theorem Small.parameters (h : s.Small) : ∀ n ∈ s.parameters, n < 65536 := by
  unfold Sequence.parameters
  split
  · exact h.close.closed
  · exact fun n hn => by cases hn

/-! ## Meaning -/

theorem count_lt (h : ∀ n ∈ ps, n < 65536) (i : Nat) : count ps[i]? < 65536 := by
  unfold count
  cases hi : ps[i]? with
  | none => decide
  | some n => exact Nat.max_lt.2 ⟨by decide, h n (List.mem_of_getElem? hi)⟩

theorem small_decodePlain (h : ∀ n ∈ ps, n < 65536) (final : Char) {action : Action}
    (hdecode : decodePlain ps final = some action) : action.Small := by
  have hcount := count_lt h 0
  have hordinal : ∀ i : Nat, ordinal ps[i]? < 65536 := fun i =>
    Nat.lt_of_le_of_lt (Nat.sub_le _ _) (count_lt h i)
  unfold decodePlain at hdecode
  dsimp only at hdecode
  -- an action that moves the cursor takes a count or an ordinal, and no other one is asked for
  split at hdecode
  all_goals first
    | cases hdecode <;> first
        | exact hcount
        | exact hordinal 0
        | exact ⟨hordinal 0, hordinal 1⟩
        | trivial
    | obtain ⟨part, -, rfl⟩ := Option.map_eq_some_iff.1 hdecode
      trivial
    | split at hdecode <;> cases hdecode <;> trivial

theorem Small.decode? (h : s.Small) (final : UInt8) {action : Action}
    (hdecode : s.decode? final = some action) : action.Small := by
  unfold Sequence.decode? at hdecode
  split at hdecode
  · cases hdecode
  · split at hdecode
    · exact small_decodePlain h.parameters _ hdecode
    · exact Action.small_of_isPlain (isPlain_decodePrivate hdecode)
    · cases hdecode
      trivial
    · cases hdecode

end Sequence

namespace Reader

/-- The parameters of a sequence that is being collected have at most 16
bits. -/
def Small : Reader → Prop
  | .sequence s => s.Small
  | _ => True

/-- What a byte leads to: a small state, and a small action if there is one. -/
def SmallStep (next : Reader × Option Action) : Prop :=
  next.1.Small ∧ ∀ action, next.2 = some action → action.Small

/-! ## Bytes -/

theorem smallStep_none {r : Reader} (h : r.Small) : SmallStep (r, none) :=
  ⟨h, fun _ haction => by cases haction⟩

theorem smallStep_plain {r : Reader} {action? : Option Action} (h : r.Small)
    (hplain : ∀ action, action? = some action → action.isPlain = true) : SmallStep (r, action?) :=
  ⟨h, fun action haction => Action.small_of_isPlain (hplain action haction)⟩

theorem smallStep_control {r : Reader} (h : r.Small) (byte : UInt8) :
    SmallStep (r, control? byte) := smallStep_plain h fun _ => isPlain_control?

theorem smallStep_ground (byte : UInt8) : SmallStep (stepGround byte) := by
  unfold stepGround
  split
  · exact smallStep_none trivial
  · split
    · exact smallStep_control (r := .ground) trivial byte
    · split
      · exact ⟨trivial, fun _ haction => by cases haction; trivial⟩
      · split <;> exact smallStep_none trivial

theorem smallStep_character (first : UInt8) (rest : List UInt8) (byte : UInt8) :
    SmallStep (stepCharacter first rest byte) := by
  unfold stepCharacter
  split
  · dsimp only
    split
    · exact smallStep_none trivial
    · refine ⟨trivial, fun action haction => ?_⟩
      obtain ⟨c, -, rfl⟩ := Option.map_eq_some_iff.1 haction
      trivial
  · exact smallStep_ground byte

theorem smallStep_escape (byte : UInt8) : SmallStep (stepEscape byte) := by
  have hempty : ({} : Sequence).Small :=
    ⟨fun _ hn => absurd hn List.not_mem_nil, fun _ hn => (Option.some_ne_none _ hn.symm).elim⟩
  unfold stepEscape
  split
  · exact smallStep_none trivial
  · split
    · exact smallStep_none trivial
    · split
      · exact smallStep_control (r := .escape) trivial byte
      · split
        · exact smallStep_none hempty
        · split
          · exact smallStep_none trivial
          · split
            · exact smallStep_none trivial
            · exact smallStep_plain trivial fun _ => isPlain_escapeAction?

theorem smallStep_escapeBy (introducer byte : UInt8) :
    SmallStep (stepEscapeBy introducer byte) := by
  unfold stepEscapeBy
  split
  · exact smallStep_none trivial
  · split
    · exact smallStep_none trivial
    · split
      · exact smallStep_control (r := .escapeBy introducer) trivial byte
      · exact smallStep_plain trivial fun _ => isPlain_introducedAction?

theorem small_afterSequence (action : Option Action) : (afterSequence action).Small := by
  unfold afterSequence
  split <;> trivial

theorem smallStep_sequence {s : Sequence} (h : s.Small) (byte : UInt8) :
    SmallStep (stepSequence s byte) := by
  unfold stepSequence
  split
  · exact smallStep_none trivial
  · split
    · exact smallStep_none trivial
    · split
      · exact smallStep_control (r := .sequence s) h byte
      · split
        · exact smallStep_none (h.intermediate byte)
        · split
          · exact smallStep_none (h.digit _)
          · split
            · exact smallStep_none h.separator
            · split
              · exact smallStep_none (h.mark byte)
              · split
                · exact ⟨small_afterSequence _, fun _ => h.decode? byte⟩
                · exact smallStep_none h

theorem smallStep_command (bytes : List UInt8) (byte : UInt8) :
    SmallStep (stepCommand bytes byte) := by
  unfold stepCommand
  split
  · exact smallStep_plain trivial fun _ => Command.isPlain_decode?
  · split
    · exact smallStep_none trivial
    · split <;> exact smallStep_none trivial

theorem smallStep_commandEscape (bytes : List UInt8) (byte : UInt8) :
    SmallStep (stepCommandEscape bytes byte) := by
  unfold stepCommandEscape
  split
  · exact smallStep_plain trivial fun _ => Command.isPlain_decode?
  · exact smallStep_escape byte

theorem smallStep_printing (held : List UInt8) (byte : UInt8) :
    SmallStep (stepPrinting held byte) := by
  unfold stepPrinting
  dsimp only
  split
  · exact ⟨trivial, fun _ haction => by cases haction; trivial⟩
  · split
    · exact smallStep_none trivial
    · split <;> exact ⟨trivial, fun _ haction => by cases haction; trivial⟩

/-- **One byte** keeps what is collected small, and what it completes is small. -/
theorem Small.step {r : Reader} (h : r.Small) (byte : UInt8) : SmallStep (r.step byte) := by
  cases r with
  | ground => exact smallStep_ground byte
  | character first rest => exact smallStep_character first rest byte
  | escape => exact smallStep_escape byte
  | escapeBy introducer => exact smallStep_escapeBy introducer byte
  | sequence s => exact smallStep_sequence h byte
  | command bytes => exact smallStep_command bytes byte
  | commandEscape bytes => exact smallStep_commandEscape bytes byte
  | printing held => exact smallStep_printing held byte

theorem Small.run {r : Reader} (h : r.Small) (bytes : List UInt8) :
    (r.run bytes).1.Small ∧ ∀ action ∈ (r.run bytes).2, action.Small := by
  induction bytes generalizing r with
  | nil => exact ⟨h, fun _ haction => by cases haction⟩
  | cons byte bytes ih =>
    obtain ⟨hnext, hfirst⟩ := h.step byte
    obtain ⟨hlast, hrest⟩ := ih hnext
    refine ⟨hlast, fun action haction => ?_⟩
    rcases List.mem_append.1 haction with hin | hin
    · exact hfirst action (Option.mem_toList.1 hin)
    · exact hrest action hin

/-- **Whatever is read moves the cursor by numbers of 16 bits.** -/
theorem Small.feed {r : Reader} (h : r.Small) (bytes : List UInt8) :
    (r.feed bytes).1.Small ∧ ∀ action ∈ (r.feed bytes).2, action.Small :=
  ⟨(h.run bytes).1, forall_joinData (fun _ => trivial) (h.run bytes).2⟩

theorem Small.closePipe {r : Reader} (h : r.Small) : r.closePipe.Small := by
  unfold Reader.closePipe
  split
  · trivial
  · exact h

end Reader

end VideoTerminal
