import VideoTerminal.Control.Reader
import VideoTerminal.Proofs.Checked.Row
import VideoTerminal.Rendition.Select
/-!
# Control text on a machine

A parameter that counts from one is counted from zero by taking one away, and
a code of a colour by taking the first code of its kind away. Codes are looked
for one behind the other. No parameter that counts is zero, and no code is
looked for behind the last one.
-/

namespace VideoTerminal

namespace Sequence

open Checked

/-! ## Parameters -/

/-- A parameter that counts from one, counted from zero. -/
def ordinalChecked (parameter : Option Nat) : Option Nat := sub (count parameter) 1

/-- The last row of a region, if it is given, counted from zero. -/
def lastRowChecked (parameter : Option Nat) : Option (Option Nat) :=
  match parameter.filter (0 < ·) with
  | none => pure none
  | some n => do pure (some (← sub n 1))

/-- The action of a sequence without a marker. -/
def decodePlainChecked (ps : List Nat) (final : Char) : Option (Option Action) := do
  match final with
  | 'G' => pure (some (.column (← ordinalChecked ps[0]?)))
  | '\x60' => pure (some (.column (← ordinalChecked ps[0]?)))
  | 'd' => pure (some (.row (← ordinalChecked ps[0]?)))
  | 'H' => pure (some (.position (← ordinalChecked ps[0]?) (← ordinalChecked ps[1]?)))
  | 'f' => pure (some (.position (← ordinalChecked ps[0]?) (← ordinalChecked ps[1]?)))
  | 'r' => pure (some (.setRegion (← ordinalChecked ps[0]?) (← lastRowChecked ps[1]?)))
  | final => pure (decodePlain ps final)

/-- The action of a sequence that ends with the given byte. -/
def decodeChecked (s : Sequence) (final : UInt8) : Option (Option Action) :=
  if s.malformed || !s.intermediates.isEmpty then pure none
  else
    match s.marker with
    | none => decodePlainChecked s.parameters (Char.ofUInt8 final)
    | some _ => pure (s.decode? final)

theorem ordinalChecked_eq (parameter : Option Nat) :
    ordinalChecked parameter = some (ordinal parameter) := sub_eq (Nat.le_max_left 1 _)

theorem lastRowChecked_eq (parameter : Option Nat) :
    lastRowChecked parameter = some ((parameter.filter (0 < ·)).map (· - 1)) := by
  unfold lastRowChecked
  cases hfilter : parameter.filter (0 < ·) with
  | none => rfl
  | some n =>
    have hpos : 0 < n := by simpa using (Option.filter_eq_some_iff.1 hfilter).2
    dsimp only
    rw [sub_eq (Nat.succ_le_of_lt hpos)]
    rfl

theorem decodePlainChecked_eq (ps : List Nat) (final : Char) :
    decodePlainChecked ps final = some (decodePlain ps final) := by
  unfold decodePlainChecked
  simp only [ordinalChecked_eq, lastRowChecked_eq]
  split <;> rfl

theorem decodeChecked_eq (s : Sequence) (final : UInt8) :
    s.decodeChecked final = some (s.decode? final) := by
  by_cases hbad : (s.malformed || !s.intermediates.isEmpty) = true
  · rw [decodeChecked, decode?, if_pos hbad, if_pos hbad]
    rfl
  · rw [decodeChecked, if_neg hbad]
    cases hmarker : s.marker with
    | none =>
      rw [decode?, if_neg hbad, hmarker]
      exact decodePlainChecked_eq _ _
    | some marker => rfl

end Sequence

namespace Reader

open Checked

/-! ## Bytes -/

/-- A byte of a control sequence. -/
def stepSequenceChecked (s : Sequence) (byte : UInt8) : Option (Reader × Option Action) := do
  if 0x2F < byte ∧ byte ≤ 0x39 then
    pure (.sequence (s.digit (← sub byte.toNat 0x30)), none)
  else if 0x3F < byte ∧ byte ≤ 0x7E then
    let action ← s.decodeChecked byte
    pure (afterSequence action, action)
  else pure (stepSequence s byte)

/-- Read one byte. -/
def stepChecked (r : Reader) (byte : UInt8) : Option (Reader × Option Action) :=
  match r with
  | .sequence s => stepSequenceChecked s byte
  | r => pure (r.step byte)

/-- Read bytes. -/
def runChecked (r : Reader) : List UInt8 → Option (Reader × List Action)
  | [] => pure (r, [])
  | byte :: bytes => do
    let next ← r.stepChecked byte
    let rest ← runChecked next.1 bytes
    pure (rest.1, next.2.toList ++ rest.2)

/-- Read a chunk of bytes. -/
def feedChecked (r : Reader) (bytes : List UInt8) : Option (Reader × List Action) := do
  let (after, actions) ← r.runChecked bytes
  pure (after, joinData actions)

theorem stepSequenceChecked_eq (s : Sequence) (byte : UInt8) :
    stepSequenceChecked s byte = some (stepSequence s byte) := by
  unfold stepSequenceChecked
  split
  · rename_i hdigit
    have hstep : stepSequence s byte = (.sequence (s.digit (byte.toNat - 0x30)), none) := by
      simp only [UInt8.le_iff_toNat_le, UInt8.lt_iff_toNat_lt, UInt8.reduceToNat] at hdigit
      simp only [stepSequence, escapeByte, isCancel, Bool.or_eq_true, beq_iff_eq,
        UInt8.le_iff_toNat_le, UInt8.lt_iff_toNat_lt, UInt8.reduceToNat, ← UInt8.toNat_inj]
      rw [if_neg (by omega), if_neg (by omega), if_neg (by omega), if_neg (by omega),
        if_pos (by omega)]
    have hlow : 0x30 ≤ byte.toNat := Nat.succ_le_of_lt (UInt8.lt_iff_toNat_lt.1 hdigit.1)
    rw [sub_eq hlow, hstep]
    rfl
  split
  · rename_i hfinal
    have hstep : stepSequence s byte = (afterSequence (s.decode? byte), s.decode? byte) := by
      simp only [UInt8.le_iff_toNat_le, UInt8.lt_iff_toNat_lt, UInt8.reduceToNat] at hfinal
      simp only [stepSequence, escapeByte, isCancel, Bool.or_eq_true, beq_iff_eq,
        UInt8.le_iff_toNat_le, UInt8.lt_iff_toNat_lt, UInt8.reduceToNat, ← UInt8.toNat_inj]
      rw [if_neg (by omega), if_neg (by omega), if_neg (by omega), if_neg (by omega),
        if_neg (by omega), if_neg (by omega), if_neg (by omega), if_pos (by omega)]
    rw [Sequence.decodeChecked_eq, hstep]
    rfl
  · rfl

theorem stepChecked_eq (r : Reader) (byte : UInt8) : r.stepChecked byte = some (r.step byte) := by
  cases r with
  | sequence s => exact stepSequenceChecked_eq s byte
  | _ => rfl

theorem runChecked_eq (r : Reader) (bytes : List UInt8) :
    r.runChecked bytes = some (r.run bytes) := by
  induction bytes generalizing r with
  | nil => rfl
  | cons byte bytes ih =>
    unfold runChecked
    rw [stepChecked_eq, Option.bind_eq_bind, Option.bind_some, ih]
    rfl

/-- **Every text is read.** -/
theorem feedChecked_eq (r : Reader) (bytes : List UInt8) :
    r.feedChecked bytes = some (r.feed bytes) := by
  unfold feedChecked
  rw [runChecked_eq]
  rfl

/-- One byte completes one action at most. -/
theorem feed_singleton (r : Reader) (byte : UInt8) :
    (r.feed [byte]).2 = (r.step byte).2.toList := by
  change joinData ((r.step byte).2.toList ++ []) = _
  rw [List.append_nil]
  cases (r.step byte).2 with
  | none => rfl
  | some action => cases action <;> rfl

end Reader

namespace Rendition

open Checked

/-! ## Codes -/

/-- The effect of one code that takes no arguments. -/
def selectOneChecked (r : Rendition) (code : Nat) : Option Rendition := do
  if 30 ≤ code ∧ code ≤ 37 then
    pure { r with foreground := .named (amount (← sub code 30)) }
  else if 40 ≤ code ∧ code ≤ 47 then
    pure { r with background := .named (amount (← sub code 40)) }
  else if 90 ≤ code ∧ code ≤ 97 then
    pure { r with foreground := .named (amount (← add16 (← sub code 90) 8)) }
  else if 100 ≤ code ∧ code ≤ 107 then
    pure { r with background := .named (amount (← add16 (← sub code 100) 8)) }
  else pure (r.selectOne code)

/-- Select by the codes from the one at `i` on, in so many turns. -/
def selectFromChecked (codes : List Nat) : Nat → Rendition → Nat → Option Rendition
  | 0, _, _ => none
  | turns + 1, r, i => do
    if i < codes.length then
      let code ← codes[i]?
      if code = 38 ∨ code = 48 then
        let rest ← slice codes (i + 1) codes.length
        let (colour, after) := extendedColour rest
        selectFromChecked codes turns (r.selectColour code colour)
          (i + 1 + (rest.length - after.length))
      else selectFromChecked codes turns (← r.selectOneChecked code) (i + 1)
    else pure r

/-- A whole list of codes. Each turn takes one code at least. -/
def selectChecked (r : Rendition) (codes : List Nat) : Option Rendition :=
  if codes.isEmpty then pure {} else selectFromChecked codes (codes.length + 1) r 0

/-- A code from thirty on that is not one of the defaults is one of a colour. -/
theorem selectOne_of_colour (r : Rendition) {code : Nat} (hlow : 30 ≤ code) (h39 : code ≠ 39)
    (h49 : code ≠ 49) :
    r.selectOne code =
      if 30 ≤ code ∧ code ≤ 37 then { r with foreground := .named (amount (code - 30)) }
      else if 40 ≤ code ∧ code ≤ 47 then { r with background := .named (amount (code - 40)) }
      else if 90 ≤ code ∧ code ≤ 97 then
        { r with foreground := .named (amount (code - 90 + 8)) }
      else if 100 ≤ code ∧ code ≤ 107 then
        { r with background := .named (amount (code - 100 + 8)) }
      else r := by
  unfold selectOne
  split
  all_goals first | omega | rfl

theorem selectOneChecked_eq (r : Rendition) (code : Nat) :
    r.selectOneChecked code = some (r.selectOne code) := by
  unfold selectOneChecked
  split
  · rename_i h30
    rw [sub_eq h30.1, selectOne_of_colour r (by omega) (by omega) (by omega), if_pos h30]
    rfl
  rename_i h30
  split
  · rename_i h40
    rw [sub_eq h40.1, selectOne_of_colour r (by omega) (by omega) (by omega), if_neg h30,
      if_pos h40]
    rfl
  rename_i h40
  split
  · rename_i h90
    rw [sub_eq h90.1, Option.bind_eq_bind, Option.bind_some, add16_eq (by omega),
      selectOne_of_colour r (by omega) (by omega) (by omega), if_neg h30, if_neg h40, if_pos h90]
    rfl
  rename_i h90
  split
  · rename_i h100
    rw [sub_eq h100.1, Option.bind_eq_bind, Option.bind_some, add16_eq (by omega),
      selectOne_of_colour r (by omega) (by omega) (by omega), if_neg h30, if_neg h40, if_neg h90,
      if_pos h100]
    rfl
  · rfl

/-- What is left of the codes behind an extended colour is an end of them. -/
theorem extendedColour_suffix (codes : List Nat) : (extendedColour codes).2 <:+ codes := by
  unfold extendedColour
  split
  · exact ⟨[_, _], rfl⟩
  · exact ⟨[_, _, _, _], rfl⟩
  · exact List.nil_suffix
  · exact List.nil_suffix
  · exact List.suffix_refl _

/-- The first of the elements from a place on stands at that place. -/
theorem of_drop_eq_cons {codes rest : List Nat} {i code : Nat}
    (h : codes.drop i = code :: rest) :
    i < codes.length ∧ codes[i]? = some code ∧ codes.drop (i + 1) = rest := by
  have hin : i < codes.length := by
    refine Nat.lt_of_not_le fun hout => ?_
    rw [List.drop_eq_nil_of_le hout] at h
    cases h
  rw [List.drop_eq_getElem_cons hin] at h
  obtain ⟨hcode, hrest⟩ := List.cons.inj h
  exact ⟨hin, hcode ▸ List.getElem?_eq_getElem hin, hrest⟩

/-- The codes that are left bound the turns. -/
theorem selectFromChecked_eq (codes : List Nat) (r : Rendition) {i turns : Nat}
    (hturns : (codes.drop i).length < turns) :
    selectFromChecked codes turns r i = some (r.selectAll (codes.drop i)) := by
  generalize hleft : codes.drop i = left at hturns ⊢
  obtain ⟨turns, rfl⟩ := Nat.exists_eq_succ_of_ne_zero (Nat.ne_zero_of_lt hturns)
  fun_induction Rendition.selectAll r left generalizing i turns with
  | case1 r =>
    rw [selectFromChecked, if_neg (Nat.not_lt.2 (List.drop_eq_nil_iff.1 hleft))]
    rfl
  | case2 r code rest hextended ih =>
    obtain ⟨hin, hcode, hrest⟩ := of_drop_eq_cons hleft
    have hsuffix := extendedColour_suffix rest
    have hafter : codes.drop (i + 1 + (rest.length - (extendedColour rest).2.length)) =
        (extendedColour rest).2 := by
      rw [← List.drop_drop, hrest]
      exact (List.suffix_iff_eq_drop.1 hsuffix).symm
    have hfewer : (extendedColour rest).2.length < turns :=
      Nat.lt_of_le_of_lt hsuffix.length_le (Nat.lt_of_succ_lt_succ hturns)
    obtain ⟨turns, rfl⟩ := Nat.exists_eq_succ_of_ne_zero (Nat.ne_zero_of_lt hfewer)
    rw [selectFromChecked, if_pos hin, hcode, Option.bind_eq_bind, Option.bind_some,
      if_pos hextended, slice_eq (Nat.succ_le_of_lt hin) (Nat.le_refl _), List.take_length, hrest]
    exact ih hafter turns hfewer
  | case3 r code rest hplain ih =>
    obtain ⟨hin, hcode, hrest⟩ := of_drop_eq_cons hleft
    have hfewer : rest.length < turns := Nat.lt_of_succ_lt_succ hturns
    obtain ⟨turns, rfl⟩ := Nat.exists_eq_succ_of_ne_zero (Nat.ne_zero_of_lt hfewer)
    rw [selectFromChecked, if_pos hin, hcode, Option.bind_eq_bind, Option.bind_some,
      if_neg hplain, selectOneChecked_eq]
    exact ih hrest turns hfewer

theorem selectChecked_eq (r : Rendition) (codes : List Nat) :
    r.selectChecked codes = some (r.select codes) := by
  unfold selectChecked select
  split
  · rfl
  · exact selectFromChecked_eq codes r (Nat.lt_succ_self codes.length)

end Rendition

end VideoTerminal
