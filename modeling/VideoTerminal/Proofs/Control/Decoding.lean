import VideoTerminal.Proofs.Control.Text
/-!
# What is decoded

Text that is encoded comes out of the reader as it was, also where the bytes
before it left a character unfinished: the first byte of an encoding continues
none, so it drops what is pending and is read anew.

Bytes that encode nothing are dropped, and nothing is made of what is left of
them. Whatever is printed was there: the encodings of the printed characters stand
in the bytes, one behind the other (`InTurn`). One byte adds the encoding that it
completes, if any, to what is accounted for (`accounted_step`).
-/

namespace VideoTerminal

/-- Pieces stand in a list one behind the other, with anything around them. -/
inductive InTurn {α : Type} : List (List α) → List α → Prop
  | nil (gap : List α) : InTurn [] gap
  | cons (gap piece : List α) {pieces : List (List α)} {rest : List α}
      (h : InTurn pieces rest) : InTurn (piece :: pieces) (gap ++ piece ++ rest)

/-- More may stand before the pieces. -/
theorem InTurn.behind {α : Type} {pieces : List (List α)} {list : List α}
    (h : InTurn pieces list) (gap : List α) : InTurn pieces (gap ++ list) := by
  cases h with
  | nil => exact .nil (gap ++ list)
  | cons more piece h =>
    rw [← List.append_assoc, ← List.append_assoc]
    exact .cons (gap ++ more) piece h

namespace Utf8

variable {byte : UInt8}

/-- A byte that announces others continues nothing. -/
theorem isContinuation_of_announced (h : 2 ≤ announced byte) : isContinuation byte = false := by
  rw [announced_eq] at h
  simp only [isContinuation, UInt8.le_iff_toNat_le, UInt8.reduceToNat, Bool.and_eq_false_iff,
    decide_eq_false_iff_not]
  repeat' split at h
  all_goals omega

/-- No encoding starts with a continuation byte. -/
theorem exists_encodeChar_eq_cons (c : Char) : ∃ first rest,
    String.utf8EncodeChar c = first :: rest ∧ isContinuation first = false := by
  rcases encodeChar_cases c with ⟨hascii, heq⟩ | ⟨first, rest, heq, hrest, hannounced, -⟩
  · refine ⟨_, [], heq, ?_⟩
    simp only [isContinuation, UInt8.le_iff_toNat_le, UInt8.reduceToNat, Bool.and_eq_false_iff,
      decide_eq_false_iff_not, UInt8.toNat_ofNat']
    omega
  · have hmany := List.length_pos_iff.2 hrest
    exact ⟨first, rest, heq, isContinuation_of_announced (by omega)⟩

/-- A byte of ASCII encodes itself. -/
theorem encodeChar_ofUInt8 (h : byte.toNat ≤ 0x7F) :
    String.utf8EncodeChar (Char.ofUInt8 byte) = [byte] := by
  have hvalue : (Char.ofUInt8 byte).val.toNat = byte.toNat := UInt8.toNat_toUInt32 byte
  unfold String.utf8EncodeChar
  dsimp only
  rw [hvalue, if_pos h]
  exact congrArg ([·]) UInt8.ofNat_toNat

end Utf8

namespace Reader

variable {r : Reader} {byte : UInt8} {bytes : List UInt8}

/-- The reader is in the middle of text: of a character, or between two of them. -/
def inText : Reader → Bool
  | .ground => true
  | .character _ _ => true
  | _ => false

/-- The bytes of a character that are there. -/
def pending : Reader → List UInt8
  | .character first rest => first :: rest
  | _ => []

/-! ## Text -/

/-- What is pending is dropped by a byte that does not continue it. -/
theorem run_drop (h : r.inText = true) (hbyte : Utf8.isContinuation byte = false)
    (bytes : List UInt8) : r.run (byte :: bytes) = Reader.ground.run (byte :: bytes) := by
  cases r with
  | ground => rfl
  | character first rest =>
    have hstep : (Reader.character first rest).step byte = Reader.ground.step byte :=
      if_neg (Bool.eq_false_iff.1 hbyte)
    unfold run
    rw [hstep]
  | _ => cases h

/-- Text is read as it was encoded, whatever character is unfinished. -/
theorem run_encode_inText (h : r.inText = true) {text : List Char} (hne : text ≠ [])
    (hplain : ∀ c ∈ text, Plain c) : r.run (Utf8.encode text) = (.ground, text.map .print) := by
  obtain ⟨c, rest, rfl⟩ := List.exists_cons_of_ne_nil hne
  obtain ⟨first, more, heq, hfirst⟩ := Utf8.exists_encodeChar_eq_cons c
  have hencode : Utf8.encode (c :: rest) = first :: (more ++ Utf8.encode rest) := by
    change String.utf8EncodeChar c ++ Utf8.encode rest = _
    rw [heq]
    rfl
  rw [← run_encode hplain, hencode]
  exact run_drop h hfirst _

/-! ## Bytes -/

/-- What a step made of a byte: with what was pending it is a gap, the encoding of
the character that is printed, if there is one, and what is pending now. -/
def Accounted (before : List UInt8) (next : Reader × Option Action) : Prop :=
  next.1.inText = true ∧ ∃ (gap : List UInt8) (printed : Option Char),
    next.2 = printed.map .print ∧
      before = gap ++ Utf8.encode printed.toList ++ next.1.pending

theorem accounted_stepGround (h : 0x20 ≤ byte) : Accounted [byte] (stepGround byte) := by
  have hescape : byte ≠ escapeByte := by
    rintro rfl
    exact absurd h (by decide)
  unfold stepGround
  rw [if_neg hescape, if_neg (UInt8.not_lt.2 h)]
  split
  · rename_i hascii
    have hencode : Utf8.encode [Char.ofUInt8 byte] = [byte] := by
      rw [UInt8.lt_iff_toNat_lt] at hascii
      change String.utf8EncodeChar (Char.ofUInt8 byte) ++ [] = [byte]
      rw [List.append_nil, Utf8.encodeChar_ofUInt8 (Nat.le_of_lt hascii)]
    exact ⟨rfl, [], some (Char.ofUInt8 byte), rfl, by simp [hencode, pending]⟩
  · split
    · exact ⟨rfl, [], none, rfl, rfl⟩
    · exact ⟨rfl, [byte], none, rfl, rfl⟩

/-- **One byte** that is no control byte prints at most the character that it
completes. -/
theorem accounted_step (h : r.inText = true) (hbyte : 0x20 ≤ byte) :
    Accounted (r.pending ++ [byte]) (r.step byte) := by
  cases r with
  | ground => exact accounted_stepGround hbyte
  | character first rest =>
    change Accounted (first :: rest ++ [byte]) (stepCharacter first rest byte)
    unfold stepCharacter
    split
    · dsimp only
      split
      · exact ⟨rfl, [], none, rfl, rfl⟩
      · cases hdecode : Utf8.decodeChar? (first :: (rest ++ [byte])) with
        | none => exact ⟨rfl, first :: (rest ++ [byte]), none, rfl, by simp [Utf8.encode, pending]⟩
        | some c =>
          have hencode := Utf8.decodeChar?_eq_some_iff.1 hdecode
          exact ⟨rfl, [], some c, rfl, by simp [Utf8.encode, hencode, pending]⟩
    · obtain ⟨htext, gap, printed, haction, hbytes⟩ := accounted_stepGround hbyte
      refine ⟨htext, first :: rest ++ gap, printed, haction, ?_⟩
      rw [hbytes]
      simp only [List.append_assoc]
  | _ => cases h

/-- **Many bytes**: what is printed was pending or is among them. -/
theorem inTurn_run (h : r.inText = true) (hbytes : ∀ byte ∈ bytes, 0x20 ≤ byte) :
    ∃ printed : List Char, (r.run bytes).2 = printed.map .print ∧
      InTurn (printed.map String.utf8EncodeChar) (r.pending ++ bytes) := by
  induction bytes generalizing r with
  | nil => exact ⟨[], rfl, .nil _⟩
  | cons byte bytes ih =>
    obtain ⟨hbyte, hrest⟩ := List.forall_mem_cons.1 hbytes
    obtain ⟨htext, gap, printed, haction, haccount⟩ := accounted_step h hbyte
    obtain ⟨text, hactions, hturn⟩ := ih htext hrest
    refine ⟨printed.toList ++ text, ?_, ?_⟩
    · change (r.step byte).2.toList ++ ((r.step byte).1.run bytes).2 = _
      rw [haction, hactions, List.map_append]
      cases printed <;> rfl
    · rw [List.append_cons, haccount]
      cases printed with
      | none =>
        rw [List.append_assoc]
        exact hturn.behind _
      | some c =>
        have hencode : Utf8.encode (some c).toList = String.utf8EncodeChar c := List.append_nil _
        rw [hencode, List.append_assoc]
        exact .cons gap (String.utf8EncodeChar c) hturn

/-- **Text is decoded exactly.** Between characters and in the middle of one, text
without control characters is read as it was encoded, one character after the
other, and nothing is pending then; an unfinished character is dropped. Of any
bytes that are no control bytes, nothing but characters is printed, and their
encodings stand in the bytes one behind the other. -/
theorem text_is_decoded (h : r.inText = true) :
    (∀ text : List Char, text ≠ [] → (∀ c ∈ text, Plain c) →
      r.feed (Utf8.encode text) = (.ground, text.map .print)) ∧
      ∀ bytes : List UInt8, (∀ byte ∈ bytes, 0x20 ≤ byte) →
        ∃ printed : List Char, (Reader.ground.feed bytes).2 = printed.map .print ∧
          InTurn (printed.map String.utf8EncodeChar) bytes := by
  have hdata : ∀ text : List Char, joinData (text.map .print) = text.map .print := by
    refine fun text => joinData_eq_self fun bytes hmem => ?_
    obtain ⟨c, -, hc⟩ := List.mem_map.1 hmem
    cases hc
  refine ⟨fun text hne hplain => ?_, fun bytes hbytes => ?_⟩
  · unfold feed
    rw [run_encode_inText h hne hplain]
    dsimp only
    rw [hdata]
  · obtain ⟨printed, hactions, hturn⟩ := inTurn_run (r := .ground) rfl hbytes
    refine ⟨printed, ?_, hturn⟩
    unfold feed
    dsimp only
    rw [hactions, hdata]

/-- Three of the four bytes of a character are there and dropped for the next two.
Of a character that is cut off, and of one that is too long to be an encoding,
nothing is printed. -/
theorem text_is_decoded_cut :
    let r := Reader.character 0xF0 [0x9F, 0x98]
    let bytes := [0xE2, 0x82, 0x62, 0xE0, 0x80, 0x80, 0xC2, 0x80]
    r.inText = true ∧ r.feed [0xC3, 0xA9, 0x61] = (.ground, [.print '\u00E9', .print 'a']) ∧
      (Reader.ground.feed bytes).2 = [.print 'b', .print '\u0080'] ∧
      InTurn [[0x62], [0xC2, 0x80]] bytes := by
  intro r bytes
  obtain ⟨htext, hbytes⟩ := text_is_decoded (r := r) rfl
  have hplain : ∀ c ∈ ['\u00E9', 'a'], Plain c := by
    simp only [List.forall_mem_cons, List.not_mem_nil, false_imp_iff, implies_true, and_true]
    exact ⟨⟨by decide, by decide⟩, ⟨by decide, by decide⟩⟩
  obtain ⟨printed, hactions, hturn⟩ := hbytes bytes (by decide +kernel)
  have hfeed : (Reader.ground.feed bytes).2 = ['b', '\u0080'].map .print := by decide
  obtain rfl : printed = ['b', '\u0080'] :=
    (List.map_inj_right fun _ _ => Action.print.inj).1 (hactions.symm.trans hfeed)
  exact ⟨rfl, htext _ (List.cons_ne_nil _ _) hplain, hfeed, hturn⟩

end Reader

end VideoTerminal
