import VideoTerminal.Control.Reader
/-!
# Reading text

Characters that are no controls come out of the reader as they were encoded:
one action for each, with nothing left to collect between two of them. A line
break takes two control bytes, which act at once.
-/

namespace VideoTerminal

/-! ## Encodings -/

namespace Utf8

/-- The bytes of a text. -/
def encode (text : List Char) : List UInt8 := text.flatMap String.utf8EncodeChar

theorem encode_append (a b : List Char) : encode (a ++ b) = encode a ++ encode b :=
  List.flatMap_append

theorem announced_eq (byte : UInt8) : announced byte =
    if byte.toNat < 0x80 then 1
    else if 0xC2 ≤ byte.toNat ∧ byte.toNat ≤ 0xDF then 2
    else if 0xE0 ≤ byte.toNat ∧ byte.toNat ≤ 0xEF then 3
    else if 0xF0 ≤ byte.toNat ∧ byte.toNat ≤ 0xF4 then 4
    else 0 := by
  simp only [announced, UInt8.lt_iff_toNat_lt, UInt8.le_iff_toNat_le, UInt8.reduceToNat]

theorem isContinuation_ofNat {n : Nat} (h : n < 64) :
    isContinuation (UInt8.ofNat (n + 128)) = true := by
  simp only [isContinuation, UInt8.le_iff_toNat_le, UInt8.reduceToNat, UInt8.toNat_ofNat',
    Bool.and_eq_true, decide_eq_true_eq]
  omega

/-- **An encoding is announced by its first byte**, and all others continue
it. Only that of an ASCII character has no others. -/
theorem encodeChar_cases (c : Char) :
    (c.toNat ≤ 0x7F ∧ String.utf8EncodeChar c = [UInt8.ofNat c.toNat]) ∨
      ∃ first rest, String.utf8EncodeChar c = first :: rest ∧ rest ≠ [] ∧
        announced first = rest.length + 1 ∧ ∀ byte ∈ rest, isContinuation byte = true := by
  have hbound : c.val.toNat < 0x110000 := by
    rcases c.valid with h | h
    · exact Nat.lt_trans h (by decide)
    · exact h.2
  have hcont : ∀ n : Nat, isContinuation (UInt8.ofNat (n % 64 + 128)) = true :=
    fun n => isContinuation_ofNat (Nat.mod_lt n (by decide))
  unfold String.utf8EncodeChar Char.toNat
  dsimp only
  generalize c.val.toNat = n at hbound
  by_cases hone : n ≤ 0x7F
  · exact Or.inl ⟨hone, if_pos hone⟩
  · refine Or.inr ?_
    rw [if_neg hone]
    by_cases htwo : n ≤ 0x7FF
    · rw [if_pos htwo]
      refine ⟨_, _, rfl, List.cons_ne_nil _ _, ?_, List.forall_mem_cons.2 ⟨hcont _, nofun⟩⟩
      rw [announced_eq, UInt8.toNat_ofNat', if_neg (by omega), if_pos (by omega)]
      rfl
    · rw [if_neg htwo]
      by_cases hthree : n ≤ 0xFFFF
      · rw [if_pos hthree]
        refine ⟨_, _, rfl, List.cons_ne_nil _ _, ?_, List.forall_mem_cons.2 ⟨hcont _,
          List.forall_mem_cons.2 ⟨hcont _, nofun⟩⟩⟩
        rw [announced_eq, UInt8.toNat_ofNat', if_neg (by omega), if_neg (by omega),
          if_pos (by omega)]
        rfl
      · rw [if_neg hthree]
        refine ⟨_, _, rfl, List.cons_ne_nil _ _, ?_, List.forall_mem_cons.2 ⟨hcont _,
          List.forall_mem_cons.2 ⟨hcont _, List.forall_mem_cons.2 ⟨hcont _, nofun⟩⟩⟩⟩
        rw [announced_eq, UInt8.toNat_ofNat', if_neg (by omega), if_neg (by omega),
          if_neg (by omega), if_pos (by omega)]
        rfl

end Utf8

/-! ## Reading them -/

namespace Reader

/-- A character that is written as such: it is no control byte. -/
def Plain (c : Char) : Prop := 0x20 ≤ c.toNat ∧ c.toNat ≠ 0x7F

/-- The bytes that a first byte announces are collected, and decoded as soon
as all are there. -/
theorem run_character {first : UInt8} {done rest : List UInt8} (hrest : rest ≠ [])
    (hlength : Utf8.announced first = done.length + rest.length + 1)
    (hcont : ∀ byte ∈ rest, Utf8.isContinuation byte = true) :
    (Reader.character first done).run rest =
      (.ground, ((Utf8.decodeChar? (first :: (done ++ rest))).map Action.print).toList) := by
  induction rest generalizing done with
  | nil => exact absurd rfl hrest
  | cons byte rest ih =>
    obtain ⟨hbyte, htail⟩ := List.forall_mem_cons.1 hcont
    rw [List.length_cons] at hlength
    unfold run
    dsimp only
    unfold step stepCharacter
    dsimp only
    rw [if_pos hbyte, List.length_append, List.length_singleton]
    cases rest with
    | nil =>
      rw [if_neg (by rw [List.length_nil] at hlength; omega)]
      exact Prod.ext rfl (List.append_nil _)
    | cons next rest =>
      rw [List.length_cons] at hlength
      rw [if_pos (by omega), ih (List.cons_ne_nil _ _) ?_ htail]
      · rw [List.append_assoc]
        rfl
      · rw [List.length_append, List.length_singleton, List.length_cons]
        omega

/-- A byte that announces others starts a character. -/
theorem stepGround_announced {first : UInt8} (h : 2 ≤ Utf8.announced first) :
    stepGround first = (.character first [], none) := by
  have hfirst : 0x80 ≤ first.toNat := by
    have hvalue := Utf8.announced_eq first
    split at hvalue
    · omega
    · omega
  have hescape : first ≠ escapeByte := by
    rintro rfl
    exact absurd hfirst (by decide)
  unfold stepGround
  rw [if_neg hescape, if_neg, if_neg, if_pos h]
  · rw [UInt8.lt_iff_toNat_lt]
    change ¬ first.toNat < 127
    omega
  · rw [UInt8.lt_iff_toNat_lt]
    change ¬ first.toNat < 32
    omega

/-- A byte of ASCII that is no control stands for itself. -/
theorem stepGround_ascii {c : Char} (h : Plain c) (hascii : c.toNat ≤ 0x7F) :
    stepGround (UInt8.ofNat c.toNat) = (.ground, some (.print c)) := by
  obtain ⟨hlow, hdel⟩ := h
  have hnat : (UInt8.ofNat c.toNat).toNat = c.toNat := by
    rw [UInt8.toNat_ofNat']
    omega
  have hchar : Char.ofUInt8 (UInt8.ofNat c.toNat) = c := by
    refine Char.ext (UInt32.toNat_inj.1 ?_)
    change (UInt8.ofNat c.toNat).toUInt32.toNat = c.toNat
    rw [UInt8.toNat_toUInt32, hnat]
  have hescape : UInt8.ofNat c.toNat ≠ escapeByte := by
    intro hbyte
    have heq := congrArg UInt8.toNat hbyte
    rw [hnat] at heq
    change c.toNat = 27 at heq
    omega
  unfold stepGround
  rw [if_neg hescape, if_neg, if_pos, hchar]
  · rw [UInt8.lt_iff_toNat_lt, hnat]
    change c.toNat < 127
    omega
  · rw [UInt8.lt_iff_toNat_lt, hnat]
    change ¬ c.toNat < 32
    omega

/-- **A character is read as it was encoded.** -/
theorem run_encodeChar {c : Char} (h : Plain c) :
    Reader.ground.run (String.utf8EncodeChar c) = (.ground, [.print c]) := by
  rcases Utf8.encodeChar_cases c with ⟨hascii, heq⟩ | ⟨first, rest, heq, hrest, hannounced, hcont⟩
  · rw [heq]
    unfold run step
    dsimp only
    rw [stepGround_ascii h hascii]
    rfl
  · have hmany : 0 < rest.length := List.length_pos_iff.2 hrest
    rw [heq]
    unfold run step
    dsimp only
    rw [stepGround_announced (by omega),
      run_character hrest (by rw [hannounced, List.length_nil]; omega) hcont, List.nil_append,
      Utf8.decodeChar?_eq_some_iff.2 heq]
    rfl

/-- So is a text of such characters. -/
theorem run_encode {text : List Char} (h : ∀ c ∈ text, Plain c) :
    Reader.ground.run (Utf8.encode text) = (.ground, text.map .print) := by
  induction text with
  | nil => rfl
  | cons c text ih =>
    obtain ⟨hc, htail⟩ := List.forall_mem_cons.1 h
    change Reader.ground.run (String.utf8EncodeChar c ++ Utf8.encode text) = _
    rw [run_append, run_encodeChar hc, ih htail]
    rfl

/-- The bytes of a line break bring the cursor to the first column and then
down. -/
theorem run_lineBreak :
    Reader.ground.run (Utf8.encode ['\r', '\n']) = (.ground, [.carriageReturn, .lineFeed]) := by
  decide

/-- Actions without bytes for the printer are handed over as they are. -/
theorem joinData_eq_self {actions : List Action} (h : ∀ bytes, .printData bytes ∉ actions) :
    joinData actions = actions := by
  induction actions with
  | nil => rfl
  | cons action rest ih =>
    have htail : joinData rest = rest :=
      ih fun bytes hmem => h bytes (List.mem_cons_of_mem _ hmem)
    unfold joinData
    rw [htail]
    split
    · exact absurd List.mem_cons_self (h _)
    · rfl

/-- Nothing of a text goes to the printer. -/
theorem printData_notMem_lines (lines : List (List Char)) (bytes : List UInt8) :
    .printData bytes ∉
      [Action.carriageReturn, .lineFeed].intercalate (lines.map (·.map .print)) := by
  induction lines with
  | nil => exact List.not_mem_nil
  | cons line lines ih =>
    cases lines with
    | nil => simp
    | cons next lines =>
      rw [List.map_cons, List.map_cons, List.intercalate_cons_cons]
      simpa using ih

/-- **Lines of text are read as glyphs and line breaks**, in their order. -/
theorem feed_lines {lines : List (List Char)} (h : ∀ line ∈ lines, ∀ c ∈ line, Plain c) :
    Reader.ground.feed (Utf8.encode (['\r', '\n'].intercalate lines)) =
      (.ground, [.carriageReturn, .lineFeed].intercalate (lines.map (·.map .print))) := by
  have hrun : Reader.ground.run (Utf8.encode (['\r', '\n'].intercalate lines)) =
      (.ground, [.carriageReturn, .lineFeed].intercalate (lines.map (·.map .print))) := by
    induction lines with
    | nil => rfl
    | cons line lines ih =>
      obtain ⟨hline, hlines⟩ := List.forall_mem_cons.1 h
      cases lines with
      | nil => simpa using run_encode hline
      | cons next lines =>
        rw [List.intercalate_cons_cons, Utf8.encode_append, Utf8.encode_append, run_append,
          run_append, run_encode hline, run_lineBreak, ih hlines]
        exact congrArg (Prod.mk _) List.intercalate_cons_cons.symm
  unfold feed
  rw [hrun]
  dsimp only
  rw [joinData_eq_self (printData_notMem_lines lines)]

end Reader

end VideoTerminal
