import VideoTerminal.Proofs.Control.Lossy
import VideoTerminal.Proofs.Control.Registers
import VideoTerminal.Proofs.Control.Sequence
/-!
# Reading commands

The bytes of a command come from a child program, and there may be any number of
them. What becomes of them is told from the whole string: some bytes are left out,
some are changed, the rest is cut, and what is then in front of the first semicolon
names the command. The two ways to end a command make no difference, and a command
that is given up leaves nothing.
-/

namespace VideoTerminal

/-- The text that an action hands over from a command. -/
def Action.payload? : Action → Option String
  | .setTitles text => some text
  | .setIconName text => some text
  | .setTitle text => some text
  | .setColour _ value => some value
  | .extension _ payload => some payload
  | _ => none

namespace Command

variable {bytes body head digits payload : List UInt8} {byte : UInt8} {code n : Nat}
  {text : String} {action : Action}

/-! ## What a command says -/

/-- The codes that there are actions for. -/
def supported : List Nat := [0, 1, 2, 10, 11, 20, 39, 46, 49, 50]

/-- A byte that neither ends a command nor gives it up. -/
def IsInner (byte : UInt8) : Prop := byte ≠ 0x07 ∧ byte ≠ 0x1B ∧ byte ≠ 0x18 ∧ byte ≠ 0x1A

instance (byte : UInt8) : Decidable (IsInner byte) := inferInstanceAs (Decidable (_ ∧ _))

/-- What is kept of the bytes of a command: a tab as a blank, no other control bytes,
and no more than the limit. -/
def kept (body : List UInt8) : List UInt8 :=
  ((body.map fun byte => if byte = 0x09 then 0x20 else byte).filter (0x20 ≤ ·)).take 512

/-- Decimal digits, maybe behind a plus sign, write a number of sixteen bits. -/
def Writes (bytes : List UInt8) (n : Nat) : Prop :=
  ∃ digits, digits ≠ [] ∧ (∀ byte ∈ digits, Sequence.isDigit byte = true) ∧
    (bytes = digits ∨ bytes = 0x2B :: digits) ∧ Sequence.number digits = n ∧ n ≤ 65535

/-- The bytes are a code and a payload, with the first semicolon between them. -/
def Says (bytes : List UInt8) (code : Nat) (payload : List UInt8) : Prop :=
  ∃ head, bytes = head ++ 0x3B :: payload ∧ 0x3B ∉ head ∧ Writes head code

/-! ## The code -/

theorem digit?_ofUInt8 (byte : UInt8) : Numeral.digit? (Char.ofUInt8 byte) =
    if Sequence.isDigit byte then some (byte.toNat - 0x30) else none := by
  have hvalue : (Char.ofUInt8 byte).val.toNat = byte.toNat := UInt8.toNat_toUInt32 byte
  have hdigit : (Char.ofUInt8 byte).isDigit = Sequence.isDigit byte := by
    rw [Bool.eq_iff_iff]
    simp only [Char.isDigit, Sequence.isDigit, Bool.and_eq_true, decide_eq_true_eq, ge_iff_le,
      UInt32.le_iff_toNat_le, UInt8.le_iff_toNat_le, hvalue]
    rfl
  unfold Numeral.digit? Char.toNat
  rw [hdigit, hvalue]
  rfl

theorem mapM_digit? (digits : List UInt8) : (digits.map Char.ofUInt8).mapM Numeral.digit? =
    if digits.all Sequence.isDigit then some (digits.map fun byte => byte.toNat - 0x30)
    else none := by
  induction digits with
  | nil => rfl
  | cons byte digits ih =>
    rw [List.map_cons, List.mapM_cons, ih, digit?_ofUInt8, List.all_cons]
    cases Sequence.isDigit byte with
    | false => rfl
    | true => cases digits.all Sequence.isDigit <;> rfl

/-- The number that digits write, if they are digits and it is not above the limit. -/
def value? (limit : Nat) (digits : List UInt8) : Option Nat :=
  if digits ≠ [] ∧ digits.all Sequence.isDigit = true ∧ Sequence.number digits ≤ limit then
    some (Sequence.number digits)
  else none

theorem value?_eq_some_iff {limit : Nat} : value? limit digits = some n ↔
    digits ≠ [] ∧ (∀ byte ∈ digits, Sequence.isDigit byte = true) ∧
      Sequence.number digits = n ∧ n ≤ limit := by
  unfold value?
  rw [Option.ite_none_right_eq_some, Option.some_inj, List.all_eq_true]
  constructor
  · rintro ⟨⟨hne, hdigits, hle⟩, rfl⟩
    exact ⟨hne, hdigits, rfl, hle⟩
  · rintro ⟨hne, hdigits, rfl, hle⟩
    exact ⟨⟨hne, hdigits, hle⟩, rfl⟩

theorem bind_mapM_digit? (limit : Nat) (digits : List UInt8) :
    ((digits.map Char.ofUInt8).mapM Numeral.digit?).bind (fun values =>
      if values ≠ [] ∧ Numeral.ofDigits values ≤ limit then some (Numeral.ofDigits values)
      else none) = value? limit digits := by
  have hnumber : Numeral.ofDigits (digits.map fun byte => byte.toNat - 0x30) =
      Sequence.number digits := List.foldl_map
  rw [mapM_digit?]
  unfold value?
  cases digits.all Sequence.isDigit with
  | false => simp
  | true => simp [hnumber]

/-- A plus sign before the digits does not matter. -/
theorem read?_plus (limit : Nat) (digits : List UInt8) :
    Numeral.read? limit ((0x2B :: digits).map Char.ofUInt8) = value? limit digits :=
  bind_mapM_digit? limit digits

theorem read?_of_head? {limit : Nat} (h : digits.head? ≠ some 0x2B) :
    Numeral.read? limit (digits.map Char.ofUInt8) = value? limit digits := by
  rw [← bind_mapM_digit?]
  unfold Numeral.read?
  split
  · rename_i rest hplus
    obtain ⟨byte, tail, rfl, hbyte, -⟩ := List.map_eq_cons_iff.1 hplus
    have hvalue : byte.toNat = 0x2B :=
      (UInt8.toNat_toUInt32 byte).symm.trans (congrArg (fun c => c.val.toNat) hbyte)
    exact absurd (congrArg some (UInt8.toNat_inj.1 hvalue)) h
  · rfl

theorem read?_eq_some_iff :
    Numeral.read? 65535 (head.map Char.ofUInt8) = some n ↔ Writes head n := by
  constructor
  · intro h
    by_cases hplus : head.head? = some 0x2B
    · obtain ⟨digits, rfl⟩ := List.head?_eq_some_iff.1 hplus
      rw [read?_plus, value?_eq_some_iff] at h
      exact ⟨digits, h.1, h.2.1, Or.inr rfl, h.2.2⟩
    · rw [read?_of_head? hplus, value?_eq_some_iff] at h
      exact ⟨head, h.1, h.2.1, Or.inl rfl, h.2.2⟩
  · rintro ⟨digits, hne, hdigits, rfl | rfl, hvalue⟩
    · have hplus : head.head? ≠ some 0x2B := fun hplus =>
        absurd (hdigits _ (List.mem_of_head? hplus)) (by decide)
      rw [read?_of_head? hplus, value?_eq_some_iff]
      exact ⟨hne, hdigits, hvalue⟩
    · rw [read?_plus, value?_eq_some_iff]
      exact ⟨hne, hdigits, hvalue⟩

/-! ## The action -/

/-- There is an action for every supported code, and only for these. -/
theorem ofCode?_isSome_iff : (ofCode? code text).isSome ↔ code ∈ supported := by
  unfold ofCode?
  split
  all_goals simp_all [supported]

/-- The action of a code hands over the payload as it is. -/
theorem payload?_ofCode? (h : ofCode? code text = some action) :
    action.payload? = some text := by
  unfold ofCode? at h
  split at h
  all_goals cases h
  all_goals rfl

/-- The action is told from both sides of the first semicolon. -/
theorem decode?_append (h : 0x3B ∉ head) (payload : List UInt8) :
    decode? (head ++ 0x3B :: payload) =
      (Numeral.read? 65535 (head.map Char.ofUInt8)).bind fun code =>
        ofCode? code (String.ofList (Utf8.lossy payload)) := by
  have hhead : ∀ byte ∈ head, (byte != 0x3B) = true :=
    fun byte hbyte => bne_iff_ne.2 fun heq => h (heq ▸ hbyte)
  unfold decode?
  rw [List.dropWhile_append_of_pos hhead, List.takeWhile_append_of_pos hhead,
    List.dropWhile_cons_of_neg (by decide), List.takeWhile_cons_of_neg (by decide),
    List.append_nil]
  rfl

theorem decode?_of_notMem (h : 0x3B ∉ bytes) : decode? bytes = none := by
  have hbytes : ∀ byte ∈ bytes, (byte != 0x3B) = true :=
    fun byte hbyte => bne_iff_ne.2 fun heq => h (heq ▸ hbyte)
  unfold decode?
  rw [← List.append_nil bytes, List.dropWhile_append_of_pos hbytes]
  rfl

/-- **What a command says is what it does.** -/
theorem decode?_eq_ofCode? (h : Says bytes code payload) :
    decode? bytes = ofCode? code (String.ofList (Utf8.lossy payload)) := by
  obtain ⟨head, rfl, hhead, hcode⟩ := h
  rw [decode?_append hhead, read?_eq_some_iff.2 hcode]
  rfl

/-- A command that says nothing does nothing. -/
theorem exists_said (h : decode? bytes = some action) :
    ∃ code payload, Says bytes code payload := by
  by_cases hsemicolon : 0x3B ∈ bytes
  · obtain ⟨head, payload, rfl, hhead⟩ := List.eq_append_cons_of_mem hsemicolon
    rw [decode?_append hhead, Option.bind_eq_some_iff] at h
    obtain ⟨code, hcode, -⟩ := h
    exact ⟨code, payload, head, rfl, hhead, read?_eq_some_iff.1 hcode⟩
  · rw [decode?_of_notMem hsemicolon] at h
    cases h

theorem isSome_decode?_iff : (decode? bytes).isSome ↔
    ∃ code ∈ supported, ∃ payload, Says bytes code payload := by
  constructor
  · intro h
    obtain ⟨action, haction⟩ := Option.isSome_iff_exists.1 h
    obtain ⟨code, payload, hsays⟩ := exists_said haction
    rw [decode?_eq_ofCode? hsays, ofCode?_isSome_iff] at h
    exact ⟨code, h, payload, hsays⟩
  · rintro ⟨code, hsupported, payload, hsays⟩
    rw [decode?_eq_ofCode? hsays, ofCode?_isSome_iff]
    exact hsupported

/-! ## What is kept -/

theorem filterMap_clean? (body : List UInt8) : body.filterMap clean? =
    (body.map fun byte => if byte = 0x09 then 0x20 else byte).filter (0x20 ≤ ·) := by
  induction body with
  | nil => rfl
  | cons byte body ih =>
    rw [List.map_cons, List.filter_cons, List.filterMap_cons, ih]
    unfold clean?
    by_cases htab : byte = 0x09
    · rw [if_pos htab, if_pos htab]
      rfl
    · rw [if_neg htab, if_neg htab]
      by_cases hlow : byte < 0x20
      · rw [if_pos hlow, if_neg (by simpa using hlow)]
      · rw [if_neg hlow, if_pos (by simpa using hlow)]

/-- Bytes are taken until the limit is reached. -/
theorem foldl_push (body : List UInt8) (h : bytes.length ≤ 512) :
    body.foldl push bytes = (bytes ++ body.filterMap clean?).take 512 := by
  induction body generalizing bytes with
  | nil => rw [List.filterMap_nil, List.append_nil, List.take_of_length_le h]; rfl
  | cons byte body ih =>
    rw [List.foldl_cons, ih (length_push_le byte h), List.filterMap_cons]
    unfold push
    split
    · cases clean? byte <;> simp
    · rename_i hfull
      have hlimit : bytes.length = 512 := Nat.le_antisymm h (Nat.not_lt.1 hfull)
      rw [List.take_append_of_le_length (Nat.le_of_eq hlimit.symm),
        List.take_append_of_le_length (Nat.le_of_eq hlimit.symm)]

theorem foldl_push_nil (body : List UInt8) : body.foldl push [] = kept body := by
  rw [foldl_push body (Nat.zero_le _), List.nil_append, filterMap_clean?]
  rfl

theorem length_kept_le (body : List UInt8) : (kept body).length ≤ 512 := List.length_take_le _ _

theorem le_of_mem_kept (h : byte ∈ kept body) : 0x20 ≤ byte :=
  of_decide_eq_true (List.mem_filter.1 (List.mem_of_mem_take h)).2

/-- The payload of what is kept is short, since a code and a semicolon stand before
it, and it has no control bytes. -/
theorem payload_kept (h : Says (kept body) code payload) :
    payload.length ≤ 510 ∧ ∀ byte ∈ payload, 0x20 ≤ byte := by
  obtain ⟨head, hbytes, -, digits, hdigits, -, hhead, -⟩ := h
  constructor
  · have hlimit := length_kept_le body
    have hdigit := List.length_pos_iff.2 hdigits
    have hle : digits.length ≤ head.length := by
      rcases hhead with rfl | rfl
      · exact Nat.le_refl _
      · exact Nat.le_succ _
    rw [hbytes, List.length_append, List.length_cons] at hlimit
    omega
  · intro byte hbyte
    have hkept : byte ∈ kept body := by
      rw [hbytes]
      exact List.mem_append_right _ (List.mem_cons_of_mem _ hbyte)
    exact le_of_mem_kept hkept

end Command

namespace Reader

open Command (IsInner kept Says ofCode? supported)

variable {byte : UInt8} {body : List UInt8} {action : Action}

/-- The start of a command. -/
def commandStart : List UInt8 := [0x1B, 0x5D]

/-! ## Bytes of a command -/

theorem stepCommand_inner (h : IsInner byte) (bytes : List UInt8) :
    stepCommand bytes byte = (.command (Command.push bytes byte), none) := by
  obtain ⟨hbell, hescape, hcancel, hsubstitute⟩ := h
  unfold stepCommand isCancel
  rw [if_neg hbell, if_neg (show byte ≠ escapeByte from hescape),
    if_neg (by simp [hcancel, hsubstitute])]

theorem run_command (h : ∀ byte ∈ body, IsInner byte) (bytes : List UInt8) :
    (Reader.command bytes).run body = (.command (body.foldl Command.push bytes), []) := by
  induction body generalizing bytes with
  | nil => rfl
  | cons byte body ih =>
    obtain ⟨hbyte, hrest⟩ := List.forall_mem_cons.1 h
    have hstep : (Reader.command bytes).step byte = (.command (Command.push bytes byte), none) :=
      stepCommand_inner hbyte bytes
    unfold run
    rw [hstep]
    dsimp only
    rw [ih hrest]
    rfl

/-- As long as a command goes on, nothing is done. -/
theorem run_commandStart (h : ∀ byte ∈ body, IsInner byte) (more : List UInt8) :
    Reader.ground.run (commandStart ++ body ++ more) = (Reader.command (kept body)).run more := by
  have hstart : Reader.ground.run commandStart = (.command [], []) := rfl
  rw [List.append_assoc, run_append, run_append, hstart]
  dsimp only
  rw [run_command h, Command.foldl_push_nil]
  rfl

/-! ## What is given up -/

theorem payload?_control? (h : control? byte = some action) : action.payload? = none := by
  unfold control? at h
  split at h
  all_goals cases h
  all_goals rfl

theorem payload?_escapeAction? {final : Char} (h : escapeAction? final = some action) :
    action.payload? = none := by
  unfold escapeAction? at h
  split at h
  all_goals cases h
  all_goals rfl

/-- The second byte of an escape sequence hands over no text. -/
theorem payload?_stepEscape (h : (stepEscape byte).2 = some action) :
    action.payload? = none := by
  unfold stepEscape at h
  repeat' split at h
  case isFalse.isFalse.isTrue => exact payload?_control? h
  case isFalse.isFalse.isFalse.isFalse.isFalse.isFalse => exact payload?_escapeAction? h
  all_goals cases h

/-- **A command is told from its whole string.** However long it is, it ends at a bell
or at an escape with a backslash, which make no difference. There is an action exactly
if what is kept of the string starts with a supported code and a semicolon; the text
behind it, with replacements, is what the action hands over. No control character is in
it, and it is short. A command that is given up leaves nothing: what gives it up is
read as if there had been none, and hands over no text. -/
theorem feed_command (h : ∀ byte ∈ body, IsInner byte) :
    (∃ action : Option Action,
      Reader.ground.feed (commandStart ++ body ++ [0x07]) = (.ground, action.toList) ∧
        Reader.ground.feed (commandStart ++ body ++ [0x1B, 0x5C]) = (.ground, action.toList) ∧
        (action.isSome ↔ ∃ code ∈ supported, ∃ payload, Says (kept body) code payload) ∧
        ∀ code payload, Says (kept body) code payload → ∀ done ∈ action,
          ∃ text, Utf8.Replaced payload text ∧ ofCode? code (String.ofList text) = some done ∧
            done.payload? = some (String.ofList text) ∧ (∀ c ∈ text, 0x20 ≤ c.toNat) ∧
              text.length ≤ 510) ∧
      (∀ byte, byte = 0x18 ∨ byte = 0x1A → ∀ more,
        Reader.ground.feed (commandStart ++ body ++ byte :: more) = Reader.ground.feed more) ∧
      ∀ byte, byte ≠ 0x5C →
        (∀ more, Reader.ground.feed (commandStart ++ body ++ 0x1B :: byte :: more) =
          Reader.ground.feed (0x1B :: byte :: more)) ∧
          ∀ done ∈ (Reader.ground.feed (commandStart ++ body ++ [0x1B, byte])).2,
            done.payload? = none := by
  refine ⟨⟨Command.decode? (kept body), ?_, ?_, ?_, ?_⟩, ?_, ?_⟩
  · refine feed_of_run ?_
    rw [run_commandStart h]
    exact Prod.ext rfl (List.append_nil _)
  · refine feed_of_run ?_
    rw [run_commandStart h]
    exact Prod.ext rfl (List.append_nil _)
  · exact Command.isSome_decode?_iff
  · intro code payload hsays done hdone
    rw [Command.decode?_eq_ofCode? hsays, Option.mem_def] at hdone
    obtain ⟨hlength, hbytes⟩ := Command.payload_kept hsays
    have htext := Utf8.replaced_lossy payload
    exact ⟨Utf8.lossy payload, htext, hdone, Command.payload?_ofCode? hdone, htext.plain hbytes,
      Nat.le_trans htext.length_le hlength⟩
  · intro byte hbyte more
    have hcancel : isCancel byte = true := by rcases hbyte with rfl | rfl <;> rfl
    have hmore : (Reader.command (kept body)).run (byte :: more) = Reader.ground.run more := by
      rw [run, step_cancel rfl hcancel]
      rfl
    unfold feed
    rw [run_commandStart h, hmore]
  · intro byte hbyte
    have hescape : ∀ more, Reader.ground.feed (commandStart ++ body ++ 0x1B :: byte :: more) =
        Reader.ground.feed (0x1B :: byte :: more) := by
      intro more
      unfold feed
      rw [run_commandStart h]
      exact congrArg (fun next => (next.1, joinData next.2))
        (run_escape (r := .command (kept body)) rfl hbyte more)
    refine ⟨hescape, fun done hdone => ?_⟩
    rw [hescape []] at hdone
    have hfeed : Reader.ground.feed [0x1B, byte] =
        ((stepEscape byte).1, (stepEscape byte).2.toList) :=
      feed_of_run (Prod.ext rfl (List.append_nil _))
    rw [hfeed] at hdone
    exact payload?_stepEscape (Option.mem_toList.1 hdone)

/-- A title with a tab, a control byte, a character of two bytes and one that is cut
off. Its code has a sign and leading zeros. -/
theorem feed_command_title :
    let body : List UInt8 :=
      [0x2B, 0x30, 0x32, 0x3B, 0x61, 0x09, 0x01, 0xC3, 0xA9, 0xE2, 0x82, 0x3B]
    (∀ byte ∈ body, IsInner byte) ∧
      Reader.ground.feed (commandStart ++ body ++ [0x07]) =
        (.ground, [.setTitle "a \u00E9\uFFFD;"]) ∧
      Reader.ground.feed (commandStart ++ body ++ [0x1B, 0x5C]) =
        (.ground, [.setTitle "a \u00E9\uFFFD;"]) ∧
      Reader.ground.feed (commandStart ++ body ++ [0x18, 0x07]) = (.ground, [.bell]) ∧
      Reader.ground.feed (commandStart ++ body ++ [0x1B, 0x63, 0x07]) =
        (.ground, [.fullReset, .bell]) := by
  intro body
  have hbody : ∀ byte ∈ body, IsInner byte := by decide +kernel
  obtain ⟨⟨action, hbell, hescape, hsome, hpayload⟩, hcancel, hanew⟩ := feed_command hbody
  have hkept : kept body =
      [0x2B, 0x30, 0x32, 0x3B, 0x61, 0x20, 0xC3, 0xA9, 0xE2, 0x82, 0x3B] := by decide
  have hsays : Says (kept body) 2 [0x61, 0x20, 0xC3, 0xA9, 0xE2, 0x82, 0x3B] := by
    rw [hkept]
    refine ⟨[0x2B, 0x30, 0x32], rfl, by decide, [0x30, 0x32], by decide, ?_, Or.inr rfl,
      by decide, by decide⟩
    decide +kernel
  obtain ⟨done, rfl⟩ := Option.isSome_iff_exists.1 (hsome.2 ⟨2, by decide, _, hsays⟩)
  obtain ⟨text, htext, hdone, -⟩ := hpayload 2 _ hsays done rfl
  have hlossy : Utf8.lossy [0x61, 0x20, 0xC3, 0xA9, 0xE2, 0x82, 0x3B] =
      ['a', ' ', '\u00E9', '\uFFFD', ';'] := by decide +kernel
  rw [Utf8.replaced_iff.1 htext, hlossy] at hdone
  obtain rfl : .setTitle "a \u00E9\uFFFD;" = done := Option.some.inj hdone
  exact ⟨hbody, hbell, hescape, (hcancel 0x18 (Or.inl rfl) [0x07]).trans (by decide),
    ((hanew 0x63 (by decide)).1 [0x07]).trans (by decide)⟩

end Reader

end VideoTerminal
