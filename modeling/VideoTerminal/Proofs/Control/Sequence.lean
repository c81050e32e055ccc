import VideoTerminal.Proofs.Control.Text
/-!
# Reading control sequences

A control sequence is collected byte by byte, and what it says can be told
from its text as a whole: a marker at its start, fields of digits between
separators, and nothing else. Control bytes that stand in it act at once, as
if they stood before it, and bytes that mean nothing in it are left out.
-/

namespace VideoTerminal

namespace Sequence

variable {s : Sequence} {byte : UInt8} {values : List Nat} {digits text : List UInt8}

/-! ## The text of a sequence -/

/-- A byte of the text of a sequence, which its final byte is no part of. -/
def isPart (byte : UInt8) : Bool := 0x20 ≤ byte && byte ≤ 0x3F

/-- A byte that may stand between those of a sequence without ending it. -/
def isForeign (byte : UInt8) : Bool :=
  (byte < 0x20 && byte != Reader.escapeByte && !Reader.isCancel byte) || 0x7F ≤ byte

/-- A decimal digit. -/
def isDigit (byte : UInt8) : Bool := 0x30 ≤ byte && byte ≤ 0x39

/-- A colon or a semicolon. -/
def isSeparator (byte : UInt8) : Bool := byte == 0x3A || byte == 0x3B

/-- A byte that may stand before all fields. -/
def isMarker (byte : UInt8) : Bool := 0x3C ≤ byte && byte ≤ 0x3F

/-- The number that digits stand for. -/
def number (digits : List UInt8) : Nat :=
  digits.foldl (fun n digit => 10 * n + (digit.toNat - 0x30)) 0

/-- The parameter that a field stands for. -/
def field (digits : List UInt8) : Nat := min (number digits) maxValue

/-- The parameters of a text without a marker. -/
def fields (text : List UInt8) : List Nat :=
  if text = [] then [] else ((text.splitOnP isSeparator).map field).take maxParameters

/-- The action of a marker, parameters and a final byte. -/
def interpret? (marker : Option UInt8) (parameters : List Nat) (final : UInt8) : Option Action :=
  match marker.map Char.ofUInt8, Char.ofUInt8 final with
  | none, c => decodePlain parameters c
  | some '?', c => decodePrivate parameters c
  | some '>', 'c' => some .secondaryAttributes
  | _, _ => none

/-- The marker at the start of a text. -/
def leadingMarker (text : List UInt8) : Option UInt8 := text.head?.filter isMarker

/-- A text without the marker at its start. -/
def unmarked (text : List UInt8) : List UInt8 := text.drop (leadingMarker text).toList.length

/-- The text consists of fields and separators. -/
def isFields (text : List UInt8) : Bool := text.all fun byte => isDigit byte || isSeparator byte

/-- The action of a text with its final byte, read off the text as a whole. -/
def meaning? (text : List UInt8) (final : UInt8) : Option Action :=
  if isFields (unmarked text) then
    interpret? (leadingMarker text) (fields (unmarked text)) final
  else none

theorem number_append (digits : List UInt8) (byte : UInt8) :
    number (digits ++ [byte]) = 10 * number digits + (byte.toNat - 0x30) :=
  List.foldl_append

/-- A digit more is a digit more of the parameter, whether or not the number
is above the limit by then. -/
theorem field_append (digits : List UInt8) (byte : UInt8) :
    field (digits ++ [byte]) = min (10 * field digits + (byte.toNat - 0x30)) maxValue := by
  unfold field
  rw [number_append]
  omega

/-- The parameters of a text that other parameters stand before. -/
def fieldsAfter (values : List Nat) (text : List UInt8) : List Nat :=
  if values = [] ∧ text = [] then []
  else (values ++ (text.splitOnP isSeparator).map field).take maxParameters

theorem fieldsAfter_nil (text : List UInt8) : fieldsAfter [] text = fields text := by
  unfold fieldsAfter fields
  simp only [true_and, List.nil_append]

/-- A text without a separator is one field. -/
theorem fieldsAfter_digits (values : List Nat) (h : ∀ byte ∈ digits, isSeparator byte = false) :
    fieldsAfter values digits = if values = [] ∧ digits = [] then []
      else (values ++ [field digits]).take maxParameters := by
  unfold fieldsAfter
  rw [List.splitOnP_eq_singleton h, List.map_singleton]

/-- A separator ends the field before it. -/
theorem fieldsAfter_separator (values : List Nat) (h : ∀ byte ∈ digits, isSeparator byte = false)
    (hbyte : isSeparator byte = true) (text : List UInt8) :
    fieldsAfter values (digits ++ byte :: text) = fieldsAfter (values ++ [field digits]) text := by
  have hvalues : values ++ [field digits] ≠ [] :=
    List.append_ne_nil_of_right_ne_nil _ (List.cons_ne_nil _ _)
  have htext : digits ++ byte :: text ≠ [] :=
    List.append_ne_nil_of_right_ne_nil _ (List.cons_ne_nil _ _)
  unfold fieldsAfter
  rw [if_neg fun hnil => htext hnil.2, if_neg fun hnil => hvalues hnil.1,
    List.splitOnP_append_cons_of_forall_mem h byte hbyte, List.map_cons, List.append_assoc]
  rfl

/-! ## The bytes of a text -/

/-- Take a byte of the text. -/
def read (s : Sequence) (byte : UInt8) : Sequence :=
  if byte ≤ 0x2F then s.intermediate byte
  else if byte ≤ 0x39 then s.digit (byte.toNat - 0x30)
  else if byte ≤ 0x3B then s.separator
  else s.mark byte

theorem read_digit (h : isDigit byte = true) : s.read byte = s.digit (byte.toNat - 0x30) := by
  simp only [isDigit, Bool.and_eq_true, decide_eq_true_eq, UInt8.le_iff_toNat_le,
    UInt8.reduceToNat] at h
  unfold read
  simp only [UInt8.le_iff_toNat_le, UInt8.reduceToNat]
  rw [if_neg (by omega), if_pos h.2]

theorem read_separator (h : isSeparator byte = true) : s.read byte = s.separator := by
  simp only [isSeparator, Bool.or_eq_true, beq_iff_eq] at h
  rcases h with rfl | rfl <;> rfl

theorem read_marker (h : isMarker byte = true) : s.read byte = s.mark byte := by
  simp only [isMarker, Bool.and_eq_true, decide_eq_true_eq, UInt8.le_iff_toNat_le,
    UInt8.reduceToNat] at h
  unfold read
  simp only [UInt8.le_iff_toNat_le, UInt8.reduceToNat]
  rw [if_neg (by omega), if_neg (by omega), if_neg (by omega)]

/-- A byte of a text is a digit, a separator or a marker, or it is kept among
the intermediate bytes. -/
theorem read_cases (h : isPart byte = true) :
    (isDigit byte || isSeparator byte) = true ∨ isMarker byte = true ∨
      ∀ s : Sequence, s.read byte = s.intermediate byte := by
  simp only [isPart, Bool.and_eq_true, decide_eq_true_eq, UInt8.le_iff_toNat_le,
    UInt8.reduceToNat] at h
  by_cases hlow : byte ≤ 0x2F
  · exact Or.inr (Or.inr fun s => if_pos hlow)
  · simp only [isDigit, isSeparator, isMarker, Bool.and_eq_true, Bool.or_eq_true, beq_iff_eq,
      decide_eq_true_eq, UInt8.le_iff_toNat_le, UInt8.reduceToNat, ← UInt8.toNat_inj] at hlow ⊢
    omega

theorem isSeparator_of_isDigit (h : isDigit byte = true) : isSeparator byte = false := by
  simp only [isDigit, isSeparator, Bool.and_eq_true, Bool.or_eq_false_iff, beq_eq_false_iff_ne,
    decide_eq_true_eq, ne_eq, UInt8.le_iff_toNat_le, UInt8.reduceToNat, ← UInt8.toNat_inj] at h ⊢
  omega

/-! ## What was collected -/

/-- Nothing was in a wrong place, `values` are the parameters that were
closed, and `digits` are those since the last separator. -/
structure Holds (s : Sequence) (values : List Nat) (digits : List UInt8) : Prop where
  sound : s.malformed = false
  plain : s.intermediates = []
  closed : s.closed = values.take maxParameters
  figures : ∀ byte ∈ digits, isDigit byte = true
  digits : s.digits = if digits = [] then none else some (field digits)

namespace Holds

theorem start (marker : Option UInt8) : ({ marker } : Sequence).Holds [] [] :=
  ⟨rfl, rfl, rfl, List.forall_mem_nil _, rfl⟩

/-- The digits so far stand for their field. -/
theorem getD_digits (h : s.Holds values digits) : s.digits.getD 0 = field digits := by
  rw [h.digits]
  split
  · rename_i hnil
    rw [hnil]
    rfl
  · rfl

theorem digit (h : s.Holds values digits) (hbyte : isDigit byte = true) :
    (s.digit (byte.toNat - 0x30)).Holds values (digits ++ [byte]) := by
  unfold Sequence.digit
  rw [h.plain, h.getD_digits, ← field_append]
  refine ⟨h.sound, rfl, h.closed, List.forall_mem_append.2 ⟨h.figures, ?_⟩, ?_⟩
  · exact List.forall_mem_singleton.2 hbyte
  · rw [if_neg (List.append_ne_nil_of_right_ne_nil _ (List.cons_ne_nil _ _))]
    rfl

/-- Closing a parameter keeps it, unless there are too many. -/
theorem closed_close (h : s.Holds values digits) :
    s.close.closed = (values ++ [field digits]).take maxParameters := by
  unfold close
  dsimp only
  rw [h.closed, h.getD_digits, List.length_take, List.take_append]
  split
  · rw [List.take_of_length_le (l := [field digits])]
    rw [List.length_singleton]
    omega
  · rw [show maxParameters - values.length = 0 by omega, List.take_zero, List.append_nil]

theorem separator (h : s.Holds values digits) :
    s.separator.Holds (values ++ [field digits]) [] := by
  unfold Sequence.separator
  rw [h.plain]
  exact ⟨h.sound, h.plain, h.closed_close, List.forall_mem_nil _, rfl⟩

theorem hasParameters_iff (h : s.Holds values digits) :
    s.hasParameters = true ↔ ¬ (values = [] ∧ digits = []) := by
  unfold hasParameters
  rw [h.digits, h.closed]
  by_cases hdigits : digits = []
  · simp [hdigits, maxParameters]
  · simp [hdigits]

theorem not_separator (h : s.Holds values digits) : ∀ byte ∈ digits, isSeparator byte = false :=
  fun byte hbyte => isSeparator_of_isDigit (h.figures byte hbyte)

/-- All parameters, the last of which ends with the sequence. -/
theorem parameters_eq (h : s.Holds values digits) : s.parameters = fieldsAfter values digits := by
  rw [fieldsAfter_digits values h.not_separator]
  unfold parameters
  by_cases hnone : values = [] ∧ digits = []
  · rw [if_neg fun hp => h.hasParameters_iff.1 hp hnone, if_pos hnone]
  · rw [if_pos (h.hasParameters_iff.2 hnone), if_neg hnone, h.closed_close]

end Holds

/-- A byte was in a wrong place, or some byte was an intermediate one. -/
def Spoiled (s : Sequence) : Prop := s.malformed = true ∨ s.intermediates ≠ []

theorem Holds.spoiled_intermediate (h : s.Holds values digits) (byte : UInt8) :
    (s.intermediate byte).Spoiled := by
  unfold intermediate
  rw [h.plain]
  exact Or.inr (List.cons_ne_nil _ _)

/-- A sequence that is spoiled stays so. -/
theorem Spoiled.read (h : s.Spoiled) (byte : UInt8) : (s.read byte).Spoiled := by
  unfold Sequence.read
  split
  · unfold intermediate
    split
    · exact Or.inr (List.append_ne_nil_of_right_ne_nil _ (List.cons_ne_nil _ _))
    · exact Or.inl rfl
  · split
    · unfold digit
      split
      · exact h
      · exact Or.inl rfl
    · split
      · unfold separator
        split
        · exact h
        · exact Or.inl rfl
      · unfold mark
        split
        · exact h
        · exact Or.inl rfl

theorem Spoiled.foldl_read (h : s.Spoiled) (text : List UInt8) :
    (text.foldl Sequence.read s).Spoiled := by
  induction text generalizing s with
  | nil => exact h
  | cons byte text ih => exact ih (h.read byte)

/-- A spoiled sequence stands for no action. -/
theorem Spoiled.decode?_eq (h : s.Spoiled) (final : UInt8) : s.decode? final = none := by
  unfold decode?
  rw [if_pos]
  rcases h with hmalformed | hplain
  · rw [hmalformed, Bool.true_or]
  · rw [Bool.or_eq_true]
    exact Or.inr (by simpa using hplain)

theorem Holds.decode?_eq (h : s.Holds values digits) (final : UInt8) :
    s.decode? final = interpret? s.marker s.parameters final := by
  unfold decode?
  rw [h.sound, h.plain]
  rfl

theorem marker_digit (s : Sequence) (value : Nat) : (s.digit value).marker = s.marker := by
  unfold digit
  split <;> rfl

theorem marker_separator (s : Sequence) : s.separator.marker = s.marker := by
  unfold separator
  split <;> rfl

/-- A marker behind another one, or behind the first field, is in a wrong
place. -/
theorem Holds.spoiled_mark (h : s.Holds values digits)
    (hplace : ¬ (s.marker = none ∧ values = [] ∧ digits = [])) (byte : UInt8) :
    (s.mark byte).Spoiled := by
  unfold mark
  rw [if_neg]
  · exact Or.inl rfl
  · rw [Bool.and_eq_true, Bool.not_eq_true', Option.isNone_iff_eq_none]
    rintro ⟨hmarker, hnone⟩
    refine hplace ⟨hmarker, Classical.not_not.1 fun hsome => ?_⟩
    rw [h.hasParameters_iff.2 hsome] at hnone
    cases hnone

/-- **What is left of a text decides**, together with what was collected of
it: the parameters are those of both. A marker may come only as long as there
is none and nothing was collected. -/
theorem Holds.decode?_foldl_read (h : s.Holds values digits)
    (hparts : ∀ byte ∈ text, isPart byte = true)
    (hmarker : s.marker = none ∧ values = [] ∧ digits = [] → leadingMarker text = none)
    (final : UInt8) : (text.foldl Sequence.read s).decode? final =
      if isFields text then interpret? s.marker (fieldsAfter values (digits ++ text)) final
      else none := by
  induction text generalizing s values digits with
  | nil =>
    change s.decode? final = _
    rw [h.decode?_eq, h.parameters_eq, List.append_nil]
    rfl
  | cons byte text ih =>
    obtain ⟨hbyte, hparts⟩ := List.forall_mem_cons.1 hparts
    rw [List.foldl_cons]
    by_cases hfields : (isDigit byte || isSeparator byte) = true
    · have hrest : isFields (byte :: text) = isFields text := by
        unfold isFields
        rw [List.all_cons, hfields, Bool.true_and]
      rw [hrest]
      rcases Bool.or_eq_true_iff.1 hfields with hdigit | hseparator
      · have hne : digits ++ [byte] ≠ [] :=
          List.append_ne_nil_of_right_ne_nil _ (List.cons_ne_nil _ _)
        rw [read_digit hdigit, ih (h.digit hdigit) hparts (fun hnone => absurd hnone.2.2 hne),
          marker_digit, List.append_assoc]
        rfl
      · have hne : values ++ [field digits] ≠ [] :=
          List.append_ne_nil_of_right_ne_nil _ (List.cons_ne_nil _ _)
        rw [read_separator hseparator,
          ih h.separator hparts (fun hnone => absurd hnone.2.1 hne), marker_separator,
          fieldsAfter_separator values h.not_separator hseparator]
        rfl
    · have hfalse : isFields (byte :: text) = false := by
        unfold isFields
        rw [List.all_cons, Bool.eq_false_iff.2 hfields, Bool.false_and]
      have hspoiled : (s.read byte).Spoiled := by
        rcases (read_cases hbyte).resolve_left hfields with hmark | hintermediate
        · rw [read_marker hmark]
          refine h.spoiled_mark (fun hplace => ?_) byte
          have hnone := hmarker hplace
          unfold leadingMarker at hnone
          rw [List.head?_cons, Option.filter_some, if_pos hmark] at hnone
          cases hnone
        · rw [hintermediate]
          exact h.spoiled_intermediate byte
      rw [(hspoiled.foldl_read text).decode?_eq, hfalse]
      rfl

/-- **A sequence says what its text says.** -/
theorem decode?_foldl_read (hparts : ∀ byte ∈ text, isPart byte = true) (final : UInt8) :
    (text.foldl read {}).decode? final = meaning? text final := by
  unfold meaning?
  cases hmarker : leadingMarker text with
  | none =>
    have hrest : unmarked text = text := by
      unfold unmarked
      rw [hmarker]
      rfl
    rw [(Holds.start none).decode?_foldl_read hparts fun _ => hmarker, hrest, fieldsAfter_nil]
    rfl
  | some marker =>
    obtain ⟨hhead, hmark⟩ := Option.filter_eq_some_iff.1 hmarker
    obtain ⟨rest, rfl⟩ := List.head?_eq_some_iff.1 hhead
    have hrest : unmarked (marker :: rest) = rest := by
      unfold unmarked
      rw [hmarker]
      rfl
    have hread : ({} : Sequence).read marker = { marker := some marker } := by
      rw [read_marker hmark]
      rfl
    obtain ⟨-, hparts⟩ := List.forall_mem_cons.1 hparts
    rw [List.foldl_cons, hread,
      (Holds.start (some marker)).decode?_foldl_read hparts (fun hnone => by cases hnone.1),
      hrest, fieldsAfter_nil]
    rfl

end Sequence

/-! ## Reading it -/

namespace Reader

open Sequence (isPart isForeign meaning?)

variable {s : Sequence} {byte final : UInt8} {bytes : List UInt8} {actions : List Action}

theorem stepSequence_part (h : isPart byte = true) :
    stepSequence s byte = (.sequence (s.read byte), none) := by
  simp only [isPart, Bool.and_eq_true, decide_eq_true_eq, UInt8.le_iff_toNat_le,
    UInt8.reduceToNat] at h
  simp only [stepSequence, Sequence.read, escapeByte, isCancel, Bool.or_eq_true, beq_iff_eq,
    UInt8.le_iff_toNat_le, UInt8.lt_iff_toNat_lt, UInt8.reduceToNat, ← UInt8.toNat_inj]
  rw [if_neg (by omega), if_neg (by omega), if_neg (by omega)]
  split
  · rfl
  · split
    · rfl
    · split
      · rfl
      · rw [if_pos h.2]

/-- No byte of the text of a sequence is a control byte. -/
theorem control?_part (h : isPart byte = true) : control? byte = none := by
  simp only [isPart, Bool.and_eq_true, decide_eq_true_eq, UInt8.le_iff_toNat_le,
    UInt8.reduceToNat] at h
  unfold control?
  split <;> first | omega | rfl

/-- A byte that is no part of a sequence acts, if it is a control byte, and
leaves the sequence as it is. -/
theorem stepSequence_foreign (h : isForeign byte = true) :
    stepSequence s byte = (.sequence s, control? byte) := by
  have hhigh : 0x7F ≤ byte.toNat → control? byte = none := by
    intro hle
    unfold control?
    split <;> first | omega | rfl
  simp only [isForeign, escapeByte, isCancel, Bool.or_eq_true, Bool.and_eq_true, bne_iff_ne,
    Bool.not_eq_true', Bool.or_eq_false_iff, beq_eq_false_iff_ne, decide_eq_true_eq, ne_eq,
    UInt8.le_iff_toNat_le, UInt8.lt_iff_toNat_lt, UInt8.reduceToNat, ← UInt8.toNat_inj] at h
  simp only [stepSequence, escapeByte, isCancel, Bool.or_eq_true, beq_iff_eq,
    UInt8.le_iff_toNat_le, UInt8.lt_iff_toNat_lt, UInt8.reduceToNat, ← UInt8.toNat_inj]
  rw [if_neg (by omega), if_neg (by omega)]
  split
  · rfl
  · rw [if_neg (by omega), if_neg (by omega), if_neg (by omega), if_neg (by omega),
      if_neg (by omega), hhigh (by omega)]

theorem stepSequence_final (h : 0x40 ≤ final ∧ final ≤ 0x7E) :
    stepSequence s final = (afterSequence (s.decode? final), s.decode? final) := by
  simp only [UInt8.le_iff_toNat_le, UInt8.reduceToNat] at h
  simp only [stepSequence, escapeByte, isCancel, Bool.or_eq_true, beq_iff_eq,
    UInt8.le_iff_toNat_le, UInt8.lt_iff_toNat_lt, UInt8.reduceToNat, ← UInt8.toNat_inj]
  rw [if_neg (by omega), if_neg (by omega), if_neg (by omega), if_neg (by omega),
    if_neg (by omega), if_neg (by omega), if_neg (by omega), if_pos h.2]

/-- The text of a sequence is collected, whatever stands between its bytes. -/
theorem run_sequence (h : ∀ byte ∈ bytes, (isPart byte || isForeign byte) = true) :
    (Reader.sequence s).run bytes =
      (.sequence ((bytes.filter isPart).foldl Sequence.read s), bytes.filterMap control?) := by
  induction bytes generalizing s with
  | nil => rfl
  | cons byte bytes ih =>
    obtain ⟨hbyte, hrest⟩ := List.forall_mem_cons.1 h
    unfold run step
    dsimp only
    by_cases hpart : isPart byte = true
    · rw [stepSequence_part hpart, ih hrest, List.filter_cons_of_pos hpart,
        List.filterMap_cons_none (control?_part hpart)]
      rfl
    · have hforeign : isForeign byte = true := (Bool.or_eq_true_iff.1 hbyte).resolve_left hpart
      rw [stepSequence_foreign hforeign, ih hrest, List.filter_cons_of_neg hpart,
        List.filterMap_cons]
      cases control? byte <;> rfl

/-- Actions without bytes for the printer, and at most one action more, are
handed over as they are. -/
theorem joinData_append_toList (h : ∀ bytes, .printData bytes ∉ actions) (last : Option Action) :
    joinData (actions ++ last.toList) = actions ++ last.toList := by
  induction actions with
  | nil =>
    cases last with
    | none => rfl
    | some action => cases action <;> rfl
  | cons action actions ih =>
    have htail := ih fun bytes hmem => h bytes (List.mem_cons_of_mem _ hmem)
    rw [List.cons_append]
    unfold joinData
    rw [htail]
    split
    · exact absurd List.mem_cons_self (h _)
    · rfl

/-- One action at most is handed over as it is. -/
theorem feed_of_run {r after : Reader} {action : Option Action}
    (h : r.run bytes = (after, action.toList)) : r.feed bytes = (after, action.toList) := by
  have hjoin : joinData ([] ++ action.toList) = [] ++ action.toList :=
    joinData_append_toList (fun _ hmem => absurd hmem List.not_mem_nil) action
  unfold feed
  rw [h]
  exact congrArg (Prod.mk after) hjoin

theorem printData_notMem_control (bytes data : List UInt8) :
    .printData data ∉ bytes.filterMap control? := by
  rw [List.mem_filterMap]
  rintro ⟨byte, -, hbyte⟩
  unfold control? at hbyte
  split at hbyte <;> cases hbyte

/-- **A control sequence says what its text says, and nothing else.** Its
bytes stand between its introducer and a final byte, with others among them
that do not end it. First the control bytes of these act, in their order. Then
comes the action of the text, if it has one: the text is a marker, if any, and
fields of digits between separators. The reader collects nothing after it,
unless it opened the print pipe. -/
theorem feed_sequence (h : ∀ byte ∈ bytes, (isPart byte || isForeign byte) = true)
    (hfinal : 0x40 ≤ final ∧ final ≤ 0x7E) :
    let action := meaning? (bytes.filter isPart) final
    Reader.ground.feed ([0x1B, 0x5B] ++ bytes ++ [final]) =
      (if action = some .openPipe then .printing [] else .ground,
        bytes.filterMap control? ++ action.toList) := by
  intro action
  have hparts : ∀ byte ∈ bytes.filter isPart, isPart byte = true :=
    fun byte hbyte => (List.mem_filter.1 hbyte).2
  have hdecode : ((bytes.filter isPart).foldl Sequence.read {}).decode? final = action :=
    Sequence.decode?_foldl_read hparts final
  have hlast : ∀ s : Sequence, (Reader.sequence s).run [final] =
      (afterSequence (s.decode? final), (s.decode? final).toList) := by
    intro s
    unfold run step
    dsimp only
    rw [stepSequence_final hfinal]
    exact Prod.ext rfl (List.append_nil _)
  have hrun : Reader.ground.run ([0x1B, 0x5B] ++ bytes ++ [final]) =
      (afterSequence action, bytes.filterMap control? ++ action.toList) := by
    have hopen : Reader.ground.run [0x1B, 0x5B] = (.sequence {}, []) := rfl
    rw [run_append, run_append, hopen]
    dsimp only
    rw [run_sequence h]
    dsimp only
    rw [hlast, hdecode]
    rfl
  unfold feed
  rw [hrun]
  dsimp only
  rw [joinData_append_toList (printData_notMem_control bytes) action]
  rfl

/-- A bell, a byte above ASCII and a deletion among the bytes of a sequence
that sets two modes. -/
theorem feed_sequence_interspersed :
    (∀ byte ∈ [0x3F, 0x07, 0x37, 0x9B, 0x3B, 0x7F, 0x32, 0x35],
      (isPart byte || isForeign byte) = true) ∧
      Reader.ground.feed [0x1B, 0x5B, 0x3F, 0x07, 0x37, 0x9B, 0x3B, 0x7F, 0x32, 0x35, 0x68] =
        (.ground, [.bell, .setPrivate [7, 25]]) := by
  have hbytes : ∀ byte ∈ [0x3F, 0x07, 0x37, 0x9B, 0x3B, 0x7F, 0x32, 0x35],
      (isPart byte || isForeign byte) = true := List.all_eq_true.1 rfl
  have hfinal : 0x40 ≤ (0x68 : UInt8) ∧ (0x68 : UInt8) ≤ 0x7E := by decide
  exact ⟨hbytes, (feed_sequence hbytes hfinal).trans (by decide)⟩

end Reader

end VideoTerminal
