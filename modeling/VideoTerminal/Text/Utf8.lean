/-!
# UTF-8

A character is encoded by one to four bytes. The first byte announces how
many there are, all others are continuation bytes. Bytes that encode nothing
are dropped or replaced, and what a replacement stands for is fixed: a
longest run of bytes that an encoding could have started with.
-/

namespace VideoTerminal

namespace Utf8

/-- The bytes are the encoding of a character: that character. -/
def decodeChar? (bytes : List UInt8) : Option Char :=
  (bytes.toByteArray.utf8DecodeChar? 0).filter fun c => String.utf8EncodeChar c == bytes

/-- Number of bytes that a first byte announces, itself included. No encoding
starts with a continuation byte, with a byte that only overlong encodings
start with, or above the last code point. -/
def announced (first : UInt8) : Nat :=
  if first < 0x80 then 1
  else if 0xC2 ≤ first ∧ first ≤ 0xDF then 2
  else if 0xE0 ≤ first ∧ first ≤ 0xEF then 3
  else if 0xF0 ≤ first ∧ first ≤ 0xF4 then 4
  else 0

/-- A byte that is not the first one of an encoding. -/
def isContinuation (byte : UInt8) : Bool := 0x80 ≤ byte && byte ≤ 0xBF

/-- Whether a byte may stand second. After some first bytes it has to keep
the encoding from being overlong, from a surrogate, or from going above the
last code point. -/
def maySecond (first byte : UInt8) : Bool :=
  if first = 0xE0 then 0xA0 ≤ byte && byte ≤ 0xBF
  else if first = 0xED then 0x80 ≤ byte && byte ≤ 0x9F
  else if first = 0xF0 then 0x90 ≤ byte && byte ≤ 0xBF
  else if first = 0xF4 then 0x80 ≤ byte && byte ≤ 0x8F
  else isContinuation byte

/-- The bytes behind a first byte that belong to the same encoding, as far as
there are such. -/
def following (first : UInt8) (bytes : List UInt8) : List UInt8 :=
  match announced first, bytes with
  | n + 2, second :: rest =>
    if maySecond first second then second :: (rest.takeWhile isContinuation).take n else []
  | _, _ => []

/-- All characters that the bytes encode. What does not end as an encoding is
replaced by U+FFFD, as far as it could have been the start of one. -/
def lossy : List UInt8 → List Char
  | [] => []
  | first :: rest =>
    (decodeChar? (first :: following first rest)).getD '\uFFFD' ::
      lossy (rest.drop (following first rest).length)
termination_by bytes => bytes.length
decreasing_by
  simp only [List.length_drop, List.length_cons]
  omega

/-- **Exactly the encoding of a character decodes to it.** -/
theorem decodeChar?_eq_some_iff {bytes : List UInt8} {c : Char} :
    decodeChar? bytes = some c ↔ String.utf8EncodeChar c = bytes := by
  unfold decodeChar?
  rw [Option.filter_eq_some_iff]
  constructor
  · rintro ⟨-, h⟩
    simpa using h
  · rintro rfl
    have h := ByteArray.utf8DecodeChar?_utf8EncodeChar_append (b := ByteArray.empty) (c := c)
    simp_all

/-- A first byte announces at most four bytes. -/
theorem announced_le_four (first : UInt8) : announced first ≤ 4 := by
  unfold announced
  repeat' split
  all_goals omega

end Utf8

end VideoTerminal
