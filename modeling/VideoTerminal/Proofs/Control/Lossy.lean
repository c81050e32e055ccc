import VideoTerminal.Proofs.Control.Decoding
/-!
# Text with replacements

Bytes need not be text. Where no encoding stands, one replacement stands for the
longest start of one that is there, or for a single byte, and reading goes on
behind it. `Replaced` says this without a word on how the bytes are searched, and
`replaced_iff` that decoding with replacements does just that.

What starts an encoding can be told byte by byte: the first byte announces the
length, the second one keeps within the bounds that the first one sets
(`maySecond_of_encodeChar`), and bytes that keep to this can be filled up to an
encoding (`exists_encodeChar`).
-/

namespace VideoTerminal

namespace Utf8

variable {first second byte : UInt8} {bytes conts rest : List UInt8} {text : List Char}

theorem isContinuation_iff :
    isContinuation byte = true ↔ 0x80 ≤ byte.toNat ∧ byte.toNat ≤ 0xBF := by
  simp only [isContinuation, Bool.and_eq_true, decide_eq_true_eq, UInt8.le_iff_toNat_le,
    UInt8.reduceToNat]

/-- A second byte continues the first, within narrower bounds behind four of them. -/
theorem maySecond_iff : maySecond first second = true ↔
    isContinuation second = true ∧ (first.toNat = 0xE0 → 0xA0 ≤ second.toNat) ∧
      (first.toNat = 0xED → second.toNat ≤ 0x9F) ∧ (first.toNat = 0xF0 → 0x90 ≤ second.toNat) ∧
      (first.toNat = 0xF4 → second.toNat ≤ 0x8F) := by
  rw [isContinuation_iff]
  unfold maySecond
  simp only [← UInt8.toNat_inj, UInt8.reduceToNat]
  repeat' split
  all_goals
    simp only [isContinuation_iff, Bool.and_eq_true, decide_eq_true_eq, UInt8.le_iff_toNat_le,
      UInt8.reduceToNat]
    omega

/-- The encoding of a character by its code point. -/
theorem encodeChar_ofNat {n : Nat} (h : n.isValidChar) : String.utf8EncodeChar (Char.ofNat n) =
    if n ≤ 0x7F then [UInt8.ofNat n]
    else if n ≤ 0x7FF then [UInt8.ofNat (n / 64 % 32 + 192), UInt8.ofNat (n % 64 + 128)]
    else if n ≤ 0xFFFF then
      [UInt8.ofNat (n / 4096 % 16 + 224), UInt8.ofNat (n / 64 % 64 + 128),
        UInt8.ofNat (n % 64 + 128)]
    else
      [UInt8.ofNat (n / 262144 % 8 + 240), UInt8.ofNat (n / 4096 % 64 + 128),
        UInt8.ofNat (n / 64 % 64 + 128), UInt8.ofNat (n % 64 + 128)] := by
  have hvalue : (Char.ofNat n).val.toNat = n := by
    unfold Char.ofNat
    rw [dif_pos h]
    rfl
  unfold String.utf8EncodeChar
  dsimp only
  rw [hvalue]

theorem ofNat_eq_iff {n : Nat} (h : n < 256) : UInt8.ofNat n = byte ↔ n = byte.toNat := by
  rw [← UInt8.toNat_inj, UInt8.toNat_ofNat', Nat.mod_eq_of_lt h]

/-- What may stand first, by the number of bytes that it announces. -/
theorem announced_cases {n : Nat} (h : announced first = n + 2) :
    (n = 0 ∧ 0xC2 ≤ first.toNat ∧ first.toNat ≤ 0xDF) ∨
      (n = 1 ∧ 0xE0 ≤ first.toNat ∧ first.toNat ≤ 0xEF) ∨
      (n = 2 ∧ 0xF0 ≤ first.toNat ∧ first.toNat ≤ 0xF4) := by
  rw [announced_eq] at h
  repeat' split at h
  all_goals omega

theorem exists_encodeChar_two (hfirst : 0xC2 ≤ first.toNat ∧ first.toNat ≤ 0xDF)
    (hsecond : maySecond first second = true) :
    ∃ c, String.utf8EncodeChar c = [first, second] := by
  have hcont := isContinuation_iff.1 (maySecond_iff.1 hsecond).1
  let n := (first.toNat - 0xC0) * 64 + (second.toNat - 0x80)
  have hvalid : n.isValidChar := by omega
  refine ⟨Char.ofNat n, ?_⟩
  rw [encodeChar_ofNat hvalid, if_neg (by omega), if_pos (by omega)]
  simp only [List.cons.injEq, and_true]
  exact ⟨(ofNat_eq_iff (by omega)).2 (by omega), (ofNat_eq_iff (by omega)).2 (by omega)⟩

/-- The bounds of the second byte leave out what fewer bytes encode, and surrogates. -/
theorem exists_encodeChar_three {third : UInt8}
    (hfirst : 0xE0 ≤ first.toNat ∧ first.toNat ≤ 0xEF)
    (hsecond : maySecond first second = true) (hthird : isContinuation third = true) :
    ∃ c, String.utf8EncodeChar c = [first, second, third] := by
  obtain ⟨hcont, hshort, hsurrogate, -, -⟩ := maySecond_iff.1 hsecond
  rw [isContinuation_iff] at hcont hthird
  let n := (first.toNat - 0xE0) * 4096 + (second.toNat - 0x80) * 64 + (third.toNat - 0x80)
  have hvalid : n.isValidChar := by omega
  refine ⟨Char.ofNat n, ?_⟩
  rw [encodeChar_ofNat hvalid, if_neg (by omega), if_neg (by omega), if_pos (by omega)]
  simp only [List.cons.injEq, and_true]
  exact ⟨(ofNat_eq_iff (by omega)).2 (by omega), (ofNat_eq_iff (by omega)).2 (by omega),
    (ofNat_eq_iff (by omega)).2 (by omega)⟩

/-- The bounds of the second byte leave out what fewer bytes encode, and what is above
the last code point. -/
theorem exists_encodeChar_four {third fourth : UInt8}
    (hfirst : 0xF0 ≤ first.toNat ∧ first.toNat ≤ 0xF4)
    (hsecond : maySecond first second = true) (hthird : isContinuation third = true)
    (hfourth : isContinuation fourth = true) :
    ∃ c, String.utf8EncodeChar c = [first, second, third, fourth] := by
  obtain ⟨hcont, -, -, hshort, hlarge⟩ := maySecond_iff.1 hsecond
  rw [isContinuation_iff] at hcont hthird hfourth
  let n := (first.toNat - 0xF0) * 262144 + (second.toNat - 0x80) * 4096 +
    (third.toNat - 0x80) * 64 + (fourth.toNat - 0x80)
  have hvalid : n.isValidChar := by omega
  refine ⟨Char.ofNat n, ?_⟩
  rw [encodeChar_ofNat hvalid, if_neg (by omega), if_neg (by omega), if_neg (by omega)]
  simp only [List.cons.injEq, and_true]
  exact ⟨(ofNat_eq_iff (by omega)).2 (by omega), (ofNat_eq_iff (by omega)).2 (by omega),
    (ofNat_eq_iff (by omega)).2 (by omega), (ofNat_eq_iff (by omega)).2 (by omega)⟩

/-- **Bytes that keep to the rules are an encoding.** -/
theorem exists_encodeChar (h : announced first = conts.length + 2)
    (hsecond : maySecond first second = true)
    (hconts : ∀ byte ∈ conts, isContinuation byte = true) :
    ∃ c, String.utf8EncodeChar c = first :: second :: conts := by
  rcases announced_cases h with ⟨hlength, hfirst⟩ | ⟨hlength, hfirst⟩ | ⟨hlength, hfirst⟩
  · obtain rfl := List.length_eq_zero_iff.1 hlength
    exact exists_encodeChar_two hfirst hsecond
  · obtain ⟨third, rfl⟩ := List.length_eq_one_iff.1 hlength
    exact exists_encodeChar_three hfirst hsecond (hconts _ List.mem_cons_self)
  · obtain ⟨third, rest, rfl⟩ := List.exists_cons_of_length_eq_add_one hlength
    obtain ⟨fourth, rfl⟩ := List.length_eq_one_iff.1 (Nat.succ.inj hlength)
    obtain ⟨hthird, hrest⟩ := List.forall_mem_cons.1 hconts
    exact exists_encodeChar_four hfirst hsecond hthird (hrest _ List.mem_cons_self)

/-- **An encoding keeps to the rules.** -/
theorem maySecond_of_encodeChar {c : Char}
    (h : String.utf8EncodeChar c = first :: second :: conts) : maySecond first second = true := by
  have hvalid : c.val.toNat < 0xD800 ∨ 0xDFFF < c.val.toNat ∧ c.val.toNat < 0x110000 := c.valid
  unfold String.utf8EncodeChar at h
  dsimp only at h
  generalize c.val.toNat = n at h hvalid
  rw [maySecond_iff, isContinuation_iff]
  repeat' split at h
  · exact absurd h (by simp)
  all_goals
    simp only [List.cons.injEq] at h
    rw [← h.1, ← h.2.1]
    simp only [UInt8.toNat_ofNat']
    omega

/-! ## Replacements -/

/-- The bytes are the start of an encoding. -/
def Starts (bytes : List UInt8) : Prop := ∃ c, bytes <+: String.utf8EncodeChar c

/-- What one replacement stands for. No encoding stands at this place; `bad` is the
longest start of one that does, or a single byte where no encoding starts. -/
structure Broken (bad rest : List UInt8) : Prop where
  undecodable : ∀ c, ¬ String.utf8EncodeChar c <+: bad ++ rest
  nonempty : bad ≠ []
  start : Starts bad ∨ bad.length = 1
  longest : ∀ part, part <+: bad ++ rest → Starts part → part.length ≤ bad.length

/-- The text that bytes stand for: encodings are decoded, and all else is replaced by
U+FFFD, one after the other. -/
inductive Replaced : List UInt8 → List Char → Prop
  | nil : Replaced [] []
  | char (c : Char) {rest : List UInt8} {text : List Char} (h : Replaced rest text) :
      Replaced (String.utf8EncodeChar c ++ rest) (c :: text)
  | bad {bad rest : List UInt8} {text : List Char} (hbad : Broken bad rest)
      (h : Replaced rest text) : Replaced (bad ++ rest) ('\uFFFD' :: text)

theorem encodeChar_ne_nil (c : Char) : String.utf8EncodeChar c ≠ [] := by
  obtain ⟨first, rest, heq, -⟩ := exists_encodeChar_eq_cons c
  rw [heq]
  exact List.cons_ne_nil _ _

theorem encodeChar_injective {c c' : Char}
    (h : String.utf8EncodeChar c = String.utf8EncodeChar c') : c = c' :=
  Option.some.inj ((decodeChar?_eq_some_iff.2 h).symm.trans (decodeChar?_eq_some_iff.2 rfl))

/-- The first byte of an encoding announces its length. -/
theorem announced_encodeChar {c : Char} (h : String.utf8EncodeChar c = first :: rest) :
    announced first = rest.length + 1 := by
  rcases encodeChar_cases c with ⟨hascii, heq⟩ | ⟨first', rest', heq, -, hannounced, -⟩
  · obtain ⟨rfl, rfl⟩ := List.cons.inj (heq.symm.trans h)
    rw [announced_eq, UInt8.toNat_ofNat', if_pos (by omega)]
    rfl
  · obtain ⟨rfl, rfl⟩ := List.cons.inj (heq.symm.trans h)
    exact hannounced

/-- All bytes of an encoding but its first one continue it. -/
theorem isContinuation_encodeChar {c : Char} (h : String.utf8EncodeChar c = first :: rest) :
    ∀ byte ∈ rest, isContinuation byte = true := by
  rcases encodeChar_cases c with ⟨-, heq⟩ | ⟨first', rest', heq, -, -, hrest⟩
  · obtain ⟨rfl, rfl⟩ := List.cons.inj (heq.symm.trans h)
    exact nofun
  · obtain ⟨rfl, rfl⟩ := List.cons.inj (heq.symm.trans h)
    exact hrest

/-- No encoding is the start of another one. -/
theorem encodeChar_append_inj {c c' : Char} {rest rest' : List UInt8}
    (h : String.utf8EncodeChar c ++ rest = String.utf8EncodeChar c' ++ rest') :
    c = c' ∧ rest = rest' := by
  obtain ⟨first, more, heq, -⟩ := exists_encodeChar_eq_cons c
  obtain ⟨first', more', heq', -⟩ := exists_encodeChar_eq_cons c'
  have hfirst : first = first' := by
    rw [heq, heq'] at h
    exact (List.cons.inj h).1
  have hlength : (String.utf8EncodeChar c).length = (String.utf8EncodeChar c').length := by
    rw [heq, heq', List.length_cons, List.length_cons, ← announced_encodeChar heq,
      ← announced_encodeChar heq', hfirst]
  obtain ⟨hchar, hrest⟩ := List.append_inj h hlength
  exact ⟨encodeChar_injective hchar, hrest⟩

/-- Of two broken pieces at one place none is longer. -/
theorem Broken.length_le {bad bad' rest' : List UInt8} (h : Broken bad rest)
    (h' : Broken bad' rest') (heq : bad ++ rest = bad' ++ rest') : bad'.length ≤ bad.length := by
  rcases h'.start with hstart | hone
  · exact h.longest bad' ⟨rest', heq.symm⟩ hstart
  · rw [hone]
    exact List.length_pos_iff.2 h.nonempty

/-- **The text is determined** by the bytes. -/
theorem Replaced.unique (h : Replaced bytes text) {text' : List Char}
    (h' : Replaced bytes text') : text = text' := by
  induction h generalizing text' with
  | nil =>
    generalize hnil : ([] : List UInt8) = bytes at h'
    cases h' with
    | nil => rfl
    | char c => exact absurd (List.append_eq_nil_iff.1 hnil.symm).1 (encodeChar_ne_nil c)
    | bad hbad => exact absurd (List.append_eq_nil_iff.1 hnil.symm).1 hbad.nonempty
  | @char c rest text h ih =>
    generalize hbytes : String.utf8EncodeChar c ++ rest = bytes at h'
    cases h' with
    | nil => exact absurd (List.append_eq_nil_iff.1 hbytes).1 (encodeChar_ne_nil c)
    | char c' h' =>
      obtain ⟨rfl, rfl⟩ := encodeChar_append_inj hbytes
      rw [ih h']
    | bad hbad =>
      -- where an encoding stands nothing is broken
      exact absurd ⟨rest, hbytes⟩ (hbad.undecodable c)
  | @bad bad rest text hbad h ih =>
    generalize hbytes : bad ++ rest = bytes at h'
    cases h' with
    | nil => exact absurd (List.append_eq_nil_iff.1 hbytes).1 hbad.nonempty
    | char c => exact absurd ⟨_, hbytes.symm⟩ (hbad.undecodable c)
    | bad hbad' h' =>
      obtain ⟨rfl, rfl⟩ := List.append_inj hbytes
        (Nat.le_antisymm (hbad'.length_le hbad hbytes.symm) (hbad.length_le hbad' hbytes))
      rw [ih h']

/-! ## What is replaced -/

/-- What follows a first byte, if a second one does. -/
theorem following_cons {n : Nat} (h : announced first = n + 2)
    (hsecond : maySecond first second = true) (rest : List UInt8) :
    following first (second :: rest) = second :: (rest.takeWhile isContinuation).take n := by
  unfold following
  rw [h]
  exact if_pos hsecond

/-- Nothing follows, or a second byte with some that continue it, within the number
that the first one announces. -/
theorem following_cases (first : UInt8) (bytes : List UInt8) : following first bytes = [] ∨
    ∃ n second rest, announced first = n + 2 ∧ maySecond first second = true ∧
      bytes = second :: rest ∧
        following first bytes = second :: (rest.takeWhile isContinuation).take n := by
  fun_cases following first bytes with
  | case1 n second rest hannounced hsecond =>
    exact Or.inr ⟨n, second, rest, hannounced, hsecond, rfl, rfl⟩
  | case2 => exact Or.inl rfl
  | case3 => exact Or.inl rfl

theorem isPrefix_following (first : UInt8) (bytes : List UInt8) :
    following first bytes <+: bytes := by
  rcases following_cases first bytes with h | ⟨n, second, rest, -, -, rfl, h⟩
  · rw [h]
    exact List.nil_prefix
  · rw [h]
    exact (List.cons_prefix_cons).2
      ⟨rfl, (List.take_prefix _ _).trans (List.takeWhile_prefix _)⟩

/-- What follows a first byte makes the start of an encoding with it: it can be filled
up with the least byte that continues one. -/
theorem starts_following (h : following first bytes ≠ []) :
    Starts (first :: following first bytes) := by
  obtain hnil | ⟨n, second, rest, hannounced, hsecond, -, heq⟩ := following_cases first bytes
  · exact absurd hnil h
  · have hlength : ((rest.takeWhile isContinuation).take n).length ≤ n := List.length_take_le n _
    have hconts : ∀ byte ∈ (rest.takeWhile isContinuation).take n, isContinuation byte = true :=
      fun byte hbyte => List.all_eq_true.1 (List.all_takeWhile) byte (List.mem_of_mem_take hbyte)
    rw [heq]
    generalize (rest.takeWhile isContinuation).take n = conts at hlength hconts
    have hfilled : announced first =
        (conts ++ List.replicate (n - conts.length) 0x80).length + 2 := by
      rw [List.length_append, List.length_replicate]
      omega
    have hall : ∀ byte ∈ conts ++ List.replicate (n - conts.length) 0x80,
        isContinuation byte = true :=
      List.forall_mem_append.2 ⟨hconts, fun byte hbyte => List.eq_of_mem_replicate hbyte ▸ rfl⟩
    obtain ⟨c, hc⟩ := exists_encodeChar hfilled hsecond hall
    exact ⟨c, hc ▸ ⟨List.replicate (n - conts.length) 0x80, rfl⟩⟩

/-- No longer piece is the start of an encoding. -/
theorem length_le_following {part : List UInt8} (h : part <+: bytes)
    (hstart : Starts (first :: part)) : part.length ≤ (following first bytes).length := by
  obtain ⟨c, hc⟩ := hstart
  match part, bytes with
  | [], _ => exact Nat.zero_le _
  | second :: part, [] => exact absurd (List.prefix_nil.1 h) (List.cons_ne_nil _ _)
  | second :: part, second' :: bytes =>
    obtain ⟨rfl, hpart⟩ := List.cons_prefix_cons.1 h
    obtain ⟨more, hmore⟩ := hc
    have hencode : String.utf8EncodeChar c = first :: second :: (part ++ more) := hmore.symm
    have hcontinue := isContinuation_encodeChar hencode
    rw [following_cons (announced_encodeChar hencode) (maySecond_of_encodeChar hencode)]
    have hwhile : part.length ≤ (bytes.takeWhile isContinuation).length := by
      obtain ⟨rest, rfl⟩ := hpart
      rw [List.takeWhile_append_of_pos fun byte hbyte =>
        hcontinue byte (List.mem_cons_of_mem _ (List.mem_append_left _ hbyte))]
      rw [List.length_append]
      exact Nat.le_add_right _ _
    simp only [List.length_cons, List.length_take, List.length_append]
    omega

/-- An encoding is followed by all of its bytes. -/
theorem following_encodeChar {c : Char} (h : String.utf8EncodeChar c = first :: bytes)
    (rest : List UInt8) : following first (bytes ++ rest) = bytes := by
  have hle := length_le_following (List.prefix_append bytes rest)
    ⟨c, [], by rw [List.append_nil, h]⟩
  have hge : (following first (bytes ++ rest)).length ≤ bytes.length := by
    obtain hnil | ⟨n, second, more, hannounced, -, -, heq⟩ :=
      following_cases first (bytes ++ rest)
    · rw [hnil]
      exact Nat.zero_le _
    · have hlength := announced_encodeChar h
      rw [heq, List.length_cons, List.length_take]
      omega
  exact (List.prefix_of_prefix_length_le (isPrefix_following first _)
    (List.prefix_append bytes rest) hge).eq_of_length (Nat.le_antisymm hge hle)

/-- Bytes that do not decode with what follows them are broken. -/
theorem broken_following (h : decodeChar? (first :: following first bytes) = none) :
    Broken (first :: following first bytes) (bytes.drop (following first bytes).length) where
  undecodable c := by
    rw [List.cons_append, (List.prefix_iff_eq_append.1 (isPrefix_following first bytes))]
    rintro ⟨rest, hrest⟩
    obtain ⟨first', more, heq, -⟩ := exists_encodeChar_eq_cons c
    rw [heq, List.cons_append] at hrest
    obtain ⟨rfl, rfl⟩ := List.cons.inj hrest
    rw [following_encodeChar heq, decodeChar?_eq_some_iff.2 heq] at h
    cases h
  nonempty := List.cons_ne_nil _ _
  start := by
    by_cases hnil : following first bytes = []
    · exact Or.inr (by rw [hnil]; rfl)
    · exact Or.inl (starts_following hnil)
  longest part hpart hstart := by
    rw [List.cons_append, (List.prefix_iff_eq_append.1 (isPrefix_following first bytes))] at hpart
    match part with
    | [] => exact Nat.zero_le _
    | byte :: part =>
      obtain ⟨rfl, htail⟩ := List.cons_prefix_cons.1 hpart
      exact Nat.succ_le_succ (length_le_following htail hstart)

theorem replaced_lossy (bytes : List UInt8) : Replaced bytes (lossy bytes) := by
  fun_induction lossy bytes with
  | case1 => exact .nil
  | case2 first rest ih =>
    have hbytes : first :: rest =
        first :: following first rest ++ rest.drop (following first rest).length := by
      rw [List.cons_append, List.prefix_iff_eq_append.1 (isPrefix_following first rest)]
    rw [hbytes]
    cases hdecode : decodeChar? (first :: following first rest) with
    | none => exact .bad (broken_following hdecode) ih
    | some c =>
      rw [← decodeChar?_eq_some_iff.1 hdecode]
      exact .char c ih

/-- **Exactly the text with its replacements** is decoded. -/
theorem replaced_iff : Replaced bytes text ↔ text = lossy bytes := by
  constructor
  · exact fun h => h.unique (replaced_lossy bytes)
  · rintro rfl
    exact replaced_lossy bytes

/-- Every character of the text takes a byte at least. -/
theorem Replaced.length_le (h : Replaced bytes text) : text.length ≤ bytes.length := by
  induction h with
  | nil => exact Nat.le_refl 0
  | char c _ ih =>
    have hpos := List.length_pos_iff.2 (encodeChar_ne_nil c)
    rw [List.length_cons, List.length_append]
    omega
  | bad hbad _ ih =>
    have hpos := List.length_pos_iff.2 hbad.nonempty
    rw [List.length_cons, List.length_append]
    omega

/-- A control character comes from a control byte. -/
theorem Replaced.plain (h : Replaced bytes text) (hbytes : ∀ byte ∈ bytes, 0x20 ≤ byte) :
    ∀ c ∈ text, 0x20 ≤ c.toNat := by
  induction h with
  | nil => exact nofun
  | char c _ ih =>
    obtain ⟨hchar, hrest⟩ := List.forall_mem_append.1 hbytes
    refine List.forall_mem_cons.2 ⟨?_, ih hrest⟩
    rcases Nat.lt_or_ge c.toNat 0x20 with hsmall | hlarge
    · have hencode : String.utf8EncodeChar c = [UInt8.ofNat c.toNat] :=
        if_pos (show c.toNat ≤ 0x7F by omega)
      have hle := hchar (UInt8.ofNat c.toNat) (hencode ▸ List.mem_cons_self)
      simp only [UInt8.le_iff_toNat_le, UInt8.toNat_ofNat', UInt8.reduceToNat] at hle
      omega
    · exact hlarge
  | bad _ _ ih =>
    exact List.forall_mem_cons.2 ⟨by decide, ih (List.forall_mem_append.1 hbytes).2⟩

end Utf8

end VideoTerminal
