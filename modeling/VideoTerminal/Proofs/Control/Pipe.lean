import Mathlib.Data.List.Infix
import VideoTerminal.Control.Reader
/-!
# Bytes in the print pipe

While the print pipe is open, the reader looks for the sequences that close
it, and hands over all that cannot be part of one. What it holds back is the
longest end of the bytes read that may go on to such a sequence. Since these
sequences have an escape byte only in front, an end that can no longer go on
is released as a whole, but for its last byte.
-/

namespace VideoTerminal

namespace Reader

variable {bytes held start closing : List UInt8} {byte : UInt8}

/-- The sequence that opens the print pipe. -/
def pipeStart : List UInt8 := [0x1B, 0x5B, 0x35, 0x69]

/-- The bytes hold no sequence that closes the print pipe. -/
def LeavesOpen (bytes : List UInt8) : Prop := ∀ closing ∈ pipeEnds, ¬ closing <:+: bytes

/-- Some first bytes of a sequence that closes the print pipe, but not all. -/
def IsStart (bytes : List UInt8) : Prop := ∃ closing ∈ pipeEnds, bytes <+: closing ∧ bytes ≠ closing

/-- The longest end of the bytes that is the start of a closing sequence. -/
structure Held (bytes held : List UInt8) : Prop where
  suffix : held <:+ bytes
  start : IsStart held
  longest : ∀ start, IsStart start → start <:+ bytes → start.length ≤ held.length

/-! ## Starts of closing sequences -/

/-- A closing sequence has an escape byte in front, and no other one. -/
theorem escape_of_mem (h : closing ∈ pipeEnds) :
    ∃ rest, closing = escapeByte :: rest ∧ escapeByte ∉ rest := by
  have hall : ∀ closing ∈ pipeEnds,
      closing = escapeByte :: closing.tail ∧ escapeByte ∉ closing.tail := by decide
  exact ⟨_, hall closing h⟩

/-- So nothing is before an escape byte in it. -/
theorem eq_nil_of_escape {before after : List UInt8} (h : closing ∈ pipeEnds)
    (hpre : before ++ escapeByte :: after <+: closing) : before = [] := by
  obtain ⟨rest, rfl, hnone⟩ := escape_of_mem h
  cases before with
  | nil => rfl
  | cons first before =>
    obtain ⟨-, hrest⟩ := List.cons_prefix_cons.1 hpre
    exact absurd (hrest.mem (List.mem_append_right _ List.mem_cons_self)) hnone

theorem isStart_nil : IsStart [] := ⟨_, List.mem_cons_self, List.nil_prefix, by decide⟩

theorem isStart_escape : IsStart [escapeByte] :=
  ⟨_, List.mem_cons_self, by decide, by decide⟩

/-- The first bytes of a start are one too. -/
theorem IsStart.of_append (h : IsStart (start ++ [byte])) : IsStart start := by
  obtain ⟨closing, hmem, hpre, -⟩ := h
  have hlt : start.length < closing.length := by
    have hle := hpre.length_le
    rw [List.length_append] at hle
    exact hle
  exact ⟨closing, hmem, (List.prefix_append _ _).trans hpre, fun heq =>
    Nat.ne_of_lt hlt (congrArg List.length heq)⟩

theorem IsStart.eq_nil_or_cons (h : IsStart start) :
    start = [] ∨ ∃ rest, start = escapeByte :: rest := by
  obtain ⟨closing, hmem, hpre, -⟩ := h
  obtain ⟨rest, rfl, -⟩ := escape_of_mem hmem
  cases start with
  | nil => exact Or.inl rfl
  | cons first start =>
    obtain ⟨rfl, -⟩ := List.cons_prefix_cons.1 hpre
    exact Or.inr ⟨start, rfl⟩

/-- A start at the end of another one is nothing or all of it. -/
theorem IsStart.eq_of_suffix (h : IsStart held) (h' : IsStart start) (hsuffix : start <:+ held) :
    start = [] ∨ start = held := by
  obtain ⟨closing, hmem, hpre, -⟩ := h
  obtain ⟨before, rfl⟩ := hsuffix
  rcases h'.eq_nil_or_cons with hnil | ⟨rest, rfl⟩
  · exact Or.inl hnil
  · rw [eq_nil_of_escape hmem hpre]
    exact Or.inr rfl

/-- Bytes that do not close the pipe are held back exactly if they are a
start. -/
theorem any_isPrefixOf_iff (h : bytes ∉ pipeEnds) :
    pipeEnds.any bytes.isPrefixOf = true ↔ IsStart bytes := by
  rw [List.any_eq_true]
  refine ⟨fun ⟨closing, hmem, hpre⟩ => ?_, fun ⟨closing, hmem, hpre, _⟩ => ?_⟩
  · exact ⟨closing, hmem, List.isPrefixOf_iff_prefix.1 hpre, fun heq => h (heq ▸ hmem)⟩
  · exact ⟨closing, hmem, List.isPrefixOf_iff_prefix.2 hpre⟩

/-! ## One byte -/

theorem LeavesOpen.of_append {more : List UInt8} (h : LeavesOpen (bytes ++ more)) :
    LeavesOpen bytes := fun closing hmem hpart =>
  h closing hmem (hpart.trans (List.prefix_append _ _).isInfix)

/-- A start at the end of the bytes read so far was one before the last byte,
and so it is at the end of what was held. -/
theorem Held.of_concat (h : Held bytes held) (hstart : IsStart (start ++ [byte]))
    (hsuffix : start ++ [byte] <:+ bytes ++ [byte]) : start = [] ∨ start = held := by
  have hbefore : start <:+ bytes := by
    obtain ⟨before, heq⟩ := hsuffix
    rw [← List.append_assoc] at heq
    exact ⟨before, (List.append_inj' heq rfl).1⟩
  have hle := h.longest start hstart.of_append hbefore
  exact h.start.eq_of_suffix hstart.of_append (List.suffix_of_suffix_length_le hbefore h.suffix hle)

/-- What is held after one more byte, if no start was one before that byte but
`held` with it. -/
theorem Held.concat {next : List UInt8} (h : Held bytes held) (hnext : IsStart next)
    (hsuffix : next <:+ held ++ [byte])
    (hlongest : ∀ start, start = [] ∨ start = held → IsStart (start ++ [byte]) →
      start.length + 1 ≤ next.length) : Held (bytes ++ [byte]) next := by
  refine ⟨hsuffix.trans ?_, hnext, fun other hother hend => ?_⟩
  · obtain ⟨before, rfl⟩ := h.suffix
    exact ⟨before, (List.append_assoc _ _ _).symm⟩
  · rcases List.suffix_concat_iff.1 hend with rfl | ⟨start, rfl, -⟩
    · exact Nat.zero_le _
    · rw [List.length_append]
      exact hlongest start (h.of_concat hother hend) hother

/-- **One byte in the pipe.** What cannot be the start of a closing sequence
any more is released, and the longest end that can is held. -/
theorem held_stepPrinting (h : Held bytes held) (hopen : LeavesOpen (bytes ++ [byte])) :
    ∃ (next : List UInt8) (released : Option (List UInt8)),
      stepPrinting held byte = (.printing next, released.map .printData) ∧
      Held (bytes ++ [byte]) next ∧ released.toList.flatten ++ next = held ++ [byte] := by
  have hnone : held ++ [byte] ∉ pipeEnds := by
    intro hmem
    obtain ⟨before, rfl⟩ := h.suffix
    refine hopen _ hmem ?_
    rw [List.append_assoc]
    exact (List.suffix_append _ _).isInfix
  unfold stepPrinting
  dsimp only
  rw [if_neg (fun hmem => hnone (List.contains_iff_mem.1 hmem))]
  by_cases hstart : IsStart (held ++ [byte])
  · rw [if_pos ((any_isPrefixOf_iff hnone).2 hstart)]
    refine ⟨held ++ [byte], none, rfl, h.concat hstart (List.suffix_refl _) ?_, rfl⟩
    rintro start (rfl | rfl) -
    · rw [List.length_append]
      exact Nat.le_add_left _ _
    · rw [List.length_append]
      exact Nat.le_refl _
  · rw [if_neg (fun hany => hstart ((any_isPrefixOf_iff hnone).1 hany))]
    split
    · -- another try starts with this byte
      rename_i hretry
      obtain ⟨rfl, -⟩ := hretry
      refine ⟨[escapeByte], some held, rfl, h.concat isStart_escape (List.suffix_append _ _) ?_, ?_⟩
      · rintro start (rfl | rfl) hother
        · exact Nat.le_refl _
        · exact absurd hother hstart
      · exact congrArg (· ++ [escapeByte]) (List.append_nil held)
    · rename_i hretry
      refine ⟨[], some (held ++ [byte]), rfl, h.concat isStart_nil List.nil_suffix ?_, ?_⟩
      · rintro start (rfl | rfl) hother
        · -- a byte that starts a closing sequence is an escape byte, after nothing held
          obtain rfl : byte = escapeByte := by
            rcases hother.eq_nil_or_cons with hnil | ⟨rest, hcons⟩
            · cases hnil
            · exact (List.cons.inj hcons).1
          have hnil : held = [] := by
            by_contra hne
            exact hretry ⟨rfl, hne⟩
          exact absurd (hnil ▸ hother) hstart
        · exact absurd hother hstart
      · rw [List.append_nil]
        exact List.append_nil _

/-! ## All bytes -/

/-- **Bytes in the pipe that do not close it** are handed over in their order,
but for those that are held. -/
theorem run_printing (hopen : LeavesOpen bytes) :
    ∃ (held : List UInt8) (pieces : List (List UInt8)),
      (printing []).run bytes = (.printing held, pieces.map .printData) ∧
      Held bytes held ∧ pieces.flatten ++ held = bytes := by
  induction bytes using List.reverseRecOn with
  | nil =>
    refine ⟨[], [], rfl, ⟨List.suffix_refl _, isStart_nil, fun start _ hsuffix => ?_⟩, rfl⟩
    exact hsuffix.length_le
  | append_singleton bytes byte ih =>
    obtain ⟨held, pieces, hrun, hheld, hpieces⟩ := ih hopen.of_append
    obtain ⟨next, released, hstep, hnext, hreleased⟩ := held_stepPrinting hheld hopen
    refine ⟨next, pieces ++ released.toList, ?_, hnext, ?_⟩
    · rw [run_append, hrun]
      change ((stepPrinting held byte).1,
        pieces.map .printData ++ ((stepPrinting held byte).2.toList ++ [])) = _
      rw [hstep, List.append_nil, List.map_append]
      cases released <;> rfl
    · rw [List.flatten_append, List.append_assoc, hreleased, ← List.append_assoc, hpieces]

/-- **A sequence that closes the pipe** closes it, and what was held before it
is released. -/
theorem run_closing (hstart : IsStart held) (hclosing : closing ∈ pipeEnds) :
    ∃ pieces : List (List UInt8), (printing held).run closing =
      (.ground, pieces.map .printData ++ [.closePipe]) ∧ pieces.flatten = held := by
  have hescape : stepPrinting held escapeByte =
      (.printing [escapeByte], if held = [] then none else some (.printData held)) := by
    by_cases hnil : held = []
    · subst hnil
      decide
    · have hnone : ∀ closing ∈ pipeEnds, ¬ held ++ [escapeByte] <+: closing :=
        fun closing hmem hpre => hnil (eq_nil_of_escape hmem hpre)
      have hcontains : ¬ pipeEnds.contains (held ++ [escapeByte]) = true := by
        intro hmem
        exact hnone _ (List.contains_iff_mem.1 hmem) (List.prefix_refl _)
      have hany : ¬ pipeEnds.any (held ++ [escapeByte]).isPrefixOf = true := by
        intro hany
        obtain ⟨closing, hmem, hpre⟩ := List.any_eq_true.1 hany
        exact hnone closing hmem (List.isPrefixOf_iff_prefix.1 hpre)
      unfold stepPrinting
      dsimp only
      rw [if_neg hcontains, if_neg hany, if_pos ⟨rfl, hnil⟩, if_neg hnil]
  obtain ⟨rest, rfl, -⟩ := escape_of_mem hclosing
  have hrest : (printing [escapeByte]).run rest = (.ground, [.closePipe]) := by
    have hall : ∀ closing ∈ pipeEnds,
        (printing [escapeByte]).run closing.tail = (.ground, [.closePipe]) := by decide
    exact hall _ hclosing
  refine ⟨if held = [] then [] else [held], ?_, ?_⟩
  · change ((run (stepPrinting held escapeByte).1 rest).1,
      (stepPrinting held escapeByte).2.toList ++ (run (stepPrinting held escapeByte).1 rest).2) = _
    rw [hescape, hrest]
    split <;> rfl
  · split
    · rename_i hnil
      exact hnil.symm
    · exact List.append_nil _

/-- The pipe opened, and not closed. -/
theorem run_pipeStart (hopen : LeavesOpen bytes) :
    ∃ (held : List UInt8) (pieces : List (List UInt8)),
      ground.run (pipeStart ++ bytes) = (.printing held, .openPipe :: pieces.map .printData) ∧
      Held bytes held ∧ pieces.flatten ++ held = bytes := by
  obtain ⟨held, pieces, hrun, hheld, hpieces⟩ := run_printing hopen
  refine ⟨held, pieces, ?_, hheld, hpieces⟩
  have hstart : ground.run pipeStart = (.printing [], [.openPipe]) := by decide
  rw [run_append, hstart, hrun]
  rfl

/-- The pipe opened, and closed again. -/
theorem run_pipeStart_closing (hopen : LeavesOpen bytes) (hclosing : closing ∈ pipeEnds) :
    ∃ pieces : List (List UInt8), ground.run (pipeStart ++ bytes ++ closing) =
        (.ground, .openPipe :: (pieces.map .printData ++ [.closePipe])) ∧
      pieces.flatten = bytes := by
  obtain ⟨held, pieces, hrun, hheld, hpieces⟩ := run_pipeStart hopen
  obtain ⟨last, hlast, hflat⟩ := run_closing hheld.start hclosing
  refine ⟨pieces ++ last, ?_, ?_⟩
  · rw [run_append, hrun, hlast, List.map_append, List.append_assoc]
    rfl
  · rw [List.flatten_append, hflat, hpieces]

end Reader

end VideoTerminal
