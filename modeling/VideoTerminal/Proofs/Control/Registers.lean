import VideoTerminal.Control.Registers
/-!
# What registers remember

Most registers of a reader hold remains at most times. What they remember of
the past is what the phase still needs, and nothing else: a reader with
registers does what the reader does that is read off them. So it starts anew
from every state in which nothing is collected, and every state but an open
print pipe can be left by a byte that gives up what is collected.
-/

namespace VideoTerminal

namespace Registers

open Reader (escapeByte isCancel)

variable {r : Registers} {byte : UInt8} {bytes : List UInt8}

/-! ## The reader behind the registers -/

/-- The bytes of the character that are there. -/
def character (r : Registers) : List UInt8 := r.buffer.toList.take r.filled

/-- What is being collected, read off the registers that the phase needs. -/
def reader (r : Registers) : Reader :=
  match r.phase with
  | .ground => .ground
  | .character _ => .character (r.character.headD 0) r.character.tail
  | .escape => .escape
  | .escapeBy introducer => .escapeBy introducer
  | .sequence => .sequence r.sequence
  | .command => .command r.command
  | .commandEscape => .commandEscape r.command
  | .printing => .printing r.held

/-- Within a character, what is there and what is still to come is what the
first byte announced. -/
def Sound (r : Registers) : Prop :=
  ∀ remaining, r.phase = .character remaining → ∃ first rest, r.character = first :: rest ∧
    r.filled = rest.length + 1 ∧ 0 < remaining ∧
    rest.length + 1 + remaining = Utf8.announced first

/-- The reader behind the registers and the reader with registers did the same
with a byte. -/
structure Follows (next : Registers × Option Action) (next' : Reader × Option Action) : Prop where
  sound : next.1.Sound
  reader : next.1.reader = next'.1
  action : next.2 = next'.2

/-- Outside a character there is nothing to count. -/
theorem sound_of_phase (h : ∀ remaining, r.phase ≠ .character remaining) : r.Sound :=
  fun remaining hphase => absurd hphase (h remaining)

/-- A phase other than that of a character, with the registers that it needs. -/
theorem Follows.of_phase {action : Option Action} {after : Reader} (hreader : r.reader = after)
    (hphase : ∀ first rest, after ≠ .character first rest) :
    Follows (r, action) (after, action) := by
  refine ⟨sound_of_phase fun remaining hcharacter => ?_, hreader, rfl⟩
  refine hphase (r.character.headD 0) r.character.tail (hreader.symm.trans ?_)
  unfold Registers.reader
  rw [hcharacter]

/-! ## One byte -/

/-- The first byte of a character is all that is there of it. -/
theorem character_start (r : Registers) (byte : UInt8) (phase : Phase) :
    ({ r with buffer := r.buffer.set 0 byte (Nat.zero_lt_succ 3), filled := 1, phase } :
      Registers).character = [byte] := by
  unfold character
  dsimp only
  rw [Vector.toList_set, List.take_add_one, List.take_zero, List.getElem?_set_self (by simp)]
  rfl

theorem follows_stepGround (h : r.phase = .ground) (byte : UInt8) :
    Follows (r.stepGround byte) (Reader.stepGround byte) := by
  have hground : r.reader = .ground := by
    unfold reader
    rw [h]
  unfold stepGround Reader.stepGround
  split
  · exact .of_phase rfl nofun
  · split
    · exact .of_phase hground nofun
    · split
      · exact .of_phase hground nofun
      · split
        · rename_i hannounced
          have hcharacter := r.character_start byte (.character (Utf8.announced byte - 1))
          refine ⟨fun remaining hphase => ?_, ?_, rfl⟩
          · cases hphase
            refine ⟨byte, [], hcharacter, rfl, ?_, ?_⟩
            · omega
            · rw [List.length_nil]
              omega
          · unfold reader
            dsimp only
            rw [hcharacter]
            rfl
        · exact .of_phase hground nofun

/-- Where there is room, a byte more is there. -/
theorem character_store (h : r.filled < 4) (byte : UInt8) :
    (r.store byte).character = r.character ++ [byte] ∧
      (r.store byte).filled = r.filled + 1 := by
  have hlength : r.filled < r.buffer.toList.length := by
    rw [Vector.length_toList]
    exact h
  unfold store
  rw [dif_pos h]
  refine ⟨?_, rfl⟩
  unfold character
  dsimp only
  rw [Vector.toList_set, List.take_add_one, List.take_set_of_le (Nat.le_refl _),
    List.getElem?_set_self hlength]
  rfl

theorem follows_stepCharacter {remaining : Nat} {first : UInt8} {rest : List UInt8}
    (hcharacter : r.character = first :: rest) (hfilled : r.filled = rest.length + 1)
    (hannounced : rest.length + 1 + remaining = Utf8.announced first) (hmore : 0 < remaining)
    (byte : UInt8) :
    Follows (r.stepCharacter remaining byte) (Reader.stepCharacter first rest byte) := by
  have hfour := Utf8.announced_le_four first
  unfold stepCharacter Reader.stepCharacter
  split
  · obtain ⟨hstored, hcount⟩ := character_store (r := r) (by omega) byte
    rw [hcharacter, List.cons_append] at hstored
    have hlength : (rest ++ [byte]).length = rest.length + 1 := by
      rw [List.length_append, List.length_singleton]
    dsimp only
    rw [hlength]
    by_cases hlast : 1 < remaining
    · rw [if_pos hlast, if_pos (by omega)]
      refine ⟨fun left hphase => ?_, ?_, rfl⟩
      · cases hphase
        refine ⟨first, rest ++ [byte], hstored, ?_, by omega, by omega⟩
        rw [hlength, ← hfilled]
        exact hcount
      · change Reader.character ((r.store byte).character.headD 0) (r.store byte).character.tail = _
        rw [hstored]
        rfl
    · rw [if_neg hlast, if_neg (by omega)]
      change Follows (_, (Utf8.decodeChar? (r.store byte).character).map Action.print) _
      rw [hstored]
      exact .of_phase rfl nofun
  · exact follows_stepGround rfl byte

theorem follows_stepEscape (h : r.phase = .escape) (byte : UInt8) :
    Follows (r.stepEscape byte) (Reader.stepEscape byte) := by
  have hescape : r.reader = .escape := by
    unfold reader
    rw [h]
  unfold stepEscape Reader.stepEscape
  split
  · exact .of_phase hescape nofun
  · split
    · exact .of_phase rfl nofun
    · split
      · exact .of_phase hescape nofun
      · split
        · exact .of_phase rfl nofun
        · split
          · exact .of_phase rfl nofun
          · split
            · exact .of_phase rfl nofun
            · exact .of_phase rfl nofun

theorem follows_stepEscapeBy {introducer : UInt8} (h : r.phase = .escapeBy introducer)
    (byte : UInt8) :
    Follows (r.stepEscapeBy introducer byte) (Reader.stepEscapeBy introducer byte) := by
  have hescape : r.reader = .escapeBy introducer := by
    unfold reader
    rw [h]
  unfold stepEscapeBy Reader.stepEscapeBy
  split
  · exact .of_phase rfl nofun
  · split
    · exact .of_phase rfl nofun
    · split
      · exact .of_phase hescape nofun
      · exact .of_phase rfl nofun

/-- The end of a control sequence: whatever remains of it, its action is that
of the sequence. -/
theorem follows_finishSequence (r : Registers) (final : UInt8) :
    Follows (r.finishSequence final)
      (Reader.afterSequence (r.sequence.decode? final), r.sequence.decode? final) := by
  unfold finishSequence
  split
  · rename_i hspoiled
    have hnone : r.sequence.decode? final = none := by
      unfold Sequence.decode?
      rw [if_pos hspoiled]
    rw [hnone]
    exact .of_phase rfl nofun
  · unfold Reader.afterSequence
    dsimp only
    split
    · exact .of_phase rfl nofun
    · exact .of_phase rfl nofun

theorem follows_stepSequence (h : r.phase = .sequence) (byte : UInt8) :
    Follows (r.stepSequence byte) (Reader.stepSequence r.sequence byte) := by
  have hreader : ∀ sequence, ({ r with sequence } : Registers).reader = .sequence sequence := by
    intro sequence
    unfold reader
    dsimp only
    rw [h]
  have hsame : r.reader = .sequence r.sequence := hreader r.sequence
  unfold stepSequence Reader.stepSequence
  split
  · exact .of_phase rfl nofun
  · split
    · exact .of_phase rfl nofun
    · split
      · exact .of_phase hsame nofun
      · split
        · exact .of_phase (hreader _) nofun
        · split
          · exact .of_phase (hreader _) nofun
          · split
            · exact .of_phase (hreader _) nofun
            · split
              · exact .of_phase (hreader _) nofun
              · split
                · exact r.follows_finishSequence byte
                · exact .of_phase hsame nofun

/-- A byte of a command is kept as far as there is room. -/
theorem command_push (r : Registers) (byte : UInt8) :
    (r.push byte).command = Command.push r.command byte ∧ (r.push byte).phase = r.phase := by
  unfold push Command.push
  cases Command.clean? byte with
  | none =>
    refine ⟨?_, rfl⟩
    dsimp only
    split
    · exact (List.append_nil _).symm
    · rfl
  | some clean =>
    dsimp only
    split
    · exact ⟨rfl, rfl⟩
    · exact ⟨rfl, rfl⟩

theorem follows_stepCommand (h : r.phase = .command) (byte : UInt8) :
    Follows (r.stepCommand byte) (Reader.stepCommand r.command byte) := by
  unfold stepCommand Reader.stepCommand
  split
  · exact .of_phase rfl nofun
  · split
    · exact .of_phase rfl nofun
    · split
      · exact .of_phase rfl nofun
      · obtain ⟨hcommand, hphase⟩ := r.command_push byte
        refine .of_phase ?_ nofun
        unfold reader
        rw [hphase, h, hcommand]

theorem follows_stepCommandEscape (r : Registers) (byte : UInt8) :
    Follows (r.stepCommandEscape byte) (Reader.stepCommandEscape r.command byte) := by
  unfold stepCommandEscape Reader.stepCommandEscape
  split
  · exact .of_phase rfl nofun
  · exact follows_stepEscape rfl byte

theorem follows_stepPrinting (h : r.phase = .printing) (byte : UInt8) :
    Follows (r.stepPrinting byte) (Reader.stepPrinting r.held byte) := by
  have hreader : ∀ held, ({ r with held } : Registers).reader = .printing held := by
    intro held
    unfold reader
    dsimp only
    rw [h]
  -- more than one byte is there if some byte was held before
  have hmore : (1 < (r.held ++ [byte]).length ∧ byte = escapeByte) ↔
      (byte = escapeByte ∧ r.held ≠ []) := by
    rw [List.length_append, List.length_singleton, Nat.lt_add_left_iff_pos, List.length_pos_iff]
    exact And.comm
  unfold stepPrinting Reader.stepPrinting
  dsimp only
  split
  · exact .of_phase rfl nofun
  · split
    · exact .of_phase (hreader _) nofun
    · simp only [hmore, List.dropLast_concat]
      split
      · exact .of_phase (hreader _) nofun
      · exact .of_phase (hreader _) nofun

/-- **One byte**: a reader with registers follows the reader behind them. -/
theorem follows_step (h : r.Sound) (byte : UInt8) : Follows (r.step byte) (r.reader.step byte) := by
  unfold step reader
  cases hphase : r.phase with
  | ground => exact follows_stepGround hphase byte
  | character remaining =>
    obtain ⟨first, rest, hcharacter, hfilled, hmore, hannounced⟩ := h remaining hphase
    rw [hcharacter]
    exact follows_stepCharacter hcharacter hfilled hannounced hmore byte
  | escape => exact follows_stepEscape hphase byte
  | escapeBy introducer => exact follows_stepEscapeBy hphase byte
  | sequence => exact follows_stepSequence hphase byte
  | command => exact follows_stepCommand hphase byte
  | commandEscape => exact r.follows_stepCommandEscape byte
  | printing => exact follows_stepPrinting hphase byte

/-! ## Many bytes -/

/-- **Many bytes**: the registers stay sound, and the actions are those of the
reader behind them. -/
theorem follows_run (h : r.Sound) (bytes : List UInt8) :
    (r.run bytes).1.Sound ∧ (r.run bytes).1.reader = (r.reader.run bytes).1 ∧
      (r.run bytes).2 = (r.reader.run bytes).2 := by
  induction bytes generalizing r with
  | nil => exact ⟨h, rfl, rfl⟩
  | cons byte bytes ih =>
    have hstep := follows_step h byte
    obtain ⟨hsound, hreader, hactions⟩ := ih hstep.sound
    unfold run Reader.run
    dsimp only
    rw [hstep.reader] at hreader hactions
    refine ⟨hsound, hreader, ?_⟩
    rw [hactions, hstep.action]

theorem follows_feed (h : r.Sound) (bytes : List UInt8) :
    (r.feed bytes).1.Sound ∧ (r.feed bytes).1.reader = (r.reader.feed bytes).1 ∧
      (r.feed bytes).2 = (r.reader.feed bytes).2 := by
  obtain ⟨hsound, hreader, hactions⟩ := follows_run h bytes
  exact ⟨hsound, hreader, congrArg Reader.joinData hactions⟩

theorem isGround_reader (r : Registers) : r.reader.isGround = r.isGround := by
  unfold isGround reader
  cases r.phase <;> rfl

theorem inPipe_reader (r : Registers) : r.reader.inPipe = r.inPipe := by
  unfold inPipe reader
  cases r.phase <;> rfl

/-- The registers came about by calls of the host, from new ones. -/
inductive Reach : Registers → Prop
  | fresh : Reach {}
  | step {r : Registers} (byte : UInt8) (h : Reach r) : Reach (r.step byte).1
  | feed {r : Registers} (bytes : List UInt8) (h : Reach r) : Reach (r.feed bytes).1
  | closePipe {r : Registers} (h : Reach r) : Reach r.closePipe
  | reset {r : Registers} (h : Reach r) : Reach r.reset

theorem Reach.sound (h : Reach r) : r.Sound := by
  induction h with
  | fresh => exact sound_of_phase nofun
  | step byte _ ih => exact (follows_step ih byte).sound
  | feed bytes _ ih => exact (follows_feed ih bytes).1
  | closePipe _ ih =>
    unfold Registers.closePipe
    split
    · exact sound_of_phase nofun
    · exact ih
  | reset => exact sound_of_phase nofun

end Registers

/-! ## Giving up -/

namespace Reader

variable {r : Reader} {byte : UInt8}

/-- What is collected can be given up at any time, but for an open print
pipe. -/
theorem step_cancel (h : r.inPipe = false) (hbyte : isCancel byte = true) :
    r.step byte = (.ground, none) := by
  unfold isCancel at hbyte
  rw [Bool.or_eq_true, beq_iff_eq, beq_iff_eq] at hbyte
  cases r with
  | printing => cases h
  | _ => rcases hbyte with rfl | rfl <;> rfl

/-- An escape sequence may begin at any time, but for an open print pipe: its
second byte is read as if nothing had been collected before. -/
theorem run_escape (h : r.inPipe = false) (hbyte : byte ≠ 0x5C) (bytes : List UInt8) :
    r.run (escapeByte :: byte :: bytes) = Reader.ground.run (escapeByte :: byte :: bytes) := by
  have hanew : ∀ r' : Reader, r.step escapeByte = (r', none) →
      r'.step byte = stepEscape byte →
      r.run (escapeByte :: byte :: bytes) = Reader.ground.run (escapeByte :: byte :: bytes) := by
    intro r' hstep hsecond
    have hground : Reader.ground.step escapeByte = (.escape, none) := rfl
    have hescape : Reader.escape.step byte = stepEscape byte := rfl
    simp only [run, hstep, hsecond, hground, hescape]
  cases r with
  | printing => cases h
  | command collected =>
    -- the command is not over yet, but this byte does not end it
    refine hanew (.commandEscape collected) rfl ?_
    exact if_neg hbyte
  | _ => exact hanew .escape rfl rfl

end Reader

namespace Registers

variable {r : Registers}

/-- **A reader recovers, and does not remember.** Let its registers have come
about by any calls of the host. If nothing is being collected, the actions of
all further bytes are those that a new reader takes them for, and both are
done, or print, at the same places. If the print pipe is not open, a byte that
gives up what is collected does just that, and bytes that begin an escape
sequence are read as by a new reader; only a backslash behind the first of
them may still belong to what was collected. -/
theorem recovers_of_reach (h : Reach r) :
    (r.isGround = true → ∀ bytes : List UInt8,
      (r.feed bytes).2 = (feed {} bytes).2 ∧
        (r.feed bytes).1.isGround = (feed {} bytes).1.isGround ∧
        (r.feed bytes).1.inPipe = (feed {} bytes).1.inPipe) ∧
      (r.inPipe = false →
        (∀ byte, Reader.isCancel byte = true →
          (r.step byte).2 = none ∧ (r.step byte).1.isGround = true) ∧
        ∀ byte bytes, byte ≠ 0x5C → (r.feed (Reader.escapeByte :: byte :: bytes)).2 =
          (feed {} (Reader.escapeByte :: byte :: bytes)).2) := by
  have hsound := h.sound
  have hfresh := Reach.fresh.sound
  refine ⟨fun hground bytes => ?_, fun hpipe => ⟨fun byte hbyte => ?_, fun byte bytes hbyte => ?_⟩⟩
  · -- nothing but the phase tells the two apart, and it does not
    have hreader : r.reader = (reader {}) := by
      rw [← isGround_reader] at hground
      exact beq_iff_eq.1 hground
    obtain ⟨-, hafter, hactions⟩ := follows_feed hsound bytes
    obtain ⟨-, hafter', hactions'⟩ := follows_feed hfresh bytes
    rw [hreader] at hafter hactions
    refine ⟨hactions.trans hactions'.symm, ?_, ?_⟩
    · rw [← isGround_reader, ← isGround_reader, hafter, hafter']
    · rw [← inPipe_reader, ← inPipe_reader, hafter, hafter']
  · have hstep := follows_step hsound byte
    rw [Reader.step_cancel ((inPipe_reader r).trans hpipe) hbyte] at hstep
    refine ⟨hstep.action, ?_⟩
    rw [← isGround_reader, hstep.reader]
    rfl
  · rw [(follows_feed hsound _).2.2, (follows_feed hfresh _).2.2]
    unfold Reader.feed
    rw [Reader.run_escape ((inPipe_reader r).trans hpipe) hbyte]
    rfl

/-- A control sequence that was given up leaves its marker and a parameter
behind, and a command its text; neither shows. -/
theorem recovers_of_reach_remains :
    let r := (feed {} [0x1B, 0x5D, 0x32, 0x3B, 0x61, 0x18, 0x1B, 0x5B, 0x3F, 0x32, 0x35, 0x18]).1
    (Reach r ∧ r.sequence = { digits := some 25, marker := some 0x3F } ∧
        r.command = [0x32, 0x3B, 0x61] ∧ r.isGround = true ∧ r.inPipe = false) ∧
      (r.feed [0x1B, 0x5B, 0x68]).2 = (feed {} [0x1B, 0x5B, 0x68]).2 ∧
      (r.step 0x18).1.isGround = true ∧
      (r.feed [0x1B, 0x63]).2 = [.fullReset] := by
  intro r
  have hreach : Reach r := Reach.fresh.feed _
  have hground : r.isGround = true := by decide
  have hpipe : r.inPipe = false := by decide
  obtain ⟨hanew, hleave⟩ := recovers_of_reach hreach
  obtain ⟨hcancel, hescape⟩ := hleave hpipe
  refine ⟨⟨hreach, by decide, by decide, hground, hpipe⟩, (hanew hground _).1,
    (hcancel 0x18 (by decide)).2, ?_⟩
  exact (hescape 0x63 [] (by decide)).trans (by decide)

end Registers

end VideoTerminal
