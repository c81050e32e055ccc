import VideoTerminal.Proofs.Checked.Reader
import VideoTerminal.Proofs.Control.Plain
import VideoTerminal.Proofs.Control.Registers
/-!
# Registers that are in order

A register may hold remains, but not any remains: what is kept of a control
sequence and of a command has its limit in every phase, the number of bytes of
a character is zero outside a character, and bytes are held back only while the
print pipe is open. `Tidy` says so, and `Leads` is what every byte leads to:
registers that are in order again, and an action whose count, if it has one, is
not zero.
-/

namespace VideoTerminal

/-- What an action counts is done once at least. -/
def Action.Counts (action : Action) : Prop := ∀ n, action.count? = some n → 1 ≤ n

theorem Action.counts_of_isPlain {action : Action} (h : action.isPlain = true) :
    action.Counts := by
  intro n hn
  rw [Action.count?_of_isPlain h] at hn
  cases hn

/-! ## Counts -/

namespace Sequence

/-- A parameter that counts is not zero. -/
theorem one_le_count (parameter : Option Nat) : 1 ≤ count parameter := Nat.le_max_left 1 _

theorem counts_decodePlain (ps : List Nat) (final : Char) {action : Action}
    (hdecode : decodePlain ps final = some action) : action.Counts := by
  have hcount := one_le_count ps[0]?
  unfold decodePlain at hdecode
  dsimp only at hdecode
  -- an action that counts takes the first parameter, and no other one does
  split at hdecode
  all_goals first
    | cases hdecode <;> exact fun n hn => by cases hn <;> exact hcount
    | obtain ⟨part, -, rfl⟩ := Option.map_eq_some_iff.1 hdecode
      exact Action.counts_of_isPlain rfl
    | split at hdecode <;> cases hdecode <;> exact Action.counts_of_isPlain rfl

theorem counts_decode? (s : Sequence) (final : UInt8) {action : Action}
    (hdecode : s.decode? final = some action) : action.Counts := by
  unfold Sequence.decode? at hdecode
  split at hdecode
  · cases hdecode
  · split at hdecode
    · exact counts_decodePlain _ _ hdecode
    · exact Action.counts_of_isPlain (isPlain_decodePrivate hdecode)
    · cases hdecode
      exact Action.counts_of_isPlain rfl
    · cases hdecode

/-! ## Limits -/

/-- What is kept of a sequence has its limits. -/
structure Limited (s : Sequence) : Prop where
  closed : s.closed.length ≤ maxParameters
  intermediates : s.intermediates.length ≤ maxIntermediates

variable {s : Sequence}

theorem limited_empty : ({} : Sequence).Limited := ⟨Nat.zero_le _, Nat.zero_le _⟩

theorem Limited.digit (h : s.Limited) (value : Nat) : (s.digit value).Limited := by
  unfold Sequence.digit
  split <;> exact ⟨h.closed, h.intermediates⟩

theorem Limited.separator (h : s.Limited) : s.separator.Limited := by
  unfold Sequence.separator
  split
  · refine ⟨?_, h.intermediates⟩
    change (if s.closed.length < maxParameters then s.closed ++ [s.digits.getD 0]
      else s.closed).length ≤ maxParameters
    split
    · rename_i hroom
      rw [List.length_append]
      exact hroom
    · exact h.closed
  · exact ⟨h.closed, h.intermediates⟩

theorem Limited.mark (h : s.Limited) (byte : UInt8) : (s.mark byte).Limited := by
  unfold Sequence.mark
  split <;> exact ⟨h.closed, h.intermediates⟩

theorem Limited.intermediate (h : s.Limited) (byte : UInt8) : (s.intermediate byte).Limited := by
  unfold Sequence.intermediate
  split
  · rename_i hroom
    refine ⟨h.closed, ?_⟩
    change (s.intermediates ++ [byte]).length ≤ maxIntermediates
    rw [List.length_append]
    exact hroom
  · exact ⟨h.closed, h.intermediates⟩

end Sequence

namespace Registers

open Reader (escapeByte isCancel control? escapeAction? introducedAction? pipeEnds)

variable {r : Registers} {byte : UInt8}

/-! ## In order -/

/-- Nothing but a control sequence and a command is in the registers, and these
have their limits. -/
structure Clear (r : Registers) : Prop where
  sequence : r.sequence.Limited
  command : r.command.length ≤ Command.maxBytes
  filled : r.filled = 0
  held : r.held = []

/-- The registers hold no more than they may, and those of a character and of
the print pipe nothing in other phases. -/
structure Tidy (r : Registers) : Prop where
  sequence : r.sequence.Limited
  command : r.command.length ≤ Command.maxBytes
  filled : (∀ remaining, r.phase ≠ .character remaining) → r.filled = 0
  held : r.phase ≠ .printing → r.held = []
  /-- More bytes may follow those held back, and close the print pipe. -/
  closing : r.phase = .printing → ∃ ending ∈ pipeEnds, r.held <+: ending ∧ r.held ≠ ending

/-- Clear registers are in order in every phase. -/
theorem Clear.tidy (h : r.Clear) : r.Tidy := by
  refine ⟨h.sequence, h.command, fun _ => h.filled, fun _ => h.held, fun _ => ?_⟩
  rw [h.held]
  exact ⟨_, List.mem_cons_self, List.nil_prefix, nofun⟩

theorem Clear.become (h : r.Clear) (phase : Phase) : (r.become phase).Tidy :=
  Clear.tidy ⟨h.sequence, h.command, h.filled, h.held⟩

theorem Tidy.clear {phase : Phase} (h : r.Tidy) (hphase : r.phase = phase)
    (hcharacter : ∀ remaining, phase ≠ .character remaining) (hprinting : phase ≠ .printing) :
    r.Clear := by
  subst hphase
  exact ⟨h.sequence, h.command, h.filled hcharacter, h.held hprinting⟩

/-- What a byte leads to. -/
structure Leads (next : Registers × Option Action) : Prop where
  tidy : next.1.Tidy
  counts : ∀ action, next.2 = some action → action.Counts

theorem Leads.silent (h : r.Tidy) : Leads (r, none) := ⟨h, nofun⟩

theorem Leads.plain {action? : Option Action} (h : r.Tidy)
    (hplain : ∀ action, action? = some action → action.isPlain = true) : Leads (r, action?) :=
  ⟨h, fun action haction => Action.counts_of_isPlain (hplain action haction)⟩

/-! ## One byte -/

theorem leads_stepGround (h : r.Clear) (byte : UInt8) : Leads (r.stepGround byte) := by
  unfold stepGround
  split
  · exact .silent (h.become _)
  · split
    · exact .plain h.tidy fun _ => Reader.isPlain_control?
    · split
      · exact .plain h.tidy fun action haction => by cases haction; rfl
      · split
        · -- the first byte of a character is counted, and may be in its phase
          exact .silent ⟨h.sequence, h.command, fun hout => absurd rfl (hout _),
            fun _ => h.held, nofun⟩
        · exact .silent h.tidy

/-- The bytes of a character are stored beside all else. -/
theorem store_rest (r : Registers) (byte : UInt8) :
    (r.store byte).sequence = r.sequence ∧ (r.store byte).command = r.command ∧
      (r.store byte).held = r.held := by
  unfold store
  split <;> exact ⟨rfl, rfl, rfl⟩

theorem leads_stepCharacter {remaining : Nat} (h : r.Tidy)
    (hphase : r.phase = .character remaining) (byte : UInt8) :
    Leads (r.stepCharacter remaining byte) := by
  have hheld : r.held = [] := h.held (by rw [hphase]; nofun)
  unfold stepCharacter
  split
  · obtain ⟨hsequence, hcommand, hstored⟩ := r.store_rest byte
    have hsequence' : (r.store byte).sequence.Limited := hsequence ▸ h.sequence
    have hcommand' : (r.store byte).command.length ≤ Command.maxBytes := hcommand ▸ h.command
    have hheld' : (r.store byte).held = [] := hstored.trans hheld
    dsimp only
    split
    · exact .silent ⟨hsequence', hcommand', fun hout => absurd rfl (hout _), fun _ => hheld', nofun⟩
    · refine .plain (Clear.tidy ⟨hsequence', hcommand', rfl, hheld'⟩)
        fun action haction => ?_
      obtain ⟨c, -, rfl⟩ := Option.map_eq_some_iff.1 haction
      rfl
  · have hdropped : Clear { r.become .ground with filled := 0 } :=
      ⟨h.sequence, h.command, rfl, hheld⟩
    exact leads_stepGround hdropped byte

theorem leads_stepEscape (h : r.Clear) (byte : UInt8) : Leads (r.stepEscape byte) := by
  unfold stepEscape
  split
  · exact .silent h.tidy
  · split
    · exact .silent (h.become _)
    · split
      · exact .plain h.tidy fun _ => Reader.isPlain_control?
      · split
        · exact .silent (Clear.tidy ⟨Sequence.limited_empty, h.command, h.filled, h.held⟩)
        · split
          · exact .silent (Clear.tidy ⟨h.sequence, Nat.zero_le _, h.filled, h.held⟩)
          · split
            · exact .silent (h.become _)
            · exact .plain (h.become _) fun _ => Reader.isPlain_escapeAction?

theorem leads_stepEscapeBy (h : r.Clear) (introducer byte : UInt8) :
    Leads (r.stepEscapeBy introducer byte) := by
  unfold stepEscapeBy
  split
  · exact .silent (h.become _)
  · split
    · exact .silent (h.become _)
    · split
      · exact .plain h.tidy fun _ => Reader.isPlain_control?
      · exact .plain (h.become _) fun _ => Reader.isPlain_introducedAction?

/-- The end of a control sequence: only here a count is handed over. -/
theorem leads_finishSequence (h : r.Clear) (final : UInt8) : Leads (r.finishSequence final) := by
  unfold finishSequence
  split
  · exact .silent (h.become _)
  · refine ⟨?_, fun action => r.sequence.counts_decode? final⟩
    have hover : ({ r.sequence with closed := [], digits := none } : Sequence).Limited :=
      ⟨Nat.zero_le _, h.sequence.intermediates⟩
    dsimp only
    split
    · exact Clear.tidy ⟨hover, h.command, h.filled, rfl⟩
    · exact Clear.tidy ⟨hover, h.command, h.filled, h.held⟩

theorem leads_stepSequence (h : r.Clear) (byte : UInt8) : Leads (r.stepSequence byte) := by
  have hread : ∀ sequence : Sequence, sequence.Limited → Tidy { r with sequence } :=
    fun sequence hlimited => Clear.tidy ⟨hlimited, h.command, h.filled, h.held⟩
  unfold stepSequence
  split
  · exact .silent (h.become _)
  · split
    · exact .silent (h.become _)
    · split
      · exact .plain h.tidy fun _ => Reader.isPlain_control?
      · split
        · exact .silent (hread _ (h.sequence.intermediate byte))
        · split
          · exact .silent (hread _ (h.sequence.digit _))
          · split
            · exact .silent (hread _ h.sequence.separator)
            · split
              · exact .silent (hread _ (h.sequence.mark byte))
              · split
                · exact leads_finishSequence h byte
                · exact .silent h.tidy

theorem leads_finishCommand (h : r.Clear) : Leads r.finishCommand :=
  .plain (Clear.tidy ⟨h.sequence, Nat.zero_le _, h.filled, h.held⟩)
    fun _ => Command.isPlain_decode?

/-- A byte of a command is kept within its limit, and beside all else. -/
theorem clear_push (h : r.Clear) (byte : UInt8) : (r.push byte).Clear := by
  have hcommand : (r.push byte).command.length ≤ Command.maxBytes := by
    rw [(r.command_push byte).1]
    exact Command.length_push_le byte h.command
  have hrest : (r.push byte).sequence = r.sequence ∧ (r.push byte).filled = r.filled ∧
      (r.push byte).held = r.held := by
    unfold push
    cases Command.clean? byte with
    | none => exact ⟨rfl, rfl, rfl⟩
    | some clean =>
      dsimp only
      split <;> exact ⟨rfl, rfl, rfl⟩
  obtain ⟨hsequence, hfilled, hheld⟩ := hrest
  exact ⟨hsequence ▸ h.sequence, hcommand, hfilled.trans h.filled, hheld.trans h.held⟩

theorem leads_stepCommand (h : r.Clear) (byte : UInt8) : Leads (r.stepCommand byte) := by
  unfold stepCommand
  split
  · exact leads_finishCommand h
  · split
    · exact .silent (h.become _)
    · split
      · exact .silent (h.become _)
      · exact .silent (clear_push h byte).tidy

theorem leads_stepCommandEscape (h : r.Clear) (byte : UInt8) :
    Leads (r.stepCommandEscape byte) := by
  unfold stepCommandEscape
  split
  · exact leads_finishCommand h
  · have hgivenUp : Clear { r.become .escape with command := [] } :=
      ⟨h.sequence, Nat.zero_le _, h.filled, h.held⟩
    exact leads_stepEscape hgivenUp byte

theorem leads_stepPrinting (h : r.Tidy) (hphase : r.phase = .printing) (byte : UInt8) :
    Leads (r.stepPrinting byte) := by
  have hfilled : r.filled = 0 := h.filled (by rw [hphase]; nofun)
  have hheld : ∀ held, (∃ ending ∈ pipeEnds, held <+: ending ∧ held ≠ ending) →
      Tidy { r with held } := fun held hclosing =>
    ⟨h.sequence, h.command, fun _ => hfilled, fun hout => absurd hphase hout, fun _ => hclosing⟩
  unfold stepPrinting
  dsimp only
  split
  · exact .plain (Clear.tidy ⟨h.sequence, h.command, hfilled, rfl⟩)
      fun action haction => by cases haction; rfl
  · rename_i hopen
    split
    · rename_i hprefix
      obtain ⟨ending, hending, hprefix⟩ := List.any_eq_true.1 hprefix
      refine .silent (hheld _ ⟨ending, hending, List.isPrefixOf_iff_prefix.1 hprefix, ?_⟩)
      -- a whole sequence would have closed the pipe
      rintro rfl
      exact hopen (List.contains_iff_mem.2 hending)
    · split
      · exact .plain (hheld _ ⟨_, List.mem_cons_self, ⟨_, rfl⟩, by decide⟩)
          fun action haction => by cases haction; rfl
      · exact .plain (hheld _ ⟨_, List.mem_cons_self, List.nil_prefix, nofun⟩)
          fun action haction => by cases haction; rfl

/-- **One byte** leaves the registers in order, and no count is zero. -/
theorem Tidy.step (h : r.Tidy) (byte : UInt8) : Leads (r.step byte) := by
  unfold Registers.step
  cases hphase : r.phase with
  | ground => exact leads_stepGround (h.clear hphase nofun nofun) byte
  | character remaining => exact leads_stepCharacter h hphase byte
  | escape => exact leads_stepEscape (h.clear hphase nofun nofun) byte
  | escapeBy introducer => exact leads_stepEscapeBy (h.clear hphase nofun nofun) introducer byte
  | sequence => exact leads_stepSequence (h.clear hphase nofun nofun) byte
  | command => exact leads_stepCommand (h.clear hphase nofun nofun) byte
  | commandEscape => exact leads_stepCommandEscape (h.clear hphase nofun nofun) byte
  | printing => exact leads_stepPrinting h hphase byte

/-! ## Many bytes -/

/-- **Many bytes** do the same. -/
theorem Tidy.run (h : r.Tidy) (bytes : List UInt8) :
    (r.run bytes).1.Tidy ∧ ∀ action ∈ (r.run bytes).2, action.Counts := by
  induction bytes generalizing r with
  | nil => exact ⟨h, fun _ haction => by cases haction⟩
  | cons byte bytes ih =>
    have hfirst := h.step byte
    obtain ⟨hlast, hrest⟩ := ih hfirst.tidy
    refine ⟨hlast, fun action haction => ?_⟩
    rcases List.mem_append.1 haction with hin | hin
    · exact hfirst.counts action (Option.mem_toList.1 hin)
    · exact hrest action hin

theorem Reach.tidy (h : Reach r) : r.Tidy := by
  have hfresh : Clear {} := ⟨Sequence.limited_empty, Nat.zero_le _, rfl, rfl⟩
  induction h with
  | fresh => exact hfresh.tidy
  | step byte _ ih => exact (ih.step byte).tidy
  | feed bytes _ ih => exact (ih.run bytes).1
  | @closePipe r _ ih =>
    unfold Registers.closePipe
    split
    · rename_i hopen
      have hphase : r.phase = .printing := beq_iff_eq.1 hopen
      exact Clear.tidy ⟨ih.sequence, ih.command, ih.filled (by rw [hphase]; nofun), rfl⟩
    · exact ih
  | reset => exact Clear.tidy ⟨Sequence.limited_empty, Nat.zero_le _, rfl, rfl⟩

/-- The first byte in the buffer. -/
def lead (r : Registers) : UInt8 := r.buffer.get ⟨0, Nat.zero_lt_succ 3⟩

/-- Within a character, what is there and what is still to come is what the
first byte in the buffer announces. -/
theorem Sound.announced {remaining : Nat} (h : r.Sound) (hphase : r.phase = .character remaining) :
    1 ≤ remaining ∧ 1 ≤ r.filled ∧ r.filled + remaining = Utf8.announced r.lead := by
  obtain ⟨first, rest, hcharacter, hfilled, hmore, hannounced⟩ := h remaining hphase
  have hfirst : r.lead = first := by
    have hhead : r.character[0]? = some first := by rw [hcharacter]; rfl
    unfold character at hhead
    rw [List.getElem?_take_of_lt (by omega), Vector.getElem?_toList] at hhead
    exact Option.some.inj hhead
  refine ⟨hmore, by omega, ?_⟩
  rw [hfirst, hfilled, hannounced]

/-- **The registers are in order, whatever the host called.** They keep 32
parameters, two intermediate bytes and 512 bytes of a command at most. Outside
a character no byte of one is counted; within one, those that are there and
those still to come are as many as the first byte announces, two, three or
four, so there is room for each that continues it. Bytes are held back only
while the print pipe is open, and more bytes have to follow them before it
closes. No action has a count of zero, and wherever a parameter is counted from
zero there is one to be taken away. -/
theorem kept_of_reach (h : Reach r) :
    (r.sequence.closed.length ≤ 32 ∧ r.sequence.intermediates.length ≤ 2 ∧
        r.command.length ≤ 512) ∧
      ((∀ remaining, r.phase ≠ .character remaining) → r.filled = 0) ∧
      (∀ remaining, r.phase = .character remaining →
        1 ≤ r.filled ∧ r.filled + remaining = Utf8.announced r.lead ∧
          Utf8.announced r.lead ∈ [2, 3, 4] ∧
          ∀ byte, (r.store byte).character = r.character ++ [byte]) ∧
      (r.phase ≠ .printing → r.held = []) ∧
      (r.phase = .printing →
        ∃ ending ∈ pipeEnds, r.held <+: ending ∧ r.held ≠ ending) ∧
      (∀ byte action, (r.step byte).2 = some action → action.Counts) ∧
      (∀ bytes, ∀ action ∈ (r.feed bytes).2, action.Counts) ∧
      ∀ final, r.sequence.decodeChecked final = some (r.sequence.decode? final) := by
  have htidy := h.tidy
  have hfeed : ∀ bytes, ∀ action ∈ (r.feed bytes).2, action.Counts := fun bytes =>
    Reader.forall_joinData (fun _ => Action.counts_of_isPlain rfl) (htidy.run bytes).2
  refine ⟨⟨htidy.sequence.closed, htidy.sequence.intermediates, htidy.command⟩, htidy.filled,
    fun remaining hphase => ?_, htidy.held, htidy.closing, fun byte => (htidy.step byte).counts,
    hfeed, r.sequence.decodeChecked_eq⟩
  obtain ⟨hmore, hsome, hannounced⟩ := h.sound.announced hphase
  have hfour := Utf8.announced_le_four r.lead
  refine ⟨hsome, hannounced, ?_, fun byte => (character_store (by omega) byte).1⟩
  rw [List.mem_cons, List.mem_cons, List.mem_singleton]
  omega

/-- A control sequence that was given up leaves two parameters behind, and two of
the four bytes of a character are there; or the print pipe is open and may
close. -/
theorem kept_of_reach_remains :
    let r := (feed {} [0x1B, 0x5B, 0x33, 0x3B, 0x34, 0x3B, 0x20, 0x18, 0xF0, 0x9F]).1
    let r' := (feed {} [0x1B, 0x5B, 0x35, 0x69, 0x78, 0x1B, 0x5B, 0x3F]).1
    (Reach r ∧ r.sequence = { closed := [3, 4], intermediates := [0x20] } ∧
        r.phase = .character 2 ∧ Reach r' ∧ r'.phase = .printing) ∧
      (r.filled + 2 = Utf8.announced r.lead ∧ Utf8.announced r.lead = 4 ∧
        r.held = [] ∧ (r.store 0x98).character = [0xF0, 0x9F, 0x98]) ∧
      r'.filled = 0 ∧ r'.held = [0x1B, 0x5B, 0x3F] ∧
      (∃ ending ∈ pipeEnds, r'.held <+: ending ∧ r'.held ≠ ending) ∧
      ∀ bytes, ∀ action ∈ (r'.feed bytes).2, action.Counts := by
  intro r r'
  have hreach : Reach r := Reach.fresh.feed _
  have hreach' : Reach r' := Reach.fresh.feed _
  have hphase : r.phase = .character 2 := by decide
  have hphase' : r'.phase = .printing := by decide
  obtain ⟨-, -, hcharacter, hheld, -⟩ := kept_of_reach hreach
  obtain ⟨-, hfilled, -, -, hclosing, -, hcounts, -⟩ := kept_of_reach hreach'
  obtain ⟨-, hannounced, -, hroom⟩ := hcharacter 2 hphase
  refine ⟨⟨hreach, by decide, hphase, hreach', hphase'⟩,
    ⟨hannounced, by decide, hheld (by rw [hphase]; nofun), (hroom 0x98).trans (by decide)⟩,
    hfilled (by rw [hphase']; nofun), by decide, hclosing hphase', hcounts⟩

end Registers

end VideoTerminal
