import VideoTerminal.Proofs.Row.Pieces
import VideoTerminal.Proofs.Selection.Seen
/-!
# Words and lines of text

A click at a word takes the longest run of glyphs of its class that is read in one
go, and a click at a line takes all that is read in one go (`Longest`). Two such
pieces that share a position are the same (`Longest.eq`), so words divide the
buffer, and so do lines of text: it does not matter where in one the click hits.

The searches for the ends are walks. Each of them is followed turn by turn: what
it has passed belongs to the run (`BackTo`, `OnTo`), and where it stops nothing
more does. They come to an end in every buffer, whatever its cells say about
halves (`SearchesEnd`).
-/

namespace VideoTerminal

theorem Position.lt_of_not_le {p q : Position} (h : ¬ p ≤ q) : q < p := by
  rw [le_def] at h
  rw [lt_def]
  omega

theorem Position.not_le_of_lt {p q : Position} (h : p < q) : ¬ q ≤ p := by
  rw [lt_def] at h
  rw [le_def]
  omega

/-- A position lies between the ends, which count. -/
def Span.Contains (s : Span) (p : Position) : Prop := s.first ≤ p ∧ p ≤ s.last

/-- The largest piece around a position that has a property. -/
structure Span.Longest (P : Span → Prop) (p : Position) (s : Span) : Prop where
  run : P s
  contains : s.Contains p
  longest : ∀ s', P s' → s'.Contains p → s.first ≤ s'.first ∧ s'.last ≤ s.last

/-- **Longest pieces that share a position are the same.** -/
theorem Span.Longest.eq {P : Span → Prop} {p q : Position} {s s' : Span} (h : s.Longest P p)
    (h' : s'.Longest P q) (hq : s.Contains q) : s' = s := by
  obtain ⟨hfirst, hlast⟩ := h'.longest s h.run hq
  have hp : s'.Contains p :=
    ⟨Position.le_trans hfirst h.contains.1, Position.le_trans h.contains.2 hlast⟩
  obtain ⟨hfirst', hlast'⟩ := h.longest s' h'.run hp
  obtain ⟨first, last⟩ := s
  obtain ⟨first', last'⟩ := s'
  rw [Span.mk.injEq]
  exact ⟨Position.le_antisymm hfirst hfirst', Position.le_antisymm hlast' hlast⟩

/-! ## Turns of a search -/

/-- A search that goes from `a` to `b` in so many turns, and takes no other one
there. -/
inductive Turns {α : Type} (turn : α → Option α) : α → α → Nat → Prop
  | stop {a : α} (h : turn a = none) : Turns turn a a 0
  | turn {a a' b : α} {n : Nat} (h : turn a = some a') (hrest : Turns turn a' b n) :
      Turns turn a b (n + 1)

namespace Buffer

/-- One turn of the search for the start of a word. -/
def turnBack (b : Buffer) (delimiters : List Char) (kind : GlyphClass) (p : Position) :
    Option Position :=
  (b.prev? p).bind fun q => if b.classAt delimiters q = kind then some (b.lead q) else none

/-- One turn of the search for the end of a word. -/
def turnOn (b : Buffer) (delimiters : List Char) (kind : GlyphClass) (p : Position) :
    Option Position :=
  (b.next? p).bind fun q => if b.classAt delimiters q = kind then some (b.glyphEnd q) else none

/-- One turn of the search for the first line of a text. -/
def turnUp (b : Buffer) (line : Nat) : Option Nat :=
  if 0 < line ∧ b.continues (line - 1) then some (line - 1) else none

/-- One turn of the search for the last line of a text. -/
def turnDown (b : Buffer) (line : Nat) : Option Nat :=
  if line + 1 < b.total ∧ b.continues line then some (line + 1) else none

/-- The searches come to an end, in no more turns than there are places to go. -/
structure SearchesEnd (b : Buffer) (delimiters : List Char) : Prop where
  wordStart : ∀ kind p, ∃ n, n ≤ b.before p ∧
    Turns (b.turnBack delimiters kind) p (b.wordStart delimiters kind p) n
  wordEnd : ∀ kind p, ∃ n, n ≤ b.behind p ∧
    Turns (b.turnOn delimiters kind) p (b.wordEnd delimiters kind p) n
  textStart : ∀ line, ∃ n, n ≤ line ∧ Turns b.turnUp line (b.textStart line) n
  textEnd : ∀ line, ∃ n, n ≤ b.total - line ∧ Turns b.turnDown line (b.textEnd line) n

/-- **The searches end in every buffer.** -/
theorem searchesEnd (b : Buffer) (delimiters : List Char) : b.SearchesEnd delimiters where
  wordStart kind p := by
    fun_induction Buffer.wordStart b delimiters kind p with
    | case1 p hnone => exact ⟨0, Nat.zero_le _, .stop (by rw [turnBack, hnone]; rfl)⟩
    | case2 p q hprev hlt hkind ih =>
      obtain ⟨n, hn, hturns⟩ := ih
      refine ⟨n + 1, by omega, .turn ?_ hturns⟩
      rw [turnBack, hprev, Option.bind_some, if_pos hkind]
    | case3 p q hprev _ hkind =>
      refine ⟨0, Nat.zero_le _, .stop ?_⟩
      rw [turnBack, hprev, Option.bind_some, if_neg hkind]
  wordEnd kind p := by
    fun_induction Buffer.wordEnd b delimiters kind p with
    | case1 p hnone => exact ⟨0, Nat.zero_le _, .stop (by rw [turnOn, hnone]; rfl)⟩
    | case2 p q hnext hlt hkind ih =>
      obtain ⟨n, hn, hturns⟩ := ih
      refine ⟨n + 1, by omega, .turn ?_ hturns⟩
      rw [turnOn, hnext, Option.bind_some, if_pos hkind]
    | case3 p q hnext _ hkind =>
      refine ⟨0, Nat.zero_le _, .stop ?_⟩
      rw [turnOn, hnext, Option.bind_some, if_neg hkind]
  textStart line := by
    induction line with
    | zero => exact ⟨0, Nat.le_refl _, .stop (if_neg fun h => Nat.lt_irrefl 0 h.1)⟩
    | succ line ih =>
      unfold Buffer.textStart
      split
      · rename_i hgo
        obtain ⟨n, hn, hturns⟩ := ih
        exact ⟨n + 1, Nat.succ_le_succ hn, .turn (if_pos ⟨Nat.succ_pos line, hgo⟩) hturns⟩
      · rename_i hstop
        exact ⟨0, Nat.zero_le _, .stop (if_neg fun h => hstop h.2)⟩
  textEnd line := by
    fun_induction Buffer.textEnd b line with
    | case1 line hgo ih =>
      obtain ⟨n, hn, hturns⟩ := ih
      exact ⟨n + 1, by omega, .turn (if_pos hgo) hturns⟩
    | case2 line hstop => exact ⟨0, Nat.zero_le _, .stop (if_neg hstop)⟩

/-! ## Whole glyphs -/

/-- All lines are as wide as the screen, and halves of glyphs stand beside each
other. -/
structure Paired (b : Buffer) : Prop where
  width : ∀ row ∈ b.lines, row.cols = b.cols
  paired : ∀ row ∈ b.lines, Row.Paired row.cells

/-- There is a cell at the position. -/
def Holds (b : Buffer) (p : Position) : Prop := p.line < b.total ∧ p.col < b.cols

instance (b : Buffer) (p : Position) : Decidable (b.Holds p) := instDecidableAnd

/-- The position is in the left half of a wide glyph. -/
def leadAt (b : Buffer) (p : Position) : Bool := (b.cell? p).any Cell.isLead

/-- The position is in the right half of a wide glyph. -/
def trailAt (b : Buffer) (p : Position) : Bool := (b.cell? p).any Cell.isTrail

variable {b : Buffer} {p q r : Position} {delimiters : List Char} {kind : GlyphClass}

theorem lead_eq_self (h : b.trailAt p = false) : b.lead p = p := by
  unfold lead
  rw [if_neg]
  exact Bool.eq_false_iff.1 h

theorem glyphEnd_eq_self (h : b.leadAt p = false) : b.glyphEnd p = p := by
  unfold glyphEnd
  rw [if_neg]
  exact fun hlead => Bool.eq_false_iff.1 h hlead.1

namespace Paired

theorem next (hb : b.Paired) (line col : Nat) :
    b.leadAt ⟨line, col⟩ = b.trailAt ⟨line, col + 1⟩ := by
  unfold leadAt trailAt cell?
  cases hrow : b.lines[line]? with
  | none => rfl
  | some row => exact (hb.paired row (List.mem_of_getElem? hrow)).next col

theorem first (hb : b.Paired) (line : Nat) : b.trailAt ⟨line, 0⟩ = false := by
  unfold trailAt cell?
  cases hrow : b.lines[line]? with
  | none => rfl
  | some row => exact (hb.paired row (List.mem_of_getElem? hrow)).first

theorem single (hb : b.Paired) (p : Position) : ¬ (b.leadAt p = true ∧ b.trailAt p = true) := by
  unfold leadAt trailAt cell?
  cases hrow : b.lines[p.line]? with
  | none => exact fun h => Bool.false_ne_true h.1
  | some row =>
    change ¬ (row.cells[p.col]?.any Cell.isLead = true ∧ row.cells[p.col]?.any Cell.isTrail = true)
    cases hcell : row.cells[p.col]? with
    | none => exact fun h => Bool.false_ne_true h.1
    | some c =>
      exact (hb.paired row (List.mem_of_getElem? hrow)).single c (List.mem_of_getElem? hcell)

/-- A right half lies in the buffer. -/
theorem col_lt (hb : b.Paired) (h : b.trailAt p = true) : p.col < b.cols := by
  unfold trailAt cell? at h
  cases hrow : b.lines[p.line]? with
  | none =>
    rw [hrow] at h
    cases h
  | some row =>
    rw [hrow] at h
    change row.cells[p.col]?.any Cell.isTrail = true at h
    rw [← hb.width row (List.mem_of_getElem? hrow)]
    by_contra hout
    rw [List.getElem?_eq_none (Nat.le_of_not_lt hout)] at h
    cases h

/-! ### The ends of a glyph -/

theorem lead_succ (hb : b.Paired) {line col : Nat} (h : b.leadAt ⟨line, col⟩ = true) :
    b.lead ⟨line, col + 1⟩ = ⟨line, col⟩ := by
  rw [hb.next] at h
  exact if_pos h

/-- Where a glyph starts there is no right half. -/
theorem trailAt_lead (hb : b.Paired) (p : Position) : b.trailAt (b.lead p) = false := by
  obtain ⟨line, col⟩ := p
  cases htrail : b.trailAt ⟨line, col⟩ with
  | false => rwa [lead_eq_self htrail]
  | true =>
    cases col with
    | zero =>
      rw [hb.first] at htrail
      cases htrail
    | succ col =>
      rw [← hb.next] at htrail
      rw [hb.lead_succ htrail]
      exact Bool.eq_false_iff.2 fun hboth => hb.single _ ⟨htrail, hboth⟩

theorem glyphEnd_lead (hb : b.Paired) {line col : Nat} (h : b.leadAt ⟨line, col⟩ = true) :
    b.glyphEnd ⟨line, col⟩ = ⟨line, col + 1⟩ := by
  have hcol : col + 1 < b.cols := hb.col_lt (p := ⟨line, col + 1⟩) (by rwa [← hb.next])
  refine if_pos ⟨h, ?_⟩
  unfold lastCol
  dsimp only
  omega

/-- Where a glyph ends there is no left half. -/
theorem leadAt_glyphEnd (hb : b.Paired) (p : Position) : b.leadAt (b.glyphEnd p) = false := by
  obtain ⟨line, col⟩ := p
  cases hlead : b.leadAt ⟨line, col⟩ with
  | false => rwa [glyphEnd_eq_self hlead]
  | true =>
    rw [hb.glyphEnd_lead hlead]
    rw [hb.next] at hlead
    exact Bool.eq_false_iff.2 fun hboth => hb.single _ ⟨hboth, hlead⟩

/-- A position and the start of its glyph. -/
theorem glyphEnd_of_trailAt (hb : b.Paired) (h : b.trailAt p = true) :
    b.glyphEnd (b.lead p) = p := by
  obtain ⟨line, col⟩ := p
  cases col with
  | zero =>
    rw [hb.first] at h
    cases h
  | succ col =>
    rw [← hb.next] at h
    rw [hb.lead_succ h, hb.glyphEnd_lead h]

/-! ### The class of a glyph -/

theorem classAt_lead (hb : b.Paired) (delimiters : List Char) (p : Position) :
    b.classAt delimiters (b.lead p) = b.classAt delimiters p := by
  unfold classAt
  rw [lead_eq_self (hb.trailAt_lead p)]

theorem classAt_glyphEnd (hb : b.Paired) (delimiters : List Char) (h : b.trailAt p = false) :
    b.classAt delimiters (b.glyphEnd p) = b.classAt delimiters p := by
  obtain ⟨line, col⟩ := p
  cases hlead : b.leadAt ⟨line, col⟩ with
  | false => rw [glyphEnd_eq_self hlead]
  | true =>
    unfold classAt
    rw [hb.glyphEnd_lead hlead, hb.lead_succ hlead, lead_eq_self h]

end Paired

/-! ## Reading in one go -/

/-- The text goes on from one line to the other. -/
def Joined (b : Buffer) (first last : Nat) : Prop :=
  ∀ line, first ≤ line → line < last → b.continues line = true

theorem Joined.refl (line : Nat) : b.Joined line line :=
  fun _ hge hlt => absurd hge (Nat.not_le_of_lt hlt)

theorem Joined.trans {i j k : Nat} (h : b.Joined i j) (h' : b.Joined j k) : b.Joined i k := by
  intro line hge hlt
  by_cases hj : line < j
  · exact h line hge hj
  · exact h' line (Nat.le_of_not_lt hj) hlt

theorem Joined.mono {i j i' j' : Nat} (h : b.Joined i j) (hi : i ≤ i') (hj : j' ≤ j) :
    b.Joined i' j' :=
  fun line hge hlt => h line (Nat.le_trans hi hge) (Nat.lt_of_lt_of_le hlt hj)

/-- A piece that is read from its first to its last position in one go. -/
structure Chain (b : Buffer) (s : Span) : Prop where
  ordered : s.first ≤ s.last
  first : b.Holds s.first
  last : b.Holds s.last
  joined : b.Joined s.first.line s.last.line

/-- A piece that is read in one go, and all its glyphs are of one class. -/
structure Run (b : Buffer) (delimiters : List Char) (kind : GlyphClass) (s : Span) : Prop
    extends b.Chain s where
  alike : ∀ q, b.Holds q → s.Contains q → b.classAt delimiters q = kind

/-! ### The position before and the one behind -/

/-- The two ways to go back. -/
theorem prev?_cases (h : b.prev? p = some q) :
    (q.line = p.line ∧ q.col + 1 = p.col) ∨
      (p.col = 0 ∧ q.line + 1 = p.line ∧ q.col = b.lastCol ∧ b.continues q.line = true) := by
  unfold prev? at h
  split at h
  · cases h
    dsimp only
    omega
  · split at h
    · rename_i hcol hline
      cases h
      exact .inr ⟨by omega, by dsimp only; omega, rfl, hline.2⟩
    · cases h

/-- The two ways to go on. -/
theorem next?_cases (h : b.next? p = some q) :
    (q.line = p.line ∧ q.col = p.col + 1 ∧ p.col < b.lastCol) ∨
      (q.line = p.line + 1 ∧ q.col = 0 ∧ b.lastCol ≤ p.col ∧ p.line + 1 < b.total ∧
        b.continues p.line = true) := by
  unfold next? at h
  split at h
  · rename_i hcol
    cases h
    exact .inl ⟨rfl, rfl, hcol⟩
  · split at h
    · rename_i hcol hline
      cases h
      exact .inr ⟨rfl, rfl, Nat.le_of_not_lt hcol, hline.1, hline.2⟩
    · cases h

theorem holds_prev? (hp : b.Holds p) (h : b.prev? p = some q) : b.Holds q := by
  obtain ⟨hline, hcol⟩ := hp
  have hcases := prev?_cases h
  unfold lastCol at hcases
  unfold Holds
  omega

theorem holds_next? (hp : b.Holds p) (h : b.next? p = some q) : b.Holds q := by
  obtain ⟨hline, hcol⟩ := hp
  have hcases := next?_cases h
  unfold lastCol at hcases
  unfold Holds
  omega

theorem joined_prev? (h : b.prev? p = some q) : b.Joined q.line p.line := by
  obtain ⟨hline, -⟩ | ⟨-, hline, -, hgo⟩ := prev?_cases h
  · rw [hline]
    exact .refl p.line
  · intro line hge hlt
    obtain rfl : line = q.line := by omega
    exact hgo

theorem joined_next? (h : b.next? p = some q) : b.Joined p.line q.line := by
  obtain ⟨hline, -⟩ | ⟨hline, -, -, -, hgo⟩ := next?_cases h
  · rw [hline]
    exact .refl p.line
  · intro line hge hlt
    obtain rfl : line = p.line := by omega
    exact hgo

/-- Nothing lies between a position and the one before it. -/
theorem le_of_prev?_of_lt (h : b.prev? p = some q) (hr : b.Holds r) (hlt : r < p) : r ≤ q := by
  have hcases := prev?_cases h
  have hcol := hr.2
  unfold lastCol at hcases
  rw [Position.lt_def] at hlt
  rw [Position.le_def]
  omega

/-- Nothing lies between a position and the one behind it. -/
theorem le_of_next?_of_lt (h : b.next? p = some q) (hr : b.Holds r) (hlt : p < r) : q ≤ r := by
  have hcases := next?_cases h
  have hcol := hr.2
  unfold lastCol at hcases
  rw [Position.lt_def] at hlt
  rw [Position.le_def]
  omega

/-- What is read in one go goes on to the position before. -/
theorem exists_prev? (hlt : r < p) (hjoined : b.Joined r.line p.line) :
    ∃ q, b.prev? p = some q := by
  rw [Position.lt_def] at hlt
  unfold prev?
  by_cases hcol : 0 < p.col
  · exact ⟨_, if_pos hcol⟩
  · have hline : 0 < p.line ∧ b.continues (p.line - 1) = true :=
      ⟨by omega, hjoined (p.line - 1) (by omega) (by omega)⟩
    rw [if_neg hcol, if_pos hline]
    exact ⟨_, rfl⟩

/-- What is read in one go goes on to the position behind. -/
theorem exists_next? (hr : b.Holds r) (hlt : p < r) (hjoined : b.Joined p.line r.line) :
    ∃ q, b.next? p = some q := by
  obtain ⟨hline, hcol⟩ := hr
  rw [Position.lt_def] at hlt
  unfold next?
  by_cases hin : p.col < b.lastCol
  · exact ⟨_, if_pos hin⟩
  · unfold lastCol at hin
    have hgo : p.line + 1 < b.total ∧ b.continues p.line = true :=
      ⟨by omega, hjoined p.line (Nat.le_refl _) (by omega)⟩
    rw [if_neg (by unfold lastCol; exact hin), if_pos hgo]
    exact ⟨_, rfl⟩

theorem eq_of_lead_le (h : b.lead p ≤ q) (hq : q ≤ p) : q = b.lead p ∨ q = p := by
  cases htrail : b.trailAt p with
  | false =>
    rw [lead_eq_self htrail] at h ⊢
    exact .inl (Position.le_antisymm hq h)
  | true =>
    obtain ⟨line, col⟩ := p
    obtain ⟨line', col'⟩ := q
    have hlead : b.lead ⟨line, col⟩ = ⟨line, col - 1⟩ := if_pos htrail
    rw [hlead] at h ⊢
    rw [Position.le_def] at h hq
    simp only [Position.mk.injEq] at h hq ⊢
    omega

theorem eq_of_le_glyphEnd (h : p ≤ q) (hq : q ≤ b.glyphEnd p) : q = p ∨ q = b.glyphEnd p := by
  unfold glyphEnd at hq ⊢
  split at hq
  · rename_i hlead
    rw [if_pos hlead]
    obtain ⟨line, col⟩ := p
    obtain ⟨line', col'⟩ := q
    rw [Position.le_def] at h hq
    simp only [Position.mk.injEq] at h hq ⊢
    omega
  · exact .inl (Position.le_antisymm hq h)

/-! ## The searches -/

/-- What the search for the start of a word finds: it has passed glyphs of the
class only, and there is none before. -/
structure BackTo (b : Buffer) (delimiters : List Char) (kind : GlyphClass) (p s : Position) :
    Prop where
  holds : b.Holds s
  starts : b.trailAt s = false
  le : s ≤ p
  joined : b.Joined s.line p.line
  passed : ∀ r, b.Holds r → s ≤ r → r < p → b.classAt delimiters r = kind
  stop : ∀ q, b.prev? s = some q → b.classAt delimiters q ≠ kind

/-- What the search for the end of a word finds: it has passed glyphs of the class
only, and there is none behind. -/
structure OnTo (b : Buffer) (delimiters : List Char) (kind : GlyphClass) (p s : Position) :
    Prop where
  holds : b.Holds s
  ends : b.leadAt s = false
  le : p ≤ s
  joined : b.Joined p.line s.line
  passed : ∀ r, b.Holds r → p < r → r ≤ s → b.classAt delimiters r = kind
  stop : ∀ q, b.next? s = some q → b.classAt delimiters q ≠ kind

theorem BackTo.refl (hp : b.Holds p) (hstarts : b.trailAt p = false)
    (hstop : ∀ q, b.prev? p = some q → b.classAt delimiters q ≠ kind) :
    b.BackTo delimiters kind p p where
  holds := hp
  starts := hstarts
  le := Position.le_refl p
  joined := .refl p.line
  passed _ _ hle hlt := absurd hle (Position.not_le_of_lt hlt)
  stop := hstop

theorem OnTo.refl (hp : b.Holds p) (hends : b.leadAt p = false)
    (hstop : ∀ q, b.next? p = some q → b.classAt delimiters q ≠ kind) :
    b.OnTo delimiters kind p p where
  holds := hp
  ends := hends
  le := Position.le_refl p
  joined := .refl p.line
  passed _ _ hlt hle := absurd hle (Position.not_le_of_lt hlt)
  stop := hstop

/-- One turn passes one glyph. -/
theorem BackTo.turn {s : Position} (hb : b.Paired) (hprev : b.prev? p = some q)
    (hkind : b.classAt delimiters q = kind) (h : b.BackTo delimiters kind (b.lead q) s) :
    b.BackTo delimiters kind p s where
  holds := h.holds
  starts := h.starts
  le := Position.le_trans h.le (Position.le_trans (b.lead_le q) (le_of_prev? hprev))
  joined := by
    have hjoined := h.joined
    rw [line_lead] at hjoined
    exact hjoined.trans (joined_prev? hprev)
  passed r hr hle hlt := by
    have hrq := le_of_prev?_of_lt hprev hr hlt
    by_cases hin : b.lead q ≤ r
    · obtain rfl | rfl := eq_of_lead_le hin hrq
      · rw [hb.classAt_lead, hkind]
      · exact hkind
    · exact h.passed r hr hle (Position.lt_of_not_le hin)
  stop := h.stop

theorem OnTo.turn {s : Position} (hb : b.Paired) (hnext : b.next? p = some q)
    (hstarts : b.trailAt q = false) (hkind : b.classAt delimiters q = kind)
    (h : b.OnTo delimiters kind (b.glyphEnd q) s) : b.OnTo delimiters kind p s where
  holds := h.holds
  ends := h.ends
  le := Position.le_trans (Position.le_trans (le_of_next? hnext) (b.le_glyphEnd q)) h.le
  joined := by
    have hjoined := h.joined
    rw [line_glyphEnd] at hjoined
    exact (joined_next? hnext).trans hjoined
  passed r hr hlt hle := by
    have hqr := le_of_next?_of_lt hnext hr hlt
    by_cases hin : r ≤ b.glyphEnd q
    · obtain rfl | rfl := eq_of_le_glyphEnd hqr hin
      · exact hkind
      · rw [hb.classAt_glyphEnd _ hstarts, hkind]
    · exact h.passed r hr (Position.lt_of_not_le hin) hle
  stop := h.stop

/-- **The search for the start of a word.** -/
theorem backTo_wordStart (hb : b.Paired) (hp : b.Holds p) (hstarts : b.trailAt p = false) :
    b.BackTo delimiters kind p (b.wordStart delimiters kind p) := by
  fun_induction Buffer.wordStart b delimiters kind p with
  | case1 p hnone =>
    refine .refl hp hstarts fun q hprev => ?_
    rw [hnone] at hprev
    cases hprev
  | case2 p q hprev _ hkind ih =>
    have hq := holds_prev? hp hprev
    have hlead : b.Holds (b.lead q) := ⟨(b.line_lead q).symm ▸ hq.1, col_lead_lt hq.2⟩
    exact (ih hlead (hb.trailAt_lead q)).turn hb hprev hkind
  | case3 p q hprev _ hkind =>
    refine .refl hp hstarts fun q' hprev' => ?_
    rw [hprev, Option.some.injEq] at hprev'
    exact hprev' ▸ hkind

/-- Behind the end of a glyph another one starts. -/
theorem trailAt_next? (hb : b.Paired) (hends : b.leadAt p = false) (h : b.next? p = some q) :
    b.trailAt q = false := by
  obtain ⟨line, col⟩ := p
  obtain ⟨line', col'⟩ := q
  obtain ⟨hline, hcol, -⟩ | ⟨hline, hcol, -⟩ := next?_cases h
  · dsimp only at hline hcol
    rw [hline, hcol, ← hb.next]
    exact hends
  · dsimp only at hcol
    rw [hcol]
    exact hb.first line'

/-- **The search for the end of a word.** -/
theorem onTo_wordEnd (hb : b.Paired) (hp : b.Holds p) (hends : b.leadAt p = false) :
    b.OnTo delimiters kind p (b.wordEnd delimiters kind p) := by
  fun_induction Buffer.wordEnd b delimiters kind p with
  | case1 p hnone =>
    refine .refl hp hends fun q hnext => ?_
    rw [hnone] at hnext
    cases hnext
  | case2 p q hnext _ hkind ih =>
    have hq := holds_next? hp hnext
    have hend : b.Holds (b.glyphEnd q) := ⟨(b.line_glyphEnd q).symm ▸ hq.1, col_glyphEnd_lt hq.2⟩
    exact (ih hend (hb.leadAt_glyphEnd q)).turn hb hnext (trailAt_next? hb hends hnext) hkind
  | case3 p q hnext _ hkind =>
    refine .refl hp hends fun q' hnext' => ?_
    rw [hnext, Option.some.injEq] at hnext'
    exact hnext' ▸ hkind

/-! ## What a click takes -/

/-- A run of the class that goes on before the start would have been followed. -/
theorem BackTo.le_of_run {start : Position} {s : Span} (h : b.BackTo delimiters kind p start)
    (hrun : b.Run delimiters kind s) (hlast : p ≤ s.last) : start ≤ s.first := by
  by_contra hnot
  have hlt := Position.lt_of_not_le hnot
  have hin := Position.le_trans h.le hlast
  obtain ⟨q, hprev⟩ := exists_prev? hlt
    (hrun.joined.mono (Nat.le_refl _) (Position.line_le hin))
  have hq := holds_prev? h.holds hprev
  exact h.stop q hprev (hrun.alike q hq
    ⟨le_of_prev?_of_lt hprev hrun.first hlt, Position.le_trans (le_of_prev? hprev) hin⟩)

/-- A run of the class that goes on behind the end would have been followed. -/
theorem OnTo.le_of_run {stop : Position} {s : Span} (h : b.OnTo delimiters kind p stop)
    (hrun : b.Run delimiters kind s) (hfirst : s.first ≤ p) : s.last ≤ stop := by
  by_contra hnot
  have hlt := Position.lt_of_not_le hnot
  have hin := Position.le_trans hfirst h.le
  obtain ⟨q, hnext⟩ := exists_next? hrun.last hlt
    (hrun.joined.mono (Position.line_le hin) (Nat.le_refl _))
  have hq := holds_next? h.holds hnext
  exact h.stop q hnext (hrun.alike q hq
    ⟨Position.le_trans hin (le_of_next? hnext), le_of_next?_of_lt hnext hrun.last hlt⟩)

/-- A click at a cell hits it. -/
theorem spanAt_of_holds (hp : b.Holds p) (delimiters : List Char) (depth : Depth) :
    b.spanAt delimiters depth p = b.spanOf delimiters depth (b.lead p) := by
  obtain ⟨hline, hcol⟩ := hp
  have hsome : ¬ b.isEmpty = true := by
    unfold isEmpty
    rw [Bool.or_eq_true, beq_iff_eq, beq_iff_eq]
    omega
  have hclamp : b.clamp p = p := by
    unfold clamp lastCol
    rw [Nat.min_eq_left (by omega), Nat.min_eq_left (by omega)]
  unfold spanAt
  rw [if_neg hsome, hclamp]

/-- **A click at a word takes the longest run of its class**, and whole glyphs. -/
theorem longest_word (hb : b.Paired) (hp : b.Holds p) (delimiters : List Char) :
    (b.spanAt delimiters .word p).Longest (b.Run delimiters (b.classAt delimiters p)) p ∧
      b.trailAt (b.spanAt delimiters .word p).first = false ∧
      b.leadAt (b.spanAt delimiters .word p).last = false := by
  have hstarts := hb.trailAt_lead p
  have hends := hb.leadAt_glyphEnd (b.lead p)
  have hlead : b.Holds (b.lead p) := ⟨(b.line_lead p).symm ▸ hp.1, col_lead_lt hp.2⟩
  have hglyphEnd : b.Holds (b.glyphEnd (b.lead p)) :=
    ⟨(b.line_glyphEnd _).symm ▸ hlead.1, col_glyphEnd_lt hlead.2⟩
  have hback : b.BackTo delimiters (b.classAt delimiters p) (b.lead p)
      (b.wordStart delimiters (b.classAt delimiters p) (b.lead p)) :=
    backTo_wordStart hb hlead hstarts
  have hon : b.OnTo delimiters (b.classAt delimiters p) (b.glyphEnd (b.lead p))
      (b.wordEnd delimiters (b.classAt delimiters p) (b.glyphEnd (b.lead p))) :=
    onTo_wordEnd hb hglyphEnd hends
  have hspan : b.spanAt delimiters .word p =
      ⟨b.wordStart delimiters (b.classAt delimiters p) (b.lead p),
        b.wordEnd delimiters (b.classAt delimiters p) (b.glyphEnd (b.lead p))⟩ := by
    rw [spanAt_of_holds hp]
    unfold spanOf
    dsimp only
    rw [hb.classAt_lead]
  have hle : p ≤ b.glyphEnd (b.lead p) := by
    cases htrail : b.trailAt p with
    | false =>
      rw [lead_eq_self htrail]
      exact b.le_glyphEnd p
    | true =>
      rw [hb.glyphEnd_of_trailAt htrail]
      exact Position.le_refl p
  rw [hspan]
  generalize b.wordStart delimiters (b.classAt delimiters p) (b.lead p) = start at hback
  generalize b.wordEnd delimiters (b.classAt delimiters p) (b.glyphEnd (b.lead p)) = stop at hon
  have hbefore := Position.le_trans hback.le (b.lead_le p)
  have hbehind := Position.le_trans hle hon.le
  refine ⟨⟨⟨⟨Position.le_trans hbefore hbehind, hback.holds, hon.holds, ?_⟩, fun q hq hin => ?_⟩,
    ⟨hbefore, hbehind⟩, fun s hrun hin => ?_⟩, hback.starts, hon.ends⟩
  · have hjoined := hback.joined
    have hjoined' := hon.joined
    rw [line_lead] at hjoined
    rw [line_glyphEnd, line_lead] at hjoined'
    exact hjoined.trans hjoined'
  · -- before the glyph that is hit, behind it, or one of its halves
    by_cases hfrom : b.lead p ≤ q
    · by_cases hto : q ≤ b.glyphEnd (b.lead p)
      · obtain rfl | rfl := eq_of_le_glyphEnd hfrom hto
        · exact hb.classAt_lead delimiters p
        · rw [hb.classAt_glyphEnd delimiters hstarts, hb.classAt_lead]
      · exact hon.passed q hq (Position.lt_of_not_le hto) hin.2
    · exact hback.passed q hq hin.1 (Position.lt_of_not_le hfrom)
  · exact ⟨hback.le_of_run hrun (Position.le_trans (b.lead_le p) hin.2),
      hon.le_of_run hrun (Position.le_trans hin.1 hle)⟩

/-- The search for the first line of a text. -/
theorem joined_textStart (b : Buffer) (line : Nat) :
    b.Joined (b.textStart line) line ∧
      ∀ i, b.textStart line = i + 1 → b.continues i = false := by
  induction line with
  | zero => exact ⟨.refl 0, fun i hi => by cases hi⟩
  | succ line ih =>
    unfold textStart
    split
    · rename_i hgo
      refine ⟨ih.1.trans fun i hge hlt => ?_, ih.2⟩
      obtain rfl : i = line := by omega
      exact hgo
    · rename_i hstop
      refine ⟨.refl _, fun i hi => ?_⟩
      obtain rfl : line = i := Nat.succ.inj hi
      exact Bool.eq_false_iff.2 hstop

/-- The search for the last line of a text. -/
theorem joined_textEnd (b : Buffer) (line : Nat) :
    b.Joined line (b.textEnd line) ∧
      (b.textEnd line + 1 < b.total → b.continues (b.textEnd line) = false) := by
  fun_induction Buffer.textEnd b line with
  | case1 line hgo ih =>
    have hstep : b.Joined line (line + 1) := fun i hge hlt => by
      obtain rfl : i = line := by omega
      exact hgo.2
    exact ⟨hstep.trans ih.1, ih.2⟩
  | case2 line hstop =>
    exact ⟨.refl line, fun hlt => Bool.eq_false_iff.2 fun hgo => hstop ⟨hlt, hgo⟩⟩

/-- **A click at a line takes all that is read in one go.** -/
theorem longest_line (hp : b.Holds p) (delimiters : List Char) :
    (b.spanAt delimiters .line p).Longest b.Chain p := by
  obtain ⟨hline, hcol⟩ := hp
  have hspan : b.spanAt delimiters .line p =
      ⟨⟨b.textStart p.line, 0⟩, ⟨b.textEnd p.line, b.lastCol⟩⟩ := by
    rw [spanAt_of_holds ⟨hline, hcol⟩]
    unfold spanOf
    dsimp only
    rw [line_lead]
  have hlast : b.lastCol < b.cols := by
    unfold lastCol
    omega
  obtain ⟨hup, hfirst⟩ := b.joined_textStart p.line
  obtain ⟨hdown, hend⟩ := b.joined_textEnd p.line
  have hstart := b.textStart_le p.line
  obtain ⟨hstop, hinside⟩ := b.textEnd_bounds p.line
  have hinside := hinside hline
  rw [hspan]
  refine ⟨⟨?_, ⟨Nat.lt_of_le_of_lt hstart hline, by dsimp only; omega⟩, ⟨hinside, hlast⟩,
    hup.trans hdown⟩, ⟨?_, ?_⟩, fun s hchain hin => ⟨?_, ?_⟩⟩
  · rw [Position.le_def]
    dsimp only
    omega
  · rw [Position.le_def]
    dsimp only
    omega
  · rw [Position.le_def]
    dsimp only
    unfold lastCol
    omega
  · -- no line before the first one goes on in it
    have hle : b.textStart p.line ≤ s.first.line := by
      by_contra hnot
      obtain ⟨i, hi⟩ := Nat.exists_eq_succ_of_ne_zero (n := b.textStart p.line) (by omega)
      have hto := Position.line_le hin.2
      have hgo := hchain.joined i (by omega) (by omega)
      rw [hfirst i hi] at hgo
      cases hgo
    rw [Position.le_def]
    dsimp only
    omega
  · -- the last line does not go on in the next one
    have hle : s.last.line ≤ b.textEnd p.line := by
      by_contra hnot
      have hfrom := Position.line_le hin.1
      have hlt := hchain.last.1
      have hgo := hchain.joined (b.textEnd p.line) (by omega) (by omega)
      rw [hend (by omega)] at hgo
      cases hgo
    have hwithin := hchain.last.2
    rw [Position.le_def]
    dsimp only
    unfold lastCol
    omega

/-- **Clicks at words and at lines divide the text.** A click at a word takes the
longest run of whole glyphs around it that are read in one go and are all of the
class of the glyph that it hits. A click at a line takes the longest piece that is
read in one go. A click anywhere else in either of them takes the same piece. The
searches for the ends of all of these come to an end in every buffer, also where
halves of glyphs do not fit together. -/
theorem spanAt_divides (hb : b.Paired) (hp : b.Holds p) (delimiters : List Char) :
    (b.spanAt delimiters .word p).Longest (b.Run delimiters (b.classAt delimiters p)) p ∧
      (b.trailAt (b.spanAt delimiters .word p).first = false ∧
        b.leadAt (b.spanAt delimiters .word p).last = false) ∧
      (b.spanAt delimiters .line p).Longest b.Chain p ∧
      (∀ q, b.Holds q → (b.spanAt delimiters .word p).Contains q →
        b.spanAt delimiters .word q = b.spanAt delimiters .word p) ∧
      (∀ q, b.Holds q → (b.spanAt delimiters .line p).Contains q →
        b.spanAt delimiters .line q = b.spanAt delimiters .line p) ∧
      ∀ b' : Buffer, b'.SearchesEnd delimiters := by
  obtain ⟨hword, hwhole⟩ := longest_word hb hp delimiters
  have hline := longest_line hp delimiters
  refine ⟨hword, hwhole, hline, fun q hq hin => ?_, fun q hq hin => ?_,
    fun b' => b'.searchesEnd delimiters⟩
  · have hword' := (longest_word hb hq delimiters).1
    rw [hword.run.alike q hq hin] at hword'
    exact hword.eq hword' hin
  · exact hline.eq (longest_line hq delimiters) hin

/-- A word that is wrapped behind a wide glyph. A click at its last letter takes it
from the left half of that glyph on, and so does a click at the right half. -/
theorem spanAt_divides_wrapped :
    let b : Buffer := ⟨[⟨[Cell.ofGlyph 'a' {}, Cell.ofGlyph ' ' {}] ++ Cell.halves 2 '\u3042' {},
      .wrapped⟩, ⟨[Cell.ofGlyph 'b' {}, Cell.ofGlyph ',' {}, Cell.ofGlyph 'c' {},
        Cell.ofGlyph ' ' {}], .hard 3⟩], 4⟩
    (b.Paired ∧ b.Holds ⟨1, 0⟩) ∧ b.spanAt [','] .word ⟨1, 0⟩ = ⟨⟨0, 2⟩, ⟨1, 0⟩⟩ ∧
      b.spanAt [','] .word ⟨0, 3⟩ = b.spanAt [','] .word ⟨1, 0⟩ := by
  intro b
  have hsingle := fun glyph => Row.Paired.ofGlyph glyph {}
  have hb : b.Paired := by
    refine ⟨fun row hrow => ?_, fun row hrow => ?_⟩
    · simp only [b, List.mem_cons, List.not_mem_nil, or_false] at hrow
      obtain rfl | rfl := hrow <;> rfl
    · simp only [b, List.mem_cons, List.not_mem_nil, or_false] at hrow
      obtain rfl | rfl := hrow
      · exact ((hsingle 'a').append (hsingle ' ')).append (.halves 2 '\u3042' {})
      · exact (((hsingle 'b').append (hsingle ',')).append (hsingle 'c')).append (hsingle ' ')
  have hp : b.Holds ⟨1, 0⟩ := by decide
  have hspan : b.spanAt [','] .word ⟨1, 0⟩ = ⟨⟨0, 2⟩, ⟨1, 0⟩⟩ := by decide +kernel
  obtain ⟨-, -, -, hword, -⟩ := spanAt_divides hb hp [',']
  refine ⟨⟨hb, hp⟩, hspan, hword ⟨0, 3⟩ (by decide) ?_⟩
  rw [hspan]
  exact ⟨by decide, by decide⟩

end Buffer

end VideoTerminal
