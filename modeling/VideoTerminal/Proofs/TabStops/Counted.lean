import Mathlib.Data.Finset.Dedup
import Mathlib.Data.List.Sort
import Mathlib.Order.Interval.Finset.Nat
import Mathlib.Order.Iterate
import VideoTerminal.Proofs.Checked.TabStops
/-!
# Counted stops

A move over stops searches for the next stop as often as its count says, and
leaves off at the edge when a search finds none (`walk_eq_iterate`). Each search
finds the first stop behind a column in one list, the stops in the order in
which they are met (`nextStop?_eq`, `previousStop?_eq`), so what is proved of a
walk through a list (`iterate_firstBehind`, `length_filter_before`) is proved of
both directions. A move therefore lands on the stop with that number, counted
from the column (`advance_right_eq`, `advance_left_eq`), and moves in one
direction add up.
-/

namespace VideoTerminal

namespace TabStops

/-! ## A walk through a list -/

section Walk

variable {r : Nat → Nat → Prop} [DecidableRel r]
variable {l rest : List Nat} {edge a b n : Nat}

/-- The first element behind a place, or the edge where there is none. -/
def firstBehind (r : Nat → Nat → Prop) [DecidableRel r] (l : List Nat) (edge a : Nat) : Nat :=
  (l.find? (r a ·)).getD edge

theorem firstBehind_eq (l : List Nat) (edge a : Nat) :
    firstBehind r l edge a = (l.filter (r a ·)).head?.getD edge := by
  rw [List.head?_filter]
  rfl

/-- The first element behind a place is one behind it, if it is not the edge. -/
theorem firstBehind_cases (l : List Nat) (edge a : Nat) :
    firstBehind r l edge a = edge ∨
      firstBehind r l edge a ∈ l ∧ r a (firstBehind r l edge a) := by
  unfold firstBehind
  cases hfind : l.find? (r a ·) with
  | none => exact .inl rfl
  | some b =>
    exact .inr ⟨List.mem_of_find?_eq_some hfind, by simpa using List.find?_some hfind⟩

/-- No element behind a place stands before the first one. -/
theorem firstBehind_first (hl : l.Pairwise r) (hb : b ∈ l) (hab : r a b) :
    firstBehind r l edge a = b ∨ r (firstBehind r l edge a) b := by
  have hmem : b ∈ l.filter (r a ·) := List.mem_filter.2 ⟨hb, decide_eq_true hab⟩
  rw [firstBehind_eq]
  cases hfilter : l.filter (r a ·) with
  | nil => exact absurd (hfilter ▸ hmem) List.not_mem_nil
  | cons first rest =>
    rw [hfilter] at hmem
    rcases List.mem_cons.1 hmem with rfl | hin
    · exact .inl rfl
    · exact .inr ((List.pairwise_cons.1 (hfilter ▸ hl.filter _)).1 b hin)

variable [IsStrictOrder Nat r]

omit [DecidableRel r] in
/-- A search through an ordered list depends only on what there is to find. -/
theorem find?_eq_of_mem_iff {l m : List Nat} {p q : Nat → Bool} (hl : l.Pairwise r)
    (hm : m.Pairwise r) (h : ∀ x, x ∈ l ∧ p x = true ↔ x ∈ m ∧ q x = true) :
    l.find? p = m.find? q := by
  have hsame : l.filter p = m.filter q :=
    (hl.filter p).eq_of_mem_iff (hm.filter q) fun x => by
      rw [List.mem_filter, List.mem_filter]
      exact h x
  rw [← List.head?_filter, ← List.head?_filter, hsame]

/-- Behind the first element come the others. -/
theorem filter_behind (hl : l.Pairwise r) (h : l.filter (r a ·) = b :: rest) :
    rest = l.filter (r b ·) := by
  have hb : r a b := by
    have hmem : b ∈ l.filter (r a ·) := h ▸ List.mem_cons_self
    simpa using (List.mem_filter.1 hmem).2
  have hrest : ∀ x ∈ rest, r b x := (List.pairwise_cons.1 (h ▸ hl.filter _)).1
  -- what is behind the first element is behind the place
  have hfilter : l.filter (r b ·) = (l.filter (r a ·)).filter (r b ·) := by
    rw [List.filter_filter]
    refine List.filter_congr fun x _ => ?_
    by_cases hx : r b x
    · simp [hx, trans_of r hb hx]
    · simp [hx]
  rw [hfilter, h, List.filter_cons_of_neg (by simpa using irrefl_of r b),
    List.filter_eq_self.2 fun x hx => decide_eq_true (hrest x hx)]

/-- **The walk**: so many turns lead to the element with that number. -/
theorem iterate_firstBehind (hl : l.Pairwise r) (hedge : ∀ x ∈ l, ¬ r edge x) (n a : Nat) :
    (firstBehind r l edge)^[n + 1] a = (l.filter (r a ·))[n]?.getD edge := by
  have hstays : l.filter (r edge ·) = [] :=
    List.filter_eq_nil_iff.2 fun x hx => by simpa using hedge x hx
  -- the first turn leads to the head of what is behind the place, the others walk on from there
  induction n generalizing a with
  | zero => rw [Function.iterate_one, firstBehind_eq, List.head?_eq_getElem?]
  | succ n ih =>
    rw [Function.iterate_succ_apply, ih, firstBehind_eq]
    cases hfilter : l.filter (r a ·) with
    | nil =>
      -- the first turn leads to the edge, and there the walk stays
      change (l.filter (r edge ·))[n]?.getD edge = edge
      rw [hstays]
      rfl
    | cons first rest =>
      rw [List.getElem?_cons_succ, filter_behind hl hfilter]
      rfl

/-- An element of an ordered list is the one with the number of those before
it. -/
theorem length_filter_before (hl : l.Pairwise r) (h : l[n]? = some b) :
    (l.filter (r · b)).length = n := by
  induction l generalizing n with
  | nil => cases h
  | cons x l ih =>
    obtain ⟨hx, hl⟩ := List.pairwise_cons.1 hl
    cases n with
    | zero =>
      cases h
      -- nothing stands before the head
      have hnone : ∀ y ∈ b :: l, ¬ r y b := by
        intro y hy
        rcases List.mem_cons.1 hy with rfl | hin
        · exact irrefl_of r y
        · exact asymm_of r (hx y hin)
      rw [List.filter_eq_nil_iff.2 fun y hy => by simpa using hnone y hy]
      rfl
    | succ n =>
      rw [List.getElem?_cons_succ] at h
      have hbefore : r x b := hx b (List.mem_of_getElem? h)
      rw [List.filter_cons, if_pos (decide_eq_true hbefore), List.length_cons, ih hl h]

/-- An element with a number is there, or there are fewer and the edge takes its
place. -/
theorem getD_lands {p : Nat → Prop} (edge : Nat) (h : ∀ x, l[n]? = some x → p x) :
    (n + 1 ≤ l.length → p (l[n]?.getD edge)) ∧ (l.length < n + 1 → l[n]?.getD edge = edge) := by
  cases hat : l[n]? with
  | none =>
    have hfew := List.getElem?_eq_none_iff.1 hat
    exact ⟨fun hmany => absurd hmany (Nat.not_le.2 (Nat.lt_succ_of_le hfew)), fun _ => rfl⟩
  | some x =>
    have hmany := (List.getElem?_eq_some_iff.1 hat).1
    exact ⟨fun _ => h x hat, fun hfew => absurd hmany (Nat.not_lt.2 (Nat.le_of_lt_succ hfew))⟩

end Walk

variable (t : TabStops) {col n : Nat}

/-! ## The number of stops -/

/-- Number of stops from a column on, up to another one and without it. -/
def count (first behind : Nat) : Nat :=
  ((Finset.Ico first behind).filter fun col => t.isSet col = true).card

/-- A column is the `n`th stop to the right of another one: `n - 1` stops are
between them. -/
def IsNthRight (col n stop : Nat) : Prop :=
  col < stop ∧ t.isSet stop = true ∧ t.count (col + 1) stop + 1 = n

/-- A column is the `n`th stop to the left of another one. -/
def IsNthLeft (col n stop : Nat) : Prop :=
  stop < col ∧ t.isSet stop = true ∧ t.count (stop + 1) col + 1 = n

theorem lt_cols_of_isSet (h : t.isSet col = true) : col < t.cols := by
  refine Nat.lt_of_not_le fun hout => ?_
  unfold isSet at h
  rw [Array.getElem?_eq_none hout] at h
  cases h

theorem mem_stops : col ∈ t.stops ↔ t.isSet col = true := by
  unfold stops
  rw [List.mem_filter, List.mem_range]
  exact ⟨And.right, fun h => ⟨t.lt_cols_of_isSet h, h⟩⟩

/-- The stops ascend. -/
theorem pairwise_stops : t.stops.Pairwise (· < ·) := List.pairwise_lt_range.filter _

theorem pairwise_reverse_stops : t.stops.reverse.Pairwise (· > ·) :=
  List.pairwise_reverse.2 t.pairwise_stops

/-- Some of the stops, counted. -/
theorem count_eq (first behind : Nat) {p : Nat → Bool}
    (h : ∀ col ∈ t.stops, p col = true ↔ first ≤ col ∧ col < behind) :
    t.count first behind = (t.stops.filter p).length := by
  have hnodup : (t.stops.filter p).Nodup := (t.pairwise_stops.imp Nat.ne_of_lt).filter p
  unfold count
  rw [← List.toFinset_card_of_nodup hnodup]
  congr 1
  ext col
  rw [Finset.mem_filter, Finset.mem_Ico, List.mem_toFinset, List.mem_filter, mem_stops]
  constructor
  · rintro ⟨hin, hset⟩
    exact ⟨hset, (h col (t.mem_stops.2 hset)).2 hin⟩
  · rintro ⟨hset, hp⟩
    exact ⟨(h col (t.mem_stops.2 hset)).1 hp, hset⟩

/-- Among the stops to the right of a column each has the number of its place. -/
theorem isNthRight_of_getElem? {stop : Nat} (h : (t.stops.filter (col < ·))[n]? = some stop) :
    t.IsNthRight col (n + 1) stop := by
  obtain ⟨hmem, hafter⟩ := List.mem_filter.1 (List.mem_of_getElem? h)
  have hbefore := length_filter_before (t.pairwise_stops.filter _) h
  rw [List.filter_filter, ← t.count_eq (col + 1) stop] at hbefore
  · exact ⟨of_decide_eq_true hafter, t.mem_stops.1 hmem, congrArg (· + 1) hbefore⟩
  · intro x _
    rw [Bool.and_eq_true, decide_eq_true_iff, decide_eq_true_iff]
    exact And.comm

/-- Among the stops to the left of a column each has the number of its place,
from behind. -/
theorem isNthLeft_of_getElem? {stop : Nat}
    (h : (t.stops.reverse.filter (col > ·))[n]? = some stop) :
    t.IsNthLeft col (n + 1) stop := by
  obtain ⟨hmem, hafter⟩ := List.mem_filter.1 (List.mem_of_getElem? h)
  have hbefore := length_filter_before (t.pairwise_reverse_stops.filter _) h
  rw [List.filter_filter, List.filter_reverse, List.length_reverse,
    ← t.count_eq (stop + 1) col] at hbefore
  · exact ⟨of_decide_eq_true hafter, t.mem_stops.1 (List.mem_reverse.1 hmem),
      congrArg (· + 1) hbefore⟩
  · intro x _
    rw [Bool.and_eq_true, decide_eq_true_iff, decide_eq_true_iff]
    rfl

/-! ## One stop -/

/-- A search to the right finds the first stop behind the column. -/
theorem nextStop?_eq (col : Nat) : t.nextStop? col = t.stops.find? (col < ·) := by
  refine find?_eq_of_mem_iff List.pairwise_lt_range' t.pairwise_stops fun x => ?_
  rw [List.mem_range'_1, mem_stops, decide_eq_true_iff]
  constructor
  · rintro ⟨⟨hlt, -⟩, hset⟩
    exact ⟨hset, hlt⟩
  · rintro ⟨hset, hlt⟩
    have hcols := t.lt_cols_of_isSet hset
    exact ⟨⟨hlt, by omega⟩, hset⟩

/-- A search to the left finds the first stop before the column, from behind. -/
theorem previousStop?_eq (col : Nat) :
    t.previousStop? col = t.stops.reverse.find? (col > ·) := by
  refine find?_eq_of_mem_iff (List.pairwise_reverse.2 List.pairwise_lt_range)
    t.pairwise_reverse_stops fun x => ?_
  rw [List.mem_reverse, List.mem_range, List.mem_reverse, mem_stops, decide_eq_true_iff]
  exact And.comm

/-- The next stop to the right, or the last column. -/
def next (col : Nat) : Nat := (t.nextStop? col).getD (t.cols - 1)

/-- The next stop to the left, or the first column. -/
def previous (col : Nat) : Nat := (t.previousStop? col).getD 0

theorem next_eq : t.next = firstBehind (· < ·) t.stops (t.cols - 1) := by
  funext col
  unfold next firstBehind
  rw [nextStop?_eq]

theorem previous_eq : t.previous = firstBehind (· > ·) t.stops.reverse 0 := by
  funext col
  unfold previous firstBehind
  rw [previousStop?_eq]

theorem le_last_of_mem (h : col ∈ t.stops) : col ≤ t.cols - 1 :=
  Nat.le_sub_one_of_lt (t.lt_cols_of_isSet (t.mem_stops.1 h))

theorem next_le_last (col : Nat) : t.next col ≤ t.cols - 1 := by
  rw [next_eq]
  rcases firstBehind_cases (r := (· < ·)) t.stops (t.cols - 1) col with h | ⟨hmem, -⟩
  · exact Nat.le_of_eq h
  · exact t.le_last_of_mem hmem

theorem previous_le (col : Nat) : t.previous col ≤ col := by
  rw [previous_eq]
  rcases firstBehind_cases (r := (· > ·)) t.stops.reverse 0 col with h | ⟨-, hlt⟩
  · exact Nat.le_trans (Nat.le_of_eq h) (Nat.zero_le col)
  · exact Nat.le_of_lt hlt

/-- From farther right the next stop is farther right, or the same. -/
theorem monotone_next : Monotone t.next := by
  intro a b hab
  have hlast := t.next_le_last a
  rw [next_eq] at hlast ⊢
  rcases firstBehind_cases (r := (· < ·)) t.stops (t.cols - 1) b with h | ⟨hmem, hb⟩
  · -- no stop is to the right of `b`, and none to the right of `a` is behind the last column
    exact Nat.le_trans hlast (Nat.le_of_eq h.symm)
  · -- the next stop from `b` is one to the right of `a` too
    exact (firstBehind_first t.pairwise_stops hmem (Nat.lt_of_le_of_lt hab hb)).elim
      Nat.le_of_eq Nat.le_of_lt

/-- From farther left the previous stop is farther left, or the same. -/
theorem monotone_previous : Monotone t.previous := by
  intro a b hab
  rw [previous_eq]
  rcases firstBehind_cases (r := (· > ·)) t.stops.reverse 0 a with h | ⟨hmem, ha⟩
  · exact Nat.le_trans (Nat.le_of_eq h) (Nat.zero_le _)
  · exact (firstBehind_first t.pairwise_reverse_stops hmem (Nat.lt_of_lt_of_le ha hab)).elim
      (fun h => Nat.le_of_eq h.symm) Nat.le_of_lt

/-! ## Many stops -/

/-- A walk goes on as if every search found something: once at the edge, it
stays there. -/
theorem walk_eq_iterate {search : Nat → Option Nat} {edge : Nat}
    (hedge : (search edge).getD edge = edge) (n col : Nat) :
    walk search edge n col = (fun col => (search col).getD edge)^[n] col := by
  induction n generalizing col with
  | zero => rfl
  | succ n ih =>
    rw [Function.iterate_succ_apply]
    unfold walk
    cases search col with
    | none =>
      exact (Function.iterate_fixed (f := fun col => (search col).getD edge) hedge n).symm
    | some stop => exact ih stop

theorem next_last : t.next (t.cols - 1) = t.cols - 1 := by
  rw [next_eq]
  rcases firstBehind_cases (r := (· < ·)) t.stops (t.cols - 1) (t.cols - 1) with h | ⟨hmem, hlt⟩
  · exact h
  · exact absurd hlt (Nat.not_lt.2 (t.le_last_of_mem hmem))

/-- **To the right**, a move goes to the next stop as often as it says. -/
theorem advance_right (col n : Nat) :
    t.advance col n = t.next^[n] (min col (t.cols - 1)) :=
  walk_eq_iterate t.next_last n _

/-- **To the left**, a move goes to the previous stop as often as it says. -/
theorem advance_left (col n : Nat) :
    t.advance col (-n) = t.previous^[n] (min col (t.cols - 1)) := by
  cases n with
  | zero => rfl
  | succ n => exact walk_eq_iterate rfl (n + 1) _

/-- A move does not leave the row. -/
theorem advance_le_last (col : Nat) (count : Int) : t.advance col count ≤ t.cols - 1 := by
  obtain ⟨n, rfl | rfl⟩ := count.eq_nat_or_neg
  · rw [advance_right]
    cases n with
    | zero => exact Nat.min_le_right _ _
    | succ n =>
      rw [Function.iterate_succ_apply']
      exact t.next_le_last _
  · rw [advance_left]
    exact Nat.le_trans (Function.iterate_le_id_of_le_id t.previous_le n _) (Nat.min_le_right _ _)

theorem advance_advance_right (col m n : Nat) :
    t.advance (t.advance col m) n = t.advance col (m + n : Nat) := by
  rw [advance_right, Nat.min_eq_left (t.advance_le_last col m), advance_right, advance_right,
    ← Function.iterate_add_apply, Nat.add_comm]

theorem advance_advance_left (col m n : Nat) :
    t.advance (t.advance col (-m)) (-n) = t.advance col (-(m + n : Nat)) := by
  rw [advance_left, Nat.min_eq_left (t.advance_le_last col (-m)), advance_left, advance_left,
    ← Function.iterate_add_apply, Nat.add_comm]

theorem monotone_advance (count : Int) : Monotone fun col => t.advance col count := by
  have hclamp : Monotone fun col => min col (t.cols - 1) := fun _ _ hab => min_le_min_right _ hab
  obtain ⟨n, rfl | rfl⟩ := count.eq_nat_or_neg
  · simp only [advance_right]
    exact (t.monotone_next.iterate n).comp hclamp
  · simp only [advance_left]
    exact (t.monotone_previous.iterate n).comp hclamp

/-! ## The stop with a number -/

theorem length_filter_right (col : Nat) :
    (t.stops.filter (col < ·)).length = t.count (col + 1) t.cols := by
  refine (t.count_eq _ _ fun x hx => ?_).symm
  rw [decide_eq_true_iff]
  exact (and_iff_left (t.lt_cols_of_isSet (t.mem_stops.1 hx))).symm

theorem length_filter_left (col : Nat) :
    (t.stops.reverse.filter (col > ·)).length = t.count 0 col := by
  rw [List.filter_reverse, List.length_reverse]
  refine (t.count_eq _ _ fun x _ => ?_).symm
  rw [decide_eq_true_iff]
  exact (and_iff_right (Nat.zero_le x)).symm

/-- A move to the right lands on a stop of the list by its number. -/
theorem advance_right_eq (hcol : col < t.cols) (n : Nat) :
    t.advance col (n + 1 : Nat) = (t.stops.filter (col < ·))[n]?.getD (t.cols - 1) := by
  rw [advance_right, Nat.min_eq_left (Nat.le_sub_one_of_lt hcol), next_eq]
  exact iterate_firstBehind t.pairwise_stops (fun x hx => Nat.not_lt.2 (t.le_last_of_mem hx)) n col

/-- A move to the left lands on one by its number from behind. -/
theorem advance_left_eq (hcol : col < t.cols) (n : Nat) :
    t.advance col (-(n + 1 : Nat)) = (t.stops.reverse.filter (col > ·))[n]?.getD 0 := by
  rw [advance_left, Nat.min_eq_left (Nat.le_sub_one_of_lt hcol), previous_eq]
  exact iterate_firstBehind t.pairwise_reverse_stops (fun x _ => Nat.not_lt_zero x) n col

theorem advance_right_lands (hcol : col < t.cols) (n : Nat) :
    (n + 1 ≤ t.count (col + 1) t.cols → t.IsNthRight col (n + 1) (t.advance col (n + 1 : Nat))) ∧
      (t.count (col + 1) t.cols < n + 1 → t.advance col (n + 1 : Nat) = t.cols - 1) := by
  rw [t.advance_right_eq hcol, ← length_filter_right]
  exact getD_lands (t.cols - 1) fun _ => t.isNthRight_of_getElem?

theorem advance_left_lands (hcol : col < t.cols) (n : Nat) :
    (n + 1 ≤ t.count 0 col → t.IsNthLeft col (n + 1) (t.advance col (-(n + 1 : Nat)))) ∧
      (t.count 0 col < n + 1 → t.advance col (-(n + 1 : Nat)) = 0) := by
  rw [t.advance_left_eq hcol, ← length_filter_left]
  exact getD_lands 0 fun _ => t.isNthLeft_of_getElem?

/-- **A move over stops counts them exactly**, however they were set and
cleared. To the right it lands on the stop with the number of its count behind
the column, to the left on the one with that number before it, and where there
are fewer on the last column or the first. So moves in one direction add up,
and of two columns the farther one leads farther, or as far. -/
theorem advance_counts :
    (∀ col n : Nat, col < t.cols → 0 < n →
      (n ≤ t.count (col + 1) t.cols → t.IsNthRight col n (t.advance col n)) ∧
        (t.count (col + 1) t.cols < n → t.advance col n = t.cols - 1) ∧
        (n ≤ t.count 0 col → t.IsNthLeft col n (t.advance col (-n))) ∧
        (t.count 0 col < n → t.advance col (-n) = 0)) ∧
      (∀ (col : Nat) (m n : Int), 0 ≤ m ∧ 0 ≤ n ∨ m ≤ 0 ∧ n ≤ 0 →
        t.advance (t.advance col m) n = t.advance col (m + n)) ∧
      ∀ n : Int, Monotone fun col => t.advance col n := by
  refine ⟨fun col n hcol hn => ?_, fun col m n hsign => ?_, t.monotone_advance⟩
  · obtain ⟨n, rfl⟩ := Nat.exists_eq_add_one_of_ne_zero (Nat.ne_of_gt hn)
    obtain ⟨hright, hlast⟩ := t.advance_right_lands hcol n
    obtain ⟨hleft, hfirst⟩ := t.advance_left_lands hcol n
    exact ⟨hright, hlast, hleft, hfirst⟩
  · rcases hsign with ⟨hm, hn⟩ | ⟨hm, hn⟩
    · obtain ⟨m, rfl⟩ := Int.eq_ofNat_of_zero_le hm
      obtain ⟨n, rfl⟩ := Int.eq_ofNat_of_zero_le hn
      rw [t.advance_advance_right, Int.natCast_add]
    · obtain ⟨m, rfl⟩ := Int.exists_eq_neg_ofNat hm
      obtain ⟨n, rfl⟩ := Int.exists_eq_neg_ofNat hn
      rw [t.advance_advance_left, Int.natCast_add, Int.neg_add]

/-- A table with stops in the first column, in the fourth, where one was set,
in the seventeenth and in the last; the one in the ninth was cleared. The last
column is a stop and the edge, and so is the first. -/
theorem advance_counts_edges :
    let t := (((fresh 20).clear 8).set 3).set 19
    (3 < t.cols ∧ 2 ≤ t.count 4 t.cols ∧ t.count 4 t.cols < 4 ∧ 1 ≤ t.count 0 3 ∧
        t.count 0 3 < 2) ∧
      (t.IsNthRight 3 2 (t.advance 3 2) ∧ t.advance 3 2 = 19 ∧ t.advance 3 4 = t.cols - 1) ∧
      (t.IsNthLeft 3 1 (t.advance 3 (-1)) ∧ t.advance 3 (-1) = 0 ∧ t.advance 3 (-2) = 0) ∧
      t.advance (t.advance 0 1) 2 = t.advance 0 3 ∧
      t.advance (t.advance 17 (-2)) (-1) = t.advance 17 (-3) ∧
      t.advance 3 (-1) ≤ t.advance 17 (-1) := by
  intro t
  have hbounds : 3 < t.cols ∧ 2 ≤ t.count 4 t.cols ∧ t.count 4 t.cols < 4 ∧ 1 ≤ t.count 0 3 ∧
      t.count 0 3 < 2 := by decide
  obtain ⟨hcol, hright, hlast, hleft, hfirst⟩ := hbounds
  obtain ⟨hcounts, hadd, hmono⟩ := t.advance_counts
  refine ⟨⟨hcol, hright, hlast, hleft, hfirst⟩,
    ⟨(hcounts 3 2 hcol (by decide)).1 hright, by decide, (hcounts 3 4 hcol (by decide)).2.1 hlast⟩,
    ⟨(hcounts 3 1 hcol (by decide)).2.2.1 hleft, by decide,
      (hcounts 3 2 hcol (by decide)).2.2.2 hfirst⟩,
    hadd 0 1 2 (.inl (by decide)), hadd 17 (-2) (-1) (.inr (by decide)), ?_⟩
  exact hmono (-1) (show 3 ≤ 17 by decide)

end TabStops

end VideoTerminal
