import Mathlib.Data.List.Basic
import VideoTerminal.Rendition.Select
/-!
# Codes in one list or in two

In a list of codes the same number is a code in one place and an argument in
another, depending on what stands before it. `readings` are the places where
numbers are read as codes. A list that does not end inside an extended colour
leaves none of its arguments to what follows it, so that the codes behind it
are read as they would be alone (`readings_append`), and two lists select in
turn what they select as one.
-/

namespace VideoTerminal

/-- The flags that no code but the one that resets ever changes: the fonts and
the marks of a wide glyph. -/
def Flags.withoutAttributes (f : Flags) : Flags :=
  { f with
    bold := false
    dim := false
    underline := false
    blink := false
    reverse := false
    hidden := false }

namespace Rendition

/-- The numbers of a list that are read as codes, each with those behind it. -/
def readings : List Nat → List (Nat × List Nat)
  | [] => []
  | code :: rest =>
    if code = 38 ∨ code = 48 then (code, rest) :: readings (extendedColour rest).2
    else (code, rest) :: readings rest
termination_by codes => codes.length
decreasing_by
  · have := extendedColour_length_le rest
    simp only [List.length_cons]
    omega
  · simp

/-- Behind the code for an extended colour, its arguments are complete, or
something stands that is no argument. -/
def endsWithin : List Nat → Bool
  | [] => false
  | 5 :: rest => !rest.isEmpty
  | 2 :: rest => 3 ≤ rest.length
  | _ => true

/-- A code for an extended colour. -/
def isExtended (reading : Nat × List Nat) : Bool := reading.1 = 38 ∨ reading.1 = 48

/-- The list does not end inside an extended colour: the last code for one, if
there is any, has its arguments within the list. -/
def EndsOutside (codes : List Nat) : Prop :=
  ∀ reading, ((readings codes).filter isExtended).getLast? = some reading →
    endsWithin reading.2 = true

/-- The list resets: it is empty, or zero is read as a code in it. -/
def Resets (codes : List Nat) : Prop := codes = [] ∨ ∃ reading ∈ readings codes, reading.1 = 0

instance (codes : List Nat) : Decidable (Resets codes) := inferInstanceAs (Decidable (_ ∨ _))

variable {a b codes rest : List Nat} {code : Nat}

/-! ## Arguments -/

/-- What is no argument is not taken. -/
theorem extendedColour_other {n : Nat} (hindexed : n ≠ 5) (hmixed : n ≠ 2) (rest : List Nat) :
    extendedColour (n :: rest) = (none, n :: rest) := by
  unfold extendedColour
  split <;> simp_all

/-- Complete arguments stay what they are, whatever follows. -/
theorem extendedColour_append (h : endsWithin rest = true) (more : List Nat) :
    extendedColour (rest ++ more) =
      ((extendedColour rest).1, (extendedColour rest).2 ++ more) := by
  cases rest with
  | nil => cases h
  | cons n rest =>
    by_cases hindexed : n = 5
    · subst hindexed
      cases rest with
      | nil => cases h
      | cons index rest => rfl
    · by_cases hmixed : n = 2
      · subst hmixed
        match rest, h with
        | red :: green :: blue :: rest, _ => rfl
      · rw [List.cons_append, extendedColour_other hindexed hmixed,
          extendedColour_other hindexed hmixed]
        rfl

/-- Arguments that break off take all that is left. -/
theorem extendedColour_of_not (h : endsWithin rest = false) : (extendedColour rest).2 = [] := by
  unfold endsWithin at h
  split at h
  · rfl
  · rename_i rest
    cases rest with
    | nil => rfl
    | cons index rest => cases h
  · rename_i rest
    match rest, h with
    | [], _ => rfl
    | [_], _ => rfl
    | [_, _], _ => rfl
    | _ :: _ :: _ :: _, h => simp at h
  · cases h

/-! ## Lists one behind the other -/

/-- A code for an extended colour that is not the last one has its arguments
within the list, since otherwise nothing would be left for the last one. -/
theorem EndsOutside.endsWithin (h : EndsOutside codes) :
    ∀ reading ∈ readings codes, isExtended reading = true → endsWithin reading.2 = true := by
  fun_induction readings codes with
  | case1 => exact fun _ hmem => absurd hmem List.not_mem_nil
  | case2 code rest hextended ih =>
    unfold EndsOutside at h
    have htakes : isExtended (code, rest) = true := decide_eq_true hextended
    rw [readings, if_pos hextended, List.filter_cons_of_pos htakes, List.getLast?_cons] at h
    refine List.forall_mem_cons.2 ⟨fun _ => ?_, ih fun reading hlast => h reading ?_⟩
    · cases hwithin : Rendition.endsWithin rest with
      | true => rfl
      | false =>
        -- nothing is left behind it, so it is the last one
        rw [extendedColour_of_not hwithin, readings] at h
        exact hwithin.symm.trans (h (code, rest) rfl)
    · rw [hlast]
      rfl
  | case3 code rest hplain ih =>
    unfold EndsOutside at h
    have htakes : ¬ isExtended (code, rest) = true :=
      fun htakes => hplain (of_decide_eq_true htakes)
    rw [readings, if_neg hplain, List.filter_cons_of_neg htakes] at h
    exact List.forall_mem_cons.2 ⟨fun hextended => absurd hextended htakes, ih h⟩

/-- **Each number is read as it is in its own list.** -/
theorem readings_append (h : EndsOutside a) (b : List Nat) :
    readings (a ++ b) =
      (readings a).map (fun reading => (reading.1, reading.2 ++ b)) ++ readings b := by
  have hall := h.endsWithin
  clear h
  fun_induction readings a with
  | case1 => rfl
  | case2 code rest hextended ih =>
    obtain ⟨hfirst, hrest⟩ := List.forall_mem_cons.1 hall
    have hwithin := hfirst (decide_eq_true hextended)
    rw [List.cons_append, readings, if_pos hextended, extendedColour_append hwithin, ih hrest]
    rfl
  | case3 code rest hplain ih =>
    rw [List.cons_append, readings, if_neg hplain, ih (List.forall_mem_cons.1 hall).2]
    rfl

/-- The effect of a code with what stands behind it. -/
def read (r : Rendition) (reading : Nat × List Nat) : Rendition :=
  if reading.1 = 38 ∨ reading.1 = 48 then
    r.selectColour reading.1 (extendedColour reading.2).1
  else r.selectOne reading.1

/-- Selecting is reading one code after the other. -/
theorem selectAll_eq_foldl (r : Rendition) (codes : List Nat) :
    r.selectAll codes = (readings codes).foldl read r := by
  fun_induction selectAll r codes with
  | case1 => rw [readings, List.foldl_nil]
  | case2 r code rest hextended ih =>
    rw [readings, if_pos hextended, List.foldl_cons, ih]
    unfold read
    rw [if_pos hextended]
  | case3 r code rest hplain ih =>
    rw [readings, if_neg hplain, List.foldl_cons, ih]
    unfold read
    rw [if_neg hplain]

theorem selectAll_append (h : EndsOutside a) (r : Rendition) (b : List Nat) :
    r.selectAll (a ++ b) = (r.selectAll a).selectAll b := by
  have hread : ∀ reading ∈ readings a, ∀ r : Rendition,
      r.read (reading.1, reading.2 ++ b) = r.read reading := by
    intro reading hmem r
    unfold read
    dsimp only
    split
    · rename_i hextended
      rw [extendedColour_append (h.endsWithin reading hmem (decide_eq_true hextended))]
    · rfl
  rw [selectAll_eq_foldl, selectAll_eq_foldl, selectAll_eq_foldl, readings_append h,
    List.foldl_append, List.foldl_map]
  exact congrArg (List.foldl read · (readings b))
    (List.foldl_ext _ _ r fun r reading hmem => hread reading hmem r)

/-- **Lists compose**: two lists, none of them empty, select one after the
other what they select as one, if the first one does not end inside an extended
colour. -/
theorem select_append (ha : a ≠ []) (hb : b ≠ []) (h : EndsOutside a) (r : Rendition) :
    r.select (a ++ b) = (r.select a).select b := by
  have hselect : ∀ (r : Rendition) {codes : List Nat}, codes ≠ [] →
      r.select codes = r.selectAll codes :=
    fun r codes hne => if_neg fun hempty => hne (List.isEmpty_iff.1 hempty)
  rw [hselect r ha, hselect _ hb, hselect r (List.append_ne_nil_of_left_ne_nil ha b),
    selectAll_append h]

/-! ## The other flags -/

theorem withoutAttributes_selectOne (r : Rendition) (code : Nat) :
    (r.selectOne code).flags.withoutAttributes =
      if code = 0 then {} else r.flags.withoutAttributes := by
  by_cases hzero : code = 0
  · rw [if_pos hzero, hzero]
    rfl
  · rw [if_neg hzero]
    unfold selectOne
    split
    · exact absurd rfl hzero
    all_goals repeat' split
    all_goals rfl

theorem flags_selectColour (r : Rendition) (code : Nat) (colour : Option Colour) :
    (r.selectColour code colour).flags = r.flags := by
  unfold selectColour
  split
  · rfl
  · split <;> rfl

theorem withoutAttributes_read (r : Rendition) (reading : Nat × List Nat) :
    (r.read reading).flags.withoutAttributes =
      if reading.1 = 0 then {} else r.flags.withoutAttributes := by
  unfold read
  split
  · rename_i hextended
    rw [flags_selectColour, if_neg (by omega)]
  · exact withoutAttributes_selectOne r reading.1

theorem withoutAttributes_foldl_read (r : Rendition) (list : List (Nat × List Nat)) :
    (list.foldl read r).flags.withoutAttributes =
      if ∃ reading ∈ list, reading.1 = 0 then {} else r.flags.withoutAttributes := by
  induction list generalizing r with
  | nil => exact (if_neg fun ⟨_, hmem, _⟩ => absurd hmem List.not_mem_nil).symm
  | cons first list ih =>
    rw [List.foldl_cons, ih, withoutAttributes_read]
    simp only [List.exists_mem_cons_iff]
    by_cases hrest : ∃ reading ∈ list, reading.1 = 0
    · rw [if_pos hrest, if_pos (Or.inr hrest)]
    · rw [if_neg hrest]
      exact if_congr (or_iff_left hrest).symm rfl rfl

/-- **No other flag changes, but by a reset**, which clears them all. -/
theorem withoutAttributes_select (r : Rendition) (codes : List Nat) :
    (r.select codes).flags.withoutAttributes =
      if Resets codes then {} else r.flags.withoutAttributes := by
  unfold select
  by_cases hempty : codes = []
  · have hresets : Resets codes := Or.inl hempty
    rw [if_pos (List.isEmpty_iff.2 hempty), if_pos hresets]
    rfl
  · have hresets : Resets codes ↔ ∃ reading ∈ readings codes, reading.1 = 0 :=
      or_iff_right hempty
    rw [if_neg fun h => hempty (List.isEmpty_iff.1 h), selectAll_eq_foldl,
      withoutAttributes_foldl_read]
    exact if_congr hresets.symm rfl rfl

end Rendition

end VideoTerminal
