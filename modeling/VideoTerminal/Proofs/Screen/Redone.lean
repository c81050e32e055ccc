import Mathlib.Data.List.Induction
import VideoTerminal.Proofs.Screen.Sound
import VideoTerminal.Terminal.Modes
/-!
# Switching modes to what they are

A mode that is switched to the value that it has is switched all the same, with
all that comes with it: the width of lines erases the screen, the origin brings
the cursor home, and the saved cursor is come back to when the primary screen is
shown once more. What a run of such switches does to a screen is said here by the
modes of the run (`Redone`): what was erased by those that erase, where the cursor
is by the last one that moves it. So it can be read off the run whether it leaves
the screen as it was (`Redone.alike_iff`).
-/

namespace VideoTerminal

/-! ## Kinds of modes -/

namespace PrivateMode

/-- Shown once more, the primary screen comes back to its saved cursor. -/
def comesBack (kind : ScreenKind) (mode : PrivateMode) : Bool :=
  mode == .alternateSaved && kind == .primary

/-- Switching the mode erases the screen. The alternate one is erased when it is
shown once more. -/
def erases (kind : ScreenKind) (mode : PrivateMode) : Bool :=
  mode == .wideLines || (mode == .alternateSaved && kind == .alternate)

/-- Switching the mode moves the cursor. -/
def moves (kind : ScreenKind) (mode : PrivateMode) : Bool :=
  mode == .wideLines || mode == .origin || mode.comesBack kind

/-- Switching the mode cancels a pending wrap. -/
def cancels (mode : PrivateMode) : Bool :=
  mode == .wideLines || mode == .origin || mode == .alternateSaved

/-- Switching the mode switches the wrapping of lines. -/
def setsAutowrap (kind : ScreenKind) (mode : PrivateMode) : Bool :=
  mode == .autowrap || mode.comesBack kind

/-- Switching the mode switches where rows are counted from. -/
def setsOrigin (kind : ScreenKind) (mode : PrivateMode) : Bool :=
  mode == .origin || mode.comesBack kind

/-- The last mode of a run that is of a kind. -/
def last? (p : PrivateMode → Bool) (modes : List PrivateMode) : Option PrivateMode :=
  modes.reverse.find? p

section Concat

variable {p : PrivateMode → Bool} {modes : List PrivateMode} {mode : PrivateMode}

theorem last?_concat (h : p mode = true) : last? p (modes ++ [mode]) = some mode := by
  unfold last?
  rw [List.reverse_append, List.reverse_singleton, List.singleton_append, List.find?_cons, h]

theorem last?_concat_of_not (h : p mode = false) : last? p (modes ++ [mode]) = last? p modes := by
  unfold last?
  rw [List.reverse_append, List.reverse_singleton, List.singleton_append, List.find?_cons, h]

theorem any_concat (h : p mode = true) : (modes ++ [mode]).any p = true := by
  rw [List.any_append, List.any_cons, h, Bool.true_or, Bool.or_true]

theorem any_concat_of_not (h : p mode = false) : (modes ++ [mode]).any p = modes.any p := by
  rw [List.any_append, List.any_cons, List.any_nil, h, Bool.or_false, Bool.or_false]

theorem mem_concat_of_ne {mode' : PrivateMode} (h : mode' ≠ mode) :
    mode' ∈ modes ++ [mode] ↔ mode' ∈ modes := by
  rw [List.mem_append, List.mem_singleton, or_iff_left h]

end Concat

theorem mem_of_last? {p : PrivateMode → Bool} {modes : List PrivateMode} {mode : PrivateMode}
    (h : last? p modes = some mode) : mode ∈ modes :=
  List.mem_reverse.1 (List.mem_of_find?_eq_some h)

theorem last?_eq_none {p : PrivateMode → Bool} {modes : List PrivateMode}
    (h : modes.any p = false) : last? p modes = none :=
  List.find?_eq_none.2 fun mode hmem => List.any_eq_false.1 h mode (List.mem_reverse.1 hmem)

end PrivateMode

namespace Screen

/-- What can be told of two screens by their cells, cursors, renditions and modes is
the same. -/
structure Alike (s s' : Screen) : Prop where
  cells : s'.grid.rows.map Row.cells = s.grid.rows.map Row.cells
  cursor : s'.cursor = s.cursor
  rendition : s'.rendition = s.rendition
  modes : s'.modes = s.modes

theorem Alike.refl (s : Screen) : s.Alike s := ⟨rfl, rfl, rfl, rfl⟩

theorem Alike.trans {s s' s'' : Screen} (h : s.Alike s') (h' : s'.Alike s'') : s.Alike s'' :=
  ⟨h'.cells.trans h.cells, h'.cursor.trans h.cursor, h'.rendition.trans h.rendition,
    h'.modes.trans h.modes⟩

/-- Switch a mode of the screen that is shown to the value that it has on `s₀`. -/
def redo (kind : ScreenKind) (s₀ s : Screen) : PrivateMode → Screen
  | .wideLines => (s.setRegion 0 s.lastRow).eraseScreen .all
  | .origin => { s with modes.origin := s₀.modes.origin }.home
  | .autowrap => s.setAutowrap s₀.modes.autowrap
  | .cursorVisible => { s with modes.cursorVisible := s₀.modes.cursorVisible }
  | .alternateSaved =>
    match kind with
    | .primary => s.restoreCursor
    | .alternate => s.eraseScreen .all
  | _ => s

/-- Where a mode moves the cursor of a screen that is switched by a run. -/
def placeOf (s : Screen) (modes : List PrivateMode) : PrivateMode → Cursor
  | .wideLines => {}
  | .origin => ⟨if s.modes.origin ∧ .wideLines ∉ modes then s.region.top else 0, 0⟩
  | _ => s.restoreCursor.cursor

/-- Where the cursor is after a run of switches. -/
def placeAfter (s : Screen) (kind : ScreenKind) (modes : List PrivateMode) : Cursor :=
  match PrivateMode.last? (PrivateMode.moves kind) modes with
  | none => s.cursor
  | some mode => s.placeOf modes mode

/-- What a run of switches leaves of a screen `s₀`, each of which switches a mode to
the value that it has there. -/
structure Redone (kind : ScreenKind) (s₀ : Screen) (modes : List PrivateMode) (s : Screen) :
    Prop where
  lastRow : s.lastRow = s₀.lastRow
  lastCol : s.lastCol = s₀.lastCol
  saved : s.saved = s₀.saved
  wraps : s.wrapsByDefault = s₀.wrapsByDefault
  region : s.region = if .wideLines ∈ modes then s₀.fullRegion else s₀.region
  cursor : s.cursor = s₀.placeAfter kind modes
  rendition : s.rendition =
    if modes.any (PrivateMode.comesBack kind) then s₀.restoreCursor.rendition else s₀.rendition
  autowrap : s.modes.autowrap =
    if PrivateMode.last? (PrivateMode.setsAutowrap kind) modes = some .alternateSaved
    then s₀.restoreCursor.modes.autowrap else s₀.modes.autowrap
  origin : s.modes.origin =
    if PrivateMode.last? (PrivateMode.setsOrigin kind) modes = some .alternateSaved
    then s₀.restoreCursor.modes.origin else s₀.modes.origin
  insert : s.modes.insert = s₀.modes.insert
  visible : s.modes.cursorVisible = s₀.modes.cursorVisible
  wrapPending : s.modes.wrapPending =
    (s₀.modes.wrapPending && !modes.any PrivateMode.cancels)
  /-- As long as the rendition stays, all that is erased is blank in it. -/
  cells : (modes.any (PrivateMode.comesBack kind) = true →
      s₀.restoreCursor.rendition = s₀.rendition) →
    s.grid.rows.map Row.cells =
      if modes.any (PrivateMode.erases kind)
      then (s₀.grid.rows.map Row.cells).map fun cells =>
        List.replicate cells.length (Cell.blank s₀.eraser)
      else s₀.grid.rows.map Row.cells

/-- A run of switches finds nothing to do on a screen: no wrap is pending that it
would cancel, what it would erase is blank, the cursor is where it would be moved,
and what the saved cursor was saved with is what there is. -/
structure Idle (kind : ScreenKind) (modes : List PrivateMode) (s : Screen) : Prop where
  wrap : s.modes.wrapPending = true → modes.any PrivateMode.cancels = false
  blank : modes.any (PrivateMode.erases kind) = true →
    ∀ row ∈ s.grid.rows, ∀ cell ∈ row.cells, cell = Cell.blank s.eraser
  place : s.placeAfter kind modes = s.cursor
  rendition : modes.any (PrivateMode.comesBack kind) = true →
    s.restoreCursor.rendition = s.rendition
  /-- A switch of the wrapping that comes later would make good for it. -/
  autowrap : PrivateMode.last? (PrivateMode.setsAutowrap kind) modes = some .alternateSaved →
    s.restoreCursor.modes.autowrap = s.modes.autowrap
  origin : PrivateMode.last? (PrivateMode.setsOrigin kind) modes = some .alternateSaved →
    s.restoreCursor.modes.origin = s.modes.origin

/-! ## One switch -/

variable {P : Nat → Row → Prop} {kind shown : ScreenKind} {rows cols : Nat} {s₀ s s' : Screen}
  {modes : List PrivateMode} {mode : PrivateMode}

theorem clamp_low {low high : Nat} (h : low ≤ high) : clamp low high low = low := by
  unfold clamp
  omega

/-- The first place, of the region in origin mode. -/
theorem home_eq (h : s.region.top ≤ s.region.bottom) :
    s.home =
      { s.cancelWrap with cursor := ⟨if s.modes.origin then s.region.top else 0, 0⟩ } := by
  have hrow : s.targetRow (.absolute 0) = if s.modes.origin then s.region.top else 0 := by
    change (if s.modes.origin = true then
      clamp s.region.top s.region.bottom (0 + (s.region.top : Int)) else clamp 0 s.lastRow 0) = _
    rw [Int.zero_add, clamp_low h]
    exact congrArg _ (clamp_low (Nat.zero_le s.lastRow))
  have hcol : s.targetColumn (.absolute 0) = 0 := clamp_low (Nat.zero_le _)
  unfold home goto
  rw [hrow, hcol]

/-- The whole screen scrolls, and the cursor is in its first place. -/
theorem setRegion_full (s : Screen) :
    s.setRegion 0 s.lastRow = { s.cancelWrap with region := s.fullRegion, cursor := {} } := by
  have hregion : (if 0 ≤ min s.lastRow s.lastRow then ⟨0, min s.lastRow s.lastRow⟩
      else s.fullRegion : Region) = s.fullRegion := by
    rw [if_pos (Nat.zero_le _), Nat.min_self]
    rfl
  have hhome := home_eq (s := { s with region := s.fullRegion }) (Nat.zero_le _)
  change _ = ({ s.cancelWrap with
    region := s.fullRegion, cursor := ⟨if s.modes.origin = true then 0 else 0, 0⟩ } : Screen)
    at hhome
  rw [ite_self] at hhome
  unfold setRegion
  dsimp only
  rw [hregion]
  exact hhome

/-- Erasing leaves blanks in every cell. -/
theorem cells_eraseScreen_all (s : Screen) :
    (s.eraseScreen .all).grid.rows.map Row.cells =
      (s.grid.rows.map Row.cells).map fun cells =>
        List.replicate cells.length (Cell.blank s.eraser) := by
  refine List.ext_getElem? fun i => ?_
  change (List.map Row.cells (s.grid.rows.mapIdx fun i row =>
    if 0 ≤ i && i < s.height then row.reset s.eraser else row))[i]? = _
  rw [List.getElem?_map, List.getElem?_mapIdx, List.getElem?_map, List.getElem?_map]
  by_cases hi : i < s.grid.rows.length
  · have hin : (decide (0 ≤ i) && decide (i < s.height)) = true := by
      rw [decide_eq_true (Nat.zero_le i), Bool.true_and]
      exact decide_eq_true hi
    rw [List.getElem?_eq_getElem hi]
    dsimp only [Option.map_some]
    rw [if_pos hin]
    rfl
  · rw [List.getElem?_eq_none (Nat.le_of_not_lt hi)]
    rfl

theorem lastRow_eraseScreen_all (s : Screen) : (s.eraseScreen .all).lastRow = s.lastRow :=
  congrArg (· - 1) (List.length_mapIdx (l := s.grid.rows))

/-- Coming back depends on no more than what was saved and the size. -/
theorem restoreCursor_congr (hrow : s.lastRow = s₀.lastRow) (hcol : s.lastCol = s₀.lastCol)
    (hsaved : s.saved = s₀.saved) (hwraps : s.wrapsByDefault = s₀.wrapsByDefault) :
    s.restoreCursor.cursor = s₀.restoreCursor.cursor ∧
      s.restoreCursor.rendition = s₀.restoreCursor.rendition ∧
      s.restoreCursor.modes.autowrap = s₀.restoreCursor.modes.autowrap ∧
      s.restoreCursor.modes.origin = s₀.restoreCursor.modes.origin := by
  unfold restoreCursor
  dsimp only
  rw [hrow, hcol, hsaved, hwraps]
  exact ⟨rfl, rfl, rfl, rfl⟩

namespace Redone

theorem nil (kind : ScreenKind) (s₀ : Screen) : s₀.Redone kind [] s₀ where
  lastRow := rfl
  lastCol := rfl
  saved := rfl
  wraps := rfl
  region := rfl
  cursor := rfl
  rendition := rfl
  autowrap := rfl
  origin := rfl
  insert := rfl
  visible := rfl
  wrapPending := (Bool.and_true _).symm
  cells _ := rfl

/-- What is erased once more is as blank as before. -/
theorem cells_erased (h : s₀.Redone kind modes s)
    (hback : modes.any (PrivateMode.comesBack kind) = true →
      s₀.restoreCursor.rendition = s₀.rendition) :
    ((s.grid.rows.map Row.cells).map fun cells =>
        List.replicate cells.length (Cell.blank s.eraser)) =
      (s₀.grid.rows.map Row.cells).map fun cells =>
        List.replicate cells.length (Cell.blank s₀.eraser) := by
  have hrendition : s.rendition = s₀.rendition := by
    rw [h.rendition]
    split
    · rename_i hany
      exact hback hany
    · rfl
  have heraser : s.eraser = s₀.eraser := congrArg Rendition.blank hrendition
  rw [heraser, h.cells hback]
  split
  · rw [List.map_map]
    refine List.map_congr_left fun cells _ => ?_
    rw [Function.comp_apply, List.length_replicate]
  · rfl

/-- The size of a screen, what is saved of it, and the modes that no switch of a run
changes. -/
structure Frame (s s' : Screen) : Prop where
  lastRow : s'.lastRow = s.lastRow
  lastCol : s'.lastCol = s.lastCol
  saved : s'.saved = s.saved
  wraps : s'.wrapsByDefault = s.wrapsByDefault
  insert : s'.modes.insert = s.modes.insert
  visible : s'.modes.cursorVisible = s.modes.cursorVisible

/-- **One switch more.** Each kind of modes changes what is its own. -/
theorem step (h : s₀.Redone kind modes s) (mode : PrivateMode) (hframe : Frame s s')
    (hregion : s'.region = if mode = .wideLines then s₀.fullRegion else s.region)
    (hcursor : s'.cursor =
      if mode.moves kind then s₀.placeOf (modes ++ [mode]) mode else s.cursor)
    (hrendition : s'.rendition =
      if mode.comesBack kind then s₀.restoreCursor.rendition else s.rendition)
    (hautowrap : s'.modes.autowrap =
      if mode.setsAutowrap kind then
        if mode = .alternateSaved then s₀.restoreCursor.modes.autowrap else s₀.modes.autowrap
      else s.modes.autowrap)
    (horigin : s'.modes.origin =
      if mode.setsOrigin kind then
        if mode = .alternateSaved then s₀.restoreCursor.modes.origin else s₀.modes.origin
      else s.modes.origin)
    (hwrap : s'.modes.wrapPending = (s.modes.wrapPending && !mode.cancels))
    (hcells : s'.grid.rows.map Row.cells =
      if mode.erases kind then (s.grid.rows.map Row.cells).map fun cells =>
        List.replicate cells.length (Cell.blank s.eraser)
      else s.grid.rows.map Row.cells) :
    s₀.Redone kind (modes ++ [mode]) s' where
  lastRow := hframe.lastRow.trans h.lastRow
  lastCol := hframe.lastCol.trans h.lastCol
  saved := hframe.saved.trans h.saved
  wraps := hframe.wraps.trans h.wraps
  insert := hframe.insert.trans h.insert
  visible := hframe.visible.trans h.visible
  region := by
    rw [hregion, h.region]
    by_cases hwide : mode = .wideLines
    · rw [if_pos hwide, if_pos (by rw [hwide]; exact List.mem_concat_self)]
    · rw [if_neg hwide]
      simp only [PrivateMode.mem_concat_of_ne (Ne.symm hwide)]
  cursor := by
    rw [hcursor]
    unfold placeAfter
    cases hmoves : mode.moves kind with
    | true =>
      rw [PrivateMode.last?_concat hmoves]
      rfl
    | false =>
      -- a mode that does not move the cursor does not change the region either
      have hwide : mode ≠ .wideLines := by
        rintro rfl
        cases hmoves
      have hplace : s₀.placeOf (modes ++ [mode]) = s₀.placeOf modes := by
        funext moved
        unfold placeOf
        simp only [PrivateMode.mem_concat_of_ne (Ne.symm hwide)]
      rw [PrivateMode.last?_concat_of_not hmoves, hplace]
      exact h.cursor
  rendition := by
    rw [hrendition]
    cases hback : mode.comesBack kind with
    | true =>
      rw [PrivateMode.any_concat hback]
      rfl
    | false =>
      rw [PrivateMode.any_concat_of_not hback]
      exact h.rendition
  autowrap := by
    rw [hautowrap]
    cases hsets : mode.setsAutowrap kind with
    | true =>
      rw [PrivateMode.last?_concat hsets]
      simp only [if_true, Option.some.injEq]
    | false =>
      rw [PrivateMode.last?_concat_of_not hsets]
      exact h.autowrap
  origin := by
    rw [horigin]
    cases hsets : mode.setsOrigin kind with
    | true =>
      rw [PrivateMode.last?_concat hsets]
      simp only [if_true, Option.some.injEq]
    | false =>
      rw [PrivateMode.last?_concat_of_not hsets]
      exact h.origin
  wrapPending := by
    rw [hwrap, h.wrapPending, List.any_append, List.any_cons, List.any_nil, Bool.or_false,
      Bool.not_or, Bool.and_assoc]
  cells hback := by
    have hbefore : modes.any (PrivateMode.comesBack kind) = true →
        s₀.restoreCursor.rendition = s₀.rendition := fun hany =>
      hback (by rw [List.any_append, hany, Bool.true_or])
    rw [hcells]
    cases herases : mode.erases kind with
    | true =>
      rw [PrivateMode.any_concat herases]
      exact h.cells_erased hbefore
    | false =>
      rw [PrivateMode.any_concat_of_not herases]
      exact h.cells hbefore

/-- Each mode, switched to what it is. -/
theorem redo (hs : s₀.Sound P shown rows cols) (h : s₀.Redone kind modes s) (mode : PrivateMode) :
    s₀.Redone kind (modes ++ [mode]) (Screen.redo kind s₀ s mode) := by
  have hregion : s.region.top ≤ s.region.bottom := by
    rw [h.region]
    split
    · exact Nat.zero_le _
    · exact hs.ordered
  cases mode with
  | wideLines =>
    have hfull : s.fullRegion = s₀.fullRegion := congrArg (Region.mk 0) h.lastRow
    change s₀.Redone kind _ ((s.setRegion 0 s.lastRow).eraseScreen .all)
    rw [setRegion_full]
    exact h.step _ ⟨lastRow_eraseScreen_all _, rfl, rfl, rfl, rfl, rfl⟩ hfull rfl rfl rfl rfl
      (Bool.and_false _).symm (cells_eraseScreen_all _)
  | origin =>
    have htop : (if s₀.modes.origin = true then s.region.top else 0) =
        if s₀.modes.origin = true ∧ .wideLines ∉ modes ++ [.origin] then s₀.region.top else 0 := by
      have hmem : PrivateMode.wideLines ∈ modes ++ [.origin] ↔ PrivateMode.wideLines ∈ modes :=
        PrivateMode.mem_concat_of_ne (by decide)
      rw [h.region]
      by_cases hwide : PrivateMode.wideLines ∈ modes
      · -- the region of the whole screen begins in the first row
        simp only [hmem, hwide, not_true_eq_false, and_false, if_true, if_false]
        exact ite_self 0
      · simp only [hmem, hwide, not_false_eq_true, and_true, if_false]
    change s₀.Redone kind _ (({ s with modes.origin := s₀.modes.origin } : Screen).home)
    rw [home_eq (s := { s with modes.origin := s₀.modes.origin }) hregion]
    exact h.step _ ⟨rfl, rfl, rfl, rfl, rfl, rfl⟩ rfl (congrArg (Cursor.mk · 0) htop) rfl rfl rfl
      (Bool.and_false _).symm rfl
  | autowrap =>
    have hwrap : (s.modes.wrapPending && s₀.modes.autowrap) = (s.modes.wrapPending && true) := by
      cases hpending : s.modes.wrapPending with
      | false => rfl
      | true =>
        -- a wrap was pending from the start, so that lines wrap
        have hboth := h.wrapPending.symm.trans hpending
        rw [(hs.wrap (Bool.and_eq_true_iff.1 hboth).1).2]
    exact h.step _ ⟨rfl, rfl, rfl, rfl, rfl, rfl⟩ rfl rfl rfl rfl rfl hwrap rfl
  | cursorVisible =>
    exact h.step _ ⟨rfl, rfl, rfl, rfl, rfl, h.visible.symm⟩ rfl rfl rfl rfl rfl
      (Bool.and_true _).symm rfl
  | alternateSaved =>
    obtain ⟨hcursor, hrendition, hautowrap, horigin⟩ :=
      restoreCursor_congr h.lastRow h.lastCol h.saved h.wraps
    cases kind with
    | primary =>
      exact h.step _ ⟨rfl, rfl, rfl, rfl, rfl, rfl⟩ rfl hcursor hrendition hautowrap horigin
        (Bool.and_false _).symm rfl
    | alternate =>
      exact h.step _ ⟨lastRow_eraseScreen_all _, rfl, rfl, rfl, rfl, rfl⟩ rfl rfl rfl rfl rfl
        (Bool.and_false _).symm (cells_eraseScreen_all _)
  | _ =>
    exact h.step _ ⟨rfl, rfl, rfl, rfl, rfl, rfl⟩ rfl rfl rfl rfl rfl (Bool.and_true _).symm rfl

/-- What a screen has to report is not among it. -/
theorem of_dropDamage (h : s₀.dropDamage.Redone kind modes s) : s₀.Redone kind modes s :=
  { h with }

theorem dropDamage (h : s₀.Redone kind modes s) : s₀.Redone kind modes s.dropDamage :=
  { h with }

/-! ### What a run leaves as it was -/

/-- Erasing leaves the cells as they are just if they are blank. -/
theorem map_replicate_eq_self {rows : List Row} {blank : Cell} :
    ((rows.map Row.cells).map fun cells => List.replicate cells.length blank) =
        rows.map Row.cells ↔
      ∀ row ∈ rows, ∀ cell ∈ row.cells, cell = blank := by
  rw [List.map_map, List.map_inj_left]
  refine forall₂_congr fun row _ => ?_
  rw [Function.comp_apply, eq_comm, List.eq_replicate_iff]
  exact and_iff_right rfl

/-- **A run of switches leaves a screen as it was just if it finds nothing to do
there.** -/
theorem alike_iff (h : s₀.Redone kind modes s) : s₀.Alike s ↔ s₀.Idle kind modes := by
  constructor
  · intro halike
    have hback := ite_eq_right_iff.1 (h.rendition.symm.trans halike.rendition)
    refine ⟨fun hpending => ?_, fun hany => ?_, h.cursor.symm.trans halike.cursor, hback, ?_, ?_⟩
    · have hstill := h.wrapPending.symm.trans (congrArg ScreenModes.wrapPending halike.modes)
      rwa [hpending, Bool.true_and, Bool.not_eq_true'] at hstill
    · exact map_replicate_eq_self.1
        (ite_eq_right_iff.1 ((h.cells hback).symm.trans halike.cells) hany)
    · exact ite_eq_right_iff.1
        (h.autowrap.symm.trans (congrArg ScreenModes.autowrap halike.modes))
    · exact ite_eq_right_iff.1
        (h.origin.symm.trans (congrArg ScreenModes.origin halike.modes))
  · intro hidle
    have hpending : s.modes.wrapPending = s₀.modes.wrapPending := by
      rw [h.wrapPending]
      cases hpending : s₀.modes.wrapPending with
      | false => rfl
      | true => rw [hidle.wrap hpending, Bool.not_false, Bool.true_and]
    refine ⟨?_, h.cursor.trans hidle.place, ?_, ?_⟩
    · exact (h.cells hidle.rendition).trans
        (ite_eq_right_iff.2 fun hany => map_replicate_eq_self.2 (hidle.blank hany))
    · exact h.rendition.trans (ite_eq_right_iff.2 hidle.rendition)
    · have hautowrap := h.autowrap.trans (ite_eq_right_iff.2 hidle.autowrap)
      have horigin := h.origin.trans (ite_eq_right_iff.2 hidle.origin)
      change ScreenModes.mk _ _ _ _ _ = ScreenModes.mk _ _ _ _ _
      rw [hautowrap, h.insert, horigin, h.visible, hpending]

end Redone

/-- All that a run could have to do comes with modes that cancel a pending wrap. -/
theorem Idle.of_none (h : ∀ mode ∈ modes, mode.cancels = false) : s.Idle kind modes := by
  have hnone : ∀ p : PrivateMode → Bool, (∀ mode, p mode = true → mode.cancels = true) →
      modes.any p = false := fun p hp =>
    List.any_eq_false.2 fun mode hmem htrue =>
      Bool.false_ne_true ((h mode hmem).symm.trans (hp mode htrue))
  have herases : modes.any (PrivateMode.erases kind) = false :=
    hnone _ fun mode => by cases mode <;> cases kind <;> decide
  have hback : modes.any (PrivateMode.comesBack kind) = false :=
    hnone _ fun mode => by cases mode <;> cases kind <;> decide
  have hmoves : modes.any (PrivateMode.moves kind) = false :=
    hnone _ fun mode => by cases mode <;> cases kind <;> decide
  have hsaved : .alternateSaved ∉ modes := fun hmem => absurd (h _ hmem) (by decide)
  refine ⟨fun _ => hnone _ fun _ hc => hc, fun hany => ?_, ?_, fun hany => ?_, fun hlast => ?_,
    fun hlast => ?_⟩
  · rw [herases] at hany
    cases hany
  · unfold placeAfter
    rw [PrivateMode.last?_eq_none hmoves]
  · rw [hback] at hany
    cases hany
  · exact absurd (PrivateMode.mem_of_last? hlast) hsaved
  · exact absurd (PrivateMode.mem_of_last? hlast) hsaved

end Screen

end VideoTerminal
