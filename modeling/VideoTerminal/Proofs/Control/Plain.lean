import VideoTerminal.Control.Reader
/-!
# Plain actions

Actions with a number that counts, or that names a place for the cursor, are
asked for by control sequences without a marker only. All that anything else
asks for is plain (`Action.isPlain`), and so are the bytes for the printer that
a chunk joins: what is said of the numbers of an action holds of these anyway.
-/

namespace VideoTerminal

/-- How often an action is to be done, for those that say so. -/
def Action.count? : Action → Option Nat
  | .cursorUp n => some n
  | .cursorDown n => some n
  | .cursorRight n => some n
  | .cursorLeft n => some n
  | .nextLines n => some n
  | .previousLines n => some n
  | .forwardTab n => some n
  | .backTab n => some n
  | .scrollUp n => some n
  | .scrollDown n => some n
  | .insertLines n => some n
  | .deleteLines n => some n
  | .insertCells n => some n
  | .deleteCells n => some n
  | .eraseCells n => some n
  | _ => none

/-- The action neither counts nor moves the cursor to a place. -/
def Action.isPlain : Action → Bool
  | .column _ => false
  | .row _ => false
  | .position _ _ => false
  | action => action.count?.isNone

theorem Action.count?_of_isPlain {action : Action} (h : action.isPlain = true) :
    action.count? = none := by
  cases action with
  | column | row | position => rfl
  | _ => exact Option.isNone_iff_eq_none.1 h

/-! ## What asks for them -/

theorem Sequence.isPlain_decodePrivate {ps : List Nat} {final : Char} {action : Action}
    (hdecode : decodePrivate ps final = some action) : action.isPlain = true := by
  unfold decodePrivate at hdecode
  dsimp only at hdecode
  split at hdecode
  all_goals first
    | cases hdecode <;> rfl
    | obtain ⟨part, -, rfl⟩ := Option.map_eq_some_iff.1 hdecode
      rfl

theorem Command.isPlain_decode? {bytes : List UInt8} {action : Action}
    (hdecode : Command.decode? bytes = some action) : action.isPlain = true := by
  unfold Command.decode? at hdecode
  split at hdecode
  · cases hdecode
  · obtain ⟨code, -, hcode⟩ := Option.bind_eq_some_iff.1 hdecode
    unfold Command.ofCode? at hcode
    split at hcode <;> cases hcode <;> rfl

namespace Reader

theorem isPlain_control? {byte : UInt8} {action : Action} (h : control? byte = some action) :
    action.isPlain = true := by
  unfold control? at h
  split at h <;> cases h <;> rfl

theorem isPlain_escapeAction? {final : Char} {action : Action}
    (h : escapeAction? final = some action) : action.isPlain = true := by
  unfold escapeAction? at h
  split at h <;> cases h <;> rfl

theorem isPlain_introducedAction? {introducer final : UInt8} {action : Action}
    (h : introducedAction? introducer final = some action) : action.isPlain = true := by
  unfold introducedAction? at h
  split at h
  all_goals first
    | cases h <;> rfl
    | split at h
      · cases h
        rfl
      · cases h

/-- What holds of all actions, and of bytes for the printer, holds of all behind
joining. -/
theorem forall_joinData {p : Action → Prop} {actions : List Action}
    (hdata : ∀ bytes, p (.printData bytes)) (h : ∀ action ∈ actions, p action) :
    ∀ action ∈ joinData actions, p action := by
  induction actions with
  | nil => exact h
  | cons first rest ih =>
    have hrest := ih fun action haction => h action (List.mem_cons_of_mem first haction)
    intro action haction
    unfold joinData at haction
    split at haction
    · rename_i a b more hjoined
      rcases List.mem_cons.1 haction with rfl | hin
      · exact hdata (a ++ b)
      · exact hrest action (hjoined ▸ List.mem_cons_of_mem _ hin)
    · rcases List.mem_cons.1 haction with rfl | hin
      · exact h _ List.mem_cons_self
      · exact hrest action hin

end Reader

end VideoTerminal
