import VideoTerminal.Proofs.Terminal.Blind
import VideoTerminal.Proofs.Terminal.Steady
/-!
# Output in pieces

The output of a child program comes in pieces, and it should not matter where
it is cut. The reader sees to it that the actions are the same, but for bytes
for the printer, which a feed joins. What a feed does once, at its end, is to
bring the view back to the screen if output does that: this asks for the mode
in which the piece ends, and so it can be seen where output was cut.
-/

namespace VideoTerminal

/-- Printers that take all bytes from the states `good`, and stay in them;
`received` is what they took. -/
structure Printer.Accepts {π : Type} [Printer π] (good : π → Prop) (received : π → List UInt8) :
    Prop where
  write {p : π} (bytes : List UInt8) : good p → (Printer.write p bytes).2 = none ∧
    good (Printer.write p bytes).1 ∧ received (Printer.write p bytes).1 = received p ++ bytes
  flush {p : π} : good p → (Printer.flush p).2 = none ∧ good (Printer.flush p).1 ∧
    received (Printer.flush p).1 = received p

namespace Outcome

variable {π : Type} {o : Outcome π}

theorem andThen_eq (h : o.fault = none) (f : Terminal π → Outcome π) :
    o.andThen f = f o.terminal := by
  unfold andThen
  rw [h]

theorem map_eq (h : o.fault = none) (f : Terminal π → Terminal π) :
    o.map f = ⟨f o.terminal, none⟩ := andThen_eq h _

theorem andThen_assoc (o : Outcome π) (f g : Terminal π → Outcome π) :
    (o.andThen f).andThen g = o.andThen fun t => (f t).andThen g := by
  obtain ⟨t, fault⟩ := o
  cases fault <;> rfl

end Outcome

namespace Terminal

variable {π : Type} {good : π → Prop} {received : π → List UInt8} {t t' t'' : Terminal π}

/-- The printer, if there is one, is in a state from which it takes all. -/
def Ready (good : π → Prop) (t : Terminal π) : Prop := ∀ p, t.printer = some p → good p

/-- What the printer took, if there is one. -/
def printed (received : π → List UInt8) (t : Terminal π) : Option (List UInt8) :=
  t.printer.map received

theorem Ready.of_eq (h : t.Ready good) (hp : t'.printer = t.printer) : t'.Ready good := by
  intro p hsome
  rw [hp] at hsome
  exact h p hsome

/-! ## Printing -/

/-- The outcome of printing some bytes: the printer took them, and nothing
else happened. -/
structure Prints (good : π → Prop) (received : π → List UInt8) (bytes : List UInt8)
    (t : Terminal π) (o : Outcome π) : Prop where
  fault : o.fault = none
  rest : o.terminal = { t with printer := o.terminal.printer }
  ready : o.terminal.Ready good
  printed : o.terminal.printed received = (t.printed received).map (· ++ bytes)

theorem Prints.andThen {o : Outcome π} {bytes more : List UInt8} {f : Terminal π → Outcome π}
    (h : Prints good received bytes t o)
    (hnext : Prints good received more o.terminal (f o.terminal)) :
    Prints good received (bytes ++ more) t (o.andThen f) := by
  rw [Outcome.andThen_eq h.fault]
  refine ⟨hnext.fault, ?_, hnext.ready, ?_⟩
  · rw [hnext.rest, h.rest]
  · rw [hnext.printed, h.printed, Option.map_map]
    congr 1
    funext taken
    exact List.append_assoc taken bytes more

section Printing

variable [Printer π]

theorem prints_print (acc : Printer.Accepts good received) (h : t.Ready good)
    (bytes : List UInt8) : Prints good received bytes t (t.print bytes) := by
  unfold print
  cases hp : t.printer with
  | none =>
    refine ⟨rfl, rfl, h, ?_⟩
    unfold Terminal.printed
    rw [hp]
    rfl
  | some p =>
    obtain ⟨hfault, hgood, hreceived⟩ := acc.write bytes (h p hp)
    dsimp only
    rw [hfault]
    refine ⟨rfl, rfl, fun q hq => ?_, ?_⟩
    · cases hq
      exact hgood
    · unfold Terminal.printed
      rw [hp]
      exact congrArg some hreceived

theorem prints_flush (acc : Printer.Accepts good received) (h : t.Ready good) :
    Prints good received [] t t.flush := by
  unfold flush
  cases hp : t.printer with
  | none =>
    refine ⟨rfl, rfl, h, ?_⟩
    unfold Terminal.printed
    rw [hp]
    rfl
  | some p =>
    obtain ⟨hfault, hgood, hreceived⟩ := acc.flush (h p hp)
    dsimp only
    rw [hfault]
    refine ⟨rfl, rfl, fun q hq => ?_, ?_⟩
    · cases hq
      exact hgood
    · unfold Terminal.printed
      rw [hp]
      exact congrArg some (hreceived.trans (List.append_nil _).symm)

end Printing

/-! ## Two runs -/

/-- The first terminal is the second one under a veil that hides printers, and
their printers took the same. -/
structure Alike (good : π → Prop) (received : π → List UInt8) (v : Veil π) (t' t : Terminal π) :
    Prop where
  hides : ∀ p, v.printer p = none
  seen : t'.seen Veil.hidden = t.seen v
  printed : t'.printed received = t.printed received
  ready : t.Ready good
  ready' : t'.Ready good

/-- Both outcomes are without fault, and their terminals are alike. -/
structure Runs (good : π → Prop) (received : π → List UInt8) (v : Veil π) (o' o : Outcome π) :
    Prop where
  fault : o.fault = none
  fault' : o'.fault = none
  alike : Alike good received v o'.terminal o.terminal

namespace Alike

variable {v : Veil π}

theorem refl (h : t.Ready good) : Alike good received Veil.hidden t t :=
  ⟨fun _ => rfl, rfl, rfl, h, h⟩

theorem trans (h : Alike good received v t' t) (h' : Alike good received Veil.hidden t'' t') :
    Alike good received v t'' t :=
  ⟨h.hides, h'.seen.trans h.seen, h'.printed.trans h.printed, h.ready, h'.ready'⟩

theorem of_blind {f : Terminal π → Terminal π} (hf : Blind f) (h : Alike good received v t' t) :
    Alike good received v (f t') (f t) := by
  refine ⟨h.hides, hf.congr h.seen, ?_, h.ready.of_eq (hf.printer_eq t),
    h.ready'.of_eq (hf.printer_eq t')⟩
  unfold Terminal.printed
  rw [hf.printer_eq, hf.printer_eq]
  exact h.printed

theorem modes_eq (h : Alike good received v t' t) : t'.modes = t.modes := by
  have hmodes := congrArg Terminal.modes h.seen
  exact hmodes

theorem viewOffset_eq (h : Alike good received v t' t) :
    t'.viewOffset = v.offset t.viewOffset := by
  have hoffset := congrArg Terminal.viewOffset h.seen
  exact hoffset

/-- Two terminals that are alike to one under veils that differ in no more
than the offset are the same up to it. -/
theorem seen_eq {φ ψ : Nat → Nat} {hφ : φ 0 = 0} {hψ : ψ 0 = 0} {ρ : Reader → Reader}
    (h : Alike good received (Veil.cover φ hφ ρ) t' t)
    (h' : Alike good received (Veil.cover ψ hψ ρ) t'' t) :
    t'.seen Veil.hidden = { t'' with viewOffset := t'.viewOffset }.seen Veil.hidden := by
  have hset := congrArg (fun t : Terminal π => { t with viewOffset := t'.viewOffset }) h'.seen
  refine h.seen.trans (Eq.trans ?_ hset.symm)
  rw [h.viewOffset_eq]
  rfl

theorem of_prints {bytes : List UInt8} {o o' : Outcome π} (h : Alike good received v t' t)
    (hp : Prints good received bytes t o) (hp' : Prints good received bytes t' o') :
    Runs good received v o' o := by
  refine ⟨hp.fault, hp'.fault, h.hides, ?_, ?_, hp.ready, hp'.ready⟩
  · have hrest := congrArg (Terminal.seen Veil.hidden) hp'.rest
    have hrest' := congrArg (Terminal.seen v) hp.rest
    have hseen : ({ t with printer := o.terminal.printer } : Terminal π).seen v = t.seen v := by
      unfold Terminal.seen
      rw [h.hides, h.hides]
    rw [hrest', hseen, ← h.seen]
    exact hrest
  · rw [hp.printed, hp'.printed, h.printed]

end Alike

namespace Runs

variable {v : Veil π} {o o' : Outcome π}

/-- What is done after an outcome without fault is done. -/
theorem map {f : Terminal π → Terminal π} (hf : Blind f) (h : Runs good received v o' o) :
    Runs good received v (o'.map f) (o.map f) := by
  rw [Outcome.map_eq h.fault, Outcome.map_eq h.fault']
  exact ⟨rfl, rfl, h.alike.of_blind hf⟩

theorem andThen {f f' : Terminal π → Outcome π} (h : Runs good received v o' o)
    (hf : Runs good received v (f' o'.terminal) (f o.terminal)) :
    Runs good received v (o'.andThen f') (o.andThen f) := by
  rw [Outcome.andThen_eq h.fault, Outcome.andThen_eq h.fault']
  exact hf

theorem trans {o'' : Outcome π} (h : Runs good received v o' o)
    (h' : Runs good received Veil.hidden o'' o') : Runs good received v o'' o :=
  ⟨h.fault, h'.fault', h.alike.trans h'.alike⟩

end Runs

/-- The terminals are the same, but for the marks of rows and for what their
printers are beyond the bytes they took. -/
def Agree (received : π → List UInt8) (t t' : Terminal π) : Prop :=
  t.seen Veil.hidden = t'.seen Veil.hidden ∧ t.printed received = t'.printed received

theorem Agree.viewOffset_eq (h : Agree received t t') : t.viewOffset = t'.viewOffset := by
  have hoffset := congrArg Terminal.viewOffset h.1
  exact hoffset

theorem screenText_seen (v : Veil π) (t : Terminal π) : (t.seen v).screenText = t.screenText := by
  unfold screenText
  rw [screen_seen]
  rfl

section Acting

variable [Printer π] {v : Veil π}

theorem runs_print (acc : Printer.Accepts good received) (h : Alike good received v t' t)
    (bytes : List UInt8) : Runs good received v (t'.print bytes) (t.print bytes) :=
  h.of_prints (prints_print acc h.ready bytes) (prints_print acc h.ready' bytes)

theorem runs_printScreen (acc : Printer.Accepts good received) (h : Alike good received v t' t) :
    Runs good received v t'.printScreen t.printScreen := by
  -- the text of the screen is the same on both sides
  have htext : t'.screenText = t.screenText := by
    rw [← screenText_seen Veil.hidden t', h.seen, screenText_seen]
  unfold printScreen
  dsimp only
  rw [htext]
  generalize String.ofList t.screenText = text
  have hprints : ∀ {t : Terminal π}, t.Ready good →
      Prints good received (text.toUTF8.toList ++ [0x0A] ++ []) t
        (((t.print text.toUTF8.toList).andThen (·.print [0x0A])).andThen flush) := by
    intro t ht
    have htext := prints_print acc ht text.toUTF8.toList
    have hline := htext.andThen (f := (·.print [0x0A])) (prints_print acc htext.ready _)
    exact hline.andThen (prints_flush acc hline.ready)
  have htell : Blind fun t : Terminal π => t.tell (.printScreen text) := fun _ _ => rfl
  exact (h.of_prints (hprints h.ready) (hprints h.ready')).map htell

variable [Glyph.Widths]

theorem runs_act (acc : Printer.Accepts good received) (h : Alike good received v t' t)
    (action : Action) : Runs good received v (t'.act action) (t.act action) := by
  have hperform : ∀ action, Runs good received v ⟨t'.perform action, none⟩
      ⟨t.perform action, none⟩ := fun action => ⟨rfl, rfl, h.of_blind (Blind.perform action)⟩
  cases action with
  | printScreen => exact runs_printScreen acc h
  | printData bytes => exact runs_print acc h bytes
  | closePipe => exact h.of_prints (prints_flush acc h.ready) (prints_flush acc h.ready')
  | _ => exact hperform _

/-- **One action** keeps terminals alike, and does not fail. -/
theorem runs_apply (acc : Printer.Accepts good received) (h : Alike good received v t' t)
    (action : Action) : Runs good received v (t'.apply action) (t.apply action) :=
  (runs_act acc h action).map Blind.absorbDamage

theorem runs_applyAll (acc : Printer.Accepts good received) (h : Alike good received v t' t)
    (actions : List Action) :
    Runs good received v (t'.applyAll actions) (t.applyAll actions) := by
  induction actions generalizing t t' with
  | nil => exact ⟨rfl, rfl, h⟩
  | cons action actions ih =>
    have hstep := runs_apply acc h action
    exact hstep.andThen (ih hstep.alike)

/-- Actions in two parts are the one part after the other, unless the first
one fails. -/
theorem applyAll_append (t : Terminal π) (first second : List Action) :
    t.applyAll (first ++ second) = (t.applyAll first).andThen (·.applyAll second) := by
  induction first generalizing t with
  | nil => rfl
  | cons action first ih =>
    have hrest : (fun t : Terminal π => t.applyAll (first ++ second)) =
        fun t => (t.applyAll first).andThen (·.applyAll second) := funext ih
    change (t.apply action).andThen (·.applyAll (first ++ second)) = _
    rw [hrest, ← Outcome.andThen_assoc]
    rfl

/-! ## Bytes for the printer, joined -/

omit [Printer π] [Glyph.Widths] in
theorem joinData_cons (action : Action) (rest : List Action) :
    (∃ a b more, action = .printData a ∧ Reader.joinData rest = .printData b :: more ∧
      Reader.joinData (action :: rest) = .printData (a ++ b) :: more) ∨
    Reader.joinData (action :: rest) = action :: Reader.joinData rest := by
  by_cases h : ∃ a b more, action = .printData a ∧ Reader.joinData rest = .printData b :: more
  · obtain ⟨a, b, more, rfl, hrest⟩ := h
    refine Or.inl ⟨a, b, more, rfl, hrest, ?_⟩
    simp only [Reader.joinData, hrest]
  · refine Or.inr ?_
    rw [Reader.joinData]
    intro a b more haction hrest
    exact h ⟨a, b, more, haction, hrest⟩

omit [Printer π] [Glyph.Widths] in
/-- Nothing is left to take after the reports were taken. -/
theorem absorbDamage_absorbDamage (t : Terminal π) :
    t.absorbDamage.absorbDamage = t.absorbDamage := by
  unfold absorbDamage modifyScreen modifyOf screen
  cases t.active <;> rfl

omit [Printer π] [Glyph.Widths] in
/-- Taking the reports has nothing to do with the printer. -/
theorem absorbDamage_printer (t : Terminal π) (printer : Option π) :
    ({ t with printer } : Terminal π).absorbDamage = { t.absorbDamage with printer } := by
  have htaken : ({ t with printer } : Terminal π).modifyScreen Screen.dropDamage =
      { t.modifyScreen Screen.dropDamage with printer } := by
    unfold modifyScreen modifyOf
    dsimp only
    cases t.active <;> rfl
  exact congrArg (fun taken => { taken with selector := t.absorbDamage.selector }) htaken

/-- The action that hands over bytes leaves the printer with them, and the
reports taken. -/
theorem prints_apply (acc : Printer.Accepts good received) (h : t.Ready good)
    (bytes : List UInt8) :
    Prints good received bytes t.absorbDamage (t.apply (.printData bytes)) := by
  have hprints := prints_print acc h bytes
  have happly : t.apply (.printData bytes) = ⟨(t.print bytes).terminal.absorbDamage, none⟩ :=
    Outcome.map_eq hprints.fault absorbDamage
  have hprinter := Blind.absorbDamage.printer_eq (t.print bytes).terminal
  rw [happly]
  refine ⟨rfl, ?_, hprints.ready.of_eq hprinter, ?_⟩
  · rw [hprinter, ← absorbDamage_printer]
    exact congrArg absorbDamage hprints.rest
  · unfold Terminal.printed
    rw [hprinter, Blind.absorbDamage.printer_eq]
    exact hprints.printed

/-- Bytes for the printer may be handed over in two pieces or in one. -/
theorem runs_printData_append (acc : Printer.Accepts good received) (h : t.Ready good)
    (a b : List UInt8) :
    Runs good received Veil.hidden (t.apply (.printData (a ++ b)))
      ((t.apply (.printData a)).andThen (·.apply (.printData b))) := by
  have hready : t.absorbDamage.Ready good := h.of_eq (Blind.absorbDamage.printer_eq t)
  have hfirst := prints_apply acc h a
  -- between the two pieces there is nothing to report
  have hsecond := prints_apply acc hfirst.ready b
  have habsorbed : (t.apply (.printData a)).terminal.absorbDamage =
      (t.apply (.printData a)).terminal := by
    rw [hfirst.rest, absorbDamage_printer, absorbDamage_absorbDamage]
  rw [habsorbed] at hsecond
  exact (Alike.refl hready).of_prints (hfirst.andThen hsecond) (prints_apply acc h (a ++ b))

/-- **Joining bytes for the printer changes nothing** but the pieces in which
the printer gets them. -/
theorem runs_joinData (acc : Printer.Accepts good received) (h : Alike good received v t' t)
    (actions : List Action) :
    Runs good received v (t'.applyAll (Reader.joinData actions)) (t.applyAll actions) := by
  induction actions generalizing t t' with
  | nil => exact ⟨rfl, rfl, h⟩
  | cons action rest ih =>
    have hstep := runs_apply acc h action
    have hrest : Runs good received v
        ((t'.apply action).andThen (·.applyAll (Reader.joinData rest)))
        ((t.apply action).andThen (·.applyAll rest)) := hstep.andThen (ih hstep.alike)
    rcases joinData_cons action rest with ⟨a, b, more, rfl, hjoined, heq⟩ | heq
    · -- the piece that was put in front of another one was printed on its own before
      rw [heq]
      rw [hjoined] at hrest
      refine hrest.trans ?_
      have hmerge := runs_printData_append acc h.ready' a b
      have hmore : Runs good received Veil.hidden
          ((t'.apply (.printData (a ++ b))).andThen (·.applyAll more))
          (((t'.apply (.printData a)).andThen (·.apply (.printData b))).andThen
            (·.applyAll more)) := hmerge.andThen (runs_applyAll acc hmerge.alike more)
      rw [Outcome.andThen_assoc] at hmore
      exact hmore
    · rw [heq]
      exact hrest

/-! ## Feeding -/

omit [Printer π] [Glyph.Widths] in
theorem seen_markAll (v : Veil π) (t : Terminal π) : t.markAll.seen v = t.seen v := by
  unfold markAll modifyScreen modifyOf
  split <;> rfl

omit [Printer π] [Glyph.Widths] in
/-- Bringing the view back to the screen changes no more than the view. -/
theorem seen_snapView (t : Terminal π) :
    t.snapView.seen Veil.hidden = t.seen (Veil.cover (fun _ => 0) rfl id) ∧
      t.snapView.printer = t.printer := by
  unfold snapView viewAt
  by_cases hzero : 0 = t.viewOffset
  · rw [if_pos hzero]
    refine ⟨?_, rfl⟩
    unfold seen
    rw [← hzero]
    rfl
  · rw [if_neg hzero]
    refine ⟨?_, Blind.markAll.printer_eq _⟩
    rw [seen_markAll]
    rfl

/-- The offset of a view that was brought back to the screen, or was not. -/
def snapped (φ : Nat → Nat) (back : Bool) : Nat → Nat := if back then fun _ => 0 else φ

omit [Glyph.Widths] in
theorem snapped_zero {φ : Nat → Nat} (hφ : φ 0 = 0) (back : Bool) : snapped φ back 0 = 0 := by
  unfold snapped
  split
  · rfl
  · exact hφ

omit [Printer π] [Glyph.Widths] in
theorem alike_settle {φ : Nat → Nat} {hφ : φ 0 = 0} {ρ : Reader → Reader}
    (h : Alike good received (Veil.cover φ hφ ρ) t' t) (hsteady : t'.Steady) (sent : Bool) :
    Alike good received
      (Veil.cover (snapped φ (sent && t.modes.scrollOnOutput)) (snapped_zero hφ _) ρ)
      (t'.settle sent) t := by
  have hmodes : t'.modes = t.modes := h.modes_eq
  rw [settle_eq hsteady, hmodes]
  unfold snapped
  by_cases hback : (sent && t.modes.scrollOnOutput) = true
  · obtain ⟨hseen, hprinter⟩ := t'.seen_snapView
    simp only [hback, if_true]
    refine ⟨fun _ => rfl, ?_, ?_, h.ready, h.ready'.of_eq hprinter⟩
    · -- the offset is behind the veil, and then out of sight
      have hagain := congrArg (seen (Veil.cover (fun _ => 0) rfl id)) h.seen
      rw [hseen]
      exact hagain
    · unfold Terminal.printed
      rw [hprinter]
      exact h.printed
  · simp only [hback]
    exact h

/-- **One feed** is a run of the actions that the bytes make, with the view
brought back at its end if output does that then. -/
theorem alike_feed {P : Nat → Row → Prop} {rows cols : Nat} {φ : Nat → Nat} {hφ : φ 0 = 0}
    {ρ : Reader → Reader} (acc : Printer.Accepts good received) (law : Row.Law P)
    (hs : t'.Sound P rows cols) (hsteady : t'.Steady)
    (h : Alike good received (Veil.cover φ hφ ρ) t' t) (bytes : List UInt8) :
    let ran := t.applyAll (t'.reader.run bytes).2
    let fed := t'.feed bytes
    ran.fault = none ∧ fed.fault = none ∧
      Alike good received (Veil.cover
        (snapped φ (!bytes.isEmpty && fed.terminal.modes.scrollOnOutput)) (snapped_zero hφ _)
        fun _ => (t'.reader.run bytes).1) fed.terminal ran.terminal := by
  intro ran fed
  -- the reader of the first terminal is put in place before its actions run
  have hread : Alike good received (Veil.cover φ hφ fun _ => (t'.reader.run bytes).1)
      { t' with reader := (t'.reader.run bytes).1 } t := by
    have hseen := congrArg (seen (Veil.cover id rfl fun _ => (t'.reader.run bytes).1)) h.seen
    exact ⟨fun _ => rfl, hseen, h.printed, h.ready, h.ready'⟩
  have hruns := runs_joinData acc hread (t'.reader.run bytes).2
  have hsound : ({ t' with reader := (t'.reader.run bytes).1 } : Terminal π).Sound P rows cols :=
    hs.of_eq rfl rfl
  have hshown : ({ t' with reader := (t'.reader.run bytes).1 } : Terminal π).Steady :=
    hsteady.of_same (Same.withReader t' _)
  have hran := (steady_applyAll law hsound hshown (Reader.joinData (t'.reader.run bytes).2)).1
  have hfed : fed = ⟨({ t' with reader := (t'.reader.run bytes).1 }.applyAll
      (Reader.joinData (t'.reader.run bytes).2)).terminal.settle !bytes.isEmpty, none⟩ :=
    Outcome.map_eq hruns.fault' _
  have hsettled := alike_settle hruns.alike hran !bytes.isEmpty
  have hmodes := hsettled.modes_eq
  rw [hfed]
  refine ⟨hruns.fault, rfl, ?_⟩
  rw [hmodes]
  exact hsettled

/-! ## Two feeds and one -/

omit [Glyph.Widths] in
/-- Whether the view is brought back twice or once matters only to one that is
brought back the first time and stays scrolled back otherwise. -/
theorem snapped_eq_iff {a b : List UInt8} {first last : Bool} (hsame : b = [] → first = last)
    (offset : Nat) :
    snapped (snapped id (!a.isEmpty && first)) (!b.isEmpty && last) offset =
        snapped id (!(a ++ b).isEmpty && last) offset ↔
      ¬ (a ≠ [] ∧ first = true ∧ last = false ∧
        snapped id (!(a ++ b).isEmpty && last) offset ≠ 0) := by
  unfold snapped
  cases b with
  | nil =>
    rw [hsame rfl]
    cases last <;> simp
  | cons byte b => cases a <;> cases first <;> cases last <;> simp [eq_comm]

/-- Two feeds and one feed are runs of the same actions, and differ only in
where the view is brought back. -/
theorem alike_feed_append {rows cols : Nat} (acc : Printer.Accepts good received)
    (h : Reach rows cols t) (hp : t.Ready good) (a b : List UInt8) :
    let first := t.feed a
    let split := first.terminal.feed b
    let joined := t.feed (a ++ b)
    let back := !a.isEmpty && first.terminal.modes.scrollOnOutput
    let last := joined.terminal.modes.scrollOnOutput
    (first.fault = none ∧ split.fault = none ∧ joined.fault = none) ∧
      (b = [] → first.terminal.modes = joined.terminal.modes) ∧
      ∃ (ran : Terminal π) (ρ : Reader → Reader),
        Alike good received
          (Veil.cover (snapped (snapped id back) (!b.isEmpty && last))
            (snapped_zero (snapped_zero rfl _) _) ρ) split.terminal ran ∧
        Alike good received
          (Veil.cover (snapped id (!(a ++ b).isEmpty && last)) (snapped_zero rfl _) ρ)
          joined.terminal ran := by
  intro first split joined back last
  have hsound := h.sound Row.law_fits
  have hsteady := (h.feed a).steady
  obtain ⟨hran, hfirst, halike⟩ :=
    alike_feed acc Row.law_fits hsound h.steady (Alike.refl hp) a
  obtain ⟨-, hsplit, hsecond⟩ :=
    alike_feed acc Row.law_fits (hsound.feed Row.law_fits a) hsteady halike b
  obtain ⟨-, hjoined, hboth⟩ :=
    alike_feed acc Row.law_fits hsound h.steady (Alike.refl hp) (a ++ b)
  -- the second feed goes on where the first one left the reader
  have hreader : first.terminal.reader = (t.reader.run a).1 := by
    have hreader := congrArg Terminal.reader halike.seen
    exact hreader
  have happend : t.applyAll (t.reader.run (a ++ b)).2 =
      (t.applyAll (t.reader.run a).2).terminal.applyAll (first.terminal.reader.run b).2 := by
    rw [Reader.run_append, applyAll_append, hreader, Outcome.andThen_eq hran]
  have hreader' : (first.terminal.reader.run b).1 = (t.reader.run (a ++ b)).1 := by
    rw [Reader.run_append, hreader]
  rw [happend] at hboth
  rw [← hreader'] at hboth
  refine ⟨⟨hfirst, hsplit, hjoined⟩, ?_, _, _, ?_, hboth⟩
  · rintro rfl
    exact halike.modes_eq.trans (hboth.modes_eq).symm
  · have hmodes : split.terminal.modes = joined.terminal.modes :=
      hsecond.modes_eq.trans hboth.modes_eq.symm
    rw [hmodes] at hsecond
    exact hsecond

/-- **When output may be cut.** The printer takes all bytes. Then no feed
fails, and output that is fed in two pieces leaves the terminal that it leaves
when it is fed at once, but for the offset of the view. That is the same too,
unless the first piece is not empty and ends in the mode in which output
brings the view back, the second one ends that mode, and the view was
scrolled back: fed at once, output leaves it there. -/
theorem agree_feed_append_iff {rows cols : Nat} (acc : Printer.Accepts good received)
    (h : Reach rows cols t) (hp : t.Ready good) (a b : List UInt8) :
    let first := t.feed a
    let split := first.terminal.feed b
    let joined := t.feed (a ++ b)
    (first.fault = none ∧ split.fault = none ∧ joined.fault = none) ∧
      Agree received split.terminal
        { joined.terminal with viewOffset := split.terminal.viewOffset } ∧
      (Agree received split.terminal joined.terminal ↔
        ¬ (a ≠ [] ∧ first.terminal.modes.scrollOnOutput = true ∧
          joined.terminal.modes.scrollOnOutput = false ∧ joined.terminal.viewOffset ≠ 0)) := by
  intro first split joined
  obtain ⟨hfaults, hmodes, ran, ρ, hsplit, hjoined⟩ := alike_feed_append acc h hp a b
  have hsame : b = [] →
      first.terminal.modes.scrollOnOutput = joined.terminal.modes.scrollOnOutput :=
    fun hb => congrArg TerminalModes.scrollOnOutput (hmodes hb)
  have hprinted : split.terminal.printed received = joined.terminal.printed received :=
    hsplit.printed.trans hjoined.printed.symm
  -- both terminals are the one that ran, but for the offset of the view
  have hbut := hsplit.seen_eq hjoined
  refine ⟨hfaults, ⟨hbut, hprinted⟩, ?_⟩
  have hview : Agree received split.terminal joined.terminal ↔
      split.terminal.viewOffset = joined.terminal.viewOffset := by
    constructor
    · exact Agree.viewOffset_eq
    · intro hview
      rw [hview] at hbut
      exact ⟨hbut, hprinted⟩
  rw [hview, hsplit.viewOffset_eq, hjoined.viewOffset_eq]
  exact snapped_eq_iff hsame ran.viewOffset

end Acting

/-! ## A spool -/

theorem accepts_spool :
    Printer.Accepts (fun s : Spool => s.room = none ∧ s.flushFails = false) Spool.received := by
  constructor
  · rintro s bytes ⟨hroom, hflush⟩
    have htaken : s.taken bytes = bytes := by
      unfold Spool.taken
      rw [hroom]
    have hwrite : Printer.write s bytes =
        ({ s with room := s.room.map (· - bytes.length), received := s.received ++ bytes },
          none) := by
      change s.write bytes = _
      unfold Spool.write
      rw [htaken]
      simp
    rw [hwrite, hroom]
    exact ⟨rfl, ⟨rfl, hflush⟩, rfl⟩
  · rintro s ⟨hroom, hflush⟩
    have hdone : Printer.flush s = ({ s with flushes := s.flushes + 1 }, none) := by
      change s.flush = _
      unfold Spool.flush
      rw [hflush]
      rfl
    rw [hdone]
    exact ⟨rfl, ⟨hroom, hflush⟩, rfl⟩

attribute [local instance] Glyph.unicode

/-- Three lines in two rows, in the mode in which output brings the view back,
which is scrolled back. -/
def backToOutput : Terminal Spool :=
  ((plain 2 3).feed [0x61, 0x0D, 0x0A, 0x62, 0x0D, 0x0A, 0x63, 0x1B, 0x5B, 0x3F, 0x31, 0x30, 0x31,
    0x30, 0x68]).terminal.scrollView 1

theorem reach_backToOutput : Reach 2 3 backToOutput :=
  ((reach_plain 2 3 (by decide) (by decide)).feed _).scrollView 1

/-- A wide glyph may be cut between its bytes: each piece brings the view
back, and so does the whole. -/
theorem agree_feed_append_glyph :
    let t := backToOutput.usePrinter {}
    (t.Ready fun s => s.room = none ∧ s.flushFails = false) ∧
      Agree Spool.received ((t.feed [0xE3]).terminal.feed [0x81, 0x82]).terminal
        (t.feed ([0xE3] ++ [0x81, 0x82])).terminal := by
  intro t
  have hready : t.Ready fun s => s.room = none ∧ s.flushFails = false := by
    intro p hp
    cases hp
    exact ⟨rfl, rfl⟩
  have hreach : Reach 2 3 t := reach_backToOutput.usePrinter {}
  refine ⟨hready, (agree_feed_append_iff accepts_spool hreach hready _ _).2.2.2 ?_⟩
  rintro ⟨-, -, hoff, -⟩
  exact absurd hoff (by decide +kernel)

/-- A letter, and the end of the mode: cut between the two, the letter brings
the view back, and fed at once, both leave it where it is. -/
theorem not_agree_feed_append_mode :
    let split := ((backToOutput.feed [0x78]).terminal.feed
      [0x1B, 0x5B, 0x3F, 0x31, 0x30, 0x31, 0x30, 0x6C]).terminal
    let joined := (backToOutput.feed ([0x78] ++
      [0x1B, 0x5B, 0x3F, 0x31, 0x30, 0x31, 0x30, 0x6C])).terminal
    Reach 2 3 backToOutput ∧ (split.viewOffset = 0 ∧ split.cursorVisible = true) ∧
      (joined.viewOffset = 1 ∧ joined.cursorVisible = false) ∧
      ¬ Agree Spool.received split joined := by
  intro split joined
  have hsplit : split.viewOffset = 0 := by decide
  have hjoined : joined.viewOffset = 1 := by decide
  refine ⟨reach_backToOutput, ⟨hsplit, by decide⟩, ⟨hjoined, by decide⟩, ?_⟩
  intro hagree
  exact absurd (hsplit.symm.trans (hagree.viewOffset_eq.trans hjoined)) (by decide)

end Terminal

end VideoTerminal
