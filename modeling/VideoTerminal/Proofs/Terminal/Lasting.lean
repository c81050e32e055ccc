import VideoTerminal.Terminal.Feed
/-!
# What lasts

A feed reads bytes, performs their actions one after the other, and brings the
view back. So what every action keeps, and what a change of the reader, the
printer, the view and the marks does not touch, every feed keeps, also one
that breaks off.
-/

namespace VideoTerminal

namespace Terminal

variable {π : Type} {p : Terminal π → Prop} {t : Terminal π}

/-- Every action keeps what `p` says, and the rest of a feed does not touch
it. -/
structure Lasting [Glyph.Widths] (p : Terminal π → Prop) : Prop where
  aside {t : Terminal π} (reader : Reader) (printer : Option π) (viewOffset : Nat) :
    p t → p { t with reader, printer, viewOffset }
  markAll {t : Terminal π} : p t → p t.markAll
  tell {t : Terminal π} (event : Event) : p t → p (t.tell event)
  perform {t : Terminal π} (action : Action) : p t → p (t.perform action)
  absorbDamage {t : Terminal π} : p t → p t.absorbDamage

/-- What lasts is there whether what comes next is done or not. -/
theorem holds_andThen {o : Outcome π} (ho : p o.terminal) {f : Terminal π → Outcome π}
    (hf : ∀ {t : Terminal π}, p t → p (f t).terminal) : p (o.andThen f).terminal := by
  unfold Outcome.andThen
  split
  · exact hf ho
  · exact ho

namespace Lasting

variable [Glyph.Widths]

theorem viewAt (h : Lasting p) (ht : p t) (offset : Nat) : p (t.viewAt offset) := by
  unfold Terminal.viewAt
  split
  · exact ht
  · exact h.markAll (h.aside t.reader t.printer offset ht)

theorem settle (h : Lasting p) (ht : p t) (sent : Bool) : p (t.settle sent) := by
  unfold Terminal.settle
  dsimp only
  split
  · exact h.aside _ _ _ (h.viewAt ht 0)
  · exact h.aside _ _ _ ht

variable [Printer π]

theorem print (h : Lasting p) (ht : p t) (bytes : List UInt8) : p (t.print bytes).terminal := by
  unfold Terminal.print
  split
  · exact ht
  · dsimp only
    split <;> exact h.aside _ _ t.viewOffset ht

theorem flush (h : Lasting p) (ht : p t) : p t.flush.terminal := by
  unfold Terminal.flush
  split
  · exact ht
  · exact h.aside t.reader _ t.viewOffset ht

theorem printScreen (h : Lasting p) (ht : p t) : p t.printScreen.terminal := by
  unfold Terminal.printScreen
  have htext := holds_andThen (h.print ht (String.ofList t.screenText).toUTF8.toList)
    fun ht => h.print ht [0x0A]
  exact holds_andThen (holds_andThen htext fun ht => h.flush ht) fun ht => h.tell _ ht

theorem act (h : Lasting p) (ht : p t) (action : Action) : p (t.act action).terminal := by
  unfold Terminal.act
  split
  · exact h.printScreen ht
  · exact h.print ht _
  · exact h.flush ht
  · exact h.perform _ ht

theorem apply (h : Lasting p) (ht : p t) (action : Action) : p (t.apply action).terminal :=
  holds_andThen (h.act ht action) h.absorbDamage

theorem applyAll (h : Lasting p) (ht : p t) (actions : List Action) :
    p (t.applyAll actions).terminal := by
  induction actions generalizing t with
  | nil => exact ht
  | cons action actions ih => exact holds_andThen (h.apply ht action) ih

/-- **What lasts, a feed keeps.** -/
theorem feed (h : Lasting p) (ht : p t) (bytes : List UInt8) : p (t.feed bytes).terminal := by
  have hread : p { t with reader := (t.reader.feed bytes).1 } := h.aside _ t.printer t.viewOffset ht
  exact holds_andThen (h.applyAll hread _) fun ht => h.settle ht _

end Lasting

end Terminal

end VideoTerminal
