import VideoTerminal.Proofs.Terminal.Split
/-!
# What the printer is asked

The actions of some bytes ask the printer for one thing after the other: to
take bytes, and to finish. The first request that fails breaks the feed off,
and the printer is asked for nothing more. By then all bytes of the feed were
read. A printer that does not take its bytes loses the print pipe; one that
does not finish leaves the reader where the last byte put it, and that may be
in a pipe that was opened later.
-/

namespace VideoTerminal

namespace Printer

variable {π : Type} [Printer π] {printer : Option π}

/-- Something that a printer is asked. -/
inductive Request where
  | write (bytes : List UInt8)
  | flush
  deriving DecidableEq, Repr

/-- Ask the printer, if there is one. -/
def ask (printer : Option π) (request : Request) : Option π × Option String :=
  match printer, request with
  | none, _ => (none, none)
  | some p, .write bytes => ((write p bytes).1, (write p bytes).2)
  | some p, .flush => ((flush p).1, (flush p).2)

/-- Ask one thing after the other, up to a request that fails. -/
def serve (printer : Option π) : List Request → Option π × Option (Request × String)
  | [] => (printer, none)
  | request :: requests =>
    match (ask printer request).2 with
    | none => serve (ask printer request).1 requests
    | some reason => ((ask printer request).1, some (request, reason))

theorem serve_singleton (printer : Option π) (request : Request) :
    serve printer [request] =
      ((ask printer request).1, (ask printer request).2.map (request, ·)) := by
  unfold serve
  split
  · rename_i hask
    rw [hask]
    rfl
  · rename_i hask
    rw [hask]
    rfl

theorem serve_append {requests : List Request} (h : (serve printer requests).2 = none)
    (more : List Request) :
    serve printer (requests ++ more) = serve (serve printer requests).1 more := by
  induction requests generalizing printer with
  | nil => rfl
  | cons request requests ih =>
    cases hask : (ask printer request).2 with
    | none =>
      simp only [List.cons_append, serve, hask] at h ⊢
      exact ih h
    | some reason =>
      simp only [serve, hask] at h
      cases h

/-- Nothing is asked after a request that failed. -/
theorem serve_append_of_failed {requests : List Request} {failed : Request × String}
    (h : (serve printer requests).2 = some failed) (more : List Request) :
    serve printer (requests ++ more) = serve printer requests := by
  induction requests generalizing printer with
  | nil => cases h
  | cons request requests ih =>
    cases hask : (ask printer request).2 with
    | none =>
      simp only [List.cons_append, serve, hask] at h ⊢
      exact ih h
    | some reason => simp only [List.cons_append, serve, hask]

end Printer

open Printer (Request ask serve)

/-- The reader after requests of which one may have failed: a printer that does
not take its bytes loses the print pipe. -/
def Reader.afterRequests (r : Reader) : Option (Request × String) → Reader
  | some (.write _, _) => r.closePipe
  | _ => r

namespace Terminal

variable {π : Type} [Printer π] {t t' : Terminal π} {o : Outcome π} {requests more : List Request}

/-- What the printer is asked by an action. -/
def asks (t : Terminal π) : Action → List Request
  | .printScreen => [.write (String.ofList t.screenText).toUTF8.toList, .write [0x0A], .flush]
  | .printData bytes => [.write bytes]
  | .closePipe => [.flush]
  | _ => []

/-- What the printer is asked by actions, as long as it does not fail. -/
def asksAll [Glyph.Widths] (t : Terminal π) : List Action → List Request
  | [] => []
  | action :: rest => t.asks action ++ (t.apply action).terminal.asksAll rest

/-- What the printer is asked when bytes are fed. -/
def asksFor [Glyph.Widths] (t : Terminal π) (bytes : List UInt8) : List Request :=
  ({ t with reader := (t.reader.feed bytes).1 } : Terminal π).asksAll (t.reader.feed bytes).2

/-- What the printer and the reader are after requests, and whether there is a
fault, follows from what the printer said to them. -/
structure Answers (t : Terminal π) (requests : List Request) (o : Outcome π) : Prop where
  printer : o.terminal.printer = (serve t.printer requests).1
  fault : o.fault = (serve t.printer requests).2.map fun failed => .printer failed.2
  reader : o.terminal.reader = t.reader.afterRequests (serve t.printer requests).2

namespace Answers

theorem of_eq (hprinter : t'.printer = t.printer) (hreader : t'.reader = t.reader) :
    Answers t [] ⟨t', none⟩ := ⟨hprinter, rfl, hreader⟩

/-- What is done next is asked only if nothing failed. -/
theorem andThen {f : Terminal π → Outcome π} (h : Answers t requests o)
    (hf : Answers o.terminal more (f o.terminal)) :
    Answers t (requests ++ more) (o.andThen f) := by
  obtain ⟨hprinter, hfault, hreader⟩ := h
  cases hserve : (serve t.printer requests).2 with
  | none =>
    rw [hserve] at hfault hreader
    have hall := Printer.serve_append hserve more
    rw [Outcome.andThen_eq hfault]
    refine ⟨?_, ?_, ?_⟩
    · rw [hf.printer, hall, hprinter]
    · rw [hf.fault, hall, hprinter]
    · rw [hf.reader, hall, hprinter, hreader]
      rfl
  | some failed =>
    have hall := Printer.serve_append_of_failed hserve more
    have hstop : o.andThen f = o := by
      unfold Outcome.andThen
      rw [hfault, hserve]
      rfl
    rw [hstop]
    exact ⟨by rw [hall, hprinter], by rw [hall, hfault], by rw [hall, hreader]⟩

theorem map {g : Terminal π → Terminal π} (h : Answers t requests o)
    (hprinter : ∀ t : Terminal π, (g t).printer = t.printer)
    (hreader : ∀ t : Terminal π, (g t).reader = t.reader) : Answers t requests (o.map g) := by
  have hmap := h.andThen (f := fun t => ⟨g t, none⟩) (of_eq (hprinter _) (hreader _))
  rw [List.append_nil] at hmap
  exact hmap

end Answers

/-! ## Actions -/

/-- A request that stands alone. -/
def requested (t : Terminal π) (request : Request) : Outcome π where
  terminal := { t with
    printer := (ask t.printer request).1
    reader := t.reader.afterRequests ((ask t.printer request).2.map (request, ·)) }
  fault := (ask t.printer request).2.map .printer

theorem answers_requested (t : Terminal π) (request : Request) :
    Answers t [request] (t.requested request) := by
  have hserve := Printer.serve_singleton t.printer request
  refine ⟨by rw [hserve]; rfl, ?_, by rw [hserve]; rfl⟩
  rw [hserve, Option.map_map]
  rfl

theorem print_eq (t : Terminal π) (bytes : List UInt8) :
    t.print bytes = t.requested (.write bytes) := by
  unfold print requested
  cases hp : t.printer with
  | none =>
    cases t
    cases hp
    rfl
  | some p =>
    cases hfailure : (Printer.write p bytes).2 <;> simp only [ask, hfailure] <;> rfl

theorem flush_eq (t : Terminal π) : t.flush = t.requested .flush := by
  unfold flush requested
  cases hp : t.printer with
  | none =>
    cases t
    cases hp
    rfl
  | some p =>
    cases hfailure : (Printer.flush p).2 <;> simp only [ask, hfailure] <;> rfl

theorem answers_print (t : Terminal π) (bytes : List UInt8) :
    Answers t [.write bytes] (t.print bytes) := by
  rw [print_eq]
  exact answers_requested t _

theorem answers_flush (t : Terminal π) : Answers t [.flush] t.flush := by
  rw [flush_eq]
  exact answers_requested t _

theorem answers_printScreen (t : Terminal π) :
    Answers t (t.asks .printScreen) t.printScreen := by
  have hline := (answers_print t (String.ofList t.screenText).toUTF8.toList).andThen
    (f := (·.print [0x0A])) (answers_print _ _)
  have hall := hline.andThen (f := flush) (answers_flush _)
  exact hall.map (g := (·.tell _)) (fun _ => rfl) fun _ => rfl

section Acting

variable [Glyph.Widths]

theorem answers_act (t : Terminal π) (action : Action) :
    Answers t (t.asks action) (t.act action) := by
  have hperform : ∀ action, Answers t [] ⟨t.perform action, none⟩ := fun action =>
    Answers.of_eq ((Blind.perform action).printer_eq t) ((Blind.perform action).reader_eq t)
  cases action with
  | printScreen => exact answers_printScreen t
  | printData bytes => exact answers_print t bytes
  | closePipe => exact answers_flush t
  | _ => exact hperform _

/-- **One action** asks the printer for what it asks, and does no more to the
printer and the reader. -/
theorem answers_apply (t : Terminal π) (action : Action) :
    Answers t (t.asks action) (t.apply action) :=
  (answers_act t action).map Blind.absorbDamage.printer_eq Blind.absorbDamage.reader_eq

theorem answers_applyAll (t : Terminal π) (actions : List Action) :
    Answers t (t.asksAll actions) (t.applyAll actions) := by
  induction actions generalizing t with
  | nil => exact Answers.of_eq rfl rfl
  | cons action actions ih => exact (answers_apply t action).andThen (ih _)

/-! ## Bytes -/

omit [Printer π] [Glyph.Widths] in
/-- Bringing the view back has nothing to do with the printer or the reader. -/
theorem settle_printer_reader (t : Terminal π) (sent : Bool) :
    (t.settle sent).printer = t.printer ∧ (t.settle sent).reader = t.reader := by
  unfold settle snapView viewAt
  split
  · dsimp only
    split
    · exact ⟨rfl, rfl⟩
    · exact ⟨Blind.markAll.printer_eq _, Blind.markAll.reader_eq _⟩
  · exact ⟨rfl, rfl⟩

/-- **Bytes are read before anything is asked**, so the requests start from the
reader after all of them. -/
theorem answers_feed (t : Terminal π) (bytes : List UInt8) :
    Answers { t with reader := (t.reader.feed bytes).1 } (t.asksFor bytes) (t.feed bytes) :=
  (answers_applyAll _ _).map (fun t => (settle_printer_reader t _).1) fun t =>
    (settle_printer_reader t _).2

/-- **What a failure leaves of the print pipe.** If a feed fails, then it was
the printer that failed at one of the requests. The print pipe is left after
that, with one exception: the printer took all bytes but could not finish, and
the pipe is open at the end of what was fed. -/
theorem inPipe_of_fault_iff {fault : Fault} {bytes : List UInt8}
    (h : (t.feed bytes).fault = some fault) :
    ∃ request reason, (serve t.printer (t.asksFor bytes)).2 = some (request, reason) ∧
      fault = .printer reason ∧
      ((t.feed bytes).terminal.reader.inPipe = false ↔
        ¬ (request = .flush ∧ (t.reader.feed bytes).1.inPipe = true)) := by
  obtain ⟨-, hfault, hreader⟩ := answers_feed t bytes
  rw [h] at hfault
  obtain ⟨⟨request, reason⟩, hfailed, hreason⟩ := Option.map_eq_some_iff.1 hfault.symm
  refine ⟨request, reason, hfailed, hreason.symm, ?_⟩
  dsimp only at hfailed hreader
  rw [hreader, hfailed]
  cases request with
  | write data =>
    have hclosed : ∀ r : Reader, r.closePipe.inPipe = false := fun r => by cases r <;> rfl
    exact ⟨fun _ hflush => Request.noConfusion hflush.1, fun _ => hclosed _⟩
  | flush =>
    change (t.reader.feed bytes).1.inPipe = false ↔ _
    rw [← Bool.not_eq_true, and_iff_right rfl]

end Acting

attribute [local instance] Glyph.unicode

/-- A printer without room that is given a byte: the pipe is left, though the
bytes that are fed do not close it. -/
theorem inPipe_of_fault_iff_full :
    let t := (plain 2 4).usePrinter { room := some 0 }
    let o := t.feed [0x1B, 0x5B, 0x35, 0x69, 0x61]
    o.fault = some (.printer "sink full") ∧ o.terminal.reader.inPipe = false := by
  intro t o
  have hfault : o.fault = some (.printer "sink full") := by decide +kernel
  obtain ⟨request, reason, hrequest, -, hiff⟩ := inPipe_of_fault_iff hfault
  refine ⟨hfault, hiff.2 fun hopen => ?_⟩
  have hwrite : (serve t.printer (t.asksFor [0x1B, 0x5B, 0x35, 0x69, 0x61])).2 =
      some (.write [0x61], "sink full") := by decide +kernel
  rw [hwrite] at hrequest
  cases hrequest
  cases hopen.1

/-- A printer that takes bytes but cannot finish, and a pipe that is closed and
opened again: after the failure it is still open, and the text that is fed
next goes to the printer. -/
theorem inPipe_reopened :
    let t := (plain 2 4).usePrinter { flushFails := true }
    let o := t.feed [0x1B, 0x5B, 0x35, 0x69, 0x61, 0x1B, 0x5B, 0x34, 0x69, 0x1B, 0x5B, 0x35, 0x69]
    Reach 2 4 t ∧ o.fault = some (.printer "flush failed") ∧
      o.terminal.reader.inPipe = true ∧
      (o.terminal.feed [0x6F, 0x6B]).terminal.printer.map Spool.received =
        some [0x61, 0x6F, 0x6B] ∧
      (o.terminal.feed [0x6F, 0x6B]).terminal.primary.cursor = ⟨0, 0⟩ := by
  intro t o
  exact ⟨(reach_plain 2 4 (by decide) (by decide)).usePrinter _, by decide +kernel,
    by decide +kernel, by decide +kernel, by decide +kernel⟩

end Terminal

end VideoTerminal
