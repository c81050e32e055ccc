import VideoTerminal.Proofs.Control.Pipe
import VideoTerminal.Proofs.Terminal.Requests
import VideoTerminal.Proofs.Terminal.Lasting
import VideoTerminal.Proofs.Terminal.Reset
/-!
# Through the print pipe

What stands between the sequence that opens the print pipe and one that closes
it goes to the printer as it is, wherever the output is cut, and nothing else
becomes of it. What a printer hears is the same for all ways of cutting: bytes,
and that it has to finish.
-/

namespace VideoTerminal

/-- What a printer hears of a request: bytes, or, as `none`, that it has to
finish. -/
def Printer.Request.heard : Printer.Request → List (Option UInt8)
  | .write bytes => bytes.map some
  | .flush => [none]

namespace Action

/-- The action has to do with the print pipe only. -/
def isPiping : Action → Bool
  | .openPipe => true
  | .printData _ => true
  | .closePipe => true
  | _ => false

/-- What the printer hears of an action of the print pipe. -/
def heard : Action → List (Option UInt8)
  | .printData bytes => bytes.map some
  | .closePipe => [none]
  | _ => []

end Action

namespace Printer

variable {π : Type} [Printer π] {good : π → Prop} {printer : Option π}

/-- A printer in a good state, if there is one, takes what it is asked and
stays in a good state. -/
theorem Willing.ask (will : Willing good) (h : ∀ p, printer = some p → good p)
    (request : Request) :
    (Printer.ask printer request).2 = none ∧
      ∀ p, (Printer.ask printer request).1 = some p → good p := by
  cases printer with
  | none => exact ⟨rfl, h⟩
  | some p =>
    cases request with
    | write bytes =>
      obtain ⟨hnone, hgood⟩ := will.write bytes (h p rfl)
      refine ⟨hnone, fun q hq => ?_⟩
      cases hq
      exact hgood
    | flush =>
      obtain ⟨hnone, hgood⟩ := will.flush (h p rfl)
      refine ⟨hnone, fun q hq => ?_⟩
      cases hq
      exact hgood

theorem Willing.serve (will : Willing good) (h : ∀ p, printer = some p → good p)
    (requests : List Request) :
    (Printer.serve printer requests).2 = none ∧
      ∀ p, (Printer.serve printer requests).1 = some p → good p := by
  induction requests generalizing printer with
  | nil => exact ⟨rfl, h⟩
  | cons request requests ih =>
    obtain ⟨hnone, hgood⟩ := will.ask h request
    unfold Printer.serve
    rw [hnone]
    exact ih hgood

end Printer

namespace Terminal

open Printer (Request serve)

variable {π : Type} {good : π → Prop} {t : Terminal π} {action : Action} {actions : List Action}
  {bytes : List UInt8}

/-- A terminal without its printer, its reader, its view and its selection,
and without marks and reports of its rows. -/
def content (t : Terminal π) : Terminal π :=
  { t with
    primary := t.primary.unmarked.dropDamage
    alternate := t.alternate.unmarked.dropDamage
    reader := .ground
    selector := default
    viewOffset := 0
    printer := none }

theorem content_modifyScreen {f : Screen → Screen}
    (hf : ∀ s, (f s).unmarked.dropDamage = s.unmarked.dropDamage) (t : Terminal π) :
    (t.modifyScreen f).content = t.content := by
  unfold modifyScreen modifyOf content
  split <;> simp only [hf]

theorem content_absorbDamage (t : Terminal π) : t.absorbDamage.content = t.content := by
  have hdrop : (t.modifyScreen Screen.dropDamage).content = t.content :=
    content_modifyScreen (f := Screen.dropDamage) (fun _ => rfl) t
  exact hdrop

theorem content_settle (t : Terminal π) (sent : Bool) : (t.settle sent).content = t.content := by
  have hmark : ∀ t : Terminal π, t.markAll.content = t.content :=
    content_modifyScreen fun _ => rfl
  unfold settle snapView viewAt
  split
  · dsimp only
    split
    · rfl
    · exact hmark _
  · rfl

/-! ## Actions -/

/-- What an action of the print pipe asks is what it has the printer hear. -/
theorem heard_asks (h : action.isPiping = true) (t : Terminal π) :
    (t.asks action).flatMap Request.heard = action.heard := by
  cases action with
  | printData bytes => exact List.append_nil _
  | openPipe | closePipe => rfl
  | _ => cases h

section Printing

variable [Printer π] [Glyph.Widths]

/-- An action of the print pipe leaves the content, whether it fails or not. -/
theorem content_apply (h : action.isPiping = true) (t : Terminal π) :
    (t.apply action).terminal.content = t.content := by
  have hact : (t.act action).terminal.content = t.content := by
    cases action with
    | openPipe => rfl
    | printData bytes => exact congrArg (fun o => o.terminal.content) (print_eq t bytes)
    | closePipe => exact congrArg (fun o => o.terminal.content) (flush_eq t)
    | _ => cases h
  exact holds_andThen (p := fun t' => t'.content = t.content) hact fun ht =>
    (content_absorbDamage _).trans ht

theorem content_applyAll (h : ∀ action ∈ actions, action.isPiping = true) (t : Terminal π) :
    (t.applyAll actions).terminal.content = t.content := by
  induction actions generalizing t with
  | nil => rfl
  | cons action actions ih =>
    obtain ⟨haction, hrest⟩ := List.forall_mem_cons.1 h
    exact holds_andThen (p := fun t' => t'.content = t.content) (content_apply haction t)
      fun ht => (ih hrest _).trans ht

theorem heard_asksAll (h : ∀ action ∈ actions, action.isPiping = true) (t : Terminal π) :
    (t.asksAll actions).flatMap Request.heard = actions.flatMap Action.heard := by
  induction actions generalizing t with
  | nil => rfl
  | cons action actions ih =>
    obtain ⟨haction, hrest⟩ := List.forall_mem_cons.1 h
    unfold asksAll
    rw [List.flatMap_append, heard_asks haction, ih hrest]
    rfl

/-! ## Bytes -/

omit [Printer π] [Glyph.Widths] in
/-- Joining bytes for the printer leaves actions of the print pipe, and the
printer hears the same. -/
theorem joinData_piping (h : ∀ action ∈ actions, action.isPiping = true) :
    (∀ action ∈ Reader.joinData actions, action.isPiping = true) ∧
      (Reader.joinData actions).flatMap Action.heard = actions.flatMap Action.heard := by
  induction actions with
  | nil => exact ⟨h, rfl⟩
  | cons action rest ih =>
    obtain ⟨haction, hrest⟩ := List.forall_mem_cons.1 h
    obtain ⟨hpiping, hheard⟩ := ih hrest
    rcases joinData_cons action rest with ⟨a, b, more, rfl, hjoined, heq⟩ | heq
    · rw [hjoined] at hpiping hheard
      rw [heq]
      refine ⟨List.forall_mem_cons.2 ⟨rfl, (List.forall_mem_cons.1 hpiping).2⟩, ?_⟩
      rw [List.flatMap_cons, List.flatMap_cons, ← hheard, List.flatMap_cons, ← List.append_assoc]
      exact congrArg (· ++ more.flatMap Action.heard) List.map_append
    · rw [heq]
      refine ⟨List.forall_mem_cons.2 ⟨haction, hpiping⟩, ?_⟩
      rw [List.flatMap_cons, List.flatMap_cons, hheard]

/-- An outcome without fault, of which the printer heard so much, and nothing
else but where the reader is. -/
structure Passes (t : Terminal π) (reader : Reader) (heard : List (Option UInt8))
    (o : Outcome π) : Prop where
  fault : o.fault = none
  reader : o.terminal.reader = reader
  content : o.terminal.content = t.content
  asked : ∃ requests, serve t.printer requests = (o.terminal.printer, none) ∧
    requests.flatMap Request.heard = heard

omit [Glyph.Widths] in
theorem Passes.andThen {o : Outcome π} {f : Terminal π → Outcome π} {r r' : Reader}
    {heard more : List (Option UInt8)} (h : Passes t r heard o)
    (hf : Passes o.terminal r' more (f o.terminal)) :
    Passes t r' (heard ++ more) (o.andThen f) := by
  obtain ⟨requests, hrequests, hheard⟩ := h.asked
  obtain ⟨requests', hrequests', hmore⟩ := hf.asked
  rw [Outcome.andThen_eq h.fault]
  refine ⟨hf.fault, hf.reader, hf.content.trans h.content, requests ++ requests', ?_, ?_⟩
  · rw [Printer.serve_append (congrArg Prod.snd hrequests), hrequests]
    exact hrequests'
  · rw [List.flatMap_append, hheard, hmore]

omit [Glyph.Widths] in
/-- The printer is ready afterwards, if it never fails. -/
theorem Passes.ready {o : Outcome π} {r : Reader} {heard : List (Option UInt8)}
    (will : Printer.Willing good) (hready : t.Ready good) (h : Passes t r heard o) :
    o.terminal.Ready good := by
  obtain ⟨requests, hrequests, -⟩ := h.asked
  have hgood := (will.serve hready requests).2
  rw [hrequests] at hgood
  exact hgood

/-- Bytes for the print pipe leave the content, whether they fail or not. -/
theorem content_feed (h : ∀ action ∈ (t.reader.run bytes).2, action.isPiping = true) :
    (t.feed bytes).terminal.content = t.content :=
  holds_andThen (p := fun t' => t'.content = t.content)
    (content_applyAll (joinData_piping h).1 { t with reader := (t.reader.run bytes).1 })
    fun ht => (content_settle _ _).trans ht

/-- **Bytes for the print pipe** pass through the terminal. -/
theorem passes_feed (will : Printer.Willing good) (hready : t.Ready good)
    (h : ∀ action ∈ (t.reader.run bytes).2, action.isPiping = true) :
    Passes t (t.reader.run bytes).1 ((t.reader.run bytes).2.flatMap Action.heard)
      (t.feed bytes) := by
  obtain ⟨hpiping, hheard⟩ := joinData_piping h
  obtain ⟨hprinter, hfault, hreader⟩ := answers_feed t bytes
  have htaken := (will.serve hready (t.asksFor bytes)).1
  dsimp only at hprinter hfault hreader
  rw [htaken] at hfault hreader
  refine ⟨hfault, hreader, content_feed h, t.asksFor bytes, ?_, ?_⟩
  · rw [hprinter, ← htaken]
  · exact (heard_asksAll hpiping _).trans hheard

/-! ## In chunks -/

/-- Feed one chunk after the other, up to one that fails. -/
def feedAll (t : Terminal π) : List (List UInt8) → Outcome π
  | [] => ⟨t, none⟩
  | chunk :: chunks => (t.feed chunk).andThen (·.feedAll chunks)

/-- **It does not matter where the bytes are cut.** -/
theorem passes_feedAll (will : Printer.Willing good) (hready : t.Ready good)
    (chunks : List (List UInt8))
    (h : ∀ action ∈ (t.reader.run chunks.flatten).2, action.isPiping = true) :
    Passes t (t.reader.run chunks.flatten).1
      ((t.reader.run chunks.flatten).2.flatMap Action.heard) (t.feedAll chunks) := by
  induction chunks generalizing t with
  | nil => exact ⟨rfl, rfl, rfl, [], rfl, rfl⟩
  | cons chunk chunks ih =>
    rw [List.flatten_cons, Reader.run_append] at h ⊢
    obtain ⟨hchunk, hrest⟩ := List.forall_mem_append.1 h
    have hfirst := passes_feed will hready hchunk
    rw [← hfirst.reader] at hrest
    have hnext := ih (hfirst.ready will hready) hrest
    rw [hfirst.reader] at hnext
    rw [List.flatMap_append]
    exact hfirst.andThen hnext

omit [Glyph.Widths] in
/-- The bytes of the pieces are what the printer hears of them. -/
theorem heard_printData (pieces : List (List UInt8)) :
    (pieces.map Action.printData).flatMap Action.heard = pieces.flatten.map some := by
  induction pieces with
  | nil => rfl
  | cons piece pieces ih =>
    rw [List.map_cons, List.flatMap_cons, ih, List.flatten_cons, List.map_append]
    rfl

omit [Glyph.Widths] in
theorem isPiping_printData {pieces : List (List UInt8)} {last : List Action}
    (h : ∀ action ∈ last, action.isPiping = true) :
    ∀ action ∈ .openPipe :: (pieces.map Action.printData ++ last), action.isPiping = true := by
  refine List.forall_mem_cons.2 ⟨rfl, List.forall_mem_append.2 ⟨fun action hmem => ?_, h⟩⟩
  obtain ⟨piece, -, rfl⟩ := List.mem_map.1 hmem
  rfl

/-- **The print pipe is transparent.** The reader collects nothing, and the
printer, if there is one, never fails. Bytes that hold no sequence that closes
the pipe are fed in it, cut in any way. The printer hears just these bytes, in
their order, and once it is closed that it has to finish; nothing else comes of
them, and the reader collects nothing again. As long as the pipe is not
closed, the printer heard all bytes but those that are held, and these are the
longest end that may go on to close it. -/
theorem passes_pipe (will : Printer.Willing good) (hready : t.Ready good)
    (hground : t.reader = .ground) (hopen : Reader.LeavesOpen bytes)
    (chunks : List (List UInt8)) :
    (∀ closing ∈ Reader.pipeEnds, chunks.flatten = Reader.pipeStart ++ bytes ++ closing →
        Passes t .ground (bytes.map some ++ [none]) (t.feedAll chunks)) ∧
      (chunks.flatten = Reader.pipeStart ++ bytes →
        ∃ delivered held, Passes t (.printing held) (delivered.map some) (t.feedAll chunks) ∧
          delivered ++ held = bytes ∧ Reader.Held bytes held) := by
  refine ⟨fun closing hclosing hflat => ?_, fun hflat => ?_⟩
  · obtain ⟨pieces, hrun, hpieces⟩ := Reader.run_pipeStart_closing hopen hclosing
    have hpasses := passes_feedAll will hready chunks
    rw [hground, hflat, hrun] at hpasses
    have hpassed := hpasses (isPiping_printData fun action hmem => List.mem_singleton.1 hmem ▸ rfl)
    rw [List.flatMap_cons, List.flatMap_append, heard_printData, hpieces] at hpassed
    exact hpassed
  · obtain ⟨held, pieces, hrun, hheld, hpieces⟩ := Reader.run_pipeStart hopen
    have hpasses := passes_feedAll will hready chunks
    rw [hground, hflat, hrun] at hpasses
    have hpassed := hpasses (List.append_nil (pieces.map Action.printData) ▸
      isPiping_printData fun _ hmem => absurd hmem List.not_mem_nil)
    rw [List.flatMap_cons, heard_printData] at hpassed
    exact ⟨pieces.flatten, held, hpassed, hpieces, hheld⟩

end Printing

attribute [local instance] Glyph.unicode

/-- A letter and a sequence that does not close the pipe, cut in all three of
the sequences. -/
theorem passes_pipe_cut :
    let t := (plain 2 4).usePrinter {}
    let bytes : List UInt8 := [0x61, 0x1B, 0x5B, 0x34]
    let closed := t.feedAll [[0x1B, 0x5B], [0x35, 0x69, 0x61, 0x1B, 0x5B], [0x34, 0x1B, 0x5B, 0x3F],
      [0x34, 0x69]]
    (t.Ready (fun s => s.room = none ∧ s.flushFails = false) ∧ t.reader = .ground ∧
        Reader.LeavesOpen bytes) ∧
      Passes t .ground (bytes.map some ++ [none]) closed ∧
      closed.terminal.printer = some { received := bytes, flushes := 1 } ∧
      ∃ delivered held, Passes t (.printing held) (delivered.map some)
          (t.feedAll [[0x1B], [0x5B, 0x35, 0x69, 0x61, 0x1B], [0x5B, 0x34]]) ∧
        delivered ++ held = bytes ∧ Reader.Held bytes held := by
  intro t bytes closed
  have hready : t.Ready fun s => s.room = none ∧ s.flushFails = false := by
    intro p hp
    cases hp
    exact ⟨rfl, rfl⟩
  have hopen : Reader.LeavesOpen bytes := by
    unfold Reader.LeavesOpen
    decide
  have hpipe := passes_pipe accepts_spool.willing hready rfl hopen
  exact ⟨⟨hready, rfl, hopen⟩, (hpipe _).1 [0x1B, 0x5B, 0x3F, 0x34, 0x69] (by decide) rfl,
    by decide +kernel, (hpipe _).2 rfl⟩

end Terminal

end VideoTerminal
