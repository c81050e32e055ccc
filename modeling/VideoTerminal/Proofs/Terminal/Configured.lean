import VideoTerminal.Proofs.Terminal.Course
import VideoTerminal.Proofs.Terminal.Reach
/-!
# What the host chose

A terminal keeps the configuration that it was created with, and both of its
screens keep from it whether lines wrap after a reset. Nothing that a child
program sends changes either, and nothing that the host does later.
-/

namespace VideoTerminal

theorem Screen.wrapsByDefault_resize (s : Screen) (height width : Nat) :
    (s.resize height width).wrapsByDefault = s.wrapsByDefault := by
  unfold resize
  dsimp only
  split <;> rfl

namespace Terminal

variable {π : Type} {rows cols : Nat} {t t' t'' : Terminal π}

/-- Both terminals were configured the same, and their screens fall back on
the same. -/
structure Upholds (t t' : Terminal π) : Prop where
  config : t'.config = t.config
  default (kind : ScreenKind) :
    (t'.screenOf kind).wrapsByDefault = (t.screenOf kind).wrapsByDefault

/-- Screens fall back on what the host chose. -/
def Configured (t : Terminal π) : Prop :=
  ∀ kind, (t.screenOf kind).wrapsByDefault = t.config.autowrap

theorem Configured.of_upholds (h : t.Configured) (hup : t.Upholds t') : t'.Configured := by
  intro kind
  rw [hup.default, hup.config]
  exact h kind

namespace Upholds

/-- A terminal with the same screens. -/
theorem of_eq (hconfig : t'.config = t.config) (hprimary : t'.primary = t.primary)
    (halternate : t'.alternate = t.alternate) : t.Upholds t' := by
  refine ⟨hconfig, fun kind => ?_⟩
  cases kind with
  | primary => exact congrArg Screen.wrapsByDefault hprimary
  | alternate => exact congrArg Screen.wrapsByDefault halternate

theorem refl (t : Terminal π) : t.Upholds t := of_eq rfl rfl rfl

theorem trans (h : t.Upholds t') (h' : t'.Upholds t'') : t.Upholds t'' :=
  ⟨h'.config.trans h.config, fun kind => (h'.default kind).trans (h.default kind)⟩

theorem modifyOf (t : Terminal π) (kind : ScreenKind) {f : Screen → Screen}
    (hf : ∀ s, (f s).wrapsByDefault = s.wrapsByDefault) : t.Upholds (t.modifyOf kind f) := by
  refine ⟨by cases kind <;> rfl, fun k => ?_⟩
  cases kind <;> cases k <;> first | rfl | exact hf _

theorem changeScreen (t : Terminal π) (kind : ScreenKind) : t.Upholds (t.changeScreen kind) := by
  unfold Terminal.changeScreen
  split
  · exact refl t
  · refine ⟨by cases kind <;> rfl, fun k => ?_⟩
    cases kind <;> cases k <;> rfl

/-- No course changes what the host chose. -/
theorem of_course {f : Terminal π → Terminal π} (hf : Course f) (t : Terminal π) :
    t.Upholds (f t) := by
  induction hf generalizing t with
  | skip => exact refl t
  | comp _ _ ihg ihf => exact (ihf t).trans (ihg _)
  | reading _ _ ih => exact ih _ t
  | shown hf => exact modifyOf t t.active hf.default
  | alternate hf => exact modifyOf t .alternate hf.default
  | saved => exact modifyOf t .primary fun _ => rfl
  | switched kind => exact changeScreen t kind
  | sent | told => exact of_eq rfl rfl rfl
  | akin hakin =>
    rw [hakin t]
    exact of_eq rfl rfl rfl

theorem of_takes (h : t.Takes t') : t.Upholds t' := by
  obtain ⟨f, hf, rfl⟩ := h
  exact of_course hf t

end Upholds

/-- **The screens of a reachable terminal fall back on what the host chose**,
also after a resize. -/
theorem Reach.configured [Glyph.Widths] [Printer π] (h : Reach rows cols t) : t.Configured := by
  induction h with
  | create h =>
    unfold Terminal.create at h
    split at h
    · cases h
    · cases h
      intro kind
      cases kind <;> rfl
  | feed bytes _ ih => exact ih.of_upholds (.of_takes (Takes.feed _ bytes))
  | resize hr _ ih =>
    unfold Terminal.resize at hr
    split at hr
    · cases hr
    · cases hr
      intro kind
      cases kind with
      | primary => exact (Screen.wrapsByDefault_resize _ _ _).trans (ih .primary)
      | alternate => exact (Screen.wrapsByDefault_resize _ _ _).trans (ih .alternate)
  | point p _ ih =>
    refine ih.of_upholds ?_
    unfold Terminal.point selectAt
    dsimp only
    split
    · split <;> exact .of_eq rfl rfl rfl
    · split <;> exact .of_eq rfl rfl rfl
  | scrollView distance _ ih => exact ih.of_upholds (.of_takes (Takes.viewAt _ _))
  | changeScreen kind _ ih => exact ih.of_upholds (.changeScreen _ kind)
  | fullReset _ ih => exact ih.of_upholds (.of_course Course.fullReset _)
  | typeBytes bytes _ ih =>
    refine ih.of_upholds ?_
    unfold Terminal.typeBytes
    dsimp only
    split
    · exact .of_takes ((Takes.of_course (.sent bytes) _).trans (Takes.viewAt _ 0))
    · exact .of_eq rfl rfl rfl
  | paste bytes _ ih =>
    refine ih.of_upholds ?_
    unfold Terminal.paste
    dsimp only
    split <;> exact .of_eq rfl rfl rfl
  | clearMarks _ ih =>
    exact ih.of_upholds (.modifyOf _ _ (f := fun s => { s with grid := s.grid.clearMarks })
      fun _ => rfl)
  | countClick | clearSelection | drained | usePrinter | closePipe | shutdown =>
    rename_i ih
    exact ih.of_upholds (.of_eq rfl rfl rfl)

end Terminal

end VideoTerminal
