import TraceWorkbench.Proofs.CallCourses
import TraceWorkbench.Proofs.MutualExclusion

set_option autoImplicit false

/-!
# Calls that find the slot taken

A call prepares its project before its first stage asks for the slot. When the slot is taken it is
turned away there, so what it has done is this preparation, all of it and nothing else.
-/
namespace TraceWorkbench

open Activity

section

variable {σ α β : Type}

/-- The steps change files in these ways, once each and in this order. Apart from them, only what is
saved may be written. -/
inductive ChangeFiles : List (FileTree → FileTree → Prop) → List (OwnStep σ) → Prop where
  | nil : ChangeFiles [] []
  | keep {ways : List (FileTree → FileTree → Prop)} {s : OwnStep σ} {steps : List (OwnStep σ)}
    (keeps : s.KeepsFiles) (rest : ChangeFiles ways steps) : ChangeFiles ways (s :: steps)
  | save {ways : List (FileTree → FileTree → Prop)} {s : OwnStep σ} {steps : List (OwnStep σ)}
    (saves : s.saved? ≠ none) (rest : ChangeFiles ways steps) : ChangeFiles ways (s :: steps)
  | change {way : FileTree → FileTree → Prop} {ways : List (FileTree → FileTree → Prop)}
    {s : OwnStep σ} {steps : List (OwnStep σ)} (saves : s.saved? = none)
    (changes : way s.before.files s.after.files) (rest : ChangeFiles ways steps) :
    ChangeFiles (way :: ways) (s :: steps)

theorem ChangeFiles.keeps {ways : List (FileTree → FileTree → Prop)} {steps : List (OwnStep σ)}
    (hc : ChangeFiles ways steps) {P : FileTree → Prop}
    (hways : ∀ way ∈ ways, ∀ t t', P t → way t t' → t' = t)
    (hsteps : ∀ s ∈ steps, P s.before.files) : ∀ s ∈ steps, s.saved? = none → s.KeepsFiles := by
  induction hc with
  | nil => simp
  | keep keeps rest ih =>
    rw [List.forall_mem_cons] at hsteps ⊢
    exact ⟨fun _ => keeps, ih hways hsteps.2⟩
  | save saves rest ih =>
    rw [List.forall_mem_cons] at hsteps ⊢
    exact ⟨fun hnone => absurd hnone saves, ih hways hsteps.2⟩
  | change saves changes rest ih =>
    rw [List.forall_mem_cons] at hways hsteps ⊢
    exact ⟨fun _ => hways.1 _ _ hsteps.1 changes, ih hways.2 hsteps.2⟩

theorem ChangeFiles.append {ways ways' : List (FileTree → FileTree → Prop)}
    {front back : List (OwnStep σ)} (hf : ChangeFiles ways front) (hb : ChangeFiles ways' back) :
    ChangeFiles (ways ++ ways') (front ++ back) := by
  induction hf with
  | nil => exact hb
  | keep keeps rest ih => exact .keep keeps ih
  | save saves rest ih => exact .save saves ih
  | change saves changes rest ih => exact .change saves changes ih

/-- All that the steps do is to change files in these ways and to save these editors, in order. They
may look and tell, but they start no stage. -/
structure OnlyPrepare (ways : List (FileTree → FileTree → Prop)) (saved : List Path)
    (steps : List (OwnStep σ)) : Prop where
  files : ChangeFiles ways steps
  saved : steps.filterMap OwnStep.saved? = saved
  unannounced : ∀ s ∈ steps, ∀ e ∈ s.told?, e.startedStage? = none

namespace OnlyPrepare

variable {ways ways' : List (FileTree → FileTree → Prop)} {saved saved' : List Path}

theorem nil : OnlyPrepare [] [] ([] : List (OwnStep σ)) := ⟨.nil, rfl, by simp⟩

theorem append {front back : List (OwnStep σ)} (hf : OnlyPrepare ways saved front)
    (hb : OnlyPrepare ways' saved' back) :
    OnlyPrepare (ways ++ ways') (saved ++ saved') (front ++ back) where
  files := hf.files.append hb.files
  saved := by rw [List.filterMap_append, hf.saved, hb.saved]
  unannounced s hs := (List.mem_append.1 hs).elim (hf.unannounced s) (hb.unannounced s)

theorem idle {s : OwnStep σ} (hkeeps : s.KeepsFiles) (hsaved : s.saved? = none)
    (htold : ∀ e ∈ s.told?, e.startedStage? = none) : OnlyPrepare [] [] [s] where
  files := .keep hkeeps .nil
  saved := by simp [hsaved]
  unannounced s' hs' := by
    obtain rfl := List.mem_singleton.1 hs'
    exact htold

theorem change {way : FileTree → FileTree → Prop} {s : OwnStep σ}
    (hchanges : way s.before.files s.after.files) (hsaved : s.saved? = none)
    (htold : s.told? = none) : OnlyPrepare [way] [] [s] where
  files := .change hsaved hchanges .nil
  saved := by simp [hsaved]
  unannounced s' hs' e he := by
    obtain rfl := List.mem_singleton.1 hs'
    simp [htold] at he

end OnlyPrepare

/-- The first step has looked this project up, and nothing is done but to prepare it. -/
def PreparesFor (p : Project) (ways : List (FileTree → FileTree → Prop)) (saved : List Path)
    (steps : List (OwnStep σ)) : Prop :=
  ∃ first more, steps = first :: more ∧ first.before.active.current = some p ∧
    OnlyPrepare ways saved steps

theorem PreparesFor.append {p : Project} {ways ways' : List (FileTree → FileTree → Prop)}
    {saved saved' : List Path} {front back : List (OwnStep σ)}
    (hf : PreparesFor p ways saved front) (hb : OnlyPrepare ways' saved' back) :
    PreparesFor p (ways ++ ways') (saved ++ saved') (front ++ back) := by
  obtain ⟨first, more, rfl, hcurrent, honly⟩ := hf
  exact ⟨first, more ++ back, rfl, hcurrent, honly.append hb⟩

variable {steps : List (OwnStep σ)}

end

namespace Workflow

variable {σ α β : Type}

/-- No stage is asked to start, so the workflow is not turned away by the slot. -/
def NeverBusy (σ : Type) (x : Workflow α) : Prop :=
  ∀ (steps : List (OwnStep σ)) (wanted active : StageKind),
    ¬ x.toActivity.Takes steps (.refused (.busy wanted active))

theorem NeverBusy.andThen {x : Workflow α} {f : α → Workflow β} (hx : x.NeverBusy σ)
    (hf : ∀ a, (f a).NeverBusy σ) : (x.andThen f).NeverBusy σ := by
  intro steps wanted active hr
  rcases takes_refused_andThen hr with hfirst | ⟨front, back, a, rfl, -, hback⟩
  · exact hx _ _ _ hfirst
  · exact hf a _ _ _ hback

end Workflow

namespace Bench

open Workflow

variable {σ : Type} {steps : List (OwnStep σ)} {p : Project}

end Bench

namespace FileTree

variable {t t' : FileTree} {p : Path}

end FileTree

namespace Demo

/-- An instrumented program runs, and its logger reads the trace configuration. -/
def logging : World Unit :=
  { world (tree [("zlog.conf", .file "[rules]".utf8Bytes false)]) with
    slot := ⟨some ⟨0, .runInstrumentedBinary, none, .armed⟩, 1⟩ }

end Demo

end TraceWorkbench
