import TraceWorkbench.Proofs.FreshTrace
import TraceWorkbench.Proofs.Protocol

set_option autoImplicit false

/-!
# The course of a call

A call meets the world once for each of its effects. In between others may have done anything to it,
so a course says for each effect which world it met and which it left. Courses of composed calls are
put together from those of their parts.
-/
namespace TraceWorkbench

def Effect.saved? : {β : Type} → Effect β → Option Path
  | _, .save p => some p
  | _, _ => none

/-- An effect of a call with the world that it met and the one that it left. -/
structure OwnStep (σ : Type) where
  Answer : Type
  effect : Effect Answer
  before : World σ
  after : World σ

namespace OwnStep

variable {σ : Type}

def told? (s : OwnStep σ) : Option Event := s.effect.event?

def saved? (s : OwnStep σ) : Option Path := s.effect.saved?

def KeepsFiles (s : OwnStep σ) : Prop := s.after.files = s.before.files

end OwnStep

namespace Activity

variable {σ α β : Type}

/-- The activity can take these steps and end with this, whatever others do in between. Each step
has a host of its own, so that what a host answers may depend on what others did. -/
inductive Takes : Activity α → List (OwnStep σ) → α → Prop where
  | done (a : α) : Takes (.done a) [] a
  | step {β : Type} (e : Effect β) (next : β → Activity α) (h : Host σ) (w : World σ)
    {steps : List (OwnStep σ)} {a : α} (rest : Takes (next (w.answer h e).1) steps a) :
    Takes (.step e next) (⟨β, e, w, (w.answer h e).2⟩ :: steps) a

/-- The steps of a run that nobody disturbs. -/
def steps (h : Host σ) : Activity α → World σ → List (OwnStep σ)
  | .done _, _ => []
  | .step e next, w =>
    ⟨_, e, w, (w.answer h e).2⟩ :: steps h (next (w.answer h e).1) (w.answer h e).2

theorem takes_run (h : Host σ) (x : Activity α) (w : World σ) :
    x.Takes (x.steps h w) (x.run h w).1 := by
  induction x generalizing w with
  | done a => exact .done a
  | step e next ih => exact .step e next h w (ih _ _)

namespace Takes

variable {steps : List (OwnStep σ)} {a a' : α} {b : β}

theorem of_done (hx : (Activity.done a).Takes steps a') :
    steps = [] ∧ a' = a := by
  cases hx with
  | done => exact ⟨rfl, rfl⟩

theorem of_step {e : Effect β} {next : β → Activity α}
    (hx : (Activity.step e next).Takes steps a) :
    ∃ h w more, steps = ⟨β, e, w, (w.answer h e).2⟩ :: more ∧
      (next (w.answer h e).1).Takes more a := by
  cases hx with
  | step e next h w rest => exact ⟨h, w, _, rfl, rest⟩

/-- A course of two activities in a row is one of the first, and then one of the second. -/
theorem of_bind {x : Activity α} {f : α → Activity β} (hx : (x.bind f).Takes steps b) :
    ∃ front back a, steps = front ++ back ∧ x.Takes front a ∧ (f a).Takes back b := by
  induction x generalizing steps with
  | done a => exact ⟨[], steps, a, rfl, .done a, hx⟩
  | step e next ih =>
    obtain ⟨h, w, more, rfl, hrest⟩ := of_step hx
    obtain ⟨front, back, a, rfl, hfront, hback⟩ := ih _ hrest
    exact ⟨_ :: front, back, a, rfl, .step e next h w hfront, hback⟩

theorem of_perform {e : Effect α} (hx : (perform e).Takes steps a) :
    ∃ (h : Host σ) (w : World σ), steps = [⟨α, e, w, (w.answer h e).2⟩] ∧
      a = (w.answer h e).1 := by
  obtain ⟨h, w, more, rfl, hrest⟩ := of_step hx
  obtain ⟨rfl, rfl⟩ := hrest.of_done
  exact ⟨h, w, rfl, rfl⟩

end Takes

theorem takes_look {f : FileTree → α} {steps : List (OwnStep σ)} {a : α}
    (hx : (look f).Takes steps a) :
    ∃ s, steps = [s] ∧ s.told? = none ∧ a = f s.before.files := by
  obtain ⟨h, w, rfl, ha⟩ := Takes.of_perform hx
  exact ⟨_, rfl, rfl, ha⟩

end Activity

namespace Workflow

open Activity

variable {σ α β : Type} {steps : List (OwnStep σ)} {r : Refusal}

theorem takes_always {x : Activity α} {q : Result α}
    (hx : (always x).toActivity.Takes steps q) : ∃ a, q = .success a ∧ x.Takes steps a := by
  obtain ⟨front, back, a, rfl, hfront, hback⟩ := Takes.of_bind hx
  obtain ⟨rfl, rfl⟩ := hback.of_done
  exact ⟨a, rfl, by simpa using hfront⟩

theorem takes_attempt {x : Activity (Except OsError α)} {q : Result α}
    (hx : (attempt x).toActivity.Takes steps q) :
    (∃ a, q = .success a ∧ x.Takes steps (.ok a)) ∨
      ∃ e, q = .refused (.io e) ∧ x.Takes steps (.error e) := by
  obtain ⟨front, back, a, rfl, hfront, hback⟩ := Takes.of_bind hx
  cases a with
  | ok a =>
    obtain ⟨rfl, rfl⟩ := hback.of_done
    exact .inl ⟨a, rfl, by simpa using hfront⟩
  | error e =>
    obtain ⟨rfl, rfl⟩ := hback.of_done
    exact .inr ⟨e, rfl, by simpa using hfront⟩

theorem takes_success_andThen {x : Workflow α} {f : α → Workflow β} {b : β}
    (hx : (x.andThen f).toActivity.Takes steps (.success b)) :
    ∃ front back a, steps = front ++ back ∧ x.toActivity.Takes front (.success a) ∧
      (f a).toActivity.Takes back (.success b) := by
  obtain ⟨front, back, q, rfl, hfront, hback⟩ := Takes.of_bind hx
  cases q with
  | success a => exact ⟨front, back, a, rfl, hfront, hback⟩
  | failure e => simpa using hback.of_done.2
  | refused r => simpa using hback.of_done.2

theorem takes_refused_andThen {x : Workflow α} {f : α → Workflow β}
    (hx : (x.andThen f).toActivity.Takes steps (.refused r)) :
    x.toActivity.Takes steps (.refused r) ∨ ∃ front back a, steps = front ++ back ∧
      x.toActivity.Takes front (.success a) ∧ (f a).toActivity.Takes back (.refused r) := by
  obtain ⟨front, back, q, rfl, hfront, hback⟩ := Takes.of_bind hx
  cases q with
  | success a => exact .inr ⟨front, back, a, rfl, hfront, hback⟩
  | failure e =>
    obtain ⟨-, hr⟩ := hback.of_done
    simp at hr
  | refused r' =>
    obtain ⟨rfl, hr⟩ := hback.of_done
    obtain rfl := Result.refused.inj hr
    exact .inl (by simpa using hfront)

theorem takes_succeed {a : α} {q : Result α} (hx : (succeed a).toActivity.Takes steps q) :
    steps = [] ∧ q = .success a := hx.of_done

theorem takes_refusePrecondition {p : Precondition} {q : Result α}
    (hx : (refusePrecondition p : Workflow α).toActivity.Takes steps q) :
    q = .refused (.precondition p) ∧ ∃ w : World σ,
      steps = [⟨Unit, .publish (.preconditionFailed p.title p.message), w,
        w.publish (.preconditionFailed p.title p.message)⟩] := by
  obtain ⟨h, w, more, rfl, hrest⟩ := Takes.of_step hx
  obtain ⟨rfl, rfl⟩ := hrest.of_done
  exact ⟨rfl, w, rfl⟩

end Workflow

namespace Bench

open Activity Workflow

variable {σ : Type} {steps : List (OwnStep σ)}

theorem takes_activeProject {q : Result Project}
    (hx : activeProject.toActivity.Takes steps q) :
    ∃ first more, steps = first :: more ∧ first.told? = none ∧ first.saved? = none ∧
      first.KeepsFiles ∧
      ((∃ p, q = .success p ∧ first.before.active.current = some p ∧ more = []) ∨
        q = .refused (.precondition .noActiveProject) ∧ ∃ s, more = [s] ∧ s.told? =
          some (.preconditionFailed Precondition.noActiveProject.title
            Precondition.noActiveProject.message)) := by
  obtain ⟨front, back, current, rfl, hfront, hback⟩ := Takes.of_bind hx
  obtain ⟨h, w, rfl, rfl⟩ := Takes.of_perform hfront
  refine ⟨_, back, rfl, rfl, rfl, rfl, ?_⟩
  simp only [World.answer] at hback ⊢
  cases hcurrent : w.active.current with
  | some p =>
    rw [hcurrent] at hback
    obtain ⟨rfl, rfl⟩ := hback.of_done
    exact .inl ⟨p, rfl, rfl, rfl⟩
  | none =>
    rw [hcurrent] at hback
    obtain ⟨rfl, v, rfl⟩ := takes_refusePrecondition hback
    exact .inr ⟨rfl, _, rfl, rfl⟩

end Bench

end TraceWorkbench
