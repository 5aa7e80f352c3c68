import TraceWorkbench.Activity
import TraceWorkbench.Stage.Basic

set_option autoImplicit false

/-!
# Results of workflows

A stage or workflow succeeds, fails after its process has run, or is refused before. A workflow
goes on only after a success.
-/
namespace TraceWorkbench

structure StageFailure where
  stage : StageKind
  summary : String
  detail : String
  command : String
  exitCode : Option Int
  signal : Option String
  specError : Option SpecError
  deriving DecidableEq, Repr, Inhabited

/-- The members that are not set are left out. -/
def StageFailure.toJson (f : StageFailure) : Json.Value := .ofMembers <|
  [("stage", .string f.stage.name), ("summary", .string f.summary), ("detail", .string f.detail),
    ("command", .string f.command)] ++
    (f.exitCode.map fun c => ("exit_code", .number (.int c))).toList ++
    (f.signal.map fun s => ("signal", .string s)).toList ++
    (f.specError.map fun e => ("spec_error", e.toJson)).toList

inductive Result (α : Type) where
  | success (a : α)
  | failure (f : StageFailure)
  | refused (r : Refusal)
  deriving DecidableEq, Repr, Inhabited

namespace Result

def isSuccess {α : Type} : Result α → Bool
  | success _ => true
  | _ => false

end Result

/-- An activity with such a result, which goes on only after a success. -/
def Workflow (α : Type) := Activity (Result α)

namespace Workflow

def ofActivity {α : Type} (x : Activity (Result α)) : Workflow α := x

def toActivity {α : Type} (x : Workflow α) : Activity (Result α) := x

def andThen {α β : Type} (x : Workflow α) (f : α → Workflow β) : Workflow β :=
  Activity.bind x.toActivity fun
    | .success a => f a
    | .failure e => .done (.failure e)
    | .refused r => .done (.refused r)

def succeed {α : Type} (a : α) : Workflow α := .ofActivity (.done (.success a))

def refuse {α : Type} (r : Refusal) : Workflow α := .ofActivity (.done (.refused r))

instance : Monad Workflow where
  pure := succeed
  bind := andThen

def always {α : Type} (x : Activity α) : Workflow α :=
  .ofActivity (x.bind fun a => .done (.success a))

def attempt {α : Type} (x : Activity (Except OsError α)) : Workflow α :=
  .ofActivity <| x.bind fun
    | .ok a => .done (.success a)
    | .error e => .done (.refused (.io e))

/-- Reports an unmet precondition, and stops. -/
def refusePrecondition {α : Type} (p : Precondition) : Workflow α :=
  .ofActivity <| .step (.publish (.preconditionFailed p.title p.message)) fun _ =>
    .done (.refused (.precondition p))

def runFrom {σ α : Type} (h : Host σ) (x : Workflow α) (w : World σ) : Result α × World σ :=
  x.toActivity.run h w

theorem runFrom_andThen {σ α β : Type} (h : Host σ) (x : Workflow α) (f : α → Workflow β)
    (w : World σ) :
    (x.andThen f).runFrom h w =
      match x.runFrom h w with
      | (.success a, w) => (f a).runFrom h w
      | (.failure e, w) => (.failure e, w)
      | (.refused r, w) => (.refused r, w) := by
  refine (Activity.run_bind h x.toActivity _ w).trans ?_
  change _ = match x.toActivity.run h w with
    | (.success a, w) => (f a).runFrom h w
    | (.failure e, w) => (.failure e, w)
    | (.refused r, w) => (.refused r, w)
  cases x.toActivity.run h w with
  | mk r w' => cases r <;> rfl

theorem runFrom_bind_eq_success {σ α β : Type} {h : Host σ} {x : Workflow α} {f : α → Workflow β}
    {w w' : World σ} {b : β} (hb : (x >>= f).runFrom h w = (.success b, w')) :
    ∃ a w₁, x.runFrom h w = (.success a, w₁) ∧ (f a).runFrom h w₁ = (.success b, w') := by
  have hrun := (runFrom_andThen h x f w).symm.trans hb
  cases hx : x.runFrom h w with
  | mk r w₁ =>
    rw [hx] at hrun
    cases r with
    | success a => exact ⟨a, w₁, rfl, hrun⟩
    | failure e => simp at hrun
    | refused e => simp at hrun

end Workflow

end TraceWorkbench
