import TraceWorkbench.Command
import TraceWorkbench.Failure
import TraceWorkbench.Files.Scan
import TraceWorkbench.Outcome
import TraceWorkbench.Project
import TraceWorkbench.Spec.LocatedError

set_option autoImplicit false

/-!
# Stages

A stage looks at the project and plans a command, or says what is missing; later it makes a result
of the outcome. It never starts a process itself.
-/
namespace TraceWorkbench

structure Setting where
  project : Project
  config : ToolchainConfig
  deriving DecidableEq, Repr, Inhabited

def Setting.mode (s : Setting) : ExecutionMode := s.config.mode

structure StageWarning where
  title : String
  detail : String
  deriving DecidableEq, Repr, Inhabited

structure Plan where
  command : CommandSpec
  input : Option Path := none
  warnings : List StageWarning := []
  deriving DecidableEq, Repr, Inhabited

structure StageFault where
  detail : String
  specError : Option SpecError := none
  deriving DecidableEq, Repr, Inhabited

structure Stage (α : Type) where
  kind : StageKind
  plan : Setting → FileTree → Except Precondition Plan
  /-- Runs right before the process is started. -/
  beforeSpawn : Setting → FileTree → Except OsError FileTree := fun _ t => .ok t
  echoStdout : Bool := true
  successSummary : Option String
  failureSummary : String
  /-- What becomes of an outcome, and of the files, whether it is accepted or not. -/
  judge : Setting → Plan → Outcome → FileTree → Except StageFault α × FileTree

namespace Stage

/-- On the host, a tool or input of the stage has to be there. -/
def requireOnHost (s : Setting) (t : FileTree) (p : Path) (missing : Path → Precondition) :
    Except Precondition Unit :=
  if s.mode.isOnHost && !t.exists? p then .error (missing p) else .ok ()

/-- An accepted outcome: the result, and the files as it leaves them. -/
def interpret {α : Type} (stage : Stage α) (s : Setting) (plan : Plan) (o : Outcome)
    (t : FileTree) : Except StageFault (α × FileTree) :=
  match stage.judge s plan o t with
  | (.ok a, t) => .ok (a, t)
  | (.error fault, _) => .error fault

theorem interpret_eq_ok_iff {α : Type} {stage : Stage α} {s : Setting} {plan : Plan} {o : Outcome}
    {t t' : FileTree} {a : α} :
    stage.interpret s plan o t = .ok (a, t') ↔ stage.judge s plan o t = (.ok a, t') := by
  unfold interpret
  rcases stage.judge s plan o t with ⟨fault | a, t''⟩ <;> simp

theorem interpret_eq_error_iff {α : Type} {stage : Stage α} {s : Setting} {plan : Plan}
    {o : Outcome} {t : FileTree} {fault : StageFault} :
    stage.interpret s plan o t = .error fault ↔
      (stage.judge s plan o t).1 = .error fault := by
  unfold interpret
  rcases stage.judge s plan o t with ⟨fault | a, t''⟩ <;> simp

def unlessFailed {α : Type} (o : Outcome) (t : FileTree) (a : α) :
    Except StageFault α × FileTree :=
  match o.fault? with
  | some detail => (.error ⟨detail, none⟩, t)
  | none => (.ok a, t)

theorem accepted_iff_of_unlessFailed {α : Type} {stage : Stage α} {s : Setting} {plan : Plan}
    {o : Outcome} {t : FileTree} {a : α} {r : α × FileTree}
    (h : stage.judge s plan o t = unlessFailed o t a) :
    stage.interpret s plan o t = .ok r ↔ o.fault? = none ∧ r = (a, t) := by
  obtain ⟨b, t'⟩ := r
  rw [interpret_eq_ok_iff, h]
  unfold unlessFailed
  cases o.fault? <;> simp [eq_comm]

theorem rejected_iff_of_unlessFailed {α : Type} {stage : Stage α} {s : Setting} {plan : Plan}
    {o : Outcome} {t : FileTree} {a : α} {fault : StageFault}
    (h : stage.judge s plan o t = unlessFailed o t a) :
    stage.interpret s plan o t = .error fault ↔
      ∃ detail, o.fault? = some detail ∧ fault = ⟨detail, none⟩ := by
  rw [interpret_eq_error_iff, h]
  unfold unlessFailed
  cases o.fault? <;> simp [eq_comm]

def containerPath (s : Setting) (p : Path) : String :=
  (s.project.relativize p).text.map fun c => if c = '\\' then '/' else c

def inBuildDir (name : String) : String := Project.buildDir ++ "/" ++ name

def inContainer (s : Setting) (script : ShellScript) (subdir : Option String := none) :
    CommandSpec :=
  .containerized s.config.container s.project.root subdir script

end Stage

end TraceWorkbench
