import TraceWorkbench.Files.Access
import TraceWorkbench.Project.Linter
import TraceWorkbench.Project.TraceConfig

set_option autoImplicit false

/-!
# Files that the workbench writes into a project

The linter configuration, which is written once and never touched again, and the trace
configuration, which is replaced before each run.
-/
namespace TraceWorkbench

inductive SetupOutcome where
  | alreadyPresent
  | written (path : Path)
  | compilerMissing
  deriving DecidableEq, Repr, Inhabited

namespace Project

/-- Writes the linter configuration of the project at a root, unless there is one already. -/
def setUp (root : Path) (clang : Option Path) (t : FileTree) :
    Except OsError (SetupOutcome × FileTree) :=
  let target := root.join ⟨LinterConfig.fileName⟩
  if t.exists? target then .ok (.alreadyPresent, t)
  else
    match clang with
    | none => .ok (.compilerMissing, t)
    | some clang =>
      match t.writeText target (LinterConfig.fileText { execPath := clang }) with
      | .error e => .error e
      | .ok t => .ok (.written target, t)

/-- Replaces the trace configuration. An old one that cannot be replaced may be lost. -/
def writeTraceConfig (p : Project) (f : TraceFormatting) (mode : ExecutionMode) (t : FileTree) :
    Except OsError Unit × FileTree :=
  let write (t : FileTree) : Except OsError Unit × FileTree :=
    match t.writeText p.traceConfig (p.traceConfigText f mode) with
    | .ok t => (.ok (), t)
    | .error e => (.error e, t)
  if t.exists? p.traceConfig then
    match t.removeFile p.traceConfig with
    | .ok t => write t
    | .error e => (.error e, t)
  else write t

end Project

end TraceWorkbench
