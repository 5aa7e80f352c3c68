import TraceWorkbench.Stage.Basic

set_option autoImplicit false

/-!
# Running the built programs

Both programs run in the directory of the products. Before the instrumented one runs, the trace of
an earlier run is removed, so that a trace that is found later is its own.
-/
namespace TraceWorkbench.Stage

def runProduct (s : Setting) (product : Path) (name : String) : CommandSpec :=
  match s.mode with
  | .onHost => { program := product, workingDir := some s.project.outputDir }
  | .inContainer => inContainer s { program := "./" ++ name } (some Project.buildDir)

def runBinary : Stage String where
  kind := .runBinary
  plan s t := do
    requireOnHost s t s.project.binary .binaryNotFound
    return { command := runProduct s s.project.binary s.project.binaryName }
  successSummary := none
  failureSummary := "Errors while running the C binary"
  judge _ _ o t := unlessFailed o t o.stdout

def removeTrace (s : Setting) (t : FileTree) : Except OsError FileTree :=
  match t.removeFile s.project.traceFile with
  | .ok t => .ok t
  | .error .noEntry => .ok t
  | .error e => .error e

def runInstrumentedBinary : Stage Path where
  kind := .runInstrumentedBinary
  plan s t := do
    requireOnHost s t s.project.instrumentedBinary .binaryNotFound
    return {
      command := runProduct s s.project.instrumentedBinary s.project.instrumentedBinaryName }
  beforeSpawn := removeTrace
  successSummary := none
  failureSummary := "Errors while running the patched binary"
  judge s _ o t := unlessFailed o t s.project.traceFile

end TraceWorkbench.Stage
