import TraceWorkbench.Spec.Tracked
import TraceWorkbench.Spec.Unused
import TraceWorkbench.Stage.Build
import TraceWorkbench.Stage.Execute
import TraceWorkbench.Stage.Verify
import TraceWorkbench.Workflow.Editor
import TraceWorkbench.Workflow.StageRun

set_option autoImplicit false

/-!
# Workflows

What the user can ask for. A workflow runs its stages in order and stops at the first that does not
succeed.
-/
namespace TraceWorkbench.Bench

def setting (b : Bench) (p : Project) : Setting := ⟨p, b.config⟩

def makeOutputDir (p : Project) : Workflow Unit := .attempt (.files fun t => t.makeDirs p.outputDir)

def saveAll : List Path → Activity Unit
  | [] => .done ()
  | p :: more => .step (.save p) fun _ => saveAll more

/-- The open editors with the active one at the end. -/
def editorsActiveLast (w : Workspace) : List Path :=
  match w.activeEditor with
  | some active => (w.openEditors.filter fun e => !e.same active) ++ [active]
  | none => w.openEditors

def writeTraceConfig (b : Bench) (p : Project) : Workflow Unit :=
  .attempt <| .perform <| .files fun t => p.writeTraceConfig b.config.formatting b.config.mode t

def prepareC (b : Bench) : Workflow Project := do
  let p ← activeProject
  makeOutputDir p
  .always (saveAll b.workspace.openEditors)
  return p

def compileAndRunC (b : Bench) : Workflow String := do
  let p ← b.prepareC
  let _ ← runStage (b.setting p) (.compileC false)
  runStage (b.setting p) .runBinary

def prepareProject (b : Bench) : Workflow Project := do
  let p ← activeProject
  makeOutputDir p
  b.writeTraceConfig p
  .always (saveAll (editorsActiveLast b.workspace))
  return p

def compileAndRunProject (b : Bench) : Workflow VerificationReport := do
  let p ← b.prepareProject
  let _ ← runStage (b.setting p) (.compileC true)
  let _ ← runStage (b.setting p) .patchAssembly
  let _ ← runStage (b.setting p) .assemble
  let _ ← runStage (b.setting p) .runInstrumentedBinary
  let _ ← runStage (b.setting p) .compileSpecification
  let report ← runStage (b.setting p) .runVerificationServer
  .always (.publish (.verificationOutput report.output report.startedAt))
  return report

def buildC (b : Bench) (emitLlvm : Bool) : Workflow Path := do
  let p ← activeProject
  makeOutputDir p
  runStage (b.setting p) (.compileC emitLlvm)

def runBinary (b : Bench) : Workflow String := do
  let p ← activeProject
  runStage (b.setting p) .runBinary

def readAll (t : FileTree) : List Path → Except OsError (List String)
  | [] => .ok []
  | p :: more =>
    match t.readText p with
    | .error e => .error e
    | .ok text => (readAll t more).map (text :: ·)

def unusedIn (t : FileTree) (root spec : Path) : Except OsError (List FunctionOccurrence) :=
  match t.readText spec with
  | .error e => .error e
  | .ok text =>
    (readAll t (Scan.cSources t root)).map fun sources =>
      Unused.occurrences text (Unused.functions (Tracked.functions text) sources)

def highlightUnused : Workflow (List FunctionOccurrence) := do
  let p ← activeProject
  match ← .always (.look fun t => (Scan.specFiles t p.root).head?) with
  | none => .refusePrecondition (.noSpecification p.root)
  | some spec =>
    let occurrences ← .attempt (.look fun t => unusedIn t p.root spec)
    .always (.publish (.unusedFunctions spec occurrences))
    return occurrences

end TraceWorkbench.Bench
