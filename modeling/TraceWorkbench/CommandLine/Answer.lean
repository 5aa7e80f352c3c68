import TraceWorkbench.CommandLine.Arguments
import TraceWorkbench.CommandLine.Console
import TraceWorkbench.Workflow.Container
import TraceWorkbench.Workflow.Pipeline

set_option autoImplicit false

/-!
# Answers of the command line

Loads the configuration, opens the project and does what was asked for. What users see is what the
events show, then what the request itself prints.
-/
namespace TraceWorkbench.CommandLine

structure Answer where
  code : Nat
  stdout : String := ""
  stderr : String := ""
  deriving DecidableEq, Repr, Inhabited

namespace Answer

def success : Answer := { code := 0 }

def failure : Answer := { code := 1 }

def error (chain : List String) : Answer :=
  { code := 1, stderr := "Error: " ++ ": ".intercalate chain ++ "\n" }

def ofResult {α : Type} : Result α → Answer
  | .success _ => success
  | .failure _ => failure
  | .refused r => error r.chain

def ofOccurrence (o : FunctionOccurrence) : String :=
  toString (o.line.toNat + 1) ++ ":" ++ toString (o.startColumn.toNat + 1) ++ ": " ++ o.function ++
    " is never called\n"

def ofUnused : Result (List FunctionOccurrence) → Answer
  | .success os => { success with stdout := String.join (os.map ofOccurrence) }
  | r => ofResult r

def ofSetup : Result SetupOutcome → Answer
  | .success (.written path) => { success with stdout := "Wrote " ++ path.text ++ "\n" }
  | .success .alreadyPresent =>
    { success with stdout := "Linter configuration already present\n" }
  | .success .compilerMissing => failure
  | r => ofResult r

def ofContainer (c : ContainerConfig) : Except OsError ContainerStatus → Answer
  | .error e => error ["Failed to run " ++ c.docker.text, e.text]
  | .ok status =>
    if status.success then success else { failure with stderr := status.stderr ++ "\n" }

def ofText (text : String) : Answer :=
  match SpecError.locate text with
  | some e =>
    let place := e.start.text ++ " - " ++ e.stop.text
    { success with stdout := e.kind ++ ": " ++ place ++ ": " ++ e.message ++ "\n" }
  | none => { failure with stderr := "No error location found\n" }

end Answer

def inputName : Path := ⟨"-"⟩

def readInput (stdin : Bytes) (file : Path) (t : FileTree) : Except Answer String :=
  if file.same inputName then
    (String.ofBytes? stdin).elim
      (.error (.error ["Failed to read stdin", OsError.notText.text])) .ok
  else
    match t.readText file with
    | .ok text => .ok text
    | .error e => .error (.error ["Failed to read " ++ file.text, e.text])

def readConfig (p : Path) (t : FileTree) : Except ConfigError ToolchainConfig :=
  match t.readText p with
  | .error e => .error (.unreadable p e)
  | .ok text =>
    match ToolchainConfig.parse text with
    | .error e => .error (.invalid e)
    | .ok c => .ok c

def loadConfig (g : Globals) (t : FileTree) : Except Answer ToolchainConfig :=
  let loaded :=
    match g.config with
    | none => Except.ok ({} : ToolchainConfig)
    | some p =>
      match readConfig p t with
      | .ok c => .ok c
      | .error e =>
        .error (Answer.error ["Failed to load configuration from " ++ p.text, e.message, e.cause])
  loaded.map fun c => if g.docker then { c with useDocker := true } else c

/-- The project directory, as an absolute path without links. -/
def projectRoot (g : Globals) (t : FileTree) : Except Answer Path :=
  let dir := g.project.getD (FileTree.placePath t.cwd)
  match t.canonical dir with
  | .ok root => .ok root
  | .error e =>
    .error (.error ["Project directory " ++ dir.text ++ " does not exist", e.text])

def answerInProject (b : Bench) : Request → Activity Answer
  | .runC => do return .ofResult (← b.compileAndRunC.toActivity)
  | .runProject => do return .ofResult (← b.compileAndRunProject.toActivity)
  | .buildC emitLlvm => do return .ofResult (← (b.buildC emitLlvm).toActivity)
  | .runBinary => do return .ofResult (← b.runBinary.toActivity)
  | .unused => do return .ofUnused (← Bench.highlightUnused.toActivity)
  | .setUp => do return .ofSetup (← b.setUp.toActivity)
  | .locateError _ | .startContainer | .stopContainer => return .success

def inProject (g : Globals) (config : ToolchainConfig) (searchPath : List Path) (r : Request) :
    Activity Answer := do
  match ← Activity.look (projectRoot g) with
  | .error a => return a
  | .ok root =>
    let b : Bench := ⟨config, .ofRoot root, searchPath⟩
    let _ ← b.openProject root
    answerInProject b r

def answer (searchPath : List Path) (stdin : Bytes) (i : Invocation) : Activity Answer := do
  match ← Activity.look (loadConfig i.globals) with
  | .error a => return a
  | .ok config =>
    match i.request with
    | .locateError file =>
      match ← Activity.look (readInput stdin file) with
      | .error a => return a
      | .ok text => return .ofText text
    | .startContainer =>
      return .ofContainer config.container (← runContainerCommand config.container.startCommand)
    | .stopContainer =>
      return .ofContainer config.container (← runContainerCommand config.container.removeCommand)
    | r => inProject i.globals config searchPath r

/-- What users see of an answer: first the events, then what the request prints. -/
def Answer.seen (a : Answer) (events : List Event) : Answer where
  code := a.code
  stdout := Event.rendered .stdout events ++ a.stdout
  stderr := Event.rendered .stderr events ++ a.stderr

/-- Runs the command line on a world. Arguments that make no sense have their own code. -/
def respond {σ : Type} (h : Host σ) (searchPath : List Path) (stdin : Bytes) (args : List String)
    (w : World σ) : Answer × World σ :=
  match Invocation.parse args with
  | .error .invalid => ({ code := 2 }, w)
  | .error .help => (.success, w)
  | .ok i =>
    let (a, w) := (answer searchPath stdin i).run h w
    (a.seen w.events, w)

end TraceWorkbench.CommandLine
