import TraceWorkbench.Spec.Tracked
import TraceWorkbench.Stage.Basic

set_option autoImplicit false

/-!
# Building

Compiling the C sources to a program or to intermediate code, instrumenting the intermediate code
so that the tracked functions are logged, and linking it.
-/
namespace TraceWorkbench.Stage

def compileProduct (emitLlvm : Bool) (p : Project) : Path :=
  if emitLlvm then p.intermediate else p.binary

def compileProductName (emitLlvm : Bool) (p : Project) : String :=
  if emitLlvm then p.intermediateName else p.binaryName

def compileC (emitLlvm : Bool) : Stage Path where
  kind := .compileC
  plan s t := do
    let clang := s.config.clangPath
    requireOnHost s t clang .clangNotFound
    let sources := Scan.cSources t s.project.root
    if sources.isEmpty then throw (.noCSources s.project.root)
    let flags := if emitLlvm then ["-emit-llvm", "-S"] else []
    let command : CommandSpec :=
      match s.mode with
      | .onHost =>
        { program := clang
          args := flags ++ sources.map Path.text ++
            ["-o", (compileProduct emitLlvm s.project).text] }
      | .inContainer =>
        inContainer s {
          program := "clang"
          args := flags ++ sources.map (containerPath s) ++
            ["-o", inBuildDir (compileProductName emitLlvm s.project)] }
    return { command }
  successSummary := some "Successfully compiled C files"
  failureSummary := "Errors while compiling C files"
  judge s _ o t := unlessFailed o t (compileProduct emitLlvm s.project)

def instrumentPass : String := "-instrument_function_calls"

/-- The arguments that name the functions to instrument: those that the first specification
tracks. -/
def instrumentArgs (s : Setting) (t : FileTree) : Except Precondition (List String) :=
  match (Scan.specFiles t s.project.root).head? with
  | none => .ok []
  | some spec =>
    match t.readText spec with
    | .error e => .error (.unreadableSpecification spec e.text)
    | .ok text => .ok ((Tracked.functions text).flatMap fun name => ["-instrument", name])

def patchAssembly : Stage Path where
  kind := .patchAssembly
  plan s t := do
    let lib := s.config.libInstrumentFunctions
    requireOnHost s t lib .instrumentationLibraryNotFound
    requireOnHost s t s.config.optPath .optNotFound
    let instrument ← instrumentArgs s t
    let command : CommandSpec :=
      match s.mode with
      | .onHost =>
        { program := s.config.optPath
          args := ["-load", lib.text, instrumentPass, s.project.intermediate.text] ++ instrument
          stdoutFile := some s.project.instrumentedIntermediate }
      | .inContainer =>
        let container := s.config.container
        inContainer s {
          program := container.llvmBin ++ "/opt"
          args := ["-load", container.instrumentDir ++ "/libInstrumentFunctions.so", instrumentPass,
            inBuildDir s.project.intermediateName] ++ instrument
          redirect := some (inBuildDir s.project.instrumentedIntermediateName) }
    return { command }
  successSummary := some "Successfully patched Assembly"
  failureSummary := "Errors while patching Assembly"
  judge s _ o t := unlessFailed o t s.project.instrumentedIntermediate

def tracingLibs : List String := ["-lzlog", "-lpthread", "-L/usr/local/lib"]

def assemble : Stage Path where
  kind := .assemble
  plan s t := do
    let clang := s.config.clangPath
    requireOnHost s t clang .clangNotFound
    requireOnHost s t s.config.libInstrumentFunctions .instrumentationLibraryNotFound
    let command : CommandSpec :=
      match s.mode with
      | .onHost =>
        { program := clang
          args := [s.project.instrumentedIntermediate.text, "-o",
              s.project.instrumentedBinary.text] ++ tracingLibs ++
            ["-L" ++ s.config.instrumentationLibDir.text, "-llogger"] }
      | .inContainer =>
        inContainer s {
          program := "clang++"
          args := [inBuildDir s.project.instrumentedIntermediateName, "-o",
            inBuildDir s.project.instrumentedBinaryName] ++
            tracingLibs ++ ["-L" ++ s.config.container.instrumentDir, "-lLogger"] }
    return { command }
  successSummary := some "Successfully compiled Assembly"
  failureSummary := "Errors while compiling Assembly"
  judge s _ o t := unlessFailed o t s.project.instrumentedBinary

end TraceWorkbench.Stage
