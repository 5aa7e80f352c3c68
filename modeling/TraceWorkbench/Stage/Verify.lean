import TraceWorkbench.Report
import TraceWorkbench.Spec.Compiled
import TraceWorkbench.Stage.Basic

set_option autoImplicit false

/-!
# Compiling the specification and checking the trace

The specification compiler prints its result, a JSON document, on the standard output; this is what
its success is judged by. The server gets the document and the trace, and the names of the streams
that are marked as outputs.
-/
namespace TraceWorkbench

structure CompiledSpecification where
  path : Path
  source : Option Path
  document : Json.Value
  deriving Repr, Inhabited

namespace Stage

def choiceWarning (title what verb : String) (p : Project) (dir : Path) (found : List Path)
    (taken : Path) : List StageWarning :=
  if found.length > 1 then
    [⟨title, "Found " ++ toString found.length ++ " " ++ what ++ " in '" ++ dir.text ++
      "'. Only '" ++ (p.relativize taken).text ++ "' is " ++ verb ++ "."⟩]
  else []

/-- The document in what the compiler printed: the text to write, and its value. -/
def compiledDocument (o : Outcome) : Except StageFault (String × Json.Value) :=
  match o.signal with
  | some signal => .error ⟨o.stderr ++ o.stdout ++ Outcome.killedBy signal, none⟩
  | none =>
    if o.stdout.toList.head? != some '\x7b' then
      let detail := o.stderr ++ o.stdout
      .error ⟨detail, SpecError.locate detail⟩
    else
      let text := normalizeCompiledSpec o.stdout
      match Json.parse text with
      | .ok document => .ok (text, document)
      | .error e =>
        .error ⟨"The TeSSLa compiler produced invalid JSON: " ++ e.message ++ "\n" ++ o.stderr ++
          o.stdout, none⟩

def compileSpecification : Stage CompiledSpecification where
  kind := .compileSpecification
  plan s t := do
    let jar := s.config.tesslaCompiler
    requireOnHost s t jar .compilerNotFound
    let specs := Scan.specFiles t s.project.root
    match specs.head? with
    | none => throw (.noSpecification s.project.root)
    | some spec =>
      let command : CommandSpec :=
        match s.mode with
        | .onHost => { program := s.config.javaPath, args := ["-jar", jar.text, spec.text] }
        | .inContainer =>
          inContainer s {
            program := "java"
            args := ["-jar", s.config.container.compilerJar, containerPath s spec] }
      return {
        command
        input := some spec
        warnings := choiceWarning "Found more than one TeSSLa file" "TeSSLa files" "compiled"
          s.project s.project.root specs spec }
  echoStdout := false
  successSummary := some "Successfully compiled TeSSLa file"
  failureSummary := "Errors while compiling TeSSLa file"
  judge s plan o t :=
    match compiledDocument o with
    | .error fault => (.error fault, t)
    | .ok (text, document) =>
      let path := s.project.compiledSpec
      match t.writeText path text with
      | .error e => (.error ⟨"Failed to write '" ++ path.text ++ "': " ++ e.text, none⟩, t)
      | .ok t => (.ok ⟨path, plan.input, document⟩, t)

def readOutputs (t : FileTree) (p : Path) : Except Precondition (List TraceOutput) :=
  match t.readText p with
  | .error e => .error (.invalidCompiledSpecification p e.text)
  | .ok text =>
    match Json.parse text with
    | .error e => .error (.invalidCompiledSpecification p e.message)
    | .ok document => .ok (TraceOutput.ofDocument document)

/-- The server reads a compiled specification and the last trace, and is told which streams to
show. -/
def serverCommand (s : Setting) (json : Path) (outputs : List TraceOutput) : CommandSpec :=
  let selectors := outputs.flatMap fun o => ["-o", o.selector]
  match s.mode with
  | .onHost =>
    { program := s.config.tesslaServer
      args := [json.text, "--trace", s.project.traceFile.text] ++ selectors }
  | .inContainer =>
    inContainer s {
      program := s.config.container.server
      env := [("LANG", "C.UTF-8")]
      args := [containerPath s json, "--trace", inBuildDir s.project.traceFileName] ++ selectors }

def runVerificationServer : Stage VerificationReport where
  kind := .runVerificationServer
  plan s t := do
    requireOnHost s t s.config.tesslaServer .serverNotFound
    let dir := s.project.outputDir
    let compiled := Scan.compiledSpecs t dir
    match compiled.head? with
    | none => throw (.noCompiledSpecification dir)
    | some json =>
      let outputs ← readOutputs t json
      return {
        command := serverCommand s json outputs
        input := some json
        warnings := choiceWarning "Found more than one TeSSLa JSON file" "compiled TeSSLa files"
          "used" s.project dir compiled json }
  successSummary := none
  failureSummary := "Errors while running TeSSLa server"
  judge _ _ o t := unlessFailed o t ⟨o.stdoutChunks, o.startedAt⟩

end Stage

end TraceWorkbench
