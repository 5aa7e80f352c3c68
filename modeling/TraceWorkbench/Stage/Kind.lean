import TraceWorkbench.Json.Decode

set_option autoImplicit false

/-!
# Stages, channels and modes

The seven kinds of toolchain stages, where the error text of each is shown, and the two ways to run
the toolchain.
-/
namespace TraceWorkbench

inductive StageKind where
  /-- Compile all C sources, to a program or to intermediate code. -/
  | compileC
  /-- Run the instrumentation pass over the intermediate code. -/
  | patchAssembly
  /-- Link the instrumented code. -/
  | assemble
  /-- Run the instrumented program, which leaves a trace. -/
  | runInstrumentedBinary
  | runBinary
  | compileSpecification
  /-- Check the trace against the compiled specification. -/
  | runVerificationServer
  deriving DecidableEq, Repr, Inhabited

inductive ErrorChannel where
  | c
  | specification
  deriving DecidableEq, Repr, Inhabited

inductive ExecutionMode where
  | onHost
  | inContainer
  deriving DecidableEq, Repr, Inhabited

namespace StageKind

def name : StageKind → String
  | compileC => "compile_c"
  | patchAssembly => "patch_assembly"
  | assemble => "assemble"
  | runInstrumentedBinary => "run_instrumented_binary"
  | runBinary => "run_binary"
  | compileSpecification => "compile_specification"
  | runVerificationServer => "run_verification_server"

def all : List StageKind :=
  [compileC, patchAssembly, assemble, runInstrumentedBinary, runBinary, compileSpecification,
    runVerificationServer]

def ofName? (s : String) : Option StageKind := all.find? fun k => k.name == s

def channel : StageKind → ErrorChannel
  | compileSpecification | runVerificationServer => .specification
  | _ => .c

/-- Whether the stage runs a program of the user or the monitor, whose end is announced. -/
def announcesExit : StageKind → Bool
  | runBinary | runInstrumentedBinary | runVerificationServer => true
  | _ => false

def decoder : Json.Decoder StageKind := Json.choice (all.map fun k => (k.name, k))

end StageKind

namespace ErrorChannel

def name : ErrorChannel → String
  | c => "c"
  | specification => "specification"

def decoder : Json.Decoder ErrorChannel :=
  Json.choice [(c.name, c), (specification.name, specification)]

end ErrorChannel

namespace ExecutionMode

def name : ExecutionMode → String
  | onHost => "local"
  | inContainer => "containerized"

def decoder : Json.Decoder ExecutionMode :=
  Json.choice [(onHost.name, onHost), (inContainer.name, inContainer)]

def ofUseDocker (useDocker : Bool) : ExecutionMode := if useDocker then inContainer else onHost

def isOnHost (m : ExecutionMode) : Bool := m == onHost

end ExecutionMode

end TraceWorkbench
