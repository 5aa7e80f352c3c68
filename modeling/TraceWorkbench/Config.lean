import TraceWorkbench.Path
import TraceWorkbench.Stage.Kind

set_option autoImplicit false

/-!
# Toolchain configuration

Where the tools are, on the host and in the container, and how the trace is formatted. Every
setting has a default, so any part of a configuration is a configuration. The defaults stand twice:
in the default configuration, and with each field for a text that does not mention it.
-/
namespace TraceWorkbench

namespace ContainerConfig

def defaultDocker : Path := ⟨"docker"⟩
def defaultImage : String := "tessla"
def defaultName : String := "tessla"
def defaultMountPoint : String := "/tessla"
def defaultLlvmBin : String := "/usr/lib/llvm-3.8/bin"
def defaultInstrumentDir : String := "/InstrumentFunctions"
def defaultCompilerJar : String := "/tessla-imdea-snapshot.jar"
def defaultServer : String := "/tessla_server"

end ContainerConfig

structure ContainerConfig where
  docker : Path := ContainerConfig.defaultDocker
  image : String := ContainerConfig.defaultImage
  name : String := ContainerConfig.defaultName
  mountPoint : String := ContainerConfig.defaultMountPoint
  llvmBin : String := ContainerConfig.defaultLlvmBin
  instrumentDir : String := ContainerConfig.defaultInstrumentDir
  compilerJar : String := ContainerConfig.defaultCompilerJar
  server : String := ContainerConfig.defaultServer
  deriving DecidableEq, Repr, Inhabited

namespace TraceFormatting

def defaultVariableValues : String := "variable_values:%m %d(%s) %us%n"
def defaultFunctionCalls : String := "function_calls:%m nil %d(%s) %us%n"

end TraceFormatting

structure TraceFormatting where
  variableValues : String := TraceFormatting.defaultVariableValues
  functionCalls : String := TraceFormatting.defaultFunctionCalls
  deriving DecidableEq, Repr, Inhabited

namespace ToolchainConfig

def defaultClangPath : Path := ⟨"/usr/bin/clang"⟩
def defaultLibInstrumentFunctions : Path := ⟨"/usr/local/lib/libInstrumentFunctions.so"⟩
def defaultTesslaCompiler : Path := ⟨"/usr/local/share/tessla/tessla.jar"⟩
def defaultTesslaServer : Path := ⟨"/usr/local/bin/tessla_server"⟩
def defaultJavaPath : Path := ⟨"java"⟩

end ToolchainConfig

structure ToolchainConfig where
  useDocker : Bool := false
  clangPath : Path := ToolchainConfig.defaultClangPath
  libInstrumentFunctions : Path := ToolchainConfig.defaultLibInstrumentFunctions
  tesslaCompiler : Path := ToolchainConfig.defaultTesslaCompiler
  tesslaServer : Path := ToolchainConfig.defaultTesslaServer
  javaPath : Path := ToolchainConfig.defaultJavaPath
  container : ContainerConfig := {}
  formatting : TraceFormatting := {}
  deriving DecidableEq, Repr, Inhabited

namespace Path

def decoder : Json.Decoder Path := fun s => (Json.pathString s).map fun (t, rest) => (⟨t⟩, rest)

def toJson (p : Path) : Json.Value := .string p.text

end Path

namespace ContainerConfig

def fields : List (Json.Field ContainerConfig) := [
  .of "docker" false Path.decoder fun v c => { c with docker := v },
  .of "image" false Json.string fun v c => { c with image := v },
  .of "name" false Json.string fun v c => { c with name := v },
  .of "mount_point" false Json.string fun v c => { c with mountPoint := v },
  .of "llvm_bin" false Json.string fun v c => { c with llvmBin := v },
  .of "instrument_dir" false Json.string fun v c => { c with instrumentDir := v },
  .of "compiler_jar" false Json.string fun v c => { c with compilerJar := v },
  .of "server" false Json.string fun v c => { c with server := v }]

/-- What the fields are that a text does not mention. -/
def unmentioned : ContainerConfig where
  docker := defaultDocker
  image := defaultImage
  name := defaultName
  mountPoint := defaultMountPoint
  llvmBin := defaultLlvmBin
  instrumentDir := defaultInstrumentDir
  compilerJar := defaultCompilerJar
  server := defaultServer

def decoder : Json.Decoder ContainerConfig := Json.record "ContainerConfig" unmentioned fields

def toJson (c : ContainerConfig) : Json.Value := .ofMembers [
  ("docker", c.docker.toJson), ("image", .string c.image), ("name", .string c.name),
  ("mount_point", .string c.mountPoint), ("llvm_bin", .string c.llvmBin),
  ("instrument_dir", .string c.instrumentDir), ("compiler_jar", .string c.compilerJar),
  ("server", .string c.server)]

end ContainerConfig

namespace TraceFormatting

def fields : List (Json.Field TraceFormatting) := [
  .of "variable_values" false Json.string fun v c => { c with variableValues := v },
  .of "function_calls" false Json.string fun v c => { c with functionCalls := v }]

def unmentioned : TraceFormatting where
  variableValues := defaultVariableValues
  functionCalls := defaultFunctionCalls

def decoder : Json.Decoder TraceFormatting := Json.record "TraceFormatting" unmentioned fields

def toJson (c : TraceFormatting) : Json.Value := .ofMembers [
  ("variable_values", .string c.variableValues), ("function_calls", .string c.functionCalls)]

end TraceFormatting

namespace ToolchainConfig

def fields : List (Json.Field ToolchainConfig) := [
  .of "use_docker" false Json.boolean fun v c => { c with useDocker := v },
  .of "clang_path" false Path.decoder fun v c => { c with clangPath := v },
  .of "lib_instrument_functions" false Path.decoder fun v c =>
    { c with libInstrumentFunctions := v },
  .of "tessla_compiler" false Path.decoder fun v c => { c with tesslaCompiler := v },
  .of "tessla_server" false Path.decoder fun v c => { c with tesslaServer := v },
  .of "java_path" false Path.decoder fun v c => { c with javaPath := v },
  .of "container" false ContainerConfig.decoder fun v c => { c with container := v },
  .of "formatting" false TraceFormatting.decoder fun v c => { c with formatting := v }]

/-- A part that is not mentioned is the default one; the fields of a part that is mentioned are
those of its own `unmentioned`. -/
def unmentioned : ToolchainConfig where
  useDocker := default
  clangPath := defaultClangPath
  libInstrumentFunctions := defaultLibInstrumentFunctions
  tesslaCompiler := defaultTesslaCompiler
  tesslaServer := defaultTesslaServer
  javaPath := defaultJavaPath
  container := {}
  formatting := {}

def decoder : Json.Decoder ToolchainConfig := Json.record "ToolchainConfig" unmentioned fields

def toJson (c : ToolchainConfig) : Json.Value := .ofMembers [
  ("use_docker", .bool c.useDocker), ("clang_path", c.clangPath.toJson),
  ("lib_instrument_functions", c.libInstrumentFunctions.toJson),
  ("tessla_compiler", c.tesslaCompiler.toJson), ("tessla_server", c.tesslaServer.toJson),
  ("java_path", c.javaPath.toJson), ("container", c.container.toJson),
  ("formatting", c.formatting.toJson)]

def parse (text : String) : Except Json.ReadError ToolchainConfig := Json.decode decoder text

def mode (c : ToolchainConfig) : ExecutionMode := .ofUseDocker c.useDocker

/-- The optimizer is looked up beside the compiler. -/
def optPath (c : ToolchainConfig) : Path :=
  match c.clangPath.parent with
  | some dir => dir.join ⟨"opt"⟩
  | none => ⟨"opt"⟩

def instrumentationLibDir (c : ToolchainConfig) : Path :=
  c.libInstrumentFunctions.parent.getD ⟨""⟩

end ToolchainConfig

end TraceWorkbench
