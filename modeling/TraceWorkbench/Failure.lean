import TraceWorkbench.Files.OsError
import TraceWorkbench.Path
import TraceWorkbench.Stage.Kind

set_option autoImplicit false

/-!
# Why an action does not start

What must hold before a stage may start its process, and the other reasons that stop an action
before it has done anything. A process that fails is no such reason: it is the result of a stage.
-/
namespace TraceWorkbench

inductive Precondition where
  | noActiveProject
  | clangNotFound (path : Path)
  | optNotFound (path : Path)
  | instrumentationLibraryNotFound (path : Path)
  | compilerNotFound (path : Path)
  | serverNotFound (path : Path)
  | noCSources (root : Path)
  | noSpecification (root : Path)
  | unreadableSpecification (path : Path) (reason : String)
  | noCompiledSpecification (dir : Path)
  | invalidCompiledSpecification (path : Path) (reason : String)
  | binaryNotFound (path : Path)
  deriving DecidableEq, Repr, Inhabited

namespace Precondition

def name : Precondition → String
  | noActiveProject => "no_active_project"
  | clangNotFound _ => "clang_not_found"
  | optNotFound _ => "opt_not_found"
  | instrumentationLibraryNotFound _ => "instrumentation_library_not_found"
  | compilerNotFound _ => "compiler_not_found"
  | serverNotFound _ => "server_not_found"
  | noCSources _ => "no_c_sources"
  | noSpecification _ => "no_specification"
  | unreadableSpecification _ _ => "unreadable_specification"
  | noCompiledSpecification _ => "no_compiled_specification"
  | invalidCompiledSpecification _ _ => "invalid_compiled_specification"
  | binaryNotFound _ => "binary_not_found"

def title : Precondition → String
  | noActiveProject => "Unable to compile and run"
  | clangNotFound _ => "Unable to find clang"
  | optNotFound _ => "Unable to find opt"
  | instrumentationLibraryNotFound _ => "Unable to find libInstrumentFunctions.so"
  | compilerNotFound _ => "Unable to find TeSSLa compiler"
  | serverNotFound _ => "Unable to find TeSSLa server"
  | noCSources _ => "Unable to compile C files"
  | noSpecification _ => "Unable to compile TeSSLa file"
  | unreadableSpecification _ _ => "Unable to read TeSSLa file"
  | noCompiledSpecification _ | invalidCompiledSpecification _ _ =>
    "Unable to find TeSSLa JSON file"
  | binaryNotFound _ => "Unable to run binary"

def message : Precondition → String
  | noActiveProject =>
    "There is no active project. Open and activate at least one file of the project you want to " ++
      "compile and run."
  | clangNotFound p =>
    "The clang compiler configured at '" ++ p.text ++
      "' does not exist. Set the correct path to your clang compiler."
  | optNotFound p =>
    "No opt binary was found at '" ++ p.text ++
      "'. opt is looked up next to the configured clang compiler."
  | instrumentationLibraryNotFound p =>
    "The instrumentation library configured at '" ++ p.text ++
      "' does not exist. Set the correct path to libInstrumentFunctions.so."
  | compilerNotFound p =>
    "The TeSSLa compiler configured at '" ++ p.text ++
      "' does not exist. Set the correct path to your compiler."
  | serverNotFound p =>
    "The TeSSLa server configured at '" ++ p.text ++
      "' does not exist. Set the correct path to your TeSSLa server."
  | noCSources p =>
    "There are no C files to compile in '" ++ p.text ++
      "'. Create at least one C file containing a main function."
  | noSpecification p => "There is no TeSSLa specification file in '" ++ p.text ++ "'."
  | unreadableSpecification p reason =>
    "The TeSSLa file '" ++ p.text ++ "' could not be read: " ++ reason
  | noCompiledSpecification p => "No compiled TeSSLa JSON file was found in '" ++ p.text ++ "'."
  | invalidCompiledSpecification p reason =>
    "The compiled TeSSLa file '" ++ p.text ++ "' is not valid JSON: " ++ reason
  | binaryNotFound p => "There is no binary at '" ++ p.text ++ "'. Build the project first."

def details : Precondition → List (String × Json.Value)
  | noActiveProject => []
  | clangNotFound p | optNotFound p | instrumentationLibraryNotFound p | compilerNotFound p
  | serverNotFound p | binaryNotFound p => [("path", .string p.text)]
  | noCSources p | noSpecification p => [("root", .string p.text)]
  | noCompiledSpecification p => [("dir", .string p.text)]
  | unreadableSpecification p reason | invalidCompiledSpecification p reason =>
    [("path", .string p.text), ("reason", .string reason)]

def toJson (p : Precondition) : Json.Value := .ofMembers (("type", .string p.name) :: p.details)

def notification (p : Precondition) : Json.Value := .ofMembers <|
  [("title", .string p.title), ("message", .string p.message), ("type", .string p.name)] ++
    p.details

end Precondition

inductive ConfigError where
  | unreadable (path : Path) (cause : OsError)
  | invalid (cause : Json.ReadError)
  deriving DecidableEq, Repr

namespace ConfigError

def cause : ConfigError → String
  | unreadable _ e => e.text
  | invalid e => e.message

def message : ConfigError → String
  | unreadable p e => "Failed to read config file '" ++ p.text ++ "': " ++ e.text
  | invalid e => "Invalid configuration: " ++ e.message

end ConfigError

inductive Refusal where
  | precondition (p : Precondition)
  | busy (requested active : StageKind)
  | io (cause : OsError)
  deriving DecidableEq, Repr, Inhabited

namespace Refusal

def message : Refusal → String
  | precondition p => p.message
  | busy requested active =>
    "Cannot start " ++ requested.name ++ ": " ++ active.name ++ " is still running"
  | io e => "IO error: " ++ e.text

/-- The message and the messages of its causes. A precondition is its own cause. -/
def chain : Refusal → List String
  | precondition p => [p.message, p.message]
  | busy requested active => [message (.busy requested active)]
  | io e => [message (.io e), e.text]

end Refusal

end TraceWorkbench
