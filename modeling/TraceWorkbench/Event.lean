import TraceWorkbench.Outcome
import TraceWorkbench.Project
import TraceWorkbench.Spec.LocatedError
import TraceWorkbench.Spec.Unused

set_option autoImplicit false

/-!
# Events

All that the workbench tells its front ends.
-/
namespace TraceWorkbench

inductive Event where
  | stageStarted (stage : StageKind) (command : String)
  | stageSucceeded (stage : StageKind) (summary : String)
  | stageFailed (stage : StageKind) (summary detail : String)
  | preconditionFailed (title detail : String)
  | warning (title detail : String)
  | console (text : String)
  | errorText (stage : StageKind) (text : String)
  | log (command : String) (message : Option String)
  /-- While a process runs it can be cancelled, and no other action can start. -/
  | controlsChanged (busy : Bool)
  | activeProjectChanged (project : Option Project)
  | projectRefreshed (project : Project)
  | specError (file : Path) (error : SpecError)
  /-- The specification was compiled, so earlier errors no longer stand. -/
  | specErrorsCleared
  | unusedFunctions (file : Path) (occurrences : List FunctionOccurrence)
  | verificationOutput (output : List String) (startedAt : String)
  deriving DecidableEq, Repr, Inhabited

namespace Event

def name : Event → String
  | stageStarted .. => "stage_started"
  | stageSucceeded .. => "stage_succeeded"
  | stageFailed .. => "stage_failed"
  | preconditionFailed .. => "precondition_failed"
  | warning .. => "warning"
  | console .. => "console"
  | errorText .. => "error_text"
  | log .. => "log"
  | controlsChanged .. => "controls_changed"
  | activeProjectChanged .. => "active_project_changed"
  | projectRefreshed .. => "project_refreshed"
  | specError .. => "spec_error"
  | specErrorsCleared => "spec_errors_cleared"
  | unusedFunctions .. => "unused_functions"
  | verificationOutput .. => "verification_output"

def content : Event → List (String × Json.Value)
  | stageStarted stage command => [("stage", .string stage.name), ("command", .string command)]
  | stageSucceeded stage summary => [("stage", .string stage.name), ("summary", .string summary)]
  | stageFailed stage summary detail =>
    [("stage", .string stage.name), ("summary", .string summary), ("detail", .string detail)]
  | preconditionFailed title detail | warning title detail =>
    [("title", .string title), ("detail", .string detail)]
  | console text => [("text", .string text)]
  | errorText stage text =>
    [("stage", .string stage.name), ("channel", .string stage.channel.name), ("text", .string text)]
  | log command message =>
    [("command", .string command), ("message", .ofOption .string message)]
  | controlsChanged busy => [("actions_enabled", .bool !busy), ("cancel_enabled", .bool busy)]
  | activeProjectChanged project => [("project", .ofOption Project.toJson project)]
  | projectRefreshed project => [("project", project.toJson)]
  | specError file error => [("file", file.toJson), ("error", error.toJson)]
  | specErrorsCleared => []
  | unusedFunctions file occurrences =>
    [("file", file.toJson), ("occurrences", .array (occurrences.map FunctionOccurrence.toJson))]
  | verificationOutput output startedAt =>
    [("output", .strings output), ("started_at", .string startedAt)]

def toJson (e : Event) : Json.Value := .ofMembers (("type", .string e.name) :: e.content)

def startedStage? : Event → Option StageKind
  | stageStarted stage _ => some stage
  | _ => none

/-- The event for a piece of output of a stage: error text is always shown, other output only if
it is asked for. -/
def ofChunk (stage : StageKind) (echo : Bool) (c : Chunk) : Option Event :=
  match c.stream with
  | .stderr => some (.errorText stage c.text)
  | .stdout => if echo then some (.console c.text) else none

def consoleText? : Event → Option String
  | console text => some text
  | _ => none

end Event

end TraceWorkbench
