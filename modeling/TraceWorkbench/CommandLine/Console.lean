import TraceWorkbench.Event

set_option autoImplicit false

/-!
# Events on the terminal

What a terminal user sees of the events: program output as it is on the standard output, all else
on the standard error.
-/
namespace TraceWorkbench

namespace Event

def render : Event → Option (Stream × String)
  | console text => some (.stdout, text)
  | errorText _ text => some (.stderr, text)
  | stageStarted stage command => some (.stderr, "==> " ++ stage.name ++ ": " ++ command ++ "\n")
  | stageSucceeded _ summary => some (.stderr, "ok: " ++ summary ++ "\n")
  | stageFailed _ summary _ => some (.stderr, "error: " ++ summary ++ "\n")
  | preconditionFailed title detail =>
    some (.stderr, "error: " ++ title ++ "\n  " ++ detail ++ "\n")
  | warning title detail => some (.stderr, "warning: " ++ title ++ "\n  " ++ detail ++ "\n")
  | specError file error =>
    some (.stderr, file.text ++ ":" ++ toString (error.start.line + 1) ++ ":" ++
      toString (error.start.column + 1) ++ ": " ++ error.kind ++ ": " ++ error.message ++ "\n")
  | _ => none

def rendered (stream : Stream) (events : List Event) : String :=
  String.join (events.filterMap fun e =>
    match e.render with
    | some (s, text) => if s = stream then some text else none
    | none => none)

end Event

end TraceWorkbench
