import TraceWorkbench.Activity
import TraceWorkbench.Text.Blank

set_option autoImplicit false

/-!
# The container that stays

Starting and removing the named container. That it did not work is part of the status; only a
command that cannot be started at all is an error.
-/
namespace TraceWorkbench

structure ContainerStatus where
  command : String
  success : Bool
  stderr : String
  deriving DecidableEq, Repr, Inhabited

namespace ContainerStatus

def ofRun (c : CommandSpec) (r : AsideRun) : ContainerStatus where
  command := c.text
  success := r.ending = .exited 0
  stderr := (String.ofBytesLossy r.stderr).trimBlank

def toJson (s : ContainerStatus) : Json.Value := .ofMembers [
  ("command", .string s.command), ("success", .bool s.success), ("stderr", .string s.stderr)]

end ContainerStatus

def runContainerCommand (c : CommandSpec) : Activity (Except OsError ContainerStatus) :=
  (Activity.perform (.runAside c)).bind fun r => .done (r.map (ContainerStatus.ofRun c))

end TraceWorkbench
