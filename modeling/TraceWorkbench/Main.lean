import TraceWorkbench.CommandLine.Answer
import TraceWorkbench.Json.Reader
import TraceWorkbench.Simulation.Scene

set_option autoImplicit false

/-!
# The program

Runs the command line in a scene. The scene is described on the standard input, as one JSON object:
its `files`, the working directory `cwd`, the directories `path` in which programs are looked for,
and the text `stdin`.
-/
namespace TraceWorkbench

structure Scene where
  files : FileTree
  searchPath : List Path
  stdin : Bytes

namespace Scene

def textAt (v : Json.Value) (key : String) : String :=
  match v.get? key with
  | some (.string s) => s
  | _ => ""

def itemsAt (v : Json.Value) (key : String) : List Json.Value :=
  match v.get? key with
  | some (.array vs) => vs
  | _ => []

def work : Place := ["work"]

def ofJson (v : Json.Value) : Scene :=
  let entries := (itemsAt v "files").map fun f =>
    (Path.mk (textAt f "path"), Simulation.Entry.ofJson f)
  let files := Simulation.putAll entries (Simulation.emptyScene work)
  let cwd := (files.resolve ⟨textAt v "cwd"⟩ true).toOption.getD work
  let dirs := (itemsAt v "path").filterMap fun
    | .string s => some (Path.mk s)
    | _ => none
  { files := { files with cwd }
    searchPath := if dirs.isEmpty then [FileTree.placePath (Simulation.programDir work)] else dirs
    stdin := (textAt v "stdin").utf8Bytes }

def respond (s : Scene) (time : String) (args : List String) : CommandLine.Answer :=
  let world := Simulation.World.fresh s.files s.searchPath ()
  (CommandLine.respond (Simulation.host time (.none Unit)) s.searchPath s.stdin args world).1

end Scene

end TraceWorkbench

open TraceWorkbench in
def main (args : List String) : IO UInt32 := do
  let input ← (← IO.getStdin).readToEnd
  match Json.parse input with
  | .error e =>
    IO.eprintln ("The scene is not valid JSON: " ++ e.message)
    return 2
  | .ok v =>
    let answer := (Scene.ofJson v).respond "1970-01-01T00:00:00Z" args
    IO.print answer.stdout
    IO.eprint answer.stderr
    return UInt32.ofNat answer.code
