import TraceWorkbench.Json.Value
import TraceWorkbench.Simulation.Host

set_option autoImplicit false

/-!
# Scenes

File trees to simulate on: the tools of the machine, an empty working directory with a directory
for programs of its own, and files that are put there.
-/
namespace TraceWorkbench.Simulation

inductive Entry where
  | file (content : Bytes)
  | script (text : String)
  | link (target : String)
  | dir
  deriving DecidableEq, Repr, Inhabited

def hexDigit? (c : Char) : Option Nat :=
  if c.isDigit then some (c.toNat - '0'.toNat)
  else if 'a' ≤ c && c ≤ 'f' then some (c.toNat - 'a'.toNat + 10)
  else if 'A' ≤ c && c ≤ 'F' then some (c.toNat - 'A'.toNat + 10)
  else none

def ofHex : List Char → Bytes
  | a :: b :: rest =>
    match hexDigit? a, hexDigit? b with
    | some x, some y => UInt8.ofNat (16 * x + y) :: ofHex rest
    | _, _ => ofHex rest
  | _ => []

/-- The entry that an object describes; the empty file if it says nothing. -/
def Entry.ofJson (v : Json.Value) : Entry :=
  match v.get? "script", v.get? "hex", v.get? "link", v.get? "dir", v.get? "text" with
  | some (.string s), _, _, _, _ => .script s
  | _, some (.string s), _, _, _ => .file (ofHex s.toList)
  | _, _, some (.string s), _, _ => .link s
  | _, _, _, some (.bool true), _ => .dir
  | _, _, _, _, some (.string s) => .file s.utf8Bytes
  | _, _, _, _, _ => .file []

def interpreterLine : String := "#!/bin/sh\n"

def put (p : Path) (e : Entry) (t : FileTree) : Except OsError FileTree := do
  let t ← match p.parent with
    | some above => t.makeDirs above
    | none => .ok t
  match e with
  | .file content => t.write p content
  | .script text => (← t.writeText p (interpreterLine ++ text)).makeExecutable p
  | .link target => t.create p (.link target)
  | .dir => t.makeDirs p

def putAll (entries : List (Path × Entry)) (t : FileTree) : FileTree :=
  entries.foldl (fun t e => (put e.1 e.2 t).toOption.getD t) t

def programDir (work : Place) : Place := work ++ ["bin"]

def emptyScene (work : Place) : FileTree :=
  let tools : FileTree := ⟨.dir [("bin", .dir Tool.entries)], []⟩
  { (tools.makeDirs (FileTree.placePath (programDir work))).toOption.getD tools with cwd := work }

def World.fresh {τ : Type} (files : FileTree) (searchPath : List Path) (notes : τ) :
    World (Simulated τ) where
  files := files
  events := []
  slot := .empty
  active := .none
  saved := []
  host := {
    machine := .idle files
    environment := [("PATH", octets (":".intercalate (searchPath.map Path.text)))]
    notes := notes }

end TraceWorkbench.Simulation
