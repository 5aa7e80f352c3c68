import TraceWorkbench.Config
import TraceWorkbench.Text.Quoted

set_option autoImplicit false

/-!
# Commands

A command is a program with its arguments; no shell of the host ever sees it. A command line for
the shell inside the container keeps its words as they are meant and quotes each when it is
rendered, so no word can pass for something else.
-/
namespace TraceWorkbench

structure CommandSpec where
  program : Path
  args : List String := []
  workingDir : Option Path := none
  /-- The file that receives the standard output instead of the reader. -/
  stdoutFile : Option Path := none
  deriving DecidableEq, Repr, Inhabited

namespace CommandSpec

def arg (c : CommandSpec) (a : String) : CommandSpec := { c with args := c.args ++ [a] }

def pathArg (c : CommandSpec) (p : Path) : CommandSpec := c.arg p.text

def withArgs (c : CommandSpec) (as : List String) : CommandSpec := { c with args := c.args ++ as }

def text (c : CommandSpec) : String :=
  " ".intercalate ((c.program.text :: c.args).map String.shellQuoted) ++
    match c.stdoutFile with
    | some file => " > " ++ file.text.shellQuoted
    | none => ""

def toJson (c : CommandSpec) : Json.Value := .ofMembers <|
  [("program", c.program.toJson), ("args", .strings c.args)] ++
    (c.workingDir.map fun p => ("working_dir", p.toJson)).toList ++
    (c.stdoutFile.map fun p => ("stdout_file", p.toJson)).toList

end CommandSpec

structure ShellScript where
  program : String
  env : List (String × String) := []
  args : List String := []
  redirect : Option String := none
  deriving DecidableEq, Repr, Inhabited

namespace ShellScript

def withEnv (s : ShellScript) (key value : String) : ShellScript :=
  { s with env := s.env ++ [(key, value)] }

def arg (s : ShellScript) (word : String) : ShellScript := { s with args := s.args ++ [word] }

def pathArg (s : ShellScript) (p : Path) : ShellScript := s.arg p.text

def withArgs (s : ShellScript) (words : List String) : ShellScript :=
  { s with args := s.args ++ words }

def redirectStdout (s : ShellScript) (target : String) : ShellScript :=
  { s with redirect := some target }

def words (s : ShellScript) : List String :=
  (s.env.map fun (key, value) => key ++ "=" ++ value.shellQuoted) ++
    (s.program :: s.args).map String.shellQuoted

def render (s : ShellScript) : String :=
  " ".intercalate s.words ++
    match s.redirect with
    | some target => " > " ++ target.shellQuoted
    | none => ""

end ShellScript

def trimSlashes (s : String) : String :=
  String.ofList (s.toList.reverse.dropWhile (· == '/')).reverse

/-- The directory inside the container in which a script runs. -/
def ContainerConfig.workingDir (c : ContainerConfig) : Option String → String
  | some sub => trimSlashes c.mountPoint ++ "/" ++ sub
  | none => c.mountPoint

/-- Runs a script in a container that is thrown away, with the project mounted. -/
def CommandSpec.containerized (container : ContainerConfig) (root : Path) (subdir : Option String)
    (script : ShellScript) : CommandSpec where
  program := container.docker
  args := ["run", "--volume", root.text ++ ":" ++ container.mountPoint, "--rm", container.image,
    "sh", "-c", "cd " ++ (container.workingDir subdir).shellQuoted ++ " && " ++ script.render]

namespace ContainerConfig

def startCommand (c : ContainerConfig) : CommandSpec where
  program := c.docker
  args := ["run", "-tid", "--name", c.name, c.image, "sh"]

def removeCommand (c : ContainerConfig) : CommandSpec where
  program := c.docker
  args := ["rm", "-f", c.name]

end ContainerConfig

end TraceWorkbench
