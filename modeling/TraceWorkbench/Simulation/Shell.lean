import TraceWorkbench.Files.Access
import TraceWorkbench.Simulation.Octets
import TraceWorkbench.Simulation.Syntax

set_option autoImplicit false

/-!
# The state of a shell

Parameters, variables, functions and options of one shell process. All texts are octets.
-/
namespace TraceWorkbench.Simulation

structure Shell where
  /-- `$0`. -/
  name : String
  args : List String
  vars : List (String × String)
  exported : List String
  functions : List (String × Command)
  status : Nat
  /-- `$$`. -/
  pid : Nat
  background : Option Nat
  cwd : Place
  /-- What to run at a signal, by its number; 0 stands for the end of the shell. -/
  traps : List (Nat × String)
  stopOnFailure : Bool
  needSet : Bool
  traced : Bool := false
  fixed : List String := []
  /-- The next option letter that `getopts` looks at: the argument, counted from 1, and the place
  behind its dash. Place 0 stands before the argument. -/
  optionPlace : Nat × Nat := (1, 0)
  deriving Inhabited

namespace Shell

def lookUp {α β : Type} [BEq α] (k : α) (entries : List (α × β)) : Option β :=
  (entries.find? fun e => e.1 == k).map Prod.snd

def put {α β : Type} [BEq α] (k : α) (v : β) (entries : List (α × β)) : List (α × β) :=
  (k, v) :: entries.filter fun e => !(e.1 == k)

def get? (s : Shell) (name : String) : Option String := lookUp name s.vars

/-- Sets a variable. `OPTIND` also says where the options go on. -/
def set (s : Shell) (name value : String) : Shell :=
  let s := { s with vars := put name value s.vars }
  if name == "OPTIND" then { s with optionPlace := (max 1 (value.toNat?.getD 1), 0) } else s

def unset (s : Shell) (name : String) : Shell :=
  { s with vars := s.vars.filter fun e => !(e.1 == name)
           exported := s.exported.filter (!· == name) }

def exporting (s : Shell) (name : String) : Shell :=
  if s.exported.contains name then s else { s with exported := name :: s.exported }

def fixedFault? (s : Shell) (names : List String) : Option String :=
  (names.find? s.fixed.contains).map (· ++ ": is read only")

def withStatus (s : Shell) (n : Nat) : Shell := { s with status := n % 256 }

def separators (s : Shell) : List Char := ((s.get? "IFS").getD " \t\n").toList

/-- What stands between the arguments where they are one text. -/
def joiner (s : Shell) : String := String.ofList (s.separators.take 1)

def isPosition (name : String) : Bool := !name.isEmpty && name.toList.all Char.isDigit

def parameter? (s : Shell) (name : String) : Option String :=
  if isPosition name then
    match name.toNat? with
    | some 0 => some s.name
    | some (n + 1) => s.args[n]?
    | none => none
  else
    match name with
    | "#" => some (toString s.args.length)
    | "?" => some (toString s.status)
    | "$" => some (toString s.pid)
    | "!" => s.background.map toString
    | "-" =>
      let letter (on : Bool) (text : String) : String := if on then text else ""
      some (letter s.needSet "u" ++ letter s.traced "x" ++ letter s.stopOnFailure "e")
    | "*" => if s.args.isEmpty then none else some (s.joiner.intercalate s.args)
    | "@" => if s.args.isEmpty then none else some (" ".intercalate s.args)
    | _ => s.get? name

def environment (s : Shell) : List (String × String) :=
  s.vars.filter fun e => s.exported.contains e.1

def view (s : Shell) (t : FileTree) : FileTree := { t with cwd := s.cwd }

end Shell

def pathOf (s : String) : Path := ⟨ofOctets s⟩

end TraceWorkbench.Simulation
