import TraceWorkbench.Files.Access

set_option autoImplicit false

/-!
# Scanning for project files

All regular files below a root whose names end in a suffix, in the order of the names in each
directory. Hidden entries and directories of installed packages are left out, except that the root
itself may be one. Links are not followed, except that the root itself may be one.
-/
namespace TraceWorkbench.Scan

def cSuffix : String := ".c"
def specSuffix : String := ".tessla"
def compiledSpecSuffix : String := ".tessla.json"

def isHidden (name : String) : Bool := name.toList.head? == some '.'

def isPackageDir (name : String) : Bool := name == "node_modules"

def hasSuffix (suffix name : String) : Bool := suffix.toList.isSuffixOf name.toList

/-- Puts a finding in front of the first one whose name is not smaller. -/
def insertByName (f : String × List Path) : List (String × List Path) → List (String × List Path)
  | [] => [f]
  | g :: rest => if f.1 ≤ g.1 then f :: g :: rest else g :: insertByName f rest

def sortByName : List (String × List Path) → List (String × List Path)
  | [] => []
  | f :: rest => insertByName f (sortByName rest)

def inOrder (found : List (String × List Path)) : List Path := (sortByName found).flatMap (·.2)

mutual

def below (suffix : String) (path : Path) : Node → List Path
  | .dir entries => inOrder (belowEntries suffix path entries)
  | _ => []

def belowEntries (suffix : String) (path : Path) :
    List (String × Node) → List (String × List Path)
  | [] => []
  | (name, node) :: rest =>
    let here := path.join ⟨name⟩
    let found :=
      match node with
      | .file .. => if isHidden name || !hasSuffix suffix name then [] else [here]
      | .link _ => []
      | .dir entries =>
        if isHidden name || isPackageDir name then [] else below suffix here (.dir entries)
    (name, found) :: belowEntries suffix path rest

end

def files (t : FileTree) (root : Path) (suffix : String) : List Path :=
  match t.linkStat root with
  | .ok (.file ..) => if hasSuffix suffix (root.fileName.getD root.text) then [root] else []
  | .ok (.dir entries) => below suffix root (.dir entries)
  | .ok (.link _) =>
    match t.stat root with
    | .ok (.dir entries) => below suffix root (.dir entries)
    | _ => []
  | .error _ => []

def cSources (t : FileTree) (root : Path) : List Path := files t root cSuffix

def specFiles (t : FileTree) (root : Path) : List Path := files t root specSuffix

def compiledSpecs (t : FileTree) (dir : Path) : List Path := files t dir compiledSpecSuffix

end TraceWorkbench.Scan
