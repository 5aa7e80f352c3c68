import TraceWorkbench.Config

set_option autoImplicit false

/-!
# Projects

A project is a directory. All its products lie in one directory under it and are named after it, so
a project is determined by its root.
-/
namespace TraceWorkbench

structure Project where
  root : Path
  outputDir : Path
  binaryName : String
  deriving DecidableEq, Repr, Inhabited

namespace Project

def buildDir : String := "build"

/-- The project at a root: its programs carry the last segment of the root, with underscores for
spaces. -/
def ofRoot (root : Path) : Project where
  root := root
  outputDir := root.join ⟨buildDir⟩
  binaryName := ((root.fileName.getD "").map fun c => if c = ' ' then '_' else c)

def product (p : Project) (name : String) : Path := p.outputDir.join ⟨name⟩

def intermediateName (p : Project) : String := p.binaryName ++ ".bc"

def instrumentedBinaryName (p : Project) : String := "instrumented_" ++ p.binaryName

def instrumentedIntermediateName (p : Project) : String := p.instrumentedBinaryName ++ ".bc"

def traceFileName (p : Project) : String := p.instrumentedBinaryName ++ ".trace"

def compiledSpecName (p : Project) : String := p.instrumentedBinaryName ++ ".tessla.json"

def binary (p : Project) : Path := p.product p.binaryName

def intermediate (p : Project) : Path := p.product p.intermediateName

def instrumentedIntermediate (p : Project) : Path := p.product p.instrumentedIntermediateName

def instrumentedBinary (p : Project) : Path := p.product p.instrumentedBinaryName

def traceFile (p : Project) : Path := p.product p.traceFileName

def compiledSpec (p : Project) : Path := p.product p.compiledSpecName

def traceConfig (p : Project) : Path := p.product "zlog.conf"

/-- The path as seen from the root; a path outside stays as it is. -/
def relativize (p : Project) (path : Path) : Path := (path.relativeTo? p.root).getD path

def fields : List (Json.Field Project) := [
  .of "root" true Path.decoder fun v p => { p with root := v },
  .of "output_dir" true Path.decoder fun v p => { p with outputDir := v },
  .of "binary_name" true Json.string fun v p => { p with binaryName := v }]

def decoder : Json.Decoder Project := Json.record "ProjectContext" default fields

def toJson (p : Project) : Json.Value := .ofMembers [
  ("root", p.root.toJson), ("output_dir", p.outputDir.toJson),
  ("binary_name", .string p.binaryName)]

end Project

end TraceWorkbench
