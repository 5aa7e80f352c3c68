import TraceWorkbench.Files.Scan
import TraceWorkbench.Project.Setup
import TraceWorkbench.Workflow.Result

set_option autoImplicit false

/-!
# Following the editor

What the user opens, saves and closes decides which project is active. A project that becomes
active gets a linter configuration, if it has none and a compiler is found.
-/
namespace TraceWorkbench

structure Workspace where
  roots : List Path
  openEditors : List Path
  activeEditor : Option Path
  deriving DecidableEq, Repr, Inhabited

namespace Workspace

def ofRoot (root : Path) : Workspace := ⟨[root], [], none⟩

def projectRoot (w : Workspace) (file : Path) : Option Path := innermostRoot w.roots file

end Workspace

/-- What an editor answers when it is asked: in which project a file lies, and which file has the
focus. -/
structure EditorView where
  rootOf : Path → Option Path
  focus : Option Path

def Workspace.view (w : Workspace) : EditorView := ⟨w.projectRoot, w.activeEditor⟩

def EditorView.focusedRoot (v : EditorView) : Option Path := v.focus.bind v.rootOf

/-- All that workflows depend on but never change. -/
structure Bench where
  config : ToolchainConfig
  workspace : Workspace
  searchPath : List Path
  deriving DecidableEq, Repr, Inhabited

def findTool (name : String) (dirs : List Path) (t : FileTree) : Option Path :=
  (dirs.map fun d => d.join ⟨name⟩).find? fun p =>
    match t.stat p with
    | .ok (.file _ executable) => executable
    | _ => false

namespace Bench

def setUpFiles (b : Bench) (root : Path) (t : FileTree) :
    Except OsError (SetupOutcome × FileTree) :=
  Project.setUp root (findTool "clang" b.searchPath t) t

/-- Sets a project up; nothing is said if that fails. -/
def setUpQuietly (b : Bench) (root : Path) : Activity Unit :=
  .perform <| .files fun t =>
    match b.setUpFiles root t with
    | .ok (_, t) => ((), t)
    | .error _ => ((), t)

def announce (b : Bench) : ProjectUpdate → Activity Unit
  | .changed project => do
    .publish (.activeProjectChanged project)
    match project with
    | some p => b.setUpQuietly p.root
    | none => return ()
  | .refreshed project => .publish (.projectRefreshed project)
  | .unchanged => .done ()

def update (b : Bench) (f : ActiveProject → ProjectUpdate × ActiveProject) :
    Activity ProjectUpdate := do
  let u ← .perform (.project f)
  b.announce u
  return u

def openProject (b : Bench) (root : Path) : Activity ProjectUpdate := b.update (·.activate root)

/-- Another editor has the focus; it may show no file. -/
def fileChangedIn (b : Bench) (v : EditorView) (file : Option Path) : Activity ProjectUpdate :=
  let root := file.bind v.rootOf
  b.update (·.fileChanged root)

def fileChanged (b : Bench) (file : Option Path) : Activity ProjectUpdate :=
  b.fileChangedIn b.workspace.view file

def fileSavedIn (b : Bench) (v : EditorView) (file : Path) : Activity ProjectUpdate :=
  match v.rootOf file with
  | none => .done .unchanged
  | some root => b.update (·.fileSaved root)

def fileSaved (b : Bench) (file : Path) : Activity ProjectUpdate :=
  b.fileSavedIn b.workspace.view file

def lastFileClosed (b : Bench) : Activity ProjectUpdate := b.update ActiveProject.noOpenFile

def activeProject : Workflow Project :=
  .ofActivity <| (Activity.perform (.project fun a => (a.current, a))).bind fun
    | some p => .done (.success p)
    | none => (Workflow.refusePrecondition .noActiveProject).toActivity

def setUp (b : Bench) : Workflow SetupOutcome := do
  let p ← activeProject
  let outcome ← .attempt <| .perform <| .files fun t =>
    match b.setUpFiles p.root t with
    | .ok (o, t) => (.ok o, t)
    | .error e => (.error e, t)
  if outcome = .compilerMissing then
    .always <| .publish <| .warning "Could not set up the project"
      "No clang compiler was found on the PATH, so no linter configuration was written."
  return outcome

end Bench

structure SplitView where
  root : Path
  cFiles : List Path
  specFiles : List Path
  deriving DecidableEq, Repr, Inhabited

def SplitView.toJson (v : SplitView) : Json.Value := .ofMembers [
  ("root", v.root.toJson), ("c_files", .array (v.cFiles.map Path.toJson)),
  ("spec_files", .array (v.specFiles.map Path.toJson))]

namespace Bench

def splitViewIn (b : Bench) (v : EditorView) : Activity (Option SplitView) := do
  let title := "Could not set up the split view"
  match v.focusedRoot with
  | none =>
    .publish (.warning title
      ("No project is currently active. At least one file must be active to set up the split " ++
        "view."))
    return none
  | some root =>
    let _ ← b.openProject root
    let view ← .look fun t => SplitView.mk root (Scan.cSources t root) (Scan.specFiles t root)
    if view.cFiles.isEmpty && view.specFiles.isEmpty then
      .publish (.warning title
        "There are no \".tessla\" and \".c\" files to put into split view in the current project.")
      return none
    else return some view

def splitView (b : Bench) : Activity (Option SplitView) := b.splitViewIn b.workspace.view

end Bench

end TraceWorkbench
