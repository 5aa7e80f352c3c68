import TraceWorkbench.Project

set_option autoImplicit false

/-!
# The active project

Which project the workbench works on, and what a change in the editor means for it. Roots that are
the same path in two spellings are one project.
-/
namespace TraceWorkbench

inductive ProjectUpdate where
  | unchanged
  | changed (project : Option Project)
  /-- The active project stayed, and one of its files was touched. -/
  | refreshed (project : Project)
  deriving DecidableEq, Repr, Inhabited

structure ActiveProject where
  current : Option Project
  /-- A project becomes active by its root. -/
  rooted : ∀ p, current = some p → ∃ root, p = .ofRoot root
  deriving DecidableEq, Repr

namespace ActiveProject

def none : ActiveProject := ⟨Option.none, by simp⟩

instance : Inhabited ActiveProject := ⟨none⟩

def ofRoot (root : Path) : ActiveProject :=
  ⟨some (.ofRoot root), fun _ hp => ⟨root, (Option.some.inj hp).symm⟩⟩

def activate (a : ActiveProject) (root : Path) : ProjectUpdate × ActiveProject :=
  let isActive := (a.current.map fun p => p.root.same root).getD false
  if isActive then (.unchanged, a)
  else (.changed (some (.ofRoot root)), .ofRoot root)

def fileSaved (a : ActiveProject) (root : Path) : ProjectUpdate × ActiveProject :=
  match a.activate root with
  | (.unchanged, b) => ((b.current.map ProjectUpdate.refreshed).getD .unchanged, b)
  | (update, b) => (update, b)

/-- Another file has the focus; it may lie outside all projects. -/
def fileChanged (a : ActiveProject) (root : Option Path) : ProjectUpdate × ActiveProject :=
  match root with
  | some root => a.activate root
  | Option.none => (.unchanged, a)

def noOpenFile (a : ActiveProject) : ProjectUpdate × ActiveProject :=
  (if a.current.isSome then .changed Option.none else .unchanged, none)

end ActiveProject

/-- The innermost of the roots that hold a path; of equally deep ones the last. -/
def innermostRoot (roots : List Path) (path : Path) : Option Path :=
  (roots.filter path.startsWith).foldl (fun best root =>
    match best with
    | some b => if b.parts.length ≤ root.parts.length then some root else some b
    | none => some root) none

end TraceWorkbench
