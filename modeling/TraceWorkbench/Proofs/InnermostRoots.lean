import Mathlib.Data.List.Induction
import TraceWorkbench.Workflow.Editor

set_option autoImplicit false

/-!
# The innermost root

The roots that hold a file begin its path, part by part. So of any two of them one holds the other,
and the one with the most parts is held by all of them. However the roots are listed and spelled,
this is the one that a file belongs to.
-/
namespace TraceWorkbench

def Path.Holds (root path : Path) : Prop := root.parts <+: path.parts

namespace Path

variable {root other path : Path}

theorem startsWith_iff : path.startsWith root = true ↔ root.Holds path :=
  List.isPrefixOf_iff_prefix

theorem Holds.refl (path : Path) : path.Holds path := List.prefix_refl _

theorem Holds.trans (h : other.Holds root) (hroot : root.Holds path) : other.Holds path :=
  List.IsPrefix.trans h hroot

theorem Holds.chain (h : root.Holds path) (hother : other.Holds path)
    (hle : root.parts.length ≤ other.parts.length) : root.Holds other :=
  List.prefix_of_prefix_length_le h hother hle

theorem same_iff : root.same other = true ↔ root.parts = other.parts := beq_iff_eq

theorem Holds.of_same (h : root.Holds path) (hsame : root.same other = true) :
    other.Holds path := by
  rwa [Holds, ← same_iff.1 hsame]

theorem Holds.antisymm (h : root.Holds other) (hother : other.Holds root) :
    root.same other = true :=
  same_iff.2 (h.eq_of_length (Nat.le_antisymm h.length_le hother.length_le))

end Path

/-- Among the roots, the one that a path belongs to. -/
structure Innermost (roots : List Path) (path root : Path) : Prop where
  holds : root.Holds path
  inner : ∀ other ∈ roots, other.Holds path → other.Holds root
  /-- It is one of the roots, and no later one is the same path in another spelling. -/
  last : ∃ before after, roots = before ++ root :: after ∧
    ∀ other ∈ after, other.same root = false

namespace Innermost

variable {roots : List Path} {path root root' next : Path}

theorem mem (h : Innermost roots path root) : root ∈ roots := by
  obtain ⟨before, after, rfl, -⟩ := h.last
  simp

theorem same (h : Innermost roots path root) (h' : Innermost roots path root') :
    root.same root' = true :=
  (h'.inner root h.mem h.holds).antisymm (h.inner root' h'.mem h'.holds)

theorem unique (h : Innermost roots path root) (h' : Innermost roots path root') :
    root = root' := by
  obtain ⟨before, after, hroots, hlast⟩ := h.last
  obtain ⟨before', after', hroots', hlast'⟩ := h'.last
  rcases List.append_eq_append_iff.1 (hroots.symm.trans hroots') with
    ⟨between, -, hrest⟩ | ⟨between, -, hrest⟩
  · cases between with
    | nil => exact (List.cons.inj hrest).1
    | cons first between =>
      have hapart := hlast root' (by simp [(List.cons.inj hrest).2])
      exact absurd (h'.same h) (by simp [hapart])
  · cases between with
    | nil => exact (List.cons.inj hrest).1.symm
    | cons first between =>
      have hapart := hlast' root (by simp [(List.cons.inj hrest).2])
      exact absurd (h.same h') (by simp [hapart])

/-- One more root makes no difference if it does not hold the path, or holds it with fewer parts. -/
theorem concat (h : Innermost roots path root)
    (hnext : next.Holds path → next.parts.length < root.parts.length) :
    Innermost (roots ++ [next]) path root where
  holds := h.holds
  inner := by
    rw [List.forall_mem_append, List.forall_mem_singleton]
    exact ⟨h.inner, fun hholds => hholds.chain h.holds (Nat.le_of_lt (hnext hholds))⟩
  last := by
    obtain ⟨before, after, rfl, hlast⟩ := h.last
    refine ⟨before, after ++ [next], by simp, ?_⟩
    rw [List.forall_mem_append, List.forall_mem_singleton]
    refine ⟨hlast, Bool.eq_false_iff.2 fun hsame => ?_⟩
    have hparts := Path.same_iff.1 hsame
    have hlt := hnext (h.holds.of_same (Path.same_iff.2 hparts.symm))
    rw [hparts] at hlt
    exact Nat.lt_irrefl _ hlt

theorem concat_self (hnext : next.Holds path)
    (hinner : ∀ other ∈ roots, other.Holds path → other.Holds next) :
    Innermost (roots ++ [next]) path next where
  holds := hnext
  inner := by
    rw [List.forall_mem_append, List.forall_mem_singleton]
    exact ⟨hinner, fun _ => .refl next⟩
  last := ⟨roots, [], by simp, by simp⟩

end Innermost

theorem innermostRoot_concat (roots : List Path) (next path : Path) :
    innermostRoot (roots ++ [next]) path =
      if path.startsWith next then
        match innermostRoot roots path with
        | some best => if best.parts.length ≤ next.parts.length then some next else some best
        | none => some next
      else innermostRoot roots path := by
  unfold innermostRoot
  rw [List.filter_append, List.foldl_append]
  by_cases hnext : path.startsWith next = true
  · have hkept : [next].filter path.startsWith = [next] := List.filter_cons_of_pos hnext
    rw [hkept, if_pos hnext]
    rfl
  · simp [hnext]

/-- If no root has been found, none holds the path; the one found is the innermost so far. -/
theorem innermostRoot_spec (roots : List Path) (path : Path) :
    match innermostRoot roots path with
    | none => ∀ root ∈ roots, ¬ root.Holds path
    | some root => Innermost roots path root := by
  induction roots using List.reverseRecOn with
  | nil => simp [innermostRoot]
  | append_singleton roots next ih =>
    rw [innermostRoot_concat]
    by_cases hnext : path.startsWith next = true
    · rw [if_pos hnext]
      rw [Path.startsWith_iff] at hnext
      cases hbest : innermostRoot roots path with
      | none =>
        rw [hbest] at ih
        exact .concat_self hnext fun other hother hholds => absurd hholds (ih other hother)
      | some best =>
        rw [hbest] at ih
        by_cases hle : best.parts.length ≤ next.parts.length
        · simp only [hle, if_true]
          have houter : best.Holds next := ih.holds.chain hnext hle
          exact .concat_self hnext fun other hother hholds =>
            (ih.inner other hother hholds).trans houter
        · simp only [hle, if_false]
          exact ih.concat fun _ => Nat.lt_of_not_le hle
    · rw [if_neg hnext]
      rw [Path.startsWith_iff] at hnext
      cases hbest : innermostRoot roots path with
      | none =>
        rw [hbest] at ih
        simp only [List.forall_mem_append, List.forall_mem_singleton]
        exact ⟨ih, hnext⟩
      | some best =>
        rw [hbest] at ih
        exact ih.concat fun hholds => absurd hholds hnext

/-- A file has no project just if no root begins its path, part by part. Otherwise its project is
the root that all other such roots begin; of its spellings in the list, the last. -/
theorem project_root_is_innermost (w : Workspace) (file : Path) :
    (w.projectRoot file = none ↔ ∀ root ∈ w.roots, ¬ root.Holds file) ∧
      ∀ root, w.projectRoot file = some root ↔ Innermost w.roots file root := by
  have hspec := innermostRoot_spec w.roots file
  unfold Workspace.projectRoot
  cases hfound : innermostRoot w.roots file with
  | none =>
    rw [hfound] at hspec
    refine ⟨by simpa using hspec, fun root => ?_⟩
    have hnone : ¬ Innermost w.roots file root := fun h => hspec root h.mem h.holds
    simpa using hnone
  | some best =>
    rw [hfound] at hspec
    constructor
    · have hholds : ¬ ∀ root ∈ w.roots, ¬ root.Holds file :=
        fun hnone => hnone best hspec.mem hspec.holds
      simpa using hholds
    · intro root
      constructor
      · intro h
        exact Option.some.inj h ▸ hspec
      · intro h
        rw [hspec.unique h]

example : innermostRoot [⟨"/work"⟩, ⟨"/work/demo2/"⟩, ⟨"/work//./demo"⟩, ⟨"/work/demo/"⟩, ⟨"/"⟩]
    ⟨"/work/demo/main.c"⟩ = some ⟨"/work/demo/"⟩ := by
  decide +kernel

end TraceWorkbench
