import Mathlib.Data.String.Basic
import TraceWorkbench.Files.Scan
import TraceWorkbench.Proofs.PathWalks

set_option autoImplicit false

/-!
# The first file of a scan

A scan lists what it finds in the order of the names. A file comes first in it unless an entry in
front of it holds something.
-/
namespace TraceWorkbench

theorem FileTree.linkStat_of_stat {t : FileTree} {p : Path} {n : Node} (h : t.stat p = .ok n) :
    t.linkStat p = .ok n ∨ ∃ target, t.linkStat p = .ok (.link target) := by
  obtain ⟨q, hq, hat⟩ := stat_eq_ok_iff.1 h
  cases hwants : wantsDirectory p with
  | true =>
    obtain ⟨husable, hwalk, hfile⟩ := resolve_eq_ok_iff.1 hq
    have hq' : t.resolve p false = .ok q := by
      refine resolve_eq_ok_iff.2 ⟨husable, ?_, hfile⟩
      rwa [hwants]
    exact .inl (by simp [linkStat, hq', hat])
  | false =>
    obtain ⟨q', hq', hsame⟩ := resolve_unfollowed hwants hq
    rcases hsame with rfl | ⟨target, hlink⟩
    · exact .inl (by simp [linkStat, hq', hat])
    · exact .inr ⟨target, by simp [linkStat, hq', hlink]⟩

namespace Scan

theorem files_of_dir {t : FileTree} {dir : Path} {es : Entries} (h : t.stat dir = .ok (.dir es))
    (suffix : String) : files t dir suffix = inOrder (belowEntries suffix dir es) := by
  unfold files
  rcases FileTree.linkStat_of_stat h with hstat | ⟨target, hlink⟩
  · rw [hstat]
    rfl
  · rw [hlink, h]
    rfl

/-- What an entry of a directory adds to a scan. -/
def found (suffix : String) (path : Path) (e : String × Node) : List Path :=
  match e.2 with
  | .file .. => if isHidden e.1 || !hasSuffix suffix e.1 then [] else [path.join ⟨e.1⟩]
  | .link _ => []
  | .dir es =>
    if isHidden e.1 || isPackageDir e.1 then [] else below suffix (path.join ⟨e.1⟩) (.dir es)

theorem found_dir (suffix : String) (path : Path) (name : String) (es : Entries) :
    found suffix path (name, .dir es) = if isHidden name || isPackageDir name then []
      else below suffix (path.join ⟨name⟩) (.dir es) :=
  rfl

theorem belowEntries_eq_map (suffix : String) (path : Path) (es : Entries) :
    belowEntries suffix path es = es.map fun e => (e.1, found suffix path e) := by
  induction es with
  | nil => rw [belowEntries]; rfl
  | cons e rest ih =>
    obtain ⟨k, m⟩ := e
    unfold belowEntries
    rw [ih]
    cases m <;> rfl

theorem mem_insertByName {f g : String × List Path} {found : List (String × List Path)} :
    g ∈ insertByName f found ↔ g = f ∨ g ∈ found := by
  induction found with
  | nil => simp [insertByName]
  | cons k rest ih =>
    unfold insertByName
    split
    · simp
    · simp only [List.mem_cons, ih]
      exact or_left_comm

theorem mem_sortByName {g : String × List Path} {found : List (String × List Path)} :
    g ∈ sortByName found ↔ g ∈ found := by
  induction found with
  | nil => simp [sortByName]
  | cons f rest ih => rw [sortByName, mem_insertByName, ih, List.mem_cons]

def Wanted (suffix name : String) : Prop := isHidden name = false ∧ hasSuffix suffix name = true

variable {suffix name : String} {t : FileTree} {dir : Path} {es : Entries} {content : Bytes}
  {executable : Bool}

theorem found_of_wanted (path : Path) (hwanted : Wanted suffix name) :
    found suffix path (name, .file content executable) = [path.join ⟨name⟩] := by
  simp [found, hwanted.1, hwanted.2]

theorem found_of_not_wanted (path : Path) (hunwanted : ¬Wanted suffix name) :
    found suffix path (name, .file content executable) = [] := by
  unfold found
  refine if_pos ?_
  by_cases hhidden : isHidden name = true
  · simp [hhidden]
  · have hother : hasSuffix suffix name ≠ true := fun h => hunwanted ⟨by simpa using hhidden, h⟩
    simp [hother]

end Scan

end TraceWorkbench
