import TraceWorkbench.Proofs.Scanning
import TraceWorkbench.Proofs.TidyTrees

set_option autoImplicit false

/-!
# Scans after a change

A file that is put somewhere changes a scan only where nothing was before, and only if the scan
looks for its name. All other findings stay, in their order.
-/
namespace TraceWorkbench.Scan

open Node (Writable Tidy)

variable {suffix : String} {path dir : Path} {es : Entries} {name : String}

theorem sortByName_of_sorted {l : List (String × List Path)}
    (h : l.Pairwise fun a b => a.1 < b.1) : sortByName l = l := by
  induction l with
  | nil => rfl
  | cons f rest ih =>
    obtain ⟨hf, hrest⟩ := List.pairwise_cons.1 h
    rw [sortByName, ih hrest]
    cases rest with
    | nil => rfl
    | cons g more => simp [insertByName, (hf g List.mem_cons_self).le]

theorem below_of_sorted (h : Entries.Sorted es) :
    below suffix path (.dir es) = es.flatMap (found suffix path) := by
  have hsorted : (belowEntries suffix path es).Pairwise fun a b => a.1 < b.1 := by
    rw [belowEntries_eq_map]
    exact List.pairwise_map.2 h
  rw [below, inOrder, sortByName_of_sorted hsorted, belowEntries_eq_map, List.flatMap_map]

theorem filter_flatMap_put (keep : Path → Bool) (h : Entries.Sorted es)
    (g : String × Node → List Path) {n : Node}
    (hg : (g (name, n)).filter keep =
      ((Entries.find? name es).elim [] fun m => g (name, m)).filter keep) :
    ((Entries.put name n es).flatMap g).filter keep = (es.flatMap g).filter keep := by
  obtain ⟨front, back, hsplit⟩ := h.split name
  have hold := hsplit.old
  rw [hsplit.new]
  generalize Entries.find? name es = old at hold hg
  subst hold
  cases old <;> simp_all

def pathAt (path : Path) (q : Place) : Path := q.foldl (fun p name => p.join ⟨name⟩) path

theorem pathAt_cons (path : Path) (name : String) (rest : Place) :
    pathAt path (name :: rest) = pathAt (path.join ⟨name⟩) rest :=
  rfl

/-- A place that a file is put at is of no account for a scan: a file was there already, or the scan
does not look for it. -/
def Apart (keep : Path → Bool) (suffix : String) (path : Path) (n : Node) (q : Place) : Prop :=
  n.at? q = none → ∀ r name, q = r ++ [name] → Wanted suffix name →
    keep (pathAt path (r ++ [name])) = false

theorem found_put (path : Path) (keep : Path → Bool) (content : Bytes) (executable : Bool)
    (hw : Writable (Entries.find? name es))
    (hnew : Entries.find? name es = none → Wanted suffix name → keep (path.join ⟨name⟩) = false) :
    (found suffix path (name, .file content executable)).filter keep =
      ((Entries.find? name es).elim [] fun m => found suffix path (name, m)).filter keep := by
  rcases hw with hnone | ⟨content', executable', hfile⟩
  · rw [hnone]
    by_cases hwanted : Wanted suffix name
    · simp [found_of_wanted path hwanted, hnew hnone hwanted]
    · simp [found_of_not_wanted path hwanted]
  · rw [hfile]
    rfl

theorem filter_found_alterAt (keep : Path → Bool) (f : Option Node → Option Node) (r : String)
    (rest : Place) {c : Node}
    (h : (below suffix (path.join ⟨name⟩) (c.alterAt f (r :: rest))).filter keep =
      (below suffix (path.join ⟨name⟩) c).filter keep) :
    (found suffix path (name, c.alterAt f (r :: rest))).filter keep =
      (found suffix path (name, c)).filter keep := by
  cases c with
  | file content executable => rw [Node.alterAt_of_not_dir f r rfl]
  | link target => rw [Node.alterAt_of_not_dir f r rfl]
  | dir es =>
    obtain ⟨es', hes'⟩ := Node.alterAt_cons_dir f r rest es
    rw [hes'] at h ⊢
    rw [found_dir, found_dir]
    split
    · rfl
    · exact h

/-- A scan of a node finds, certain paths apart, what it found before a file was put into it. -/
theorem filter_below_put (keep : Path → Bool) (content : Bytes) (executable : Bool) {n : Node}
    {q : Place} (htidy : n.Tidy) (hw : Writable (n.at? q)) (hnew : Apart keep suffix path n q) :
    (below suffix path (n.alterAt (fun _ => some (.file content executable)) q)).filter keep =
      (below suffix path n).filter keep := by
  induction q generalizing n path with
  | nil =>
    rcases hw with hnone | ⟨content', executable', hfile⟩
    · simp [Node.at?] at hnone
    · obtain rfl : n = .file content' executable' := Option.some.inj hfile
      rfl
  | cons name rest ih =>
    cases n with
    | file content' executable' => rw [Node.alterAt_of_not_dir _ name rfl]
    | link target => rw [Node.alterAt_of_not_dir _ name rfl]
    | dir es =>
      obtain ⟨hsorted, hinner⟩ := htidy.entries
      rw [Node.at?_cons, Node.child?_dir] at hw
      cases rest with
      | nil =>
        rw [Node.bind_at?_nil] at hw
        have hentry := found_put path keep content executable hw fun hnone =>
          hnew (by rw [Node.at?_cons, Node.child?_dir, hnone]; rfl) [] name rfl
        have hput := hsorted.put name (.file content executable)
        change (below suffix path (.dir (Entries.put _ _ es))).filter keep = _
        rw [below_of_sorted hput, below_of_sorted hsorted]
        exact filter_flatMap_put keep hsorted _ hentry
      | cons r rest =>
        cases hc : Entries.find? name es with
        | none =>
          simp only [Node.alterAt, Entries.alter, hc, Option.map_none, Entries.remove_of_find? hc]
        | some c =>
          rw [hc] at hw
          have hin : Apart keep suffix (path.join ⟨name⟩) c (r :: rest) := by
            intro hnone r' last hlast hwanted
            refine hnew ?_ (name :: r') last (by rw [hlast]; rfl) hwanted
            rw [Node.at?_cons, Node.child?_dir, hc]
            exact hnone
          have hchild := ih (hinner _ (Entries.mem_of_find? hc)) hw hin
          simp only [Node.alterAt, Entries.alter, hc, Option.map_some]
          rw [below_of_sorted hsorted, below_of_sorted (hsorted.put name _)]
          refine filter_flatMap_put keep hsorted _ ?_
          rw [hc]
          exact filter_found_alterAt keep _ r rest hchild

variable {t : FileTree} {d q : Place} {bytes : Bytes} {executable : Bool}

theorem files_of_resolve (hd : t.resolve dir true = .ok d) (hes : t.root.at? d = some (.dir es)) :
    files t dir suffix = below suffix dir (.dir es) := by
  rw [files_of_dir (FileTree.stat_eq_ok_iff.2 ⟨d, hd, hes⟩), below]

theorem filter_files_put (keep : Path → Bool) (htidy : t.root.Tidy)
    (hd : t.resolve dir true = .ok d) (hes : t.root.at? d = some (.dir es))
    (hw : Writable (t.root.at? q))
    (hnew : ∀ r, q = d ++ r → Apart keep suffix dir (.dir es) r) :
    (files (t.put q bytes executable) dir suffix).filter keep =
      (files t dir suffix).filter keep := by
  have hd' : (t.put q bytes executable).resolve dir true = .ok d :=
    FileTree.put_resolve bytes executable hw (.inr (by simp [hes])) hd
  rw [files_of_resolve hd hes]
  rcases Node.alterAt_seen_from (fun _ => some (.file bytes executable))
    (Node.leaf_of_writable hw) hes with hsame | ⟨name, r, rfl, hchanged⟩
  · rw [files_of_resolve hd' hsame]
  · obtain ⟨es', hes'⟩ := Node.alterAt_cons_dir
      (fun _ => some (.file bytes executable)) name r es
    rw [files_of_resolve hd' (hchanged.trans (congrArg some hes')), ← hes']
    rw [Node.at?_append, hes] at hw
    exact filter_below_put keep bytes executable (htidy.at? hes) hw (hnew _ rfl)

end TraceWorkbench.Scan
