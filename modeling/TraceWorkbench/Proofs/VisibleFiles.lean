import TraceWorkbench.Proofs.ByteOrder
import TraceWorkbench.Proofs.ProductPaths
import TraceWorkbench.Proofs.ScanChanges

set_option autoImplicit false

/-!
# Visible files

Which files a scan finds is said here of whole paths: a file counts if its name has the suffix,
nothing on the way to it is hidden, and no directory on the way holds packages. In which order the
directories list their entries is of no account, as the findings are in the order of paths, which
compares part by part, and names by their bytes.
-/
namespace TraceWorkbench

namespace Path

def Part.rank : Part → Nat
  | .root => 0
  | .here => 1
  | .up => 2
  | .name _ => 3

def Part.Before (a b : Part) : Prop :=
  a.rank < b.rank ∨ ∃ m n, a = .name m ∧ b = .name n ∧ Utf8.encode m < Utf8.encode n

/-- The order of paths: the first part in which they differ decides. -/
def Precedes (p q : Path) : Prop := List.Lex Part.Before p.parts q.parts

theorem Part.Before.irrefl (a : Part) : ¬ a.Before a := by
  rintro (h | ⟨m, n, rfl, hname, h⟩)
  · exact Nat.lt_irrefl _ h
  · obtain rfl := Part.name.inj hname
    exact List.lt_irrefl _ h

theorem Precedes.ne {p q : Path} (h : p.Precedes q) : p ≠ q := by
  rintro rfl
  exact List.lex_irrefl Part.Before.irrefl _ h

end Path

/-- A name that an entry of a directory can have. -/
def LegalName (name : String) : Prop :=
  '/' ∉ name.toList ∧ name.toList ≠ [] ∧ name.toList ≠ ['.'] ∧ name.toList ≠ ['.', '.']

instance (name : String) : Decidable (LegalName name) := inferInstanceAs (Decidable (_ ∧ _))

namespace Node

/-- The entries of every directory have legal names, and no two of them the same. Their order is
left open. -/
inductive WellNamed : Node → Prop
  | file (content : Bytes) (executable : Bool) : WellNamed (.file content executable)
  | link (target : String) : WellNamed (.link target)
  | dir (es : Entries) (distinct : (es.map Prod.fst).Nodup) (legal : ∀ e ∈ es, LegalName e.1)
      (inner : ∀ e ∈ es, WellNamed e.2) : WellNamed (.dir es)

theorem at?_of_leaf {n : Node} (hn : n.isDir = false) (name : String) (rest : Place) :
    n.at? (name :: rest) = none := by
  cases n with
  | file content executable => rfl
  | link target => rfl
  | dir es => simp [isDir] at hn

end Node

theorem Entries.find?_of_mem {name : String} {n : Node} {es : Entries}
    (hdistinct : (es.map Prod.fst).Nodup) (h : (name, n) ∈ es) : find? name es = some n := by
  induction es with
  | nil => simp at h
  | cons e rest ih =>
    obtain ⟨k, m⟩ := e
    obtain ⟨hk, hrest⟩ := List.nodup_cons.1 hdistinct
    rcases List.mem_cons.1 h with heq | hmem
    · obtain ⟨rfl, rfl⟩ := Prod.mk.inj heq
      simp [find?]
    · have hne : k ≠ name := by
        rintro rfl
        exact hk (List.mem_map.2 ⟨(k, n), hmem, rfl⟩)
      simpa [find?, hne] using ih hrest hmem

namespace Scan

/-- A regular file, not a link, with the suffix. Nothing on the way to it is hidden, itself
included, and no directory on the way is one of packages. -/
structure Visible (suffix : String) (n : Node) (place : Place) : Prop where
  file : ∃ content executable, n.at? place = some (.file content executable)
  suffixed : ∃ name ∈ place.getLast?, suffix.toList <:+ name.toList
  shown : ∀ name ∈ place, name.toList.head? ≠ some '.'
  own : ∀ name ∈ place.dropLast, name ≠ "node_modules"

section

variable {suffix name : String} {es : Entries} {path p : Path} {place : Place}

/-! Findings sorted by name -/

theorem pairwise_insertByName {f : String × List Path} {l : List (String × List Path)}
    (h : l.Pairwise fun a b => a.1 < b.1) (hne : ∀ g ∈ l, f.1 ≠ g.1) :
    (insertByName f l).Pairwise fun a b => a.1 < b.1 := by
  induction l with
  | nil => exact List.pairwise_singleton _ _
  | cons g rest ih =>
    obtain ⟨hg, hrest⟩ := List.pairwise_cons.1 h
    have hfirst := hne g List.mem_cons_self
    by_cases hle : f.1 ≤ g.1
    · rw [insertByName, if_pos hle]
      refine List.pairwise_cons.2 ⟨fun k hk => ?_, h⟩
      have hlt := lt_of_le_of_ne hle hfirst
      rcases List.mem_cons.1 hk with rfl | hk
      · exact hlt
      · exact hlt.trans (hg k hk)
    · rw [insertByName, if_neg hle]
      refine List.pairwise_cons.2 ⟨fun k hk => ?_, ih hrest fun k hk => hne k (.tail g hk)⟩
      rcases mem_insertByName.1 hk with rfl | hk
      · exact lt_of_not_ge hle
      · exact hg k hk

theorem pairwise_sortByName {l : List (String × List Path)} (h : (l.map Prod.fst).Nodup) :
    (sortByName l).Pairwise fun a b => a.1 < b.1 := by
  induction l with
  | nil => exact .nil
  | cons f rest ih =>
    obtain ⟨hf, hrest⟩ := List.nodup_cons.1 h
    refine pairwise_insertByName (ih hrest) fun g hg heq => hf ?_
    rw [heq]
    exact List.mem_map_of_mem (mem_sortByName.1 hg)

theorem mem_below_dir :
    p ∈ below suffix path (.dir es) ↔ ∃ e ∈ es, p ∈ found suffix path e := by
  simp only [below, inOrder, belowEntries_eq_map, List.mem_flatMap, mem_sortByName, List.mem_map]
  constructor
  · rintro ⟨_, ⟨e, he, rfl⟩, hp⟩
    exact ⟨e, he, hp⟩
  · rintro ⟨e, he, hp⟩
    exact ⟨_, ⟨e, he, rfl⟩, hp⟩

/-! What is visible in a directory -/

theorem isHidden_iff : isHidden name = true ↔ name.toList.head? = some '.' := by
  simp [isHidden]

theorem isPackageDir_iff : isPackageDir name = true ↔ name = "node_modules" := by
  simp [isPackageDir]

theorem wanted_iff :
    Wanted suffix name ↔ name.toList.head? ≠ some '.' ∧ suffix.toList <:+ name.toList := by
  rw [Wanted, ← Bool.not_eq_true, isHidden_iff, hasSuffix, List.isSuffixOf_iff_suffix]

theorem at?_entry {n : Node} (hfind : Entries.find? name es = some n) (rest : Place) :
    (Node.dir es).at? (name :: rest) = n.at? rest := by
  rw [Node.at?_cons, Node.child?_dir, hfind]
  rfl

theorem visible_of_file {rest : Place} {content : Bytes} {executable : Bool}
    (hfind : Entries.find? name es = some (.file content executable)) :
    Visible suffix (.dir es) (name :: rest) ↔ rest = [] ∧ Wanted suffix name := by
  rw [wanted_iff]
  constructor
  · rintro ⟨⟨content', executable', hfile⟩, ⟨last, hlast, hsuffix⟩, hshown, -⟩
    rw [at?_entry hfind] at hfile
    cases rest with
    | nil =>
      obtain rfl := Option.some.inj hlast
      exact ⟨rfl, hshown name (List.mem_singleton_self name), hsuffix⟩
    | cons r rest =>
      rw [Node.at?_of_leaf (n := .file content executable) rfl] at hfile
      cases hfile
  · rintro ⟨rfl, hshown, hsuffix⟩
    exact ⟨⟨content, executable, at?_entry hfind []⟩, ⟨name, rfl, hsuffix⟩, by simpa using hshown,
      by simp⟩

theorem not_visible_of_link {rest : Place} {target : String}
    (hfind : Entries.find? name es = some (.link target)) :
    ¬ Visible suffix (.dir es) (name :: rest) := by
  rintro ⟨⟨content, executable, hfile⟩, -⟩
  rw [at?_entry hfind] at hfile
  cases rest with
  | nil => simp [Node.at?] at hfile
  | cons r rest =>
    rw [Node.at?_of_leaf (n := .link target) rfl] at hfile
    cases hfile

theorem not_visible_nil {n : Node} : ¬ Visible suffix n [] := by
  rintro ⟨-, ⟨name, hname, -⟩, -⟩
  simp at hname

theorem not_visible_of_leaf {n : Node} (hn : n.isDir = false) : ¬ Visible suffix n place := by
  intro hvisible
  cases place with
  | nil => exact not_visible_nil hvisible
  | cons k rest =>
    obtain ⟨content, executable, hfile⟩ := hvisible.file
    simp [Node.at?_of_leaf hn] at hfile

theorem visible_of_dir {rest : Place} {es' : Entries}
    (hfind : Entries.find? name es = some (.dir es')) :
    Visible suffix (.dir es) (name :: rest) ↔
      (isHidden name || isPackageDir name) = false ∧ Visible suffix (.dir es') rest := by
  rw [Bool.or_eq_false_iff, ← Bool.not_eq_true, ← Bool.not_eq_true, isHidden_iff, isPackageDir_iff]
  constructor
  · rintro ⟨⟨content, executable, hfile⟩, hsuffixed, hshown, hown⟩
    rw [at?_entry hfind] at hfile
    cases rest with
    | nil => simp [Node.at?] at hfile
    | cons r rest =>
      rw [List.dropLast_cons_cons] at hown
      rw [List.getLast?_cons_cons] at hsuffixed
      refine ⟨⟨hshown name List.mem_cons_self, hown name List.mem_cons_self⟩,
        ⟨content, executable, hfile⟩, hsuffixed, ?_, ?_⟩
      · exact fun k hk => hshown k (List.mem_cons_of_mem name hk)
      · exact fun k hk => hown k (List.mem_cons_of_mem name hk)
  · rintro ⟨⟨hhidden, hpackage⟩, hvisible⟩
    cases rest with
    | nil => exact absurd hvisible not_visible_nil
    | cons r rest =>
      obtain ⟨hfile, hsuffixed, hshown, hown⟩ := hvisible
      refine ⟨by rwa [at?_entry hfind], by rwa [List.getLast?_cons_cons], ?_, ?_⟩
      · exact List.forall_mem_cons.2 ⟨hhidden, hshown⟩
      · rw [List.dropLast_cons_cons]
        exact List.forall_mem_cons.2 ⟨hpackage, hown⟩

theorem mem_below_of_leaf {n : Node} (hn : n.isDir = false) :
    p ∈ below suffix path n ↔ ∃ place, Visible suffix n place ∧ p = pathAt path place := by
  have hbelow : below suffix path n = [] := by
    cases n with
    | dir es => simp [Node.isDir] at hn
    | file content executable => rfl
    | link target => rfl
  simp [hbelow, not_visible_of_leaf hn]

/-- To leave out a directory with all that is below it is to ask for every name on the way. -/
theorem mem_found_iff {n : Node}
    (ih : ∀ path p, p ∈ below suffix path n ↔
      ∃ place, Visible suffix n place ∧ p = pathAt path place)
    (hfind : Entries.find? name es = some n) : p ∈ found suffix path (name, n) ↔
      ∃ rest, Visible suffix (.dir es) (name :: rest) ∧ p = pathAt path (name :: rest) := by
  cases n with
  | file content executable =>
    simp only [visible_of_file hfind]
    by_cases hwanted : Wanted suffix name
    · rw [found_of_wanted path hwanted, List.mem_singleton]
      constructor
      · rintro rfl
        exact ⟨[], ⟨rfl, hwanted⟩, rfl⟩
      · rintro ⟨rest, ⟨rfl, -⟩, rfl⟩
        rfl
    · simp [found_of_not_wanted path hwanted, hwanted]
  | link target => simp [found, not_visible_of_link hfind]
  | dir es' =>
    simp only [visible_of_dir hfind, found_dir]
    cases isHidden name || isPackageDir name with
    | true => simp
    | false => simpa [pathAt_cons] using ih (path.join ⟨name⟩) p

theorem mem_below_iff {n : Node} (h : n.WellNamed) (path p : Path) :
    p ∈ below suffix path n ↔ ∃ place, Visible suffix n place ∧ p = pathAt path place := by
  induction h generalizing path p with
  | file content executable => exact mem_below_of_leaf rfl
  | link target => exact mem_below_of_leaf rfl
  | dir es distinct legal inner ih =>
    rw [mem_below_dir]
    constructor
    · rintro ⟨⟨name, n⟩, he, hp⟩
      have hfind := Entries.find?_of_mem distinct he
      obtain ⟨rest, hvisible, rfl⟩ := (mem_found_iff (ih _ he) hfind).1 hp
      exact ⟨name :: rest, hvisible, rfl⟩
    · rintro ⟨place, hvisible, rfl⟩
      cases place with
      | nil => exact absurd hvisible not_visible_nil
      | cons name rest =>
        obtain ⟨content, executable, hfile⟩ := hvisible.file
        rw [Node.at?_cons, Node.child?_dir] at hfile
        obtain ⟨n, hfind, -⟩ := Option.bind_eq_some_iff.1 hfile
        have he := Entries.mem_of_find? hfind
        exact ⟨(name, n), he, (mem_found_iff (ih _ he) hfind).2 ⟨rest, hvisible, rfl⟩⟩

/-! The order of what is found -/

theorem parts_join_name (hpath : path.text ≠ "") (hname : LegalName name) :
    (path.join ⟨name⟩).parts = path.parts ++ [.name name.toList] := by
  rw [Path.parts_join hpath (Path.relative_of_no_slash hname.1), Path.segments_of_no_slash hname.1,
    List.filterMap_cons_some (Path.partOf?_eq_self_iff.2 hname.2), List.filterMap_nil]

theorem text_join_name (path : Path) (hname : LegalName name) : (path.join ⟨name⟩).text ≠ "" := by
  obtain ⟨front, htext⟩ := Path.text_join_suffix path ⟨name⟩
  intro hempty
  rw [hempty] at htext
  exact hname.2.1 (List.append_eq_nil_iff.1 htext.symm).2

theorem parts_pathAt (hpath : path.text ≠ "") (hplace : ∀ name ∈ place, LegalName name) :
    (pathAt path place).parts = path.parts ++ place.map fun name => .name name.toList := by
  induction place generalizing path with
  | nil => simp [pathAt]
  | cons name rest ih =>
    obtain ⟨hname, hrest⟩ := List.forall_mem_cons.1 hplace
    rw [pathAt_cons, ih (text_join_name path hname) hrest, parts_join_name hpath hname,
      List.append_assoc]
    rfl

theorem wellNamed_at? {n m : Node} (h : n.WellNamed) (hat : n.at? place = some m) :
    (∀ name ∈ place, LegalName name) ∧ m.WellNamed := by
  induction place generalizing n with
  | nil =>
    obtain rfl := Option.some.inj hat
    exact ⟨by simp, h⟩
  | cons name rest ih =>
    rw [Node.at?_cons] at hat
    obtain ⟨c, hc, hrest⟩ := Option.bind_eq_some_iff.1 hat
    obtain ⟨es, rfl, hfind⟩ := Node.child?_eq_some hc
    have he := Entries.mem_of_find? hfind
    cases h with
    | dir _ distinct legal inner =>
      obtain ⟨hlegal, hnamed⟩ := ih (inner _ he) hrest
      exact ⟨List.forall_mem_cons.2 ⟨legal _ he, hlegal⟩, hnamed⟩

theorem parts_of_mem_found {n : Node} (h : (Node.dir es).WellNamed) (hpath : path.text ≠ "")
    (he : (name, n) ∈ es) (hp : p ∈ found suffix path (name, n)) :
    ∃ more, p.parts = path.parts ++ .name name.toList :: more := by
  cases h with
  | dir _ distinct legal inner =>
    have hbelow : ∀ path p, p ∈ below suffix path n ↔
        ∃ place, Visible suffix n place ∧ p = pathAt path place :=
      mem_below_iff (inner _ he)
    obtain ⟨rest, hvisible, rfl⟩ :=
      (mem_found_iff hbelow (Entries.find?_of_mem distinct he)).1 hp
    obtain ⟨content, executable, hfile⟩ := hvisible.file
    exact ⟨_, parts_pathAt hpath (wellNamed_at? (.dir es distinct legal inner) hfile).1⟩

/-- Names decide the order of what two entries add, as the paths are the same in front of them. -/
theorem precedes_of_mem_found {q : Path} {e e' : String × Node} (h : (Node.dir es).WellNamed)
    (hpath : path.text ≠ "") (he : e ∈ es) (he' : e' ∈ es) (hlt : e.1 < e'.1)
    (hp : p ∈ found suffix path e) (hq : q ∈ found suffix path e') : p.Precedes q := by
  obtain ⟨more, hparts⟩ := parts_of_mem_found h hpath he hp
  obtain ⟨more', hparts'⟩ := parts_of_mem_found h hpath he' hq
  rw [Path.Precedes, hparts, hparts']
  have hbytes := Utf8.encode_lt_encode (String.lt_iff_toList_lt.1 hlt)
  exact List.Lex.append_left _ (.rel (.inr ⟨_, _, rfl, rfl, hbytes⟩)) _

theorem pairwise_found {n : Node} (hname : LegalName name)
    (ih : ∀ {path}, path.text ≠ "" → (below suffix path n).Pairwise Path.Precedes) :
    (found suffix path (name, n)).Pairwise Path.Precedes := by
  cases n with
  | file content executable =>
    by_cases hwanted : Wanted suffix name
    · rw [found_of_wanted path hwanted]
      exact List.pairwise_singleton _ _
    · rw [found_of_not_wanted path hwanted]
      exact .nil
  | link target => exact .nil
  | dir es =>
    rw [found_dir]
    split
    · exact .nil
    · exact ih (text_join_name path hname)

theorem pairwise_below {n : Node} (h : n.WellNamed) (hpath : path.text ≠ "") :
    (below suffix path n).Pairwise Path.Precedes := by
  induction h generalizing path with
  | file content executable => exact .nil
  | link target => exact .nil
  | dir es distinct legal inner ih =>
    have hentry : ∀ g ∈ sortByName (belowEntries suffix path es),
        ∃ e ∈ es, (e.1, found suffix path e) = g := by
      intro g hg
      rw [mem_sortByName, belowEntries_eq_map] at hg
      exact List.mem_map.1 hg
    rw [below, inOrder, List.pairwise_flatMap]
    constructor
    · intro g hg
      obtain ⟨e, he, rfl⟩ := hentry g hg
      exact pairwise_found (legal e he) (ih e he)
    · have hnames : ((belowEntries suffix path es).map Prod.fst).Nodup := by
        rw [belowEntries_eq_map, List.map_map]
        exact distinct
      refine (pairwise_sortByName hnames).imp_of_mem ?_
      intro a b ha hb hlt p hp q hq
      obtain ⟨e, he, rfl⟩ := hentry a ha
      obtain ⟨e', he', rfl⟩ := hentry b hb
      exact precedes_of_mem_found (.dir es distinct legal inner) hpath he he' hlt hp hq

end

end Scan

open Scan in
/-- A scan of a directory finds the visible files and nothing else, each of them once, in the order
of paths. Neither the name of the directory itself nor the order of the entries matters. -/
theorem scan_finds_visible_files_in_order {t : FileTree} {root : Path} {es : Entries}
    (hroot : t.stat root = .ok (.dir es)) (hnamed : (Node.dir es).WellNamed) (suffix : String) :
    (∀ p, p ∈ files t root suffix ↔
      ∃ place, Visible suffix (.dir es) place ∧ p = pathAt root place) ∧
    (files t root suffix).Nodup ∧ (files t root suffix).Pairwise Path.Precedes := by
  have hbelow : files t root suffix = below suffix root (.dir es) := by
    rw [files_of_dir hroot, below]
  have htext : root.text ≠ "" := by
    obtain ⟨place, hplace, -⟩ := FileTree.stat_eq_ok_iff.1 hroot
    have husable := (FileTree.resolve_eq_ok_iff.1 hplace).1
    simpa using husable.not_empty
  have horder : (below suffix root (.dir es)).Pairwise Path.Precedes :=
    pairwise_below hnamed htext
  rw [hbelow]
  exact ⟨mem_below_iff hnamed root, horder.imp Path.Precedes.ne, horder⟩

namespace Demo

/-- Entries in no order, with a hidden one, a link and packages among them. -/
def unsorted : Entries :=
  [("z.c", .file [] false), ("a-b.c", .file [] false),
    ("node_modules", .dir [("x.c", .file [] false)]),
    ("a", .dir [(".c", .file [] false), ("b.c", .file [] false)]), ("y.c", .link "z.c")]

def packages : FileTree := ⟨.dir [("node_modules", .dir unsorted)], []⟩

theorem unsorted_wellNamed : (Node.dir unsorted).WellNamed := by
  refine .dir _ (by decide +kernel) (by decide +kernel) ?_
  simp only [unsorted, List.mem_cons, List.not_mem_nil, or_false]
  rintro e (rfl | rfl | rfl | rfl | rfl)
  · exact .file [] false
  · exact .file [] false
  · refine .dir _ (by decide +kernel) (by decide +kernel) ?_
    simpa using Node.WellNamed.file [] false
  · refine .dir _ (by decide +kernel) (by decide +kernel) ?_
    simpa using Node.WellNamed.file [] false
  · exact .link "z.c"

end Demo

theorem scan_of_packages_in_order :
    Demo.packages.stat ⟨"/node_modules"⟩ = .ok (.dir Demo.unsorted) ∧
    (Node.dir Demo.unsorted).WellNamed ∧
    Scan.files Demo.packages ⟨"/node_modules"⟩ ".c" =
      [⟨"/node_modules/a/b.c"⟩, ⟨"/node_modules/a-b.c"⟩, ⟨"/node_modules/z.c"⟩] ∧
    (∃ place, Scan.Visible ".c" (.dir Demo.unsorted) place ∧
      ⟨"/node_modules/a/b.c"⟩ = Scan.pathAt ⟨"/node_modules"⟩ place) ∧
    Path.Precedes ⟨"/node_modules/a/b.c"⟩ ⟨"/node_modules/a-b.c"⟩ ∧
    "/node_modules/a-b.c" < "/node_modules/a/b.c" := by
  have hroot : Demo.packages.stat ⟨"/node_modules"⟩ = .ok (.dir Demo.unsorted) := rfl
  have hfiles : Scan.files Demo.packages ⟨"/node_modules"⟩ ".c" =
      [⟨"/node_modules/a/b.c"⟩, ⟨"/node_modules/a-b.c"⟩, ⟨"/node_modules/z.c"⟩] := by
    decide +kernel
  obtain ⟨hmem, -, horder⟩ :=
    scan_finds_visible_files_in_order hroot Demo.unsorted_wellNamed ".c"
  rw [hfiles] at hmem horder
  refine ⟨hroot, Demo.unsorted_wellNamed, hfiles, (hmem _).1 List.mem_cons_self, ?_,
    by decide +kernel⟩
  exact (List.pairwise_cons.1 horder).1 _ List.mem_cons_self

end TraceWorkbench
