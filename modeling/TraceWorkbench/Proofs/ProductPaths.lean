import TraceWorkbench.Proofs.PathWalks
import TraceWorkbench.Project

set_option autoImplicit false

/-!
# Paths of products

A product of a project has one name more than the directory of the products. The names come from
the last part of the root, so no separator can be in them.
-/
namespace TraceWorkbench

namespace Path

theorem segments_slash (s n : List Char) : segments (s ++ '/' :: n) = segments s ++ segments n := by
  induction s with
  | nil => simp [segments]
  | cons c rest ih =>
    by_cases hc : c = '/'
    · subst hc
      simp [segments, ih]
    · obtain ⟨seg, more, hseg⟩ := List.exists_cons_of_ne_nil (segments_ne_nil rest)
      simp [segments, hc, ih, hseg]

theorem segments_of_no_slash {s : List Char} (h : '/' ∉ s) : segments s = [s] := by
  induction s with
  | nil => rfl
  | cons c rest ih =>
    simp only [List.mem_cons, not_or] at h
    simp [segments, Ne.symm h.1, ih h.2]

theorem segments_pair {s n : List Char} (hs : '/' ∉ s) (hn : '/' ∉ n) :
    segments (s ++ '/' :: n) = [s, n] := by
  rw [segments_slash, segments_of_no_slash hs, segments_of_no_slash hn]
  rfl

theorem no_slash_of_mem_segments {s seg : List Char} (h : seg ∈ segments s) : '/' ∉ seg := by
  induction s generalizing seg with
  | nil =>
    obtain rfl : seg = [] := by simpa [segments] using h
    exact List.not_mem_nil
  | cons c rest ih =>
    by_cases hc : c = '/'
    · subst hc
      simp only [segments, if_true] at h
      rcases List.mem_cons.1 h with rfl | h
      · exact List.not_mem_nil
      · exact ih h
    · obtain ⟨first, more, hfirst⟩ := List.exists_cons_of_ne_nil (segments_ne_nil rest)
      simp only [segments, hc, if_false, hfirst] at h
      rcases List.mem_cons.1 h with rfl | h
      · have hno : '/' ∉ first := ih (by simp [hfirst])
        simp [Ne.symm hc, hno]
      · exact ih (by simp [hfirst, h])

theorem split_slash {s : List Char} (hs : s ≠ []) (n : List Char) :
    split (s ++ '/' :: n) = ((split s).1, (split s).2 ++ segments n) := by
  obtain ⟨c, rest, rfl⟩ := List.exists_cons_of_ne_nil hs
  by_cases hc : c = '/'
  · subst hc
    simp [split, segments_slash]
  · obtain ⟨seg, more, hseg⟩ := List.exists_cons_of_ne_nil (segments_ne_nil (c :: rest))
    have hall : segments (c :: (rest ++ '/' :: n)) = seg :: (more ++ segments n) := by
      have hslash := segments_slash (c :: rest) n
      rwa [hseg] at hslash
    by_cases hdot : seg = ['.']
    · subst hdot
      simp [split, hc, hseg, hall]
    · simp [split, hc, hseg, hall, hdot]

theorem partsOf_slash {s : List Char} (hs : s ≠ []) (n : List Char) :
    partsOf (s ++ '/' :: n) = partsOf s ++ (segments n).filterMap partOf? := by
  simp [partsOf, split_slash hs]

theorem partsOf_slashes {s : List Char} (hs : s ≠ []) (k : Nat) :
    partsOf (s ++ List.replicate k '/') = partsOf s := by
  induction k with
  | zero => simp
  | succ k ih =>
    have hne : s ++ List.replicate k '/' ≠ [] := by simp [hs]
    rw [List.replicate_succ', ← List.append_assoc, partsOf_slash hne, ih]
    simp [segments, partOf?, isIdle]

/-- A relative path that is read from a directory adds its segments to those that make up the
directory. -/
theorem exists_split_join {p q : Path} (hp : p.text ≠ "") (hq : q.isAbsolute = false) :
    ∃ front, p.parts = (split p.text.toList).1.toList ++ front.filterMap partOf? ∧
      split (p.join q).text.toList =
        ((split p.text.toList).1, front ++ segments q.text.toList) := by
  have hne : p.text.toList ≠ [] := by simpa using hp
  unfold join
  rw [if_neg (by simp [hq])]
  split
  · rename_i hlast
    exact absurd (List.getLast?_eq_none_iff.1 hlast) hne
  · rename_i hlast
    obtain ⟨s, hs⟩ := List.getLast?_eq_some_iff.1 hlast
    simp only [parts, String.toList_append, hs, List.append_assoc, List.singleton_append]
    by_cases hempty : s = []
    · subst hempty
      exact ⟨[], rfl, rfl⟩
    · refine ⟨(split s).2, ?_, ?_⟩
      · rw [partsOf_slash hempty, split_slash hempty]
        simp [partsOf, segments, partOf?, isIdle]
      · rw [split_slash hempty, split_slash hempty]
  · refine ⟨(split p.text.toList).2, rfl, ?_⟩
    simp only [String.toList_append]
    rw [List.append_assoc]
    exact split_slash hne _

theorem parts_join {p q : Path} (hp : p.text ≠ "") (hq : q.isAbsolute = false) :
    (p.join q).parts = p.parts ++ (segments q.text.toList).filterMap partOf? := by
  obtain ⟨front, hparts, hsplit⟩ := exists_split_join hp hq
  rw [hparts]
  simp [parts, partsOf, hsplit]

theorem relative_of_no_slash {name : String} (h : '/' ∉ name.toList) :
    (⟨name⟩ : Path).isAbsolute = false := by
  rw [Bool.eq_false_iff]
  intro habsolute
  exact h (List.mem_of_head? (by simpa [isAbsolute] using habsolute))

theorem isAbsolute_join {p : Path} (hp : p.isAbsolute = true) (q : Path) :
    (p.join q).isAbsolute = true := by
  have hhead : p.text.toList.head? = some '/' := by simpa [isAbsolute] using hp
  unfold join
  split
  · assumption
  · split <;> simp_all [isAbsolute, List.head?_append]

theorem partOf?_eq_name {seg n : List Char} (h : partOf? seg = some (.name n)) : seg = n := by
  unfold partOf? at h
  split at h
  · simp at h
  · split at h
    · simp at h
    · simpa using h

theorem partOf?_eq_self_iff {seg : List Char} :
    partOf? seg = some (.name seg) ↔ seg ≠ [] ∧ seg ≠ ['.'] ∧ seg ≠ ['.', '.'] := by
  unfold partOf?
  split
  · rename_i hidle
    have hsegment : seg = [] ∨ seg = ['.'] := by simpa [isIdle] using hidle
    rcases hsegment with rfl | rfl <;> simp
  · rename_i hnot
    have hsegment : seg ≠ [] ∧ seg ≠ ['.'] := by simpa [isIdle] using hnot
    by_cases hup : seg = ['.', '.']
    · simp [hup]
    · simp [hup, hsegment]

theorem partOf?_of_long {seg : List Char} (h : 2 < seg.length) :
    partOf? seg = some (.name seg) := by
  refine partOf?_eq_self_iff.2 ⟨?_, ?_, ?_⟩ <;> rintro rfl <;> simp at h

theorem split_spec (s : List Char) :
    (∀ n, (split s).1 ≠ some (.name n)) ∧ ∀ seg ∈ (split s).2, '/' ∉ seg := by
  unfold split
  split
  · exact ⟨by simp, fun seg h => no_slash_of_mem_segments h⟩
  · split
    · rename_i more hmore
      refine ⟨by simp, fun seg h => no_slash_of_mem_segments (s := s) ?_⟩
      rw [hmore]
      exact List.mem_cons_of_mem _ h
    · exact ⟨by simp, fun seg h => no_slash_of_mem_segments h⟩

theorem name_of_mem_parts {p : Path} {n : List Char} (h : Part.name n ∈ p.parts) :
    '/' ∉ n ∧ partOf? n = some (.name n) := by
  obtain ⟨hlead, hsegs⟩ := split_spec p.text.toList
  have hmem : Part.name n ∈ (split p.text.toList).1.toList ++
      (split p.text.toList).2.filterMap partOf? := h
  rcases List.mem_append.1 hmem with h | h
  · exact absurd (Option.mem_toList.1 h) (hlead n)
  · obtain ⟨seg, hseg, hpart⟩ := List.mem_filterMap.1 h
    obtain rfl : seg = n := partOf?_eq_name hpart
    exact ⟨hsegs seg hseg, hpart⟩

theorem name_of_fileName {p : Path} {name : String} (h : p.fileName = some name) :
    '/' ∉ name.toList ∧ partOf? name.toList = some (.name name.toList) := by
  unfold fileName at h
  split at h
  · rename_i n hlast
    obtain rfl := Option.some.inj h
    rw [String.toList_ofList]
    exact name_of_mem_parts (List.mem_of_getLast? hlast)
  · simp at h

theorem getLast?_segments {n : List Char} (hn : '/' ∉ n) (s : List Char) :
    ∃ front, (segments (s ++ n)).getLast? = some (front ++ n) := by
  induction s with
  | nil => exact ⟨[], by simp [segments_of_no_slash hn]⟩
  | cons c rest ih =>
    obtain ⟨front, hlast⟩ := ih
    by_cases hc : c = '/'
    · subst hc
      exact ⟨front, by simp [segments, List.getLast?_cons, hlast]⟩
    · obtain ⟨seg, more, hseg⟩ := List.exists_cons_of_ne_nil (segments_ne_nil (rest ++ n))
      rw [hseg] at hlast
      cases more with
      | nil =>
        obtain rfl : seg = front ++ n := by simpa using hlast
        exact ⟨c :: front, by simp [segments, hc, hseg]⟩
      | cons next more => exact ⟨front, by simpa [segments, hc, hseg] using hlast⟩

theorem partsOf_of_getLast? {s seg : List Char} (hlast : (segments s).getLast? = some seg)
    (hpart : partOf? seg = some (.name seg)) : ∃ front, partsOf s = front ++ [.name seg] := by
  have hsegs : (split s).2.getLast? = some seg := by
    unfold split
    split
    · rename_i rest
      simpa [segments, List.getLast?_cons,
        List.getLast?_eq_some_getLast (segments_ne_nil rest)] using hlast
    · split
      · rename_i more hmore
        rw [hmore] at hlast
        cases more with
        | nil =>
          obtain rfl : ['.'] = seg := by simpa using hlast
          exact absurd hpart (by decide)
        | cons next more => simpa using hlast
      · exact hlast
  obtain ⟨before, hbefore⟩ := List.getLast?_eq_some_iff.1 hsegs
  refine ⟨(split s).1.toList ++ before.filterMap partOf?, ?_⟩
  simp only [partsOf, hbefore]
  simp [hpart]

theorem text_join_suffix (p q : Path) :
    ∃ front, (p.join q).text.toList = front ++ q.text.toList := by
  unfold join
  split
  · exact ⟨[], rfl⟩
  · split
    · exact ⟨[], rfl⟩
    · exact ⟨p.text.toList, by simp⟩
    · exact ⟨p.text.toList ++ ['/'], by simp⟩

theorem text_join {p q : Path} {c : Char} (hp : p.text.toList.getLast? = some c) (hc : c ≠ '/')
    (hq : q.isAbsolute = false) : (p.join q).text = p.text ++ "/" ++ q.text := by
  unfold join
  rw [if_neg (by simp [hq]), hp]
  split
  · simp_all
  · simp_all
  · rfl

theorem exists_join_eq (p : Path) :
    ∃ sep : String, ∀ q : Path, q.isAbsolute = false → p.join q = ⟨p.text ++ sep ++ q.text⟩ := by
  cases hlast : p.text.toList.getLast? with
  | none =>
    have hempty : p.text = "" := by simpa using List.getLast?_eq_none_iff.1 hlast
    exact ⟨"", fun q hq => by simp [join, hq, hempty]⟩
  | some c =>
    by_cases hc : c = '/'
    · subst hc
      exact ⟨"", fun q hq => by simp [join, hq, hlast]⟩
    · exact ⟨"/", fun q hq => congrArg Path.mk (text_join hlast hc hq)⟩

theorem exists_text_join (p : Path) {q : Path} (hq : q.isAbsolute = false) :
    ∃ back, (p.join q).text = p.text ++ back := by
  obtain ⟨sep, hsep⟩ := exists_join_eq p
  exact ⟨sep ++ q.text, by rw [hsep q hq, String.append_assoc]⟩

theorem getLast?_join (p : Path) {q : Path} {c : Char} (hq : q.text.toList.getLast? = some c) :
    (p.join q).text.toList.getLast? = some c := by
  unfold join
  split
  · exact hq
  · split
    · exact hq
    · simp [List.getLast?_append, hq]
    · simp [List.getLast?_append, List.getLast?_cons, hq]

end Path

theorem FileTree.Usable.of_append {p q : Path} {back : String} (h : Usable q)
    (htext : q.text = p.text ++ back) (hp : p.text ≠ "") : Usable p := by
  obtain ⟨hnul, -, hshort⟩ := h
  rw [htext] at hnul hshort
  refine ⟨?_, by simpa using hp, ?_⟩
  · simp only [String.toList_append, List.contains_eq_mem, List.mem_append,
      decide_eq_false_iff_not, not_or] at hnul ⊢
    exact hnul.1
  · rw [String.utf8ByteSize_append] at hshort
    omega

namespace Project

theorem eq_of_unspaced {c d : Char} (hd : d ≠ '_') (h : (if c = ' ' then '_' else c) = d) :
    c = d := by
  split at h
  · exact absurd h.symm hd
  · exact h

theorem no_slash_binaryName (root : Path) : '/' ∉ (ofRoot root).binaryName.toList := by
  intro h
  change '/' ∈ (String.map _ _).toList at h
  rw [String.toList_map, List.mem_map] at h
  obtain ⟨c, hc, hmap⟩ := h
  rw [eq_of_unspaced (by decide) hmap] at hc
  cases hname : root.fileName with
  | none => simp [hname] at hc
  | some name =>
    rw [hname] at hc
    exact (Path.name_of_fileName hname).1 hc

theorem partOf?_binaryName {root : Path} (h : (ofRoot root).binaryName ≠ "") :
    Path.partOf? (ofRoot root).binaryName.toList =
      some (.name (ofRoot root).binaryName.toList) := by
  cases hname : root.fileName with
  | none => exact absurd (by simp [ofRoot, hname]) h
  | some name =>
    obtain ⟨hne, hdot, hdots⟩ := Path.partOf?_eq_self_iff.1 (Path.name_of_fileName hname).2
    have htext : (ofRoot root).binaryName.toList =
        name.toList.map fun c => if c = ' ' then '_' else c := by
      simp [ofRoot, hname]
    have hsame : ∀ c : Char, (if c = ' ' then '_' else c) = '.' → c = '.' :=
      fun c => eq_of_unspaced (by decide)
    rw [htext]
    refine Path.partOf?_eq_self_iff.2 ⟨by simpa using hne, fun hmap => ?_, fun hmap => ?_⟩
    · obtain ⟨a, rest, hlist, ha, hrest⟩ := List.map_eq_cons_iff.1 hmap
      rw [hlist, hsame a ha, List.map_eq_nil_iff.1 hrest] at hdot
      exact hdot rfl
    · obtain ⟨a, rest, hlist, ha, hrest⟩ := List.map_eq_cons_iff.1 hmap
      obtain ⟨b, more, hlist', hb, hmore⟩ := List.map_eq_cons_iff.1 hrest
      rw [hlist, hlist', hsame a ha, hsame b hb, List.map_eq_nil_iff.1 hmore] at hdots
      exact hdots rfl

theorem no_slash_compiledSpecName (root : Path) : '/' ∉ (ofRoot root).compiledSpecName.toList := by
  simp [compiledSpecName, instrumentedBinaryName, no_slash_binaryName]

theorem outputDir_getLast? (root : Path) :
    (ofRoot root).outputDir.text.toList.getLast? = some 'd' :=
  Path.getLast?_join root (by decide)

theorem outputDir_ne_empty (root : Path) : (ofRoot root).outputDir.text ≠ "" := by
  intro hempty
  have hlast := outputDir_getLast? root
  simp [hempty] at hlast

theorem outputDir_parts (root : Path) :
    (ofRoot root).outputDir.parts = root.parts ++ [.name buildDir.toList] := by
  by_cases hroot : root.text = ""
  · obtain ⟨text⟩ := root
    subst hroot
    rfl
  · exact Path.parts_join hroot (by decide)

/-- Where a product lies, as seen from the root. -/
def placeOf (name : String) : List Path.Part :=
  .name buildDir.toList :: (Path.partOf? name.toList).toList

theorem product_text (root : Path) {name : String} (hname : '/' ∉ name.toList) :
    ((ofRoot root).product name).text = (ofRoot root).outputDir.text ++ "/" ++ name :=
  Path.text_join (outputDir_getLast? root) (by decide) (Path.relative_of_no_slash hname)

theorem product_parts (root : Path) {name : String} (hname : '/' ∉ name.toList) :
    ((ofRoot root).product name).parts = root.parts ++ placeOf name := by
  rw [product, Path.parts_join (outputDir_ne_empty root) (Path.relative_of_no_slash hname),
    outputDir_parts, Path.segments_of_no_slash hname, List.append_assoc]
  cases hpart : Path.partOf? name.toList <;> simp [placeOf, hpart]

theorem product_parts_of_name (root : Path) {name : String} (hname : '/' ∉ name.toList)
    (hpart : Path.partOf? name.toList = some (.name name.toList)) :
    ((ofRoot root).product name).parts = (ofRoot root).outputDir.parts ++ [.name name.toList] := by
  rw [product_parts root hname, outputDir_parts]
  simp [placeOf, hpart]

theorem compiledSpec_named (p : Project) :
    ∃ front name, p.compiledSpec.parts = front ++ [.name name] := by
  obtain ⟨front, htext⟩ := Path.text_join_suffix p.outputDir ⟨p.compiledSpecName⟩
  obtain ⟨before, hlast⟩ := Path.getLast?_segments (n := ".tessla.json".toList) (by decide)
    (front ++ p.instrumentedBinaryName.toList)
  have hsegments : (Path.segments p.compiledSpec.text.toList).getLast? =
      some (before ++ ".tessla.json".toList) := by
    rw [← hlast, compiledSpec, product, htext]
    simp [compiledSpecName]
  have hpart : Path.partOf? (before ++ ".tessla.json".toList) =
      some (.name (before ++ ".tessla.json".toList)) := Path.partOf?_of_long (by simp)
  obtain ⟨parts, hparts⟩ := Path.partsOf_of_getLast? hsegments hpart
  exact ⟨parts, _, hparts⟩

/-- What the system accepts as the path of a product it accepts as that of their directory, and so
as that of the root. -/
theorem usable_outputDir {root : Path} {name : String} (hname : '/' ∉ name.toList)
    (h : FileTree.Usable ((ofRoot root).product name)) :
    FileTree.Usable (ofRoot root).outputDir := by
  obtain ⟨back, hback⟩ := Path.exists_text_join (ofRoot root).outputDir
    (Path.relative_of_no_slash hname)
  exact h.of_append hback (outputDir_ne_empty root)

theorem usable_root {root : Path} (hroot : root.text ≠ "")
    (h : FileTree.Usable (ofRoot root).outputDir) : FileTree.Usable root := by
  obtain ⟨back, hback⟩ := Path.exists_text_join root (q := ⟨buildDir⟩) (by decide)
  exact h.of_append hback hroot

theorem wantsDirectory_outputDir (root : Path) :
    FileTree.wantsDirectory (ofRoot root).outputDir = false := by
  obtain ⟨front, htext⟩ := Path.text_join_suffix root ⟨buildDir⟩
  obtain ⟨before, hlast⟩ := Path.getLast?_segments (n := buildDir.toList) (by decide) front
  have hsegments : (Path.segments (ofRoot root).outputDir.text.toList).getLast? =
      some (before ++ buildDir.toList) := by
    rw [← hlast, ofRoot, htext]
  have hlong : 2 < (before ++ buildDir.toList).length := by simp [buildDir]
  simp only [FileTree.wantsDirectory, hsegments]
  match before ++ buildDir.toList, hlong with
  | a :: b :: c :: rest, _ => simp [Path.isIdle]

theorem wantsDirectory_product (root : Path) {name : String} (hslash : '/' ∉ name.toList)
    (hpart : Path.partOf? name.toList = some (.name name.toList)) :
    FileTree.wantsDirectory ((ofRoot root).product name) = false := by
  have hsegments : (Path.segments ((ofRoot root).product name).text.toList).getLast? =
      some name.toList := by
    rw [product_text root hslash]
    simp [Path.segments_slash, Path.segments_of_no_slash hslash]
  obtain ⟨hne, hdot, -⟩ := Path.partOf?_eq_self_iff.1 hpart
  simp only [FileTree.wantsDirectory, hsegments]
  simp [Path.isIdle, hne, hdot]

end Project

end TraceWorkbench
