import TraceWorkbench.Proofs.ProductNames
import TraceWorkbench.Proofs.VisibleFiles
import TraceWorkbench.Proofs.WorkflowOrder

set_option autoImplicit false

/-!
# Container paths

On the host a command names the files that a scan finds by their paths, in the container by what the
scan has put behind the root, whatever the root looks like. There each backslash becomes a
separator. So a name in the container stands for the file that it is meant for, unless there is a
backslash in it.
-/
namespace TraceWorkbench

namespace Path

variable {c : Char} {s seg n : List Char} {segs : List (List Char)} {p q r : Path}

theorem joinSegments_cons (seg : List Char) (hne : segs ≠ []) :
    joinSegments (seg :: segs) = seg ++ '/' :: joinSegments segs := by
  cases segs with
  | nil => exact absurd rfl hne
  | cons next more => rfl

theorem segments_joinSegments (hne : segs ≠ []) (h : ∀ seg ∈ segs, '/' ∉ seg) :
    segments (joinSegments segs) = segs := by
  induction segs with
  | nil => exact absurd rfl hne
  | cons seg more ih =>
    obtain ⟨hseg, hmore⟩ := List.forall_mem_cons.1 h
    by_cases hlast : more = []
    · subst hlast
      exact segments_of_no_slash hseg
    · rw [joinSegments_cons seg hlast, segments_slash, segments_of_no_slash hseg, ih hlast hmore]
      rfl

theorem mem_joinSegments (hne : c ≠ '/') :
    c ∈ joinSegments segs ↔ ∃ seg ∈ segs, c ∈ seg := by
  induction segs with
  | nil => simp [joinSegments]
  | cons seg more ih =>
    by_cases hlast : more = []
    · simp [hlast, joinSegments]
    · simp [joinSegments_cons seg hlast, hne, ih]

theorem mem_of_mem_segments (hseg : seg ∈ segments s) (hc : c ∈ seg) : c ∈ s := by
  have hne : c ≠ '/' := by
    rintro rfl
    exact no_slash_of_mem_segments hseg hc
  rw [← joinSegments_segments s]
  exact (mem_joinSegments hne).2 ⟨seg, hseg, hc⟩

theorem mem_of_mem_split (hseg : seg ∈ (split s).2) (hc : c ∈ seg) : c ∈ s := by
  unfold split at hseg
  split at hseg
  · exact List.mem_cons_of_mem _ (mem_of_mem_segments hseg hc)
  · split at hseg
    · rename_i more hmore
      have hmem : seg ∈ segments s := by
        rw [hmore]
        exact List.mem_cons_of_mem _ hseg
      exact mem_of_mem_segments hmem hc
    · exact mem_of_mem_segments hseg hc

theorem mem_of_name_mem_parts (h : .name n ∈ p.parts) (hc : c ∈ n) : c ∈ p.text.toList := by
  have hmem : Part.name n ∈ (split p.text.toList).1.toList ++
      (split p.text.toList).2.filterMap partOf? := h
  rcases List.mem_append.1 hmem with hlead | hsegs
  · exact absurd (Option.mem_toList.1 hlead) ((split_spec _).1 n)
  · obtain ⟨seg, hseg, hpart⟩ := List.mem_filterMap.1 hsegs
    obtain rfl : seg = n := partOf?_eq_name hpart
    exact mem_of_mem_split hseg hc

/-! Paths from a directory -/

theorem dropWhile_isIdle (h : ∀ seg ∈ segs, isIdle seg = false) : segs.dropWhile isIdle = segs := by
  cases segs with
  | nil => rfl
  | cons seg more =>
    rw [List.dropWhile_cons_of_neg]
    simp [h seg List.mem_cons_self]

theorem dropIdleEnd_of_counted (h : ∀ seg ∈ segs, isIdle seg = false) :
    dropIdleEnd segs = segs := by
  rw [dropIdleEnd, dropWhile_isIdle fun seg hseg => h seg (List.mem_reverse.1 hseg),
    List.reverse_reverse]

theorem partOf?_eq_none_iff : partOf? seg = none ↔ isIdle seg = true := by
  unfold partOf?
  split
  · simp_all
  · split <;> simp_all

theorem dropParts_append (front segs : List (List Char)) :
    dropParts (front.filterMap partOf?).length (front ++ segs) = segs.dropWhile isIdle := by
  induction front with
  | nil => simp [dropParts]
  | cons seg more ih =>
    cases hpart : partOf? seg with
    | none =>
      have hidle := partOf?_eq_none_iff.1 hpart
      rw [List.filterMap_cons_none hpart, List.cons_append, ← ih]
      cases (more.filterMap partOf?).length <;> simp [dropParts, hidle]
    | some part =>
      have hcounts : isIdle seg ≠ true := by simp [← partOf?_eq_none_iff, hpart]
      rw [List.filterMap_cons_some hpart, List.length_cons, List.cons_append, dropParts,
        if_neg hcounts, ih]

theorem parts_ne_nil (hp : p.text ≠ "") : p.parts ≠ [] := by
  obtain ⟨c, rest, htext⟩ := List.exists_cons_of_ne_nil (l := p.text.toList) (by simpa using hp)
  rw [parts, htext]
  by_cases hc : c = '/'
  · simp [partsOf, split, hc]
  · obtain ⟨seg, more, hseg⟩ := List.exists_cons_of_ne_nil (segments_ne_nil rest)
    by_cases hdot : c :: seg = ['.']
    · obtain ⟨rfl, rfl⟩ := List.cons.inj hdot
      simp [partsOf, split, segments, hseg]
    · have hcounts : partOf? (c :: seg) ≠ none := by
        simpa [partOf?_eq_none_iff, isIdle] using hdot
      obtain ⟨part, hpart⟩ := Option.ne_none_iff_exists'.1 hcounts
      simp only [partsOf, split, segments, hc, hseg, if_false]
      split <;> simp_all

theorem relativeTo?_of_split {lead : Option Part} {front : List (List Char)} (hq : q.text ≠ "")
    (hparts : q.parts = lead.toList ++ front.filterMap partOf?)
    (hsplit : split p.text.toList = (lead, front ++ segs)) :
    p.relativeTo? q =
      some ⟨String.ofList (joinSegments (dropIdleEnd (segs.dropWhile isIdle)))⟩ := by
  have hall : p.parts = q.parts ++ segs.filterMap partOf? := by
    rw [hparts]
    simp [parts, partsOf, hsplit]
  have hstarts : p.startsWith q = true := by
    rw [startsWith, List.isPrefixOf_iff_prefix, hall]
    exact List.prefix_append _ _
  have hcounted : q.parts.length - lead.toList.length = (front.filterMap partOf?).length := by
    rw [hparts, List.length_append, Nat.add_sub_cancel_left]
  obtain ⟨part, more, hcons⟩ := List.exists_cons_of_ne_nil (parts_ne_nil hq)
  rw [hcons] at hcounted
  simp only [relativeTo?, hstarts, hsplit, hcons, hcounted, dropParts_append]
  rfl

theorem relativeTo?_self (p : Path) : p.relativeTo? p = some ⟨""⟩ := by
  by_cases hp : p.text = ""
  · obtain ⟨text⟩ := p
    subst hp
    rfl
  · have hsplit : split p.text.toList =
        ((split p.text.toList).1, (split p.text.toList).2 ++ []) := by
      rw [List.append_nil]
    rw [relativeTo?_of_split hp rfl hsplit]
    rfl

/-- No segment of the path can be left out without changing what it means. -/
def Terse (q : Path) : Prop := ∀ seg ∈ segments q.text.toList, isIdle seg = false

theorem Terse.relative (h : q.Terse) : q.isAbsolute = false := by
  rw [Bool.eq_false_iff]
  intro habsolute
  obtain ⟨rest, hrest⟩ := List.head?_eq_some_iff.1 (beq_iff_eq.1 habsolute)
  have hidle := h [] (by simp [hrest, segments])
  simp [isIdle] at hidle

theorem Terse.split_eq (h : q.Terse) :
    split q.text.toList = (none, segments q.text.toList) := by
  have hrelative := h.relative
  unfold split
  split
  · rename_i htext
    simp [isAbsolute, htext] at hrelative
  · split
    · rename_i hsegs
      have hidle := h ['.'] (by simp [hsegs])
      simp [isIdle] at hidle
    · rfl

theorem join_of_empty (hp : p.text = "") (q : Path) : p.join q = q := by
  simp [join, hp]

theorem Terse.parts_join (h : q.Terse) (p : Path) :
    (p.join q).parts = p.parts ++ (segments q.text.toList).filterMap partOf? := by
  by_cases hp : p.text = ""
  · obtain ⟨text⟩ := p
    subst hp
    rw [join_of_empty rfl, parts, partsOf, h.split_eq]
    rfl
  · exact Path.parts_join hp h.relative

/-- Whatever the directory looks like, a path from it is found again as it was written. -/
theorem relativeTo?_join (p : Path) (h : q.Terse) : (p.join q).relativeTo? p = some q := by
  by_cases hp : p.text = ""
  · have hparts : p.parts = [] := by rw [parts, hp]; rfl
    rw [join_of_empty hp]
    simp [relativeTo?, startsWith, hparts, h.split_eq, dropIdleEnd_of_counted h, withLead, leadText,
      joinSegments_segments]
  · obtain ⟨front, hparts, hsplit⟩ := exists_split_join hp h.relative
    rw [relativeTo?_of_split hp hparts hsplit, dropWhile_isIdle h, dropIdleEnd_of_counted h,
      joinSegments_segments, String.ofList_toList]

/-- The characters of the names behind a directory are in every path that leads there from it, also
in one that is absolute. -/
theorem Terse.mem_of_same_join (h : r.Terse) (hsame : (p.join q).parts = (p.join r).parts)
    (hn : .name n ∈ (segments r.text.toList).filterMap partOf?) (hc : c ∈ n) :
    c ∈ q.text.toList := by
  rw [h.parts_join] at hsame
  by_cases halone : p.text = "" ∨ q.isAbsolute = true
  · have hjoin : p.join q = q := by
      rcases halone with hempty | habsolute
      · exact join_of_empty hempty q
      · exact if_pos habsolute
    have hmem : .name n ∈ q.parts := by
      rw [← hjoin, hsame]
      exact List.mem_append_right _ hn
    exact mem_of_name_mem_parts hmem hc
  · obtain ⟨hp, hq⟩ := not_or.1 halone
    rw [Path.parts_join hp (Bool.eq_false_iff.2 hq)] at hsame
    rw [← List.append_cancel_left hsame] at hn
    obtain ⟨seg, hseg, hpart⟩ := List.mem_filterMap.1 hn
    obtain rfl : seg = n := partOf?_eq_name hpart
    exact mem_of_mem_segments hseg hc

theorem join_join (p : Path) {name : String} (hname : LegalName name) (hq : q.isAbsolute = false) :
    (p.join ⟨name⟩).join q = p.join ⟨name ++ "/" ++ q.text⟩ := by
  obtain ⟨hslash, hne, -⟩ := hname
  have hlast := List.getLast?_eq_some_getLast hne
  have hno : name.toList.getLast hne ≠ '/' := fun h => hslash (h ▸ List.getLast_mem hne)
  have hlong : (⟨name ++ "/" ++ q.text⟩ : Path).isAbsolute = false := by
    obtain ⟨c, rest, htext⟩ := List.exists_cons_of_ne_nil hne
    have hc : c ≠ '/' := by
      rintro rfl
      simp [htext] at hslash
    simp [isAbsolute, htext, hc]
  obtain ⟨sep, hsep⟩ := exists_join_eq p
  calc (p.join ⟨name⟩).join q
      = ⟨(p.join ⟨name⟩).text ++ "/" ++ q.text⟩ :=
        congrArg Path.mk (text_join (getLast?_join p hlast) hno hq)
    _ = p.join ⟨name ++ "/" ++ q.text⟩ := by
        rw [hsep _ (relative_of_no_slash hslash), hsep _ hlong]
        simp [String.append_assoc]

end Path

namespace Scan

variable {place : Place} {t : FileTree} {dir f : Path} {suffix : String}

/-- A place as a path from the directory that it is below. -/
def relativePath (place : Place) : Path :=
  ⟨String.ofList (Path.joinSegments (place.map String.toList))⟩

theorem relativePath_cons (name : String) (hne : place ≠ []) :
    relativePath (name :: place) = ⟨name ++ "/" ++ (relativePath place).text⟩ := by
  have hmap : place.map String.toList ≠ [] := by simpa using hne
  rw [relativePath, relativePath, List.map_cons, Path.joinSegments_cons _ hmap]
  simp [String.ofList_append, String.append_assoc]

theorem segments_relativePath (hplace : ∀ name ∈ place, LegalName name) (hne : place ≠ []) :
    Path.segments (relativePath place).text.toList = place.map String.toList := by
  rw [relativePath, String.toList_ofList]
  refine Path.segments_joinSegments (by simpa using hne) fun seg hseg => ?_
  obtain ⟨name, hname, rfl⟩ := List.mem_map.1 hseg
  exact (hplace name hname).1

theorem terse_relativePath (hplace : ∀ name ∈ place, LegalName name) (hne : place ≠ []) :
    (relativePath place).Terse := by
  intro seg hseg
  rw [segments_relativePath hplace hne] at hseg
  obtain ⟨name, hname, rfl⟩ := List.mem_map.1 hseg
  obtain ⟨-, hempty, hdot, -⟩ := hplace name hname
  simp [Path.isIdle, hempty, hdot]

theorem pathAt_eq_join (p : Path) (hplace : ∀ name ∈ place, LegalName name) (hne : place ≠ []) :
    pathAt p place = p.join (relativePath place) := by
  induction place generalizing p with
  | nil => exact absurd rfl hne
  | cons name rest ih =>
    obtain ⟨hname, hrest⟩ := List.forall_mem_cons.1 hplace
    by_cases hlast : rest = []
    · simp [hlast, pathAt, relativePath, Path.joinSegments]
    · have hrelative := (terse_relativePath hrest hlast).relative
      rw [pathAt_cons, ih _ hrest hlast, Path.join_join p hname hrelative,
        relativePath_cons name hlast]

theorem backslash_mem_relativePath :
    '\\' ∈ (relativePath place).text.toList ↔ ∃ name ∈ place, '\\' ∈ name.toList := by
  rw [relativePath, String.toList_ofList, Path.mem_joinSegments (by decide)]
  simp

theorem exists_place_of_mem_files (hnamed : t.root.WellNamed) (hf : f ∈ files t dir suffix) :
    ∃ place : Place, (∀ name ∈ place, LegalName name) ∧ f = pathAt dir place := by
  have hbelow : ∀ q es, t.root.at? q = some (.dir es) → f ∈ below suffix dir (.dir es) →
      ∃ place : Place, (∀ name ∈ place, LegalName name) ∧ f = pathAt dir place := by
    intro q es hat hmem
    have hdir := (wellNamed_at? hnamed hat).2
    obtain ⟨place, hvisible, rfl⟩ := (mem_below_iff hdir dir f).1 hmem
    obtain ⟨content, executable, hfile⟩ := hvisible.file
    exact ⟨place, (wellNamed_at? hdir hfile).1, rfl⟩
  unfold files at hf
  split at hf
  · split at hf
    · exact ⟨[], by simp, List.mem_singleton.1 hf⟩
    · simp at hf
  · rename_i hdir
    obtain ⟨q, -, hat⟩ := FileTree.linkStat_eq_ok_iff.1 hdir
    exact hbelow q _ hat hf
  · split at hf
    · rename_i hdir
      obtain ⟨q, -, hat⟩ := FileTree.stat_eq_ok_iff.1 hdir
      exact hbelow q _ hat hf
    · simp at hf
  · simp at hf

end Scan

namespace Project

open Scan

variable {place : Place} {t : FileTree} {f : Path}

/-- All that is found for the stages that take what a scan finds. -/
def scannedFiles (p : Project) (t : FileTree) : List Path :=
  cSources t p.root ++ specFiles t p.root ++ compiledSpecs t p.outputDir

theorem exists_place_of_mem_scannedFiles (root : Path) (hnamed : t.root.WellNamed)
    (hf : f ∈ (ofRoot root).scannedFiles t) :
    ∃ place : Place, (∀ name ∈ place, LegalName name) ∧ f = pathAt root place := by
  rcases List.mem_append.1 hf with hf | hcompiled
  · rcases List.mem_append.1 hf with hsource | hspec
    · exact exists_place_of_mem_files hnamed hsource
    · exact exists_place_of_mem_files hnamed hspec
  · -- the build directory is itself below the root
    obtain ⟨place, hplace, rfl⟩ := exists_place_of_mem_files hnamed hcompiled
    exact ⟨buildDir :: place, List.forall_mem_cons.2 ⟨by decide, hplace⟩, rfl⟩

theorem relativize_pathAt (root : Path) (hplace : ∀ name ∈ place, LegalName name) :
    (ofRoot root).relativize (pathAt root place) = relativePath place := by
  change ((pathAt root place).relativeTo? root).getD _ = _
  by_cases hne : place = []
  · subst hne
    rw [pathAt, List.foldl_nil, Path.relativeTo?_self]
    rfl
  · rw [pathAt_eq_join root hplace hne, Path.relativeTo?_join root (terse_relativePath hplace hne)]
    rfl

theorem same_join_relativePath (root : Path) (hplace : ∀ name ∈ place, LegalName name) :
    (root.join (relativePath place)).same (pathAt root place) = true := by
  by_cases hne : place = []
  · subst hne
    by_cases hroot : root.text = ""
    · obtain ⟨text⟩ := root
      subst hroot
      rfl
    · rw [Path.same, beq_iff_eq, Path.parts_join hroot rfl]
      exact List.append_nil _
  · rw [pathAt_eq_join root hplace hne]
    exact Path.same_refl _

end Project

namespace Stage

open Scan

variable {s : Setting} {t : FileTree} {plan : Plan} {root f : Path} {place : Place}
  {files : List Path}

theorem no_backslash_containerPath (s : Setting) (f : Path) :
    '\\' ∉ (containerPath s f).toList := by
  simp only [containerPath, String.toList_map, List.mem_map, not_exists, not_and]
  intro c _ h
  split at h <;> simp_all

theorem containerPath_of_no_backslash (h : '\\' ∉ (s.project.relativize f).text.toList) :
    containerPath s f = (s.project.relativize f).text := by
  refine String.toList_inj.1 ?_
  rw [containerPath, String.toList_map, List.map_congr_left (g := id), List.map_id]
  rintro c hc
  refine if_neg ?_
  rintro rfl
  exact h hc

/-- A name with a backslash is lost for good, wherever the container path leads. -/
theorem same_containerPath_iff (hproject : s.project = .ofRoot root)
    (hplace : ∀ name ∈ place, LegalName name) :
    (root.join ⟨containerPath s (pathAt root place)⟩).same (pathAt root place) = true ↔
      '\\' ∉ (relativePath place).text.toList := by
  constructor
  · intro hsame hbackslash
    obtain ⟨name, hname, hin⟩ := backslash_mem_relativePath.1 hbackslash
    have hne : place ≠ [] := List.ne_nil_of_mem hname
    have hpart : .name name.toList ∈
        (Path.segments (relativePath place).text.toList).filterMap Path.partOf? := by
      rw [segments_relativePath hplace hne, List.mem_filterMap]
      exact ⟨_, List.mem_map_of_mem hname, Path.partOf?_eq_self_iff.2 (hplace name hname).2⟩
    rw [pathAt_eq_join root hplace hne] at hsame
    exact no_backslash_containerPath s _
      ((terse_relativePath hplace hne).mem_of_same_join (beq_iff_eq.1 hsame) hpart hin)
  · intro hno
    rw [← Project.relativize_pathAt root hplace, ← hproject] at hno
    rw [containerPath_of_no_backslash hno, hproject, Project.relativize_pathAt root hplace]
    exact Project.same_join_relativePath root hplace

/-- Files are operands of a command: on the host by their paths, with no directory to change to,
and in the container by their container paths, with the script running where the root is mounted. -/
inductive Operands (s : Setting) (files : List Path) : CommandSpec → Prop
  | onHost {c : CommandSpec} (before after : List String) (mode : s.mode = .onHost)
      (dir : c.workingDir = none) (args : c.args = before ++ files.map Path.text ++ after) :
      Operands s files c
  | inContainer {script : ShellScript} (before after : List String) (mode : s.mode = .inContainer)
      (args : script.args = before ++ files.map (containerPath s) ++ after) :
      Operands s files (inContainer s script)

theorem compileC_operands {emitLlvm : Bool} (h : (compileC emitLlvm).plan s t = .ok plan) :
    Operands s (cSources t s.project.root) plan.command := by
  simp only [compileC, bind, Except.bind] at h
  split at h
  · simp at h
  · split at h
    · simp [throw, throwThe, MonadExceptOf.throw] at h
    · obtain rfl := Except.ok.inj h
      cases hmode : s.mode with
      | onHost => exact .onHost _ _ hmode rfl rfl
      | inContainer => exact .inContainer _ _ hmode rfl

theorem compileSpecification_operands (h : compileSpecification.plan s t = .ok plan) :
    Operands s (specFiles t s.project.root).head?.toList plan.command := by
  simp only [compileSpecification, bind, Except.bind] at h
  split at h
  · simp at h
  · split at h
    · simp [throw, throwThe, MonadExceptOf.throw] at h
    · rename_i spec hspec
      obtain rfl := Except.ok.inj h
      rw [hspec]
      cases hmode : s.mode with
      | onHost => exact .onHost ["-jar", s.config.tesslaCompiler.text] [] hmode rfl rfl
      | inContainer => exact .inContainer ["-jar", s.config.container.compilerJar] [] hmode rfl

theorem runVerificationServer_operands (h : runVerificationServer.plan s t = .ok plan) :
    Operands s (compiledSpecs t s.project.outputDir).head?.toList plan.command := by
  simp only [runVerificationServer, bind, Except.bind] at h
  split at h
  · simp at h
  · split at h
    · simp [throw, throwThe, MonadExceptOf.throw] at h
    · rename_i json hjson
      split at h
      · simp at h
      · obtain rfl := Except.ok.inj h
        rw [hjson]
        cases hmode : s.mode with
        | onHost =>
          simp only [serverCommand, hmode]
          exact .onHost [] _ hmode rfl rfl
        | inContainer =>
          simp only [serverCommand, hmode]
          exact .inContainer [] _ hmode rfl

end Stage

/-- A stage whose command names files that a scan has found. -/
structure FileTaker where
  stage : SomeStage
  files : Project → FileTree → List Path

/-- All sources are compiled, but only one specification is. -/
def fileTakers : List FileTaker := [
  ⟨⟨_, .compileC false⟩, fun p t => Scan.cSources t p.root⟩,
  ⟨⟨_, .compileC true⟩, fun p t => Scan.cSources t p.root⟩,
  ⟨⟨_, .compileSpecification⟩, fun p t => (Scan.specFiles t p.root).head?.toList⟩,
  ⟨⟨_, .runVerificationServer⟩, fun p t => (Scan.compiledSpecs t p.outputDir).head?.toList⟩]

theorem FileTaker.operands {k : FileTaker} (hk : k ∈ fileTakers) {s : Setting} {t : FileTree}
    {plan : Plan} (h : k.stage.2.plan s t = .ok plan) :
    Stage.Operands s (k.files s.project t) plan.command := by
  simp only [fileTakers, List.mem_cons, List.not_mem_nil, or_false] at hk
  rcases hk with rfl | rfl | rfl | rfl
  · exact Stage.compileC_operands h
  · exact Stage.compileC_operands h
  · exact Stage.compileSpecification_operands h
  · exact Stage.runVerificationServer_operands h

theorem FileTaker.scanned {k : FileTaker} (hk : k ∈ fileTakers) (p : Project) (t : FileTree) :
    ∀ f ∈ k.files p t, f ∈ p.scannedFiles t := by
  simp only [fileTakers, List.mem_cons, List.not_mem_nil, or_false] at hk
  intro f hf
  simp only [Project.scannedFiles, List.mem_append]
  rcases hk with rfl | rfl | rfl | rfl
  · exact .inl (.inl hf)
  · exact .inl (.inl hf)
  · exact .inl (.inr (List.mem_of_head? (Option.mem_toList.1 hf)))
  · exact .inr (List.mem_of_head? (Option.mem_toList.1 hf))

/-- The path of a scanned file from the root leads to the file again, whatever the root looks like.
Its container path does so if and only if no name on the way has a backslash. The stages name what
the scans find by these paths: on the host by the path of the file, in the container by its
container path, from where the root is. -/
theorem container_paths_denote_without_backslash {t : FileTree} (hnamed : t.root.WellNamed)
    {root : Path} {s : Setting} (hproject : s.project = .ofRoot root) :
    (∀ f ∈ s.project.scannedFiles t,
      (root.join (s.project.relativize f)).same f = true ∧
      ((root.join ⟨Stage.containerPath s f⟩).same f = true ↔
        '\\' ∉ (s.project.relativize f).text.toList)) ∧
    ∀ k ∈ fileTakers, (∀ f ∈ k.files s.project t, f ∈ s.project.scannedFiles t) ∧
      ∀ plan, k.stage.2.plan s t = .ok plan →
        Stage.Operands s (k.files s.project t) plan.command := by
  refine ⟨fun f hf => ?_, fun k hk => ⟨k.scanned hk s.project t, fun plan h => k.operands hk h⟩⟩
  rw [hproject] at hf
  obtain ⟨place, hplace, rfl⟩ := Project.exists_place_of_mem_scannedFiles root hnamed hf
  rw [Stage.same_containerPath_iff hproject hplace, hproject,
    Project.relativize_pathAt root hplace]
  exact ⟨Project.same_join_relativePath root hplace, .rfl⟩

namespace Demo

/-- A source in a directory, and one that has a backslash in the place of the separator. -/
def slanted : FileTree := ⟨.dir [("demo", .dir [
  ("a", .dir [("b.c", .file [] false)]), ("a\\b.c", .file [] false)])], []⟩

theorem slanted_wellNamed : slanted.root.WellNamed := by
  refine .dir _ (by decide +kernel) (by decide +kernel) ?_
  rw [List.forall_mem_singleton]
  refine .dir _ (by decide +kernel) (by decide +kernel) ?_
  rw [List.forall_mem_cons, List.forall_mem_singleton]
  refine ⟨.dir _ (by decide +kernel) (by decide +kernel) ?_, .file [] false⟩
  rw [List.forall_mem_singleton]
  exact .file [] false

def slantedSources : List Path := [⟨"/demo/a/b.c"⟩, ⟨"/demo/a\\b.c"⟩]

end Demo

theorem container_paths_denote_in_demo :
    Demo.slanted.root.WellNamed ∧ Demo.dockered.project = .ofRoot ⟨"/demo"⟩ ∧
    ⟨"/demo/a/b.c"⟩ ∈ Demo.dockered.project.scannedFiles Demo.slanted ∧
    ((⟨"/demo"⟩ : Path).join ⟨Stage.containerPath Demo.dockered ⟨"/demo/a/b.c"⟩⟩).same
      ⟨"/demo/a/b.c"⟩ = true ∧
    ∃ plan, (Stage.compileC false).plan Demo.dockered Demo.slanted = .ok plan ∧
      Stage.Operands Demo.dockered Demo.slantedSources plan.command := by
  have hmem : ⟨"/demo/a/b.c"⟩ ∈ Demo.dockered.project.scannedFiles Demo.slanted := by
    decide +kernel
  obtain ⟨hdenote, htakers⟩ :=
    container_paths_denote_without_backslash Demo.slanted_wellNamed (s := Demo.dockered) rfl
  have hsources : Scan.cSources Demo.slanted ⟨"/demo"⟩ = Demo.slantedSources := by decide +kernel
  obtain ⟨plan, hplan⟩ :
      ∃ plan, (Stage.compileC false).plan Demo.dockered Demo.slanted = .ok plan := ⟨_, rfl⟩
  have hoperands := (htakers _ List.mem_cons_self).2 plan hplan
  refine ⟨Demo.slanted_wellNamed, rfl, hmem, ?_, plan, hplan, ?_⟩
  · exact (hdenote _ hmem).2.2 (by decide +kernel)
  · rw [← hsources]
    exact hoperands

/-- A backslash in the name of a source is not the separator of another source, but the container
path of the one leads to the other. -/
theorem container_path_denotes_another :
    Scan.cSources Demo.slanted ⟨"/demo"⟩ = Demo.slantedSources ∧
    (⟨"/demo"⟩ : Path).join ⟨Stage.containerPath Demo.dockered ⟨"/demo/a\\b.c"⟩⟩ =
      ⟨"/demo/a/b.c"⟩ ∧
    (⟨"/demo/a/b.c"⟩ : Path).same ⟨"/demo/a\\b.c"⟩ = false := by
  decide +kernel

end TraceWorkbench
