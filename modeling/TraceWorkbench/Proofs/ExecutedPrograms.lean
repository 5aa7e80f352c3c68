import TraceWorkbench.Proofs.FileChanges
import TraceWorkbench.Proofs.ProductPaths
import TraceWorkbench.Proofs.TextBytes
import TraceWorkbench.Simulation.Host
import TraceWorkbench.Stage.Execute

set_option autoImplicit false

/-!
# The program that is executed

A stage that runs a program looks whether it is there, and hands its path on together with a working
directory. The path is read a second time when the process is started, and then from that directory.
An absolute path means the same both times. A relative one means something else, unless it leads
from the build directory back to the build directory.
-/
namespace TraceWorkbench

def Path.Part.name? : Path.Part → Option String
  | .name n => some (String.ofList n)
  | _ => none

namespace Path

theorem parts_of_isAbsolute {p : Path} (hp : p.isAbsolute = true) :
    ∃ rest, p.parts = .root :: rest := by
  have hhead : p.text.toList.head? = some '/' := by simpa [isAbsolute] using hp
  obtain ⟨rest, htext⟩ := List.head?_eq_some_iff.1 hhead
  exact ⟨(segments rest).filterMap partOf?, by simp [parts, partsOf, split, htext]⟩

theorem partOf?_ne_root (seg : List Char) : partOf? seg ≠ some .root := by
  unfold partOf?
  split
  · simp
  · split <;> simp

theorem root_not_mem_parts {p : Path} (hp : p.isAbsolute = false) : Part.root ∉ p.parts := by
  have hhead : p.text.toList.head? ≠ some '/' := by simpa [isAbsolute] using hp
  intro h
  simp only [parts, partsOf, List.mem_append, Option.mem_toList, List.mem_filterMap] at h
  rcases h with hlead | ⟨seg, -, hseg⟩
  · unfold split at hlead
    split at hlead
    · rename_i rest htext
      simp [htext] at hhead
    · split at hlead <;> simp at hlead
  · exact partOf?_ne_root seg hseg

end Path

namespace FileTree

variable {root : Node} {last : Bool}
  {follow : Place → List Path.Part → Except OsError Place} {up q d : Place}
  {parts rest : List Path.Part}

theorem descend_append (hfree : ∀ place, ¬ IsLink root place)
    (hdir : ∃ es, root.at? d = some (.dir es)) (h : descend root last follow up parts = .ok d) :
    descend root last follow up (parts ++ rest) = descend root last follow d.reverse rest := by
  induction parts generalizing up with
  | nil =>
    obtain rfl : up.reverse = d := Except.ok.inj h
    rw [List.nil_append, List.reverse_reverse]
  | cons part parts ih =>
    cases part with
    | root => exact ih h
    | here => exact ih h
    | up => exact ih h
    | name n =>
      obtain ⟨es, hes⟩ := hdir
      rw [descend_name_iff] at h
      obtain ⟨hsize, ⟨-, hend, rfl⟩ | ⟨⟨es', hes'⟩, hdown⟩ | ⟨target, hlink, -⟩⟩ := h
      · simp [Ends, hes] at hend
      · rw [List.cons_append, descend, List.reverse_cons, hes', ← ih hdown]
        simp [Nat.not_lt_of_ge hsize]
      · exact absurd ⟨target, hlink⟩ (hfree _)

theorem descend_down (hfree : ∀ place, ¬ IsLink root place) (hroot : Path.Part.root ∉ parts)
    (hup : Path.Part.up ∉ parts) (h : descend root last follow up parts = .ok q) :
    q = up.reverse ++ parts.filterMap Path.Part.name? := by
  induction parts generalizing up with
  | nil => simpa using (Except.ok.inj h).symm
  | cons part parts ih =>
    simp only [List.mem_cons, not_or] at hroot hup
    cases part with
    | root => simp at hroot
    | up => simp at hup
    | here => exact ih hroot.2 hup.2 h
    | name n =>
      rw [descend_name_iff] at h
      obtain ⟨-, ⟨rfl, -, rfl⟩ | ⟨-, hdown⟩ | ⟨target, hlink, -⟩⟩ := h
      · simp [Path.Part.name?]
      · rw [ih hroot.2 hup.2 hdown]
        simp [Path.Part.name?]
      · exact absurd ⟨target, hlink⟩ (hfree _)

def LinkFree (t : FileTree) : Prop := ∀ place, ¬ IsLink t.root place

theorem walk_append (hfree : ∀ place, ¬ IsLink root place) (limit : Nat)
    (hdir : ∃ es, root.at? d = some (.dir es)) (h : walk root last limit up parts = .ok d) :
    walk root last limit up (parts ++ rest) = walk root last limit d.reverse rest := by
  cases limit with
  | zero => exact descend_append hfree hdir h
  | succ limit => exact descend_append hfree hdir h

theorem walk_down (hfree : ∀ place, ¬ IsLink root place) (limit : Nat)
    (hroot : Path.Part.root ∉ parts) (hup : Path.Part.up ∉ parts)
    (h : walk root last limit up parts = .ok q) :
    q = up.reverse ++ parts.filterMap Path.Part.name? := by
  cases limit with
  | zero => exact descend_down hfree hroot hup h
  | succ limit => exact descend_down hfree hroot hup h

theorem walk_root (limit : Nat) (up' : Place) :
    walk root last limit up (.root :: rest) = walk root last limit up' (.root :: rest) := by
  cases limit <;> rfl

theorem resolve_of_isAbsolute {p : Path} (hp : p.isAbsolute = true) (t : FileTree) (cwd : Place) :
    { t with cwd }.resolve p last = t.resolve p last := by
  obtain ⟨rest, hparts⟩ := Path.parts_of_isAbsolute hp
  unfold resolve
  rw [hparts, walk_root linkLimit t.cwd.reverse]

end FileTree

namespace Project

open FileTree (LinkFree IsLink)

variable {root : Path} {name : String} {t : FileTree} {q d : Place}

/-- A product is called by a name or, if its project has none, by nothing. -/
def Called (name : String) : Prop :=
  '/' ∉ name.toList ∧ (name = "" ∨ Path.partOf? name.toList = some (.name name.toList))

theorem called_binaryName (root : Path) : Called (ofRoot root).binaryName := by
  refine ⟨no_slash_binaryName root, ?_⟩
  by_cases hname : (ofRoot root).binaryName = ""
  · exact .inl hname
  · exact .inr (partOf?_binaryName hname)

theorem called_instrumentedBinaryName (root : Path) :
    Called (ofRoot root).instrumentedBinaryName :=
  ⟨by simp [instrumentedBinaryName, no_slash_binaryName],
    .inr (Path.partOf?_of_long (by simp [instrumentedBinaryName]))⟩

theorem nameless_parts (root : Path) :
    ((ofRoot root).product "").parts = (ofRoot root).outputDir.parts := by
  rw [product_parts root (by simp), outputDir_parts]
  rfl

theorem wantsDirectory_nameless (root : Path) :
    FileTree.wantsDirectory ((ofRoot root).product "") = true := by
  have hsegments : (Path.segments ((ofRoot root).product "").text.toList).getLast? = some [] := by
    rw [product_text root (by simp)]
    simp [Path.segments_slash, Path.segments]
  simp [FileTree.wantsDirectory, hsegments, Path.isIdle]

theorem outputDir_of_product (hcalled : Called name)
    (hq : t.resolve ((ofRoot root).product name) true = .ok q) (hthere : t.root.at? q ≠ none) :
    ∃ d es, t.resolve (ofRoot root).outputDir true = .ok d ∧ t.root.at? d = some (.dir es) ∧
      (name = "" → q = d) ∧ (name ≠ "" → t.LinkFree → q = d ++ [name]) := by
  obtain ⟨hslash, rfl | hpart⟩ := hcalled
  · have husable := usable_outputDir hslash (FileTree.resolve_eq_ok_iff.1 hq).1
    obtain ⟨-, hwalk, hnofile⟩ := FileTree.resolve_eq_ok_iff.1 hq
    rw [nameless_parts, Bool.true_or] at hwalk
    have hunlinked : ¬ IsLink t.root q := by
      rw [outputDir_parts] at hwalk
      exact FileTree.walk_named_unlinked _ hwalk
    rcases hat : t.root.at? q with _ | ⟨content, executable⟩ | target | es
    · exact absurd hat hthere
    · exact absurd hat (hnofile (wantsDirectory_nameless root) content executable)
    · exact absurd ⟨target, hat⟩ hunlinked
    · refine ⟨q, es, FileTree.resolve_eq_ok_iff.2 ⟨husable, hwalk, fun _ => by simp [hat]⟩, hat,
        fun _ => rfl, fun hne => absurd rfl hne⟩
  · have husable := usable_outputDir hslash (FileTree.resolve_eq_ok_iff.1 hq).1
    have hwants := wantsDirectory_product root hslash hpart
    obtain ⟨q', d, -, hsame, hd, hname, es, hes⟩ :=
      FileTree.resolve_above (product_parts_of_name root hslash hpart) husable hwants hq
    rw [String.ofList_toList] at hname
    refine ⟨d, es, hd, hes, ?_, fun _ hfree => ?_⟩
    · rintro rfl
      simp [Path.partOf?, Path.isIdle] at hpart
    · rw [← hname]
      exact (hsame.resolve_right (hfree q')).symm

/-- Without links, a product is found from every directory from which its directory is found. -/
theorem product_from (hcalled : Called name) (hfree : t.LinkFree) {es : Entries} {cwd : Place}
    (hq : t.resolve ((ofRoot root).product name) true = .ok q)
    (hd : t.resolve (ofRoot root).outputDir true = .ok d) (hdir : t.root.at? d = some (.dir es))
    (hagain : { t with cwd }.resolve (ofRoot root).outputDir true = .ok d) :
    { t with cwd }.resolve ((ofRoot root).product name) true = .ok q := by
  obtain ⟨husable, hwalk, hnofile⟩ := FileTree.resolve_eq_ok_iff.1 hq
  obtain ⟨-, hdown, -⟩ := FileTree.resolve_eq_ok_iff.1 hd
  obtain ⟨-, hdown', -⟩ := FileTree.resolve_eq_ok_iff.1 hagain
  refine FileTree.resolve_eq_ok_iff.2 ⟨husable, ?_, hnofile⟩
  rw [Bool.true_or] at hwalk hdown hdown' ⊢
  obtain ⟨hslash, rfl | hpart⟩ := hcalled
  · rw [nameless_parts] at hwalk ⊢
    rw [hdown', ← hdown, hwalk]
  · rw [product_parts_of_name root hslash hpart,
      FileTree.walk_append hfree _ ⟨es, hdir⟩ hdown] at hwalk
    rw [product_parts_of_name root hslash hpart,
      FileTree.walk_append hfree _ ⟨es, hdir⟩ hdown', hwalk]

end Project

/-- Where the program of a command stands, if it is given by a path: that is read from the working
directory, which is entered before. -/
def CommandSpec.programPlace (c : CommandSpec) (t : FileTree) : Except OsError Place :=
  match Simulation.startPlace t c.workingDir with
  | .error e => .error e
  | .ok cwd => { t with cwd }.resolve c.program true

namespace Simulation

theorem ofOctets_octets (s : String) : ofOctets (octets s) = s := by
  simp [ofOctets, octets, toBytes_ofBytes, String.ofBytesLossy, String.utf8Bytes,
    Utf8.decodeLossy_encode]

theorem slash_mem_octets {s : String} (h : '/' ∈ s.toList) : '/' ∈ (octets s).toList := by
  have hbyte : UInt8.ofNat '/'.toNat ∈ s.utf8Bytes := by
    refine List.mem_flatMap.2 ⟨'/', h, ?_⟩
    rw [Utf8.utf8EncodeChar_ascii (by decide)]
    exact List.mem_singleton_self _
  rw [octets, String.toList_ofList]
  exact List.mem_map.2 ⟨_, hbyte, by decide⟩

theorem load_eq_ok {files : FileTree} {fuel : Nat} {path name : String} {args : List String}
    {program : Loaded} (h : load files fuel path name args = .ok program) :
    ∃ q content, files.resolve (pathOf path) true = .ok q ∧
      files.root.at? q = some (.file content true) := by
  cases fuel with
  | zero => simp [load] at h
  | succ fuel =>
    unfold load at h
    cases hstat : files.stat (pathOf path) with
    | error e => simp [hstat] at h
    | ok m =>
      obtain ⟨q, hq, hat⟩ := FileTree.stat_eq_ok_iff.1 hstat
      rw [hstat] at h
      rcases m with ⟨content, executable⟩ | target | es
      · cases executable with
        | false => simp at h
        | true => exact ⟨q, content, hq, hat⟩
      · simp at h
      · simp at h

theorem startProcess_place {environment : List (String × String)} {c : CommandSpec}
    {handles : Handles} {m m' : Machine} {id : Nat} (hpath : '/' ∈ c.program.text.toList)
    (h : startProcess environment c handles m = (m', .ok id)) :
    ∃ q content, c.programPlace m.files = .ok q ∧
      m.files.root.at? q = some (.file content true) := by
  unfold startProcess at h
  split at h
  · simp at h
  · split at h
    · simp at h
    · unfold CommandSpec.programPlace
      cases hstart : startPlace m.files c.workingDir with
      | error e => simp [hstart] at h
      | ok cwd =>
        rw [hstart] at h
        simp only at h ⊢
        cases hfind : findProgram { m.files with cwd }
            ((Shell.lookUp "PATH" environment).getD "") (octets c.program.text)
            (c.args.map octets) with
        | error e => simp [hfind] at h
        | ok program =>
          have hslash : (octets c.program.text).toList.contains '/' = true := by
            simpa using slash_mem_octets hpath
          have hnonempty : (octets c.program.text).isEmpty = false := by
            by_contra hempty
            simp [String.isEmpty_iff.1 (by simpa using hempty)] at hslash
          simp only [findProgram, hnonempty, hslash, Bool.false_eq_true, if_false, if_true] at hfind
          obtain ⟨q, content, hq, hat⟩ := load_eq_ok hfind
          rw [pathOf, ofOctets_octets] at hq
          exact ⟨q, content, hq, hat⟩

end Simulation

namespace Stage

/-- A stage that runs a product was planned. -/
inductive Runs (S : Setting) (t : FileTree) (plan : Plan) : String → Prop
  | plain (planned : runBinary.plan S t = .ok plan) : Runs S t plan S.project.binaryName
  | instrumented (planned : runInstrumentedBinary.plan S t = .ok plan) :
      Runs S t plan S.project.instrumentedBinaryName

variable {S : Setting} {t : FileTree} {plan : Plan} {name : String} {root : Path}

theorem exists_of_requireOnHost {p : Path} {missing : Path → Precondition} {u : Unit}
    (h : requireOnHost S t p missing = .ok u) (hmode : S.mode = .onHost) : t.exists? p = true := by
  unfold requireOnHost at h
  cases hthere : t.exists? p with
  | true => rfl
  | false => simp [hmode, ExecutionMode.isOnHost, hthere] at h

theorem Runs.onHost (h : Runs S t plan name) (hmode : S.mode = .onHost) :
    t.exists? (S.project.product name) = true ∧ plan.command =
      { program := S.project.product name, workingDir := some S.project.outputDir } := by
  cases h with
  | plain planned =>
    simp only [runBinary, bind, Except.bind] at planned
    split at planned
    · simp at planned
    · rename_i u hrequire
      obtain rfl := Except.ok.inj planned
      exact ⟨exists_of_requireOnHost hrequire hmode, by simp [runProduct, hmode]; rfl⟩
  | instrumented planned =>
    simp only [runInstrumentedBinary, bind, Except.bind] at planned
    split at planned
    · simp at planned
    · rename_i u hrequire
      obtain rfl := Except.ok.inj planned
      exact ⟨exists_of_requireOnHost hrequire hmode, by simp [runProduct, hmode]; rfl⟩

theorem Runs.called (h : Runs S t plan name) (hproject : S.project = .ofRoot root) :
    Project.Called name := by
  cases h with
  | plain => rw [hproject]; exact Project.called_binaryName root
  | instrumented => rw [hproject]; exact Project.called_instrumentedBinaryName root

end Stage

/-- What was looked for when a stage was planned that runs a product on the host, and what is
executed: with an absolute root it is the same. With a relative root, and without links, it is the
same just if the path of the build directory leads from there to the same directory, which it never
does without a way up. -/
theorem product_run_is_product_found {root : Path} {S : Setting} {t : FileTree} {plan : Plan}
    {name : String} (hproject : S.project = .ofRoot root) (hmode : S.mode = .onHost)
    (hruns : Stage.Runs S t plan name) :
    ∃ q d, t.resolve (S.project.product name) true = .ok q ∧ t.root.at? q ≠ none ∧
      t.resolve S.project.outputDir true = .ok d ∧
      (root.isAbsolute = true → plan.command.programPlace t = .ok q) ∧
      (root.isAbsolute = false → t.LinkFree →
        (plan.command.programPlace t = .ok q ↔
          { t with cwd := d }.resolve S.project.outputDir true = .ok d) ∧
        (.up ∉ root.parts → plan.command.programPlace t ≠ .ok q)) := by
  obtain ⟨hfound, hcommand⟩ := hruns.onHost hmode
  have hcalled := hruns.called hproject
  rw [hproject] at hfound hcommand ⊢
  obtain ⟨q, hq, hthere⟩ := FileTree.exists_iff.1 hfound
  obtain ⟨d, es, hd, hdir, hnameless, hnamed⟩ := Project.outputDir_of_product hcalled hq hthere
  have hplace : plan.command.programPlace t =
      { t with cwd := d }.resolve ((Project.ofRoot root).product name) true := by
    simp [CommandSpec.programPlace, hcommand, Simulation.startPlace, hd, hdir]
  refine ⟨q, d, hq, hthere, hd, fun habsolute => ?_, fun hrelative hfree => ?_⟩
  · rw [hplace, FileTree.resolve_of_isAbsolute, hq]
    exact Path.isAbsolute_join (Path.isAbsolute_join habsolute _) _
  · have hback : plan.command.programPlace t = .ok q ↔
        { t with cwd := d }.resolve (Project.ofRoot root).outputDir true = .ok d := by
      rw [hplace]
      refine ⟨fun hagain => ?_, Project.product_from hcalled hfree hq hd hdir⟩
      obtain ⟨d', -, hd', -, hnameless', hnamed'⟩ :=
        Project.outputDir_of_product hcalled hagain hthere
      by_cases hname : name = ""
      · rw [hd', ← hnameless hname, ← hnameless' hname]
      · have hsame : d ++ [name] = d' ++ [name] :=
          (hnamed hname hfree).symm.trans (hnamed' hname hfree)
        rw [hd', List.append_cancel_right hsame]
    refine ⟨hback, fun hup hagain => ?_⟩
    obtain ⟨-, hwalk, -⟩ := FileTree.resolve_eq_ok_iff.1 (hback.1 hagain)
    have hroot : Path.Part.root ∉ (Project.ofRoot root).outputDir.parts := by
      simp [Project.outputDir_parts, Path.root_not_mem_parts hrelative]
    have hways : Path.Part.up ∉ (Project.ofRoot root).outputDir.parts := by
      simp [Project.outputDir_parts, hup]
    have hdeeper := FileTree.walk_down hfree _ hroot hways hwalk
    simp [Project.outputDir_parts, Path.Part.name?] at hdeeper

namespace Demo

def onHost (root : Path) : Setting := ⟨.ofRoot root, { useDocker := false }⟩

/-- A program, and another one where a relative path to it leads from its own directory. -/
def nested : FileTree := ⟨.dir [("work", .dir [("demo", .dir [("build", .dir [
  ("demo", .file [1] true),
  ("work", .dir [("demo", .dir [("build", .dir [("demo", .file [2] true)])])])])])])], []⟩

def runPlan (root : Path) : Plan :=
  { command := { program := root.join ⟨"build/demo"⟩, workingDir := some (root.join ⟨"build"⟩) } }

end Demo

theorem product_run_is_product_found_nested :
    Stage.Runs (Demo.onHost ⟨"/work/demo"⟩) Demo.nested (Demo.runPlan ⟨"/work/demo"⟩)
      (Project.ofRoot ⟨"/work/demo"⟩).binaryName ∧
    (Demo.runPlan ⟨"/work/demo"⟩).command.programPlace Demo.nested =
      .ok ["work", "demo", "build", "demo"] := by
  have hruns : Stage.Runs (Demo.onHost ⟨"/work/demo"⟩) Demo.nested (Demo.runPlan ⟨"/work/demo"⟩)
      (Project.ofRoot ⟨"/work/demo"⟩).binaryName := .plain (by decide +kernel)
  obtain ⟨q, d, hq, -, -, habsolute, -⟩ := product_run_is_product_found rfl rfl hruns
  have hplace : Demo.nested.resolve (Project.ofRoot ⟨"/work/demo"⟩).binary true =
      .ok ["work", "demo", "build", "demo"] := by decide +kernel
  refine ⟨hruns, ?_⟩
  rw [habsolute (by decide +kernel), ← hq]
  exact hplace

/-- With a relative root, the program that was looked for is not the one that is executed. -/
theorem product_run_is_another :
    Stage.runBinary.plan (Demo.onHost ⟨"work/demo"⟩) Demo.nested =
      .ok (Demo.runPlan ⟨"work/demo"⟩) ∧
    Demo.nested.resolve (Project.ofRoot ⟨"work/demo"⟩).binary true =
      .ok ["work", "demo", "build", "demo"] ∧
    (Demo.runPlan ⟨"work/demo"⟩).command.programPlace Demo.nested =
      .ok ["work", "demo", "build", "work", "demo", "build", "demo"] := by
  decide +kernel

end TraceWorkbench
