import Mathlib.Data.List.Nodup
import TraceWorkbench.Project.Setup
import TraceWorkbench.Proofs.FileChanges
import TraceWorkbench.Proofs.ProductScans

set_option autoImplicit false

/-!
# Products keep apart

The products are named after the program, except for the trace configuration, whose name is always
the same. So a program can share its file with the trace configuration, and nothing else can share a
file. Products that keep apart are like the cells of a memory: each has the bytes that were written
to it last.

In a tree of directories, files and links, each file has one place. Two names that are hard links of
one file, and so share its bytes without a link between them, do not occur.
-/
namespace TraceWorkbench

namespace Project

/-- The names that are made of that of the program. -/
def madeNames (p : Project) : List String :=
  [p.binaryName, p.intermediateName, p.instrumentedIntermediateName, p.instrumentedBinaryName,
    p.traceFileName, p.compiledSpecName]

theorem productNames_eq (p : Project) : p.productNames = p.madeNames ++ ["zlog.conf"] := rfl

theorem nodup_madeNames (p : Project) : p.madeNames.Nodup := by
  have hlengths : p.madeNames.map (fun name => name.toList.length) =
      [0, 3, 16, 13, 19, 25].map (p.binaryName.toList.length + ·) := by
    simp [madeNames, intermediateName, instrumentedIntermediateName, instrumentedBinaryName,
      traceFileName, compiledSpecName]
  refine List.Nodup.of_map (fun name => name.toList.length) ?_
  rw [hlengths]
  exact List.Nodup.map (add_right_injective _) (by decide)

theorem traceConfig_mem_madeNames_iff (p : Project) :
    "zlog.conf" ∈ p.madeNames ↔ p.binaryName = "zlog.conf" := by
  have apart_at_start : ∀ s, "instrumented_" ++ s ≠ "zlog.conf" := by
    intro s h
    have hhead := congrArg (fun s : String => s.toList.head?) h
    simp at hhead
  have apart_at_end : p.binaryName ++ ".bc" ≠ "zlog.conf" := by
    intro h
    have hlast := congrArg (fun s : String => s.toList.getLast?) h
    simp [List.getLast?_append] at hlast
  simp [madeNames, intermediateName, instrumentedIntermediateName, instrumentedBinaryName,
    traceFileName, compiledSpecName, String.append_assoc, (apart_at_start _).symm,
    apart_at_end.symm, eq_comm]

theorem nodup_productNames_iff (p : Project) :
    p.productNames.Nodup ↔ p.binaryName ≠ "zlog.conf" := by
  rw [productNames_eq, List.nodup_append, ne_eq, ← p.traceConfig_mem_madeNames_iff]
  constructor
  · rintro ⟨-, -, hapart⟩ hmem
    exact hapart _ hmem _ (List.mem_singleton_self _) rfl
  · intro hnot
    refine ⟨p.nodup_madeNames, List.nodup_singleton _, ?_⟩
    rintro a ha b hb rfl
    rw [List.mem_singleton.1 hb] at ha
    exact hnot ha

section

variable {root : Path} {name other : String} {t t' : FileTree} {bytes : Bytes}

theorem same_product_iff (hbinary : (ofRoot root).binaryName ≠ "")
    (hname : name ∈ (ofRoot root).productNames) (hother : other ∈ (ofRoot root).productNames) :
    ((ofRoot root).product name).same ((ofRoot root).product other) = true ↔ name = other := by
  obtain ⟨hslash, hpart⟩ := name_of_product hbinary hname
  obtain ⟨hslash', hpart'⟩ := name_of_product hbinary hother
  rw [Path.same, beq_iff_eq, product_parts_of_name root hslash hpart,
    product_parts_of_name root hslash' hpart']
  simp [String.toList_inj]

theorem products_apart_iff (hbinary : (ofRoot root).binaryName ≠ "") :
    (ofRoot root).products.Pairwise (fun p q => p.same q = false) ↔
      (ofRoot root).binaryName ≠ "zlog.conf" := by
  rw [← nodup_productNames_iff, products_eq, List.pairwise_map, List.Nodup]
  refine List.Pairwise.iff_of_mem fun {a b} ha hb => ?_
  rw [← Bool.not_eq_true, same_product_iff hbinary ha hb]

/-- No link stands among the products under the name of one. -/
def Plain (p : Project) (t : FileTree) : Prop :=
  ∀ d, t.resolve p.outputDir true = .ok d → ∀ name ∈ p.productNames,
    ¬ FileTree.IsLink t.root (d ++ [name])

theorem Plain.within (hplain : (ofRoot root).Plain t) (hbinary : (ofRoot root).binaryName ≠ "")
    (hname : name ∈ (ofRoot root).productNames) {q : Place}
    (hq : t.resolve ((ofRoot root).product name) true = .ok q) :
    ∃ d, t.resolve (ofRoot root).outputDir true = .ok d ∧ FileTree.Within t.root name q d := by
  obtain ⟨hslash, hpart⟩ := name_of_product hbinary hname
  have husable := usable_outputDir hslash (FileTree.resolve_eq_ok_iff.1 hq).1
  obtain ⟨q', d, -, hsame, hd, hin⟩ := FileTree.resolve_above
    (product_parts_of_name root hslash hpart) husable (wantsDirectory_product root hslash hpart) hq
  rw [String.ofList_toList] at hin
  refine ⟨d, hd, ?_⟩
  rcases hsame with rfl | hlink
  · exact hin
  · rw [hin.1] at hlink
    exact absurd hlink (hplain d hd name hname)

/-- Just one product is another than before: a file or nothing, and it was that before. -/
def Touched (p : Project) (t t' : FileTree) (name : String) : Prop :=
  ∃ d, t.resolve p.outputDir true = .ok d ∧ (∃ es, t.root.at? d = some (.dir es)) ∧
    t.ChangesOnly t' (d ++ [name]) ∧ Node.Writable (t.root.at? (d ++ [name])) ∧
    Node.Writable (t'.root.at? (d ++ [name]))

theorem Plain.touched_of_write (hplain : (ofRoot root).Plain t)
    (hbinary : (ofRoot root).binaryName ≠ "") (hname : name ∈ (ofRoot root).productNames)
    (hwrite : t.write ((ofRoot root).product name) bytes = .ok t') :
    (ofRoot root).Touched t t' name := by
  obtain ⟨q, executable, hq, -, hw, rfl⟩ := FileTree.write_eq_ok hwrite
  obtain ⟨d, hd, hin⟩ := hplain.within hbinary hname hq
  obtain rfl : q = d ++ [name] := hin.1
  exact ⟨d, hd, hin.2, FileTree.changesOnly_put t hw bytes executable, hw,
    .inr ⟨bytes, executable, FileTree.put_at? bytes executable hin⟩⟩

theorem Plain.touched_of_remove (hplain : (ofRoot root).Plain t)
    (hbinary : (ofRoot root).binaryName ≠ "") (hname : name ∈ (ofRoot root).productNames)
    (hremove : t.removeFile ((ofRoot root).product name) = .ok t') :
    (ofRoot root).Touched t t' name := by
  obtain ⟨hslash, hpart⟩ := name_of_product hbinary hname
  have hparts := product_parts_of_name root hslash hpart
  obtain ⟨q, hq, hchanges, hgone⟩ := FileTree.removeFile_spec hparts hremove
  obtain ⟨husable, hwalk, -⟩ := FileTree.resolve_eq_ok_iff.1 hq
  rw [wantsDirectory_product root hslash hpart, hparts] at hwalk
  obtain ⟨d, hdown, hname', es, hes⟩ := FileTree.walk_concat _ hwalk
  rw [String.ofList_toList] at hname'
  have hd : t.resolve (ofRoot root).outputDir true = .ok d :=
    FileTree.resolve_eq_ok_iff.2 ⟨usable_outputDir hslash husable, hdown, fun _ => by simp [hes]⟩
  have hfile : Node.Writable (t.root.at? q) := by
    rcases hat : t.root.at? q with _ | ⟨content, executable⟩ | target | es'
    · exact .inl rfl
    · exact .inr ⟨content, executable, rfl⟩
    · rw [hname'] at hat
      exact absurd ⟨target, hat⟩ (hplain d hd name hname)
    · simp [FileTree.removeFile, hq, hat] at hremove
  subst hname'
  exact ⟨d, hd, ⟨es, hes⟩, hchanges, hfile, .inl hgone⟩

theorem Touched.plain (h : (ofRoot root).Touched t t' name) (hplain : (ofRoot root).Plain t) :
    (ofRoot root).Plain t' := by
  obtain ⟨d, hd, ⟨es, hes⟩, hchanges, hold, hnew⟩ := h
  rintro d' hd' other hother ⟨target, hlink⟩
  have hne : d ≠ d ++ [name] := by simp
  have hstays := hchanges.resolve hold (by simp [hes]) hne hd
  obtain rfl : d = d' := Except.ok.inj (hstays.symm.trans hd')
  by_cases hsame : d ++ [other] = d ++ [name]
  · rw [hsame] at hlink
    rcases hnew with hnone | ⟨content, executable, hfile⟩
    · simp [hnone] at hlink
    · simp [hfile] at hlink
  · exact hplain d hd other hother
      ⟨target, Node.link_of_own (hchanges.elsewhere _ hsame) hlink⟩

theorem Touched.reads_other (h : (ofRoot root).Touched t t' name) (hplain : (ofRoot root).Plain t)
    (hbinary : (ofRoot root).binaryName ≠ "") (hother : other ∈ (ofRoot root).productNames)
    (hne : other ≠ name) (hold : t.readBytes ((ofRoot root).product other) = .ok bytes) :
    t'.readBytes ((ofRoot root).product other) = .ok bytes := by
  obtain ⟨d, hd, -, hchanges, hfree, -⟩ := h
  obtain ⟨q, executable, hq, hfile⟩ := FileTree.readBytes_eq_ok_iff.1 hold
  obtain ⟨d', hd', rfl, -⟩ := hplain.within hbinary hother hq
  obtain rfl : d = d' := Except.ok.inj (hd.symm.trans hd')
  have hapart : d ++ [other] ≠ d ++ [name] := by simpa using hne
  exact FileTree.readBytes_eq_ok_iff.2 ⟨_, executable,
    hchanges.resolve hfree (by simp [hfile]) hapart hq,
    Node.file_of_own (hchanges.elsewhere _ hapart).symm hfile⟩

theorem reads_written (hbinary : (ofRoot root).binaryName ≠ "")
    (hname : name ∈ (ofRoot root).productNames)
    (hwrite : t.write ((ofRoot root).product name) bytes = .ok t') :
    t'.readBytes ((ofRoot root).product name) = .ok bytes := by
  obtain ⟨hslash, hpart⟩ := name_of_product hbinary hname
  obtain ⟨-, -, -, -, -, hread⟩ :=
    FileTree.write_changes (product_parts_of_name root hslash hpart) hwrite
  exact hread

/-- Products are written and removed, one after the other. What was done last stands first. -/
inductive Alters (p : Project) (t : FileTree) : List (String × Option Bytes) → FileTree → Prop
  | start : Alters p t [] t
  | write {ws : List (String × Option Bytes)} {t₁ t₂ : FileTree} {name : String} {bytes : Bytes}
      (before : Alters p t ws t₁) (product : name ∈ p.productNames)
      (written : t₁.write (p.product name) bytes = .ok t₂) :
      Alters p t ((name, some bytes) :: ws) t₂
  | remove {ws : List (String × Option Bytes)} {t₁ t₂ : FileTree} {name : String}
      (before : Alters p t ws t₁) (product : name ∈ p.productNames)
      (removed : t₁.removeFile (p.product name) = .ok t₂) : Alters p t ((name, none) :: ws) t₂

variable {ws : List (String × Option Bytes)}

theorem Alters.plain (h : (ofRoot root).Alters t ws t') (hbinary : (ofRoot root).binaryName ≠ "")
    (hplain : (ofRoot root).Plain t) : (ofRoot root).Plain t' := by
  induction h with
  | start => exact hplain
  | write before product written ih =>
    exact (ih.touched_of_write hbinary product written).plain ih
  | remove before product removed ih =>
    exact (ih.touched_of_remove hbinary product removed).plain ih

/-- A product has the bytes that were written to it last, else those that it had before. -/
theorem Alters.reads (h : (ofRoot root).Alters t ws t') (hbinary : (ofRoot root).binaryName ≠ "")
    (hplain : (ofRoot root).Plain t) (hname : name ∈ (ofRoot root).productNames)
    (hlast : ws.lookup name = some (some bytes) ∨
      ws.lookup name = none ∧ t.readBytes ((ofRoot root).product name) = .ok bytes) :
    t'.readBytes ((ofRoot root).product name) = .ok bytes := by
  induction h with
  | start => exact (hlast.resolve_left (by simp)).2
  | @write ws t₁ t₂ changed new before product written ih =>
    by_cases hsame : name = changed
    · subst hsame
      obtain rfl : new = bytes := by simpa using hlast
      exact reads_written hbinary product written
    · rw [List.lookup_cons, beq_false_of_ne hsame] at hlast
      have hplain₁ := before.plain hbinary hplain
      exact (hplain₁.touched_of_write hbinary product written).reads_other hplain₁ hbinary hname
        hsame (ih hlast)
  | @remove ws t₁ t₂ changed before product removed ih =>
    by_cases hsame : name = changed
    · subst hsame
      simp at hlast
    · rw [List.lookup_cons, beq_false_of_ne hsame] at hlast
      have hplain₁ := before.plain hbinary hplain
      exact (hplain₁.touched_of_remove hbinary product removed).reads_other hplain₁ hbinary hname
        hsame (ih hlast)

theorem writeTraceConfig_eq_ok {p : Project} {f : TraceFormatting} {mode : ExecutionMode}
    (h : p.writeTraceConfig f mode t = (.ok (), t')) :
    ∃ t₁, (t₁ = t ∨ t.removeFile p.traceConfig = .ok t₁) ∧
      t₁.writeText p.traceConfig (p.traceConfigText f mode) = .ok t' := by
  unfold Project.writeTraceConfig at h
  simp only at h
  split at h
  · cases hremove : t.removeFile p.traceConfig with
    | error e => simp [hremove] at h
    | ok t₁ =>
      refine ⟨t₁, .inr rfl, ?_⟩
      cases hwrite : t₁.writeText p.traceConfig (p.traceConfigText f mode) <;>
        simp_all
  · refine ⟨t, .inl rfl, ?_⟩
    cases hwrite : t.writeText p.traceConfig (p.traceConfigText f mode) <;> simp_all

theorem Alters.writeTraceConfig {t₁ : FileTree} {f : TraceFormatting} {mode : ExecutionMode}
    (h : (ofRoot root).Alters t ws t₁)
    (hwrite : (ofRoot root).writeTraceConfig f mode t₁ = (.ok (), t')) :
    ∃ front, (∀ c ∈ front, c = ("zlog.conf", none)) ∧
      (ofRoot root).Alters t (("zlog.conf",
        some ((ofRoot root).traceConfigText f mode).utf8Bytes) :: (front ++ ws)) t' := by
  have hconfig : "zlog.conf" ∈ (ofRoot root).productNames := by simp [productNames]
  obtain ⟨t₂, rfl | hremove, hwritten⟩ := writeTraceConfig_eq_ok hwrite
  · exact ⟨[], by simp, .write h hconfig hwritten⟩
  · exact ⟨[("zlog.conf", none)], by simp, .write (.remove h hconfig hremove) hconfig hwritten⟩

end

end Project

/-- The paths of the products are different in pairs, just if the program is not called like the
trace configuration. Where no link stands in the place of a product, each keeps what was written to
it, whatever becomes of the others, and the trace configuration is replaced in this way as well. -/
theorem products_keep_apart {root : Path} (hbinary : (Project.ofRoot root).binaryName ≠ "") :
    ((Project.ofRoot root).products.Pairwise (fun p q => p.same q = false) ↔
      (Project.ofRoot root).binaryName ≠ "zlog.conf") ∧
    ∀ {t t' : FileTree} {ws : List (String × Option Bytes)}, (Project.ofRoot root).Plain t →
      (Project.ofRoot root).Alters t ws t' →
      ∀ name ∈ (Project.ofRoot root).productNames, ∀ bytes,
        (ws.lookup name = some (some bytes) ∨ ws.lookup name = none ∧
          t.readBytes ((Project.ofRoot root).product name) = .ok bytes) →
        t'.readBytes ((Project.ofRoot root).product name) = .ok bytes ∧
        (name ≠ "zlog.conf" → ∀ f mode t'',
          (Project.ofRoot root).writeTraceConfig f mode t' = (.ok (), t'') →
          t''.readBytes ((Project.ofRoot root).product name) = .ok bytes) := by
  refine ⟨Project.products_apart_iff hbinary, fun hplain halters name hname bytes hlast => ?_⟩
  refine ⟨halters.reads hbinary hplain hname hlast, fun hne f mode t'' hwrite => ?_⟩
  obtain ⟨front, hfront, halters'⟩ := halters.writeTraceConfig hwrite
  refine halters'.reads hbinary hplain hname ?_
  have hskip : front.lookup name = none := by
    rw [List.lookup_eq_none_iff]
    intro c hc
    rw [hfront c hc]
    simpa using hne
  rwa [List.lookup_cons, beq_false_of_ne hne, List.lookup_append, hskip, Option.none_or]

namespace Demo

/-- A project that has nothing but products. -/
def shelf (name : String) (products : Entries) : FileTree :=
  ⟨.dir [(name, .dir [("build", .dir products)])], []⟩

theorem shelf_plain : (Project.ofRoot ⟨"/demo"⟩).Plain (shelf "demo" []) := by
  rintro d hd name - ⟨target, hlink⟩
  have hbuild : (shelf "demo" []).resolve (Project.ofRoot ⟨"/demo"⟩).outputDir true =
      .ok ["demo", "build"] := by decide +kernel
  obtain rfl : ["demo", "build"] = d := Except.ok.inj (hbuild.symm.trans hd)
  simp [shelf, Node.at?, Node.child?, Node.entries, Entries.find?] at hlink

def shelved : List (String × Option Bytes) :=
  [("zlog.conf", some [2]), ((Project.ofRoot ⟨"/demo"⟩).binaryName, some [1])]

theorem shelf_alters : ∃ t', (Project.ofRoot ⟨"/demo"⟩).Alters (shelf "demo" []) shelved t' := by
  have hboth : (((shelf "demo" []).write (Project.ofRoot ⟨"/demo"⟩).binary [1]).toOption.bind
      fun t => (t.write (Project.ofRoot ⟨"/demo"⟩).traceConfig [2]).toOption).isSome = true := by
    decide +kernel
  cases hfirst : (shelf "demo" []).write (Project.ofRoot ⟨"/demo"⟩).binary [1] with
  | error e => simp [hfirst, Except.toOption] at hboth
  | ok t =>
    cases hsecond : t.write (Project.ofRoot ⟨"/demo"⟩).traceConfig [2] with
    | error e => simp [hfirst, hsecond, Except.toOption] at hboth
    | ok t' =>
      exact ⟨t', .write (.write .start (by decide +kernel) hfirst) (by decide +kernel) hsecond⟩

/-- The program has the name of the trace configuration. -/
def namesake : FileTree := shelf "zlog.conf" [("zlog.conf", .file [1] true)]

def replaced : Except OsError Unit × FileTree :=
  (Project.ofRoot ⟨"/zlog.conf"⟩).writeTraceConfig {} .onHost namesake

/-- The compiled specification is a link to the program. -/
def pointing : FileTree :=
  shelf "demo" [("demo", .file [1] true), ("instrumented_demo.tessla.json", .link "demo")]

def dockered : Setting := ⟨.ofRoot ⟨"/demo"⟩, { useDocker := true }⟩

def emptyDocument : Outcome := ⟨some 0, none, ["\x7b\x7d"], [], ""⟩

end Demo

theorem products_keep_apart_in_demo :
    (Project.ofRoot ⟨"/demo"⟩).binaryName ≠ "" ∧
    (Project.ofRoot ⟨"/demo"⟩).Plain (Demo.shelf "demo" []) ∧
    (Project.ofRoot ⟨"/demo"⟩).products.Pairwise (fun p q => p.same q = false) ∧
    ∃ t', (Project.ofRoot ⟨"/demo"⟩).Alters (Demo.shelf "demo" []) Demo.shelved t' ∧
      t'.readBytes (Project.ofRoot ⟨"/demo"⟩).binary = .ok [1] ∧
      t'.readBytes (Project.ofRoot ⟨"/demo"⟩).traceConfig = .ok [2] := by
  have hbinary : (Project.ofRoot ⟨"/demo"⟩).binaryName ≠ "" := by decide +kernel
  obtain ⟨t', hwrites⟩ := Demo.shelf_alters
  obtain ⟨hapart, hreads⟩ := products_keep_apart hbinary
  exact ⟨hbinary, Demo.shelf_plain, hapart.2 (by decide +kernel), t', hwrites,
    (hreads Demo.shelf_plain hwrites _ (by decide +kernel) [1]
      (.inl (by decide +kernel))).1,
    (hreads Demo.shelf_plain hwrites "zlog.conf" (by decide +kernel) [2]
      (.inl (by decide +kernel))).1⟩

/-- A program that is called like the trace configuration is replaced by it. A program is replaced
by the compiled specification as well, if a link leads from there to the program. -/
theorem products_share_file :
    ((Project.ofRoot ⟨"/zlog.conf"⟩).binaryName ≠ "" ∧
      (Project.ofRoot ⟨"/zlog.conf"⟩).binary = (Project.ofRoot ⟨"/zlog.conf"⟩).traceConfig ∧
      Demo.namesake.readBytes (Project.ofRoot ⟨"/zlog.conf"⟩).binary = .ok [1] ∧
      Demo.replaced.1 = .ok () ∧
      Demo.replaced.2.readBytes (Project.ofRoot ⟨"/zlog.conf"⟩).binary ≠ .ok [1]) ∧
    (Demo.pointing.readBytes (Project.ofRoot ⟨"/demo"⟩).binary = .ok [1] ∧
      (Stage.compileSpecification.interpret Demo.dockered default Demo.emptyDocument
        Demo.pointing).toOption.map
          (fun r => r.2.readBytes (Project.ofRoot ⟨"/demo"⟩).binary) =
            some (.ok "\x7b\x7d".utf8Bytes)) := by
  decide +kernel

end TraceWorkbench
