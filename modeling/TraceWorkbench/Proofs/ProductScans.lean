import TraceWorkbench.Proofs.ProductPaths
import TraceWorkbench.Proofs.ScanChanges
import TraceWorkbench.Stage.Build
import TraceWorkbench.Stage.Verify

set_option autoImplicit false

/-!
# Products in scans

The products lie below the root, where sources and specifications are looked for as well. A scan
tells them apart by the ends of their names, and this fails only for a program that is itself called
like a source or a specification.
-/
namespace TraceWorkbench

namespace Project

def productNames (p : Project) : List String :=
  [p.binaryName, p.intermediateName, p.instrumentedIntermediateName, p.instrumentedBinaryName,
    p.traceFileName, p.compiledSpecName, "zlog.conf"]

def products (p : Project) : List Path :=
  [p.binary, p.intermediate, p.instrumentedIntermediate, p.instrumentedBinary, p.traceFile,
    p.compiledSpec, p.traceConfig]

theorem products_eq (p : Project) : p.products = p.productNames.map p.product := rfl

/-- The ends of the names of products, apart from that of the compiled specification. -/
def endings : List String := [".bc", ".trace", "zlog.conf"]

section

variable {root : Path} {name : String}

theorem name_of_product (hbinary : (ofRoot root).binaryName ≠ "")
    (hname : name ∈ (ofRoot root).productNames) :
    '/' ∉ name.toList ∧ Path.partOf? name.toList = some (.name name.toList) := by
  have hslash := no_slash_binaryName root
  have hpart := partOf?_binaryName hbinary
  simp only [productNames, List.mem_cons, List.not_mem_nil, or_false] at hname
  rcases hname with rfl | rfl | rfl | rfl | rfl | rfl | rfl
  · exact ⟨hslash, hpart⟩
  · refine ⟨by simp [intermediateName, hslash], Path.partOf?_of_long ?_⟩
    simp [intermediateName]
  · refine ⟨by simp [instrumentedIntermediateName, instrumentedBinaryName, hslash],
      Path.partOf?_of_long ?_⟩
    simp [instrumentedIntermediateName]
  · refine ⟨by simp [instrumentedBinaryName, hslash], Path.partOf?_of_long ?_⟩
    simp [instrumentedBinaryName]
  · refine ⟨by simp [traceFileName, instrumentedBinaryName, hslash], Path.partOf?_of_long ?_⟩
    simp [traceFileName]
  · refine ⟨no_slash_compiledSpecName root, Path.partOf?_of_long ?_⟩
    simp [compiledSpecName]
  · exact ⟨by decide, Path.partOf?_of_long (by decide)⟩

end

end Project

namespace Scan

variable {suffix name : String}

theorem hasSuffix_iff : hasSuffix suffix name = true ↔ suffix.toList <:+ name.toList :=
  List.isSuffixOf_iff_suffix

theorem not_hasSuffix_append {ending : String} (front : String)
    (h : ¬suffix.toList <:+ ending.toList ∧ ¬ending.toList <:+ suffix.toList) :
    hasSuffix suffix (front ++ ending) ≠ true := by
  rw [Ne, hasSuffix_iff, String.toList_append]
  intro hsuffix
  rcases List.suffix_or_suffix_of_suffix hsuffix (List.suffix_append _ _) with hends | hends
  · exact h.1 hends
  · exact h.2 hends

theorem hasSuffix_of_append {front : String} {c : Char} (hfirst : suffix.toList.head? = some c)
    (hfront : c ∉ front.toList) (h : hasSuffix suffix (front ++ name) = true) :
    hasSuffix suffix name = true := by
  rw [hasSuffix_iff, String.toList_append] at h
  rw [hasSuffix_iff]
  obtain ⟨before, hbefore⟩ := h
  rcases List.append_eq_append_iff.1 hbefore with ⟨more, hmore, hsuffix⟩ | ⟨more, -, hname⟩
  · cases more with
    | nil => exact ⟨[], by simpa using hsuffix⟩
    | cons a more =>
      obtain rfl : a = c := by simpa [hsuffix] using hfirst
      exact absurd (by simp [hmore]) hfront
  · exact ⟨more, hname.symm⟩

/-- A product is found by its end only if the program is, or it is the compiled specification. -/
theorem hasSuffix_product {p : Project} (hfirst : suffix.toList.head? = some '.')
    (hendings : ∀ ending ∈ Project.endings,
      ¬suffix.toList <:+ ending.toList ∧ ¬ending.toList <:+ suffix.toList)
    (hname : name ∈ p.productNames) (h : hasSuffix suffix name = true) :
    hasSuffix suffix p.binaryName = true ∨ name = p.compiledSpecName := by
  have hother : ∀ front, ∀ ending ∈ Project.endings, hasSuffix suffix (front ++ ending) ≠ true :=
    fun front ending hending => not_hasSuffix_append front (hendings ending hending)
  simp only [Project.productNames, List.mem_cons, List.not_mem_nil, or_false] at hname
  rcases hname with rfl | rfl | rfl | rfl | rfl | rfl | rfl
  · exact .inl h
  · exact absurd h (hother _ ".bc" (by decide))
  · exact absurd h (hother _ ".bc" (by decide))
  · exact .inl (hasSuffix_of_append hfirst (by decide) h)
  · exact absurd h (hother _ ".trace" (by decide))
  · exact .inr rfl
  · exact absurd h (hother "" "zlog.conf" (by decide))

variable {p : Project}

theorem unwanted_product (hsuffix : suffix = cSuffix ∨ suffix = specSuffix)
    (hbinary : hasSuffix suffix p.binaryName = false) (hname : name ∈ p.productNames) :
    ¬Wanted suffix name := by
  intro hwanted
  have hproduct : hasSuffix suffix p.binaryName = true ∨ name = p.compiledSpecName := by
    rcases hsuffix with rfl | rfl
    · exact hasSuffix_product (by decide) (by decide) hname hwanted.2
    · exact hasSuffix_product (by decide) (by decide) hname hwanted.2
  obtain rfl := hproduct.resolve_left (by simp [hbinary])
  rcases hsuffix with rfl | rfl
  · exact not_hasSuffix_append p.instrumentedBinaryName (by decide) hwanted.2
  · exact not_hasSuffix_append p.instrumentedBinaryName (by decide) hwanted.2

theorem wanted_product (hbinary : hasSuffix compiledSpecSuffix p.binaryName = false)
    (hname : name ∈ p.productNames) (hwanted : Wanted compiledSpecSuffix name) :
    name = p.compiledSpecName :=
  (hasSuffix_product (by decide) (by decide) hname hwanted.2).resolve_left (by simp [hbinary])

end Scan

/-- No link to nothing stands at a path. -/
def FileTree.Unbroken (t : FileTree) (p : Path) : Prop :=
  ∀ target, t.linkStat p = .ok (.link target) → t.exists? p = true

namespace Project

variable {root dir : Path} {name suffix : String} {t t' : FileTree} {bytes : Bytes}

/-- A product that is written to its path is put under its name into the directory of the products,
unless the path led to a file before. -/
theorem product_put (hbinary : (ofRoot root).binaryName ≠ "")
    (hname : name ∈ (ofRoot root).productNames)
    (hunbroken : t.Unbroken ((ofRoot root).product name))
    (h : t.write ((ofRoot root).product name) bytes = .ok t') :
    ∃ q d r executable, t' = t.put q bytes executable ∧ Node.Writable (t.root.at? q) ∧
      t.resolve (ofRoot root).outputDir true = .ok d ∧ (∃ es, t.root.at? d = some (.dir es)) ∧
      t.resolve root true = .ok r ∧ (∃ es, t.root.at? r = some (.dir es)) ∧
      (t.root.at? q = none → q = d ++ [name]) := by
  obtain ⟨hslash, hpart⟩ := name_of_product hbinary hname
  obtain ⟨q, executable, hq, hwants, hw, rfl⟩ := FileTree.write_eq_ok h
  have houtput := usable_outputDir hslash (FileTree.resolve_eq_ok_iff.1 hq).1
  obtain ⟨q', d, hq', hsame, hd, hin⟩ :=
    FileTree.resolve_above (product_parts_of_name root hslash hpart) houtput hwants hq
  have hroot : root.text ≠ "" := by
    rintro hempty
    obtain ⟨text⟩ := root
    subst hempty
    exact hbinary (by decide +kernel)
  obtain ⟨-, r, -, -, hr, -, hrdir⟩ := FileTree.resolve_above (outputDir_parts root)
    (usable_root hroot houtput) (wantsDirectory_outputDir root) hd
  refine ⟨q, d, r, executable, rfl, hw, hd, hin.2, hr, hrdir, fun hnone => ?_⟩
  rcases hsame with rfl | ⟨target, hlink⟩
  · rw [hin.1, String.ofList_toList]
  · have hexists := hunbroken target (by simp [FileTree.linkStat, hq', hlink])
    simp [FileTree.exists?, FileTree.stat, hq, hnone, Except.toOption] at hexists

/-- A scan does not take a product for what it looks for. In the directory of the products, some may
be left out of account. -/
def Ignores (root : Path) (suffix : String) (keep : Path → Bool) (dir : Path) (name : String) :
    Prop :=
  Scan.Wanted suffix name →
    dir = (ofRoot root).outputDir ∧ keep ((ofRoot root).product name) = false

theorem product_scan (hbinary : (ofRoot root).binaryName ≠ "")
    (hname : name ∈ (ofRoot root).productNames)
    (hunbroken : t.Unbroken ((ofRoot root).product name))
    (h : t.write ((ofRoot root).product name) bytes = .ok t') (htidy : t.root.Tidy)
    (hdir : dir = root ∨ dir = (ofRoot root).outputDir) {keep : Path → Bool}
    (hignores : Ignores root suffix keep dir name) :
    (Scan.files t' dir suffix).filter keep = (Scan.files t dir suffix).filter keep := by
  obtain ⟨q, d, r, executable, rfl, hw, hd, houtput, hr, hroot, hnew⟩ :=
    product_put hbinary hname hunbroken h
  obtain ⟨place, hplace, es, hes⟩ :
      ∃ place, t.resolve dir true = .ok place ∧ ∃ es, t.root.at? place = some (.dir es) := by
    rcases hdir with rfl | rfl
    · exact ⟨r, hr, hroot⟩
    · exact ⟨d, hd, houtput⟩
  refine Scan.filter_files_put keep htidy hplace hes hw ?_
  intro inside hinside hnone front last hlast hwanted
  have hfree : t.root.at? q = none := by
    rw [hinside, Node.at?_append, hes]
    exact hnone
  have hplaces : place ++ front ++ [last] = d ++ [name] := by
    rw [← hnew hfree, hinside, hlast, List.append_assoc]
  obtain ⟨hfront, hsame⟩ := List.append_inj' hplaces rfl
  obtain rfl : last = name := by simpa using hsame
  obtain ⟨rfl, hkeep⟩ := hignores hwanted
  obtain rfl : place = d := Except.ok.inj (hplace.symm.trans hd)
  obtain rfl : front = [] := by simpa using hfront
  exact hkeep

/-- Products are made, one after the other: each is written to its path, where no link to nothing
stands. -/
inductive Builds (p : Project) (t : FileTree) : FileTree → Prop
  | start : Builds p t t
  | make {t₁ t₂ : FileTree} {path : Path} {bytes : Bytes} (before : Builds p t t₁)
      (product : path ∈ p.products) (unbroken : t₁.Unbroken path)
      (written : t₁.write path bytes = .ok t₂) : Builds p t t₂

theorem Builds.tidy {p : Project} (h : p.Builds t t') (htidy : t.root.Tidy) : t'.root.Tidy := by
  induction h with
  | start => exact htidy
  | make before product unbroken written ih =>
    obtain ⟨q, executable, -, -, -, rfl⟩ := FileTree.write_eq_ok written
    exact ih.alterAt (.file _ _) q

theorem Builds.exists {p : Project} (h : p.Builds t t') {path : Path}
    (hthere : t.exists? path = true) : t'.exists? path = true := by
  induction h with
  | start => exact hthere
  | make before product unbroken written ih =>
    obtain ⟨q, executable, -, -, hw, rfl⟩ := FileTree.write_eq_ok written
    exact FileTree.put_exists _ executable hw ih

theorem Builds.scan (h : (ofRoot root).Builds t t') (hbinary : (ofRoot root).binaryName ≠ "")
    (htidy : t.root.Tidy) (hdir : dir = root ∨ dir = (ofRoot root).outputDir)
    (suffix : String) (keep : Path → Bool)
    (hignores : ∀ name ∈ (ofRoot root).productNames, Ignores root suffix keep dir name) :
    (Scan.files t' dir suffix).filter keep = (Scan.files t dir suffix).filter keep := by
  induction h with
  | start => rfl
  | make before product unbroken written ih =>
    rw [products_eq, List.mem_map] at product
    obtain ⟨name, hname, rfl⟩ := product
    rw [← ih]
    exact product_scan hbinary hname unbroken written (before.tidy htidy) hdir
      (hignores name hname)

end Project

namespace Stage

variable {S : Setting} {t t' : FileTree} {plan : Plan}

theorem compileC_plan_of_same {emitLlvm : Bool}
    (hexists : ∀ path, t.exists? path = true → t'.exists? path = true)
    (hsources : Scan.cSources t' S.project.root = Scan.cSources t S.project.root)
    (h : (compileC emitLlvm).plan S t = .ok plan) : (compileC emitLlvm).plan S t' = .ok plan := by
  have hrequire : ∀ missing, requireOnHost S t S.config.clangPath missing = .ok () →
      requireOnHost S t' S.config.clangPath missing = .ok () := by
    intro missing hthere
    unfold requireOnHost at hthere ⊢
    cases hmode : S.mode.isOnHost with
    | false => rfl
    | true =>
      cases hold : t.exists? S.config.clangPath with
      | false => simp [hmode, hold] at hthere
      | true => simp [hexists _ hold]
  cases hclang : requireOnHost S t S.config.clangPath .clangNotFound with
  | error e => simp [compileC, hclang, bind, Except.bind] at h
  | ok u =>
    simp only [compileC, hclang, hrequire _ hclang, hsources] at h ⊢
    exact h

theorem compilerPlan_input (h : compileSpecification.plan S t = .ok plan) :
    ∃ spec, (Scan.specFiles t S.project.root).head? = some spec ∧ plan.input = some spec := by
  simp only [compileSpecification, bind, Except.bind] at h
  split at h
  · simp at h
  · split at h
    · simp [throw, throwThe, MonadExceptOf.throw] at h
    · rename_i spec hspec
      obtain rfl := Except.ok.inj h
      exact ⟨spec, hspec, rfl⟩

theorem instrumentArgs_of_head {spec : Path} {args : List String}
    (hspec : (Scan.specFiles t S.project.root).head? = some spec)
    (h : instrumentArgs S t = .ok args) :
    ∃ text, t.readText spec = .ok text ∧
      args = (Tracked.functions text).flatMap fun name => ["-instrument", name] := by
  simp only [instrumentArgs, hspec] at h
  cases hread : t.readText spec with
  | error e => simp [hread] at h
  | ok text =>
    rw [hread] at h
    exact ⟨text, rfl, (Except.ok.inj h).symm⟩

end Stage

/-- What is built is not taken for what it is built from, unless the program is itself called like a
source or a specification. Then the sources stay the same after any products were made, and are
compiled as before; so do the specifications, and the one that is compiled after some products were
made is the one whose functions were instrumented before; and of the compiled specifications only
the product among them can be new. -/
theorem products_are_not_inputs {root : Path} {t t' : FileTree}
    (hbinary : (Project.ofRoot root).binaryName ≠ "") (htidy : t.root.Tidy)
    (h : (Project.ofRoot root).Builds t t') :
    (Scan.hasSuffix Scan.cSuffix (Project.ofRoot root).binaryName = false →
      Scan.cSources t' root = Scan.cSources t root ∧
      ∀ (cfg : ToolchainConfig) (emitLlvm : Bool) (plan : Plan),
        (Stage.compileC emitLlvm).plan ⟨.ofRoot root, cfg⟩ t = .ok plan →
        (Stage.compileC emitLlvm).plan ⟨.ofRoot root, cfg⟩ t' = .ok plan) ∧
    (Scan.hasSuffix Scan.specSuffix (Project.ofRoot root).binaryName = false →
      Scan.specFiles t' root = Scan.specFiles t root ∧
      ∀ (cfg : ToolchainConfig) (args : List String) (plan : Plan),
        Stage.instrumentArgs ⟨.ofRoot root, cfg⟩ t = .ok args →
        Stage.compileSpecification.plan ⟨.ofRoot root, cfg⟩ t' = .ok plan →
        ∃ spec text, plan.input = some spec ∧ t.readText spec = .ok text ∧
          args = (Tracked.functions text).flatMap fun name => ["-instrument", name]) ∧
    (Scan.hasSuffix Scan.compiledSpecSuffix (Project.ofRoot root).binaryName = false →
      (Scan.compiledSpecs t' (Project.ofRoot root).outputDir).filter
          (· ≠ (Project.ofRoot root).compiledSpec) =
        (Scan.compiledSpecs t (Project.ofRoot root).outputDir).filter
          (· ≠ (Project.ofRoot root).compiledSpec)) := by
  have hroot : ∀ {suffix : String}, suffix = Scan.cSuffix ∨ suffix = Scan.specSuffix →
      Scan.hasSuffix suffix (Project.ofRoot root).binaryName = false →
      Scan.files t' root suffix = Scan.files t root suffix := by
    intro suffix hsuffix hname
    have hscan := h.scan hbinary htidy (.inl rfl) suffix (fun _ => true)
      fun name hproduct hwanted => absurd hwanted (Scan.unwanted_product hsuffix hname hproduct)
    simpa using hscan
  refine ⟨fun hc => ?_, fun hspec => ?_, fun hcompiled => ?_⟩
  · have hsources : Scan.cSources t' root = Scan.cSources t root := hroot (.inl rfl) hc
    exact ⟨hsources, fun _ _ _ hplan =>
      Stage.compileC_plan_of_same (fun _ hthere => h.exists hthere) hsources hplan⟩
  · have hspecs : Scan.specFiles t' root = Scan.specFiles t root := hroot (.inr rfl) hspec
    refine ⟨hspecs, fun cfg args plan hargs hplan => ?_⟩
    obtain ⟨spec, hfirst, hinput⟩ := Stage.compilerPlan_input hplan
    have hsame : (Scan.specFiles t root).head? = some spec := by
      rw [← hspecs]
      exact hfirst
    obtain ⟨text, hread, hwords⟩ :=
      Stage.instrumentArgs_of_head (S := ⟨.ofRoot root, cfg⟩) hsame hargs
    exact ⟨spec, text, hinput, hread, hwords⟩
  · refine h.scan hbinary htidy (.inr rfl) _ _ fun name hproduct hwanted => ⟨rfl, ?_⟩
    rw [Scan.wanted_product hcompiled hproduct hwanted]
    simp [Project.compiledSpec]

namespace Demo

/-- A project without sources. -/
def bare (name : String) : FileTree := ⟨.dir [(name, .dir [("build", .dir [])])], []⟩

theorem built {p : Project} {t : FileTree} (path : Path) (hpath : path ∈ p.products)
    (hfree : (t.linkStat path).toOption.isSome = false) (found : FileTree → List Path)
    {paths : List Path} (hfound : (t.write path []).toOption.map found = some paths) :
    ∃ t', p.Builds t t' ∧ found t' = paths := by
  cases hwrite : t.write path [] with
  | error e => simp [hwrite, Except.toOption] at hfound
  | ok t' =>
    refine ⟨t', .make .start hpath (fun target hlink => ?_) hwrite, ?_⟩
    · simp [hlink, Except.toOption] at hfree
    · simpa [hwrite, Except.toOption] using hfound

/-- A project in which a link to nothing stands in the place of a product. -/
def linked : FileTree :=
  ⟨.dir [("demo", .dir [("build", .dir [("zlog.conf", .link "../extra.c")])])], []⟩

/-- A project with a source and a specification. -/
def small : FileTree :=
  ⟨.dir [("demo", .dir [("build", .dir []), ("main.c", .file [] false),
    ("spec.tessla", .file [] false)])], []⟩

theorem small_tidy : small.root.Tidy := by
  have hinner : Node.Tidy (.dir [("build", .dir []), ("main.c", .file [] false),
      ("spec.tessla", .file [] false)]) := by
    refine .dir _ (by unfold Entries.Sorted; decide +kernel) ?_
    simp only [List.mem_cons, List.not_mem_nil, or_false]
    rintro e (rfl | rfl | rfl)
    · exact .dir [] .nil (by simp)
    · exact .file [] false
    · exact .file [] false
  refine .dir _ (List.pairwise_singleton _ _) ?_
  simpa using hinner

end Demo

theorem products_are_not_inputs_of_demo :
    (Project.ofRoot ⟨"/demo"⟩).binaryName ≠ "" ∧ Demo.small.root.Tidy ∧
    ∃ t', (Project.ofRoot ⟨"/demo"⟩).Builds Demo.small t' ∧
      Scan.files t' ⟨"/demo/build"⟩ "demo" = [⟨"/demo/build/demo"⟩] ∧
      Scan.cSources t' ⟨"/demo"⟩ = [⟨"/demo/main.c"⟩] ∧
      Scan.specFiles t' ⟨"/demo"⟩ = [⟨"/demo/spec.tessla"⟩] := by
  have hbinary : (Project.ofRoot ⟨"/demo"⟩).binaryName ≠ "" := by decide +kernel
  have hbuilt : ∃ t', (Project.ofRoot ⟨"/demo"⟩).Builds Demo.small t' ∧
      Scan.files t' ⟨"/demo/build"⟩ "demo" = [⟨"/demo/build/demo"⟩] :=
    Demo.built (Project.ofRoot ⟨"/demo"⟩).binary List.mem_cons_self (by decide +kernel)
      (fun t => Scan.files t ⟨"/demo/build"⟩ "demo") (by decide +kernel)
  obtain ⟨t', h, hfound⟩ := hbuilt
  obtain ⟨hsources, hspecs, -⟩ := products_are_not_inputs hbinary Demo.small_tidy h
  refine ⟨hbinary, Demo.small_tidy, t', h, hfound, ?_, ?_⟩
  · rw [(hsources (by decide +kernel)).1]
    decide +kernel
  · rw [(hspecs (by decide +kernel)).1]
    decide +kernel

/-- A program that is called like a source, a specification or a compiled one is found as such. So
is a source that a link to nothing in the place of a product leads to. -/
theorem products_taken_for_inputs :
    (Scan.cSources (Demo.bare "demo.c") ⟨"/demo.c"⟩ = [] ∧
      ∃ t, (Project.ofRoot ⟨"/demo.c"⟩).Builds (Demo.bare "demo.c") t ∧
        Scan.cSources t ⟨"/demo.c"⟩ = [⟨"/demo.c/build/demo.c"⟩]) ∧
    (Scan.specFiles (Demo.bare "demo.tessla") ⟨"/demo.tessla"⟩ = [] ∧
      ∃ t, (Project.ofRoot ⟨"/demo.tessla"⟩).Builds (Demo.bare "demo.tessla") t ∧
        Scan.specFiles t ⟨"/demo.tessla"⟩ = [⟨"/demo.tessla/build/demo.tessla"⟩]) ∧
    (Scan.compiledSpecs (Demo.bare "demo.tessla.json") ⟨"/demo.tessla.json/build"⟩ = [] ∧
      ∃ t, (Project.ofRoot ⟨"/demo.tessla.json"⟩).Builds (Demo.bare "demo.tessla.json") t ∧
        Scan.compiledSpecs t ⟨"/demo.tessla.json/build"⟩ =
          [⟨"/demo.tessla.json/build/demo.tessla.json"⟩]) ∧
    (Scan.cSources Demo.linked ⟨"/demo"⟩ = [] ∧
      (Demo.linked.write (Project.ofRoot ⟨"/demo"⟩).traceConfig []).toOption.map
        (fun t => Scan.cSources t ⟨"/demo"⟩) = some [⟨"/demo/extra.c"⟩]) := by
  refine ⟨⟨by decide +kernel, ?_⟩, ⟨by decide +kernel, ?_⟩, ⟨by decide +kernel, ?_⟩,
    by decide +kernel, by decide +kernel⟩
  · exact Demo.built (Project.ofRoot ⟨"/demo.c"⟩).binary List.mem_cons_self (by decide +kernel)
      (fun t => Scan.cSources t ⟨"/demo.c"⟩) (by decide +kernel)
  · exact Demo.built (Project.ofRoot ⟨"/demo.tessla"⟩).binary List.mem_cons_self
      (by decide +kernel) (fun t => Scan.specFiles t ⟨"/demo.tessla"⟩) (by decide +kernel)
  · exact Demo.built (Project.ofRoot ⟨"/demo.tessla.json"⟩).binary List.mem_cons_self
      (by decide +kernel) (fun t => Scan.compiledSpecs t ⟨"/demo.tessla.json/build"⟩)
      (by decide +kernel)

end TraceWorkbench
