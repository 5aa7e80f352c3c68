import TraceWorkbench.Proofs.ProductPaths
import TraceWorkbench.Proofs.ShellCommands
import TraceWorkbench.Proofs.WorkflowOrder

set_option autoImplicit false

/-!
# What a stage hands to the next

A stage finds the product of an earlier one under the name that it was given there. On the host it
is the path of the product. In the container a script names the product from the directory that it
changes to, with the mount point in place of the root.
-/
namespace TraceWorkbench

open ShellText

/-- A call of a program, by a command or by the script inside of it. -/
structure Invocation where
  dir : Option Path := none
  program : String
  words : List String
  target : Option String := none
  deriving DecidableEq, Repr

namespace Invocation

/-- The word behind the last `-o`. -/
def output? (i : Invocation) : Option String :=
  if "-o" ∈ i.words then (i.words.reverse.takeWhile (· != "-o")).getLast? else none

/-- What an operand stands for in the directory of the call. -/
def path (i : Invocation) (operand : String) : Path :=
  match i.dir with
  | some dir => dir.join ⟨operand⟩
  | none => ⟨operand⟩

/-- The words of a call up to its end, and where its output goes. -/
def restOf : List Token → Option (List String × Option String)
  | [] => some ([], none)
  | [.operator ">", .word target] => some ([], some target)
  | .word w :: rest => (restOf rest).map fun (words, target) => (w :: words, target)
  | _ => none

/-- The one call of a script that changes its directory first. -/
def ofTokens : List Token → Option Invocation
  | .word "cd" :: .word dir :: .operator "&&" :: .word program :: rest =>
    (restOf rest).map fun (words, target) => ⟨some ⟨dir⟩, program, words, target⟩
  | _ => none

theorem restOf_words (words : List String) (target : Option String) :
    restOf (words.map .word ++ redirection target) = some (words, target) := by
  induction words with
  | nil => cases target <;> rfl
  | cons w rest ih => simp [restOf, ih]

theorem output?_eq {i : Invocation} {before after : List String} {out : String}
    (hi : i.words = before ++ "-o" :: out :: after) (hout : "-o" ∉ out :: after) :
    i.output? = some out := by
  have hmem : "-o" ∈ i.words := by simp [hi]
  have hreverse : i.words.reverse = (out :: after).reverse ++ "-o" :: before.reverse := by simp [hi]
  have htake : ∀ w ∈ (out :: after).reverse, (w != "-o") = true := by
    intro w hw
    rw [bne_iff_ne]
    rintro rfl
    exact hout (List.mem_reverse.1 hw)
  rw [output?, if_pos hmem, hreverse, List.takeWhile_append_of_pos htake]
  simp

end Invocation

/-- What the command calls: on the host its program, in the container that of the script. -/
def CommandSpec.invocation? (c : CommandSpec) : ExecutionMode → Option Invocation
  | .onHost => some ⟨c.workingDir, c.program.text, c.args, c.stdoutFile.map Path.text⟩
  | .inContainer => (c.args.getLast?.bind read).bind Invocation.ofTokens

theorem Stage.read_inContainer {s : Setting} {script : ShellScript} {subdir : Option String}
    (henv : ∀ e ∈ script.env, isName e.1.toList = true ∧ NulFree e.2)
    (hc : (inContainer s script subdir).NulFree) :
    (inContainer s script subdir).args.getLast?.bind read =
      some ([.word "cd", .word (s.config.container.workingDir subdir), .operator "&&"] ++
        script.tokens) := by
  have hline : NulFree (CommandSpec.scriptLine s.config.container subdir script) :=
    hc.args _ (by simp [inContainer, CommandSpec.containerized, CommandSpec.scriptLine])
  obtain ⟨hcd, hrender⟩ := nulFree_append_iff.1 hline
  have hdir := (nulFree_append_iff.1 (nulFree_append_iff.1 hcd).1).2.of_shellQuoted
  have hs := ShellScript.sound_of_nulFree_render henv hrender
  have hlast : (inContainer s script subdir).args.getLast? =
      some (CommandSpec.scriptLine s.config.container subdir script) := rfl
  rw [hlast, Option.bind_some, CommandSpec.read_scriptLine hdir hs]

theorem Stage.invocation_inContainer {s : Setting} {script : ShellScript} {subdir : Option String}
    (henv : script.env = []) (hc : (inContainer s script subdir).NulFree) :
    (inContainer s script subdir).invocation? .inContainer =
      some ⟨some ⟨s.config.container.workingDir subdir⟩, script.program, script.args,
        script.redirect⟩ := by
  rw [CommandSpec.invocation?, read_inContainer (by simp [henv]) hc]
  simp [Invocation.ofTokens, ShellScript.tokens, henv, Invocation.restOf_words]

theorem exists_slashes (s : String) :
    ∃ k, s.toList = (trimSlashes s).toList ++ List.replicate k '/' := by
  have hall : ∀ c ∈ s.toList.reverse.takeWhile (· == '/'), c = '/' := by
    intro c hc
    simpa using List.mem_takeWhile_imp hc
  refine ⟨(s.toList.reverse.takeWhile (· == '/')).length, ?_⟩
  have hsplit := List.takeWhile_append_dropWhile (p := (· == '/')) (l := s.toList.reverse)
  rw [List.eq_replicate_of_mem hall] at hsplit
  have hreverse := congrArg List.reverse hsplit
  simpa [trimSlashes] using hreverse.symm

theorem ContainerConfig.workingDir_parts {c : ContainerConfig}
    (hmount : (⟨c.mountPoint⟩ : Path).isAbsolute = true) (sub : String) :
    (⟨c.workingDir (some sub)⟩ : Path).parts = (⟨c.mountPoint⟩ : Path).parts ++
      (Path.segments sub.toList).filterMap Path.partOf? := by
  obtain ⟨k, hk⟩ := exists_slashes c.mountPoint
  have hdir : (c.workingDir (some sub)).toList =
      (trimSlashes c.mountPoint).toList ++ '/' :: sub.toList := by
    simp [workingDir]
  simp only [Path.parts, hdir, hk]
  by_cases htrim : (trimSlashes c.mountPoint).toList = []
  · rw [htrim] at hk ⊢
    cases k with
    | zero => simp [Path.isAbsolute, hk] at hmount
    | succ k =>
      have hroot : Path.partsOf ('/' :: List.replicate k '/') = [.root] :=
        Path.partsOf_slashes (s := ['/']) (by simp) k
      rw [List.nil_append, List.nil_append, List.replicate_succ, hroot]
      rfl
  · rw [Path.partsOf_slash htrim, Path.partsOf_slashes htrim]

theorem ContainerConfig.workingDir_ne (c : ContainerConfig) :
    c.workingDir none ≠ c.workingDir (some Project.buildDir) := by
  intro h
  obtain ⟨k, hk⟩ := exists_slashes c.mountPoint
  have htext : c.mountPoint.toList =
      (trimSlashes c.mountPoint).toList ++ '/' :: Project.buildDir.toList := by
    simpa [workingDir] using congrArg String.toList h
  have hslashes := List.append_cancel_left (hk.symm.trans htext)
  have hmem : 'b' ∈ List.replicate k '/' := by
    rw [hslashes]
    decide
  exact absurd (List.eq_of_mem_replicate hmem) (by decide)

/-- How a script may name a product: from the mount point, or from where the products are. -/
def Invocation.Spells (i : Invocation) (c : ContainerConfig) (operand name : String) : Prop :=
  (i.dir = some ⟨c.workingDir none⟩ ∧ operand = Stage.inBuildDir name) ∨
    (i.dir = some ⟨c.workingDir (some Project.buildDir)⟩ ∧ operand = "./" ++ name)

namespace Invocation.Spells

variable {i j : Invocation} {c : ContainerConfig} {a b name : String}

theorem path_eq {dir : String} (hdir : i.dir = some ⟨dir⟩) :
    i.path a = (⟨dir⟩ : Path).join ⟨a⟩ := by
  rw [path, hdir]

theorem parts (h : i.Spells c a name) (hmount : (⟨c.mountPoint⟩ : Path).isAbsolute = true)
    (hname : '/' ∉ name.toList) :
    (i.path a).parts = (⟨c.mountPoint⟩ : Path).parts ++ Project.placeOf name := by
  have hbuild : Path.segments Project.buildDir.toList = [Project.buildDir.toList] := rfl
  have hpart : Path.partOf? Project.buildDir.toList = some (.name Project.buildDir.toList) := rfl
  rcases h with ⟨hdir, rfl⟩ | ⟨hdir, rfl⟩
  · have hne : c.mountPoint ≠ "" := by
      rintro hempty
      simp [Path.isAbsolute, hempty] at hmount
    have htext : (Stage.inBuildDir name).toList =
        Project.buildDir.toList ++ '/' :: name.toList := by
      simp [Stage.inBuildDir]
    have hrelative : (⟨Stage.inBuildDir name⟩ : Path).isAbsolute = false := by
      simp [Path.isAbsolute, htext, Project.buildDir]
    rw [path_eq hdir, Path.parts_join (p := ⟨c.workingDir none⟩) hne hrelative, htext,
      Path.segments_pair (by decide) hname]
    cases hlast : Path.partOf? name.toList <;>
      simp [Project.placeOf, hpart, hlast, ContainerConfig.workingDir]
  · have hne : c.workingDir (some Project.buildDir) ≠ "" := by
      simp [ContainerConfig.workingDir]
    have htext : ("./" ++ name).toList = ['.'] ++ '/' :: name.toList := by simp
    have hrelative : (⟨"./" ++ name⟩ : Path).isAbsolute = false := by
      simp [Path.isAbsolute, htext]
    have hhere : Path.partOf? ['.'] = none := rfl
    rw [path_eq hdir, Path.parts_join (p := ⟨c.workingDir (some Project.buildDir)⟩) hne hrelative,
      ContainerConfig.workingDir_parts hmount, hbuild, htext,
      Path.segments_pair (by decide) hname]
    cases hlast : Path.partOf? name.toList <;> simp [Project.placeOf, hpart, hhere, hlast]

theorem unique (ha : i.Spells c a name) (hb : j.Spells c b name) (hdir : i.dir = j.dir) :
    a = b := by
  have hne := c.workingDir_ne
  rcases ha with ⟨hi, rfl⟩ | ⟨hi, rfl⟩ <;> rcases hb with ⟨hj, rfl⟩ | ⟨hj, rfl⟩
  · rfl
  · rw [hi, hj] at hdir
    exact absurd (congrArg Path.text (Option.some.inj hdir)) hne
  · rw [hi, hj] at hdir
    exact absurd (congrArg Path.text (Option.some.inj hdir)).symm hne
  · rfl

end Invocation.Spells

namespace Stage

/-- What a planned command calls, in the mode that it was planned for. -/
structure Calls (s : Setting) (c : CommandSpec) (host container : Invocation) : Prop where
  onHost : s.mode = .onHost → c.invocation? .onHost = some host
  inContainer : s.mode = .inContainer → c.NulFree → c.invocation? .inContainer = some container

theorem calls_by_mode {s : Setting} {host : CommandSpec} {script : ShellScript}
    {subdir : Option String} (henv : script.env = []) :
    Calls s (match s.mode with
      | .onHost => host
      | .inContainer => inContainer s script subdir)
      ⟨host.workingDir, host.program.text, host.args, host.stdoutFile.map Path.text⟩
      ⟨some ⟨s.config.container.workingDir subdir⟩, script.program, script.args,
        script.redirect⟩ := by
  constructor
  · intro hm
    rw [hm]
    rfl
  · intro hm hc
    rw [hm] at hc ⊢
    exact invocation_inContainer henv hc

section

variable {s : Setting} {t : FileTree} {plan : Plan}

theorem compileC_calls {emitLlvm : Bool} (h : (compileC emitLlvm).plan s t = .ok plan) :
    ∃ words words', Calls s plan.command
      { program := s.config.clangPath.text
        words := words ++ ["-o", (compileProduct emitLlvm s.project).text] }
      { dir := some ⟨s.config.container.workingDir none⟩
        program := "clang"
        words := words' ++ ["-o", inBuildDir (compileProductName emitLlvm s.project)] } := by
  simp only [compileC, bind, Except.bind] at h
  split at h
  · simp at h
  · split at h
    · simp [throw, throwThe, MonadExceptOf.throw] at h
    · obtain rfl := Except.ok.inj h
      exact ⟨_, _, calls_by_mode rfl⟩

theorem patchAssembly_calls (h : patchAssembly.plan s t = .ok plan) :
    ∃ lib lib' rest rest', Calls s plan.command
      { program := s.config.optPath.text
        words := ["-load", lib, instrumentPass, s.project.intermediate.text] ++ rest
        target := some s.project.instrumentedIntermediate.text }
      { dir := some ⟨s.config.container.workingDir none⟩
        program := s.config.container.llvmBin ++ "/opt"
        words := ["-load", lib', instrumentPass, inBuildDir s.project.intermediateName] ++ rest'
        target := some (inBuildDir s.project.instrumentedIntermediateName) } := by
  simp only [patchAssembly, bind, Except.bind] at h
  split at h
  · simp at h
  · split at h
    · simp at h
    · split at h
      · simp at h
      · obtain rfl := Except.ok.inj h
        exact ⟨_, _, _, _, calls_by_mode rfl⟩

theorem assemble_calls (h : assemble.plan s t = .ok plan) :
    ∃ libs libs', "-o" ∉ libs ∧ "-o" ∉ libs' ∧ Calls s plan.command
      { program := s.config.clangPath.text
        words := s.project.instrumentedIntermediate.text :: "-o" ::
          s.project.instrumentedBinary.text :: libs }
      { dir := some ⟨s.config.container.workingDir none⟩
        program := "clang++"
        words := inBuildDir s.project.instrumentedIntermediateName :: "-o" ::
          inBuildDir s.project.instrumentedBinaryName :: libs' } := by
  have hlibs : ∀ dir last : String, last ≠ "-o" → "-o" ∉ tracingLibs ++ ["-L" ++ dir, last] := by
    intro dir last hlast
    have hdir : "-o" ≠ "-L" ++ dir := by
      intro h
      simpa using congrArg String.toList h
    simp [tracingLibs, hdir, Ne.symm hlast]
  simp only [assemble, bind, Except.bind] at h
  split at h
  · simp at h
  · split at h
    · simp at h
    · obtain rfl := Except.ok.inj h
      exact ⟨_, _, hlibs s.config.instrumentationLibDir.text "-llogger" (by decide),
        hlibs s.config.container.instrumentDir "-lLogger" (by decide), calls_by_mode rfl⟩

theorem runProduct_calls (s : Setting) (product : Path) (name : String) :
    Calls s (runProduct s product name)
      { dir := some s.project.outputDir, program := product.text, words := [] }
      { dir := some ⟨s.config.container.workingDir (some Project.buildDir)⟩
        program := "./" ++ name
        words := [] } :=
  calls_by_mode rfl

theorem runBinary_calls (h : runBinary.plan s t = .ok plan) : Calls s plan.command
    { dir := some s.project.outputDir, program := s.project.binary.text, words := [] }
    { dir := some ⟨s.config.container.workingDir (some Project.buildDir)⟩
      program := "./" ++ s.project.binaryName
      words := [] } := by
  simp only [runBinary, bind, Except.bind] at h
  split at h
  · simp at h
  · obtain rfl := Except.ok.inj h
    exact runProduct_calls _ _ _

theorem runInstrumentedBinary_calls (h : runInstrumentedBinary.plan s t = .ok plan) :
    Calls s plan.command
      { dir := some s.project.outputDir, program := s.project.instrumentedBinary.text, words := [] }
      { dir := some ⟨s.config.container.workingDir (some Project.buildDir)⟩
        program := "./" ++ s.project.instrumentedBinaryName
        words := [] } := by
  simp only [runInstrumentedBinary, bind, Except.bind] at h
  split at h
  · simp at h
  · obtain rfl := Except.ok.inj h
    exact runProduct_calls _ _ _

end

end Stage

def Setting.inMode (root : Path) (cfg : ToolchainConfig) (m : ExecutionMode) : Setting :=
  ⟨.ofRoot root, { cfg with useDocker := m == .inContainer }⟩

theorem Setting.inMode_mode (root : Path) (cfg : ToolchainConfig) (m : ExecutionMode) :
    (inMode root cfg m).mode = m := by
  cases m <;> rfl

namespace Stage

/-- In every plan the operand is the product of this name: by its path on the host, and in the
container by one of the names that a script may use. -/
structure Names {α : Type} (s : Stage α) (operand : Invocation → Option String) (root : Path)
    (cfg : ToolchainConfig) (name : String) : Prop where
  onHost : ∀ t plan, s.plan (.inMode root cfg .onHost) t = .ok plan →
    ∃ i, plan.command.invocation? .onHost = some i ∧
      operand i = some ((Project.ofRoot root).product name).text
  inContainer : ∀ t plan, s.plan (.inMode root cfg .inContainer) t = .ok plan →
    plan.command.NulFree → ∃ i a, plan.command.invocation? .inContainer = some i ∧
      operand i = some a ∧ i.Spells cfg.container a name

variable {root : Path} {cfg : ToolchainConfig}

theorem names_of_calls {α : Type} {s : Stage α} {operand : Invocation → Option String}
    {name : String} (h : ∀ m t plan, s.plan (.inMode root cfg m) t = .ok plan →
      ∃ host container a, Calls (.inMode root cfg m) plan.command host container ∧
        operand host = some ((Project.ofRoot root).product name).text ∧
        operand container = some a ∧ container.Spells cfg.container a name) :
    s.Names operand root cfg name where
  onHost t plan hp := by
    obtain ⟨host, container, a, hcalls, hhost, -, -⟩ := h _ t plan hp
    exact ⟨host, hcalls.onHost (Setting.inMode_mode _ _ _), hhost⟩
  inContainer t plan hp hc := by
    obtain ⟨host, container, a, hcalls, -, hcontainer, hspells⟩ := h _ t plan hp
    exact ⟨container, a, hcalls.inContainer (Setting.inMode_mode _ _ _) hc, hcontainer, hspells⟩

theorem ne_output_flag {w : String} (hw : '/' ∈ w.toList) : "-o" ≠ w := by
  rintro rfl
  exact absurd hw (by decide)

theorem slash_mem_product (root : Path) {name : String} (hname : '/' ∉ name.toList) :
    '/' ∈ ((Project.ofRoot root).product name).text.toList := by
  simp [Project.product_text root hname]

theorem slash_mem_inBuildDir (name : String) : '/' ∈ (inBuildDir name).toList := by
  simp [inBuildDir]

theorem no_slash_compileProductName (root : Path) (emitLlvm : Bool) :
    '/' ∉ (compileProductName emitLlvm (.ofRoot root)).toList := by
  cases emitLlvm <;>
    simp [compileProductName, Project.intermediateName, Project.no_slash_binaryName]

theorem compileC_names_output (emitLlvm : Bool) : (compileC emitLlvm).Names Invocation.output? root
    cfg (compileProductName emitLlvm (.ofRoot root)) := by
  refine names_of_calls fun m t plan h => ?_
  obtain ⟨words, words', hcalls⟩ := compileC_calls h
  have hname := no_slash_compileProductName root emitLlvm
  have hproduct : compileProduct emitLlvm (.ofRoot root) =
      (Project.ofRoot root).product (compileProductName emitLlvm (.ofRoot root)) := by
    cases emitLlvm <;> rfl
  refine ⟨_, _, _, hcalls, ?_, Invocation.output?_eq rfl ?_, .inl ⟨rfl, rfl⟩⟩
  · simp only [Setting.inMode, hproduct]
    refine Invocation.output?_eq rfl ?_
    simpa using ne_output_flag (slash_mem_product root hname)
  · simpa using ne_output_flag (slash_mem_inBuildDir _)

theorem patchAssembly_names_input : patchAssembly.Names (fun i => i.words[3]?) root cfg
    (Project.ofRoot root).intermediateName := by
  refine names_of_calls fun m t plan h => ?_
  obtain ⟨_, _, _, _, hcalls⟩ := patchAssembly_calls h
  exact ⟨_, _, _, hcalls, rfl, rfl, .inl ⟨rfl, rfl⟩⟩

theorem patchAssembly_names_target : patchAssembly.Names Invocation.target root cfg
    (Project.ofRoot root).instrumentedIntermediateName := by
  refine names_of_calls fun m t plan h => ?_
  obtain ⟨_, _, _, _, hcalls⟩ := patchAssembly_calls h
  exact ⟨_, _, _, hcalls, rfl, rfl, .inl ⟨rfl, rfl⟩⟩

theorem assemble_names_input : assemble.Names (fun i => i.words[0]?) root cfg
    (Project.ofRoot root).instrumentedIntermediateName := by
  refine names_of_calls fun m t plan h => ?_
  obtain ⟨_, _, -, -, hcalls⟩ := assemble_calls h
  exact ⟨_, _, _, hcalls, rfl, rfl, .inl ⟨rfl, rfl⟩⟩

theorem no_slash_instrumentedBinaryName (root : Path) :
    '/' ∉ (Project.ofRoot root).instrumentedBinaryName.toList := by
  simp [Project.instrumentedBinaryName, Project.no_slash_binaryName]

theorem assemble_names_output : assemble.Names Invocation.output? root cfg
    (Project.ofRoot root).instrumentedBinaryName := by
  refine names_of_calls fun m t plan h => ?_
  obtain ⟨libs, libs', hlibs, hlibs', hcalls⟩ := assemble_calls h
  have hname := no_slash_instrumentedBinaryName root
  have hproduct := ne_output_flag (slash_mem_product root hname)
  have hplace := ne_output_flag (slash_mem_inBuildDir (Project.ofRoot root).instrumentedBinaryName)
  refine ⟨_, _, _, hcalls, Invocation.output?_eq List.singleton_append.symm ?_,
    Invocation.output?_eq List.singleton_append.symm ?_, .inl ⟨rfl, rfl⟩⟩
  · exact List.not_mem_cons_of_ne_of_not_mem hproduct hlibs
  · exact List.not_mem_cons_of_ne_of_not_mem hplace hlibs'

theorem runBinary_names_program : runBinary.Names (fun i => some i.program) root cfg
    (Project.ofRoot root).binaryName :=
  names_of_calls fun _ _ _ h => ⟨_, _, _, runBinary_calls h, rfl, rfl, .inr ⟨rfl, rfl⟩⟩

theorem runInstrumentedBinary_names_program : runInstrumentedBinary.Names
    (fun i => some i.program) root cfg (Project.ofRoot root).instrumentedBinaryName :=
  names_of_calls fun _ _ _ h => ⟨_, _, _, runInstrumentedBinary_calls h, rfl, rfl, .inr ⟨rfl, rfl⟩⟩

theorem result_of_unlessFailed {α : Type} {s : Stage α} {S : Setting} {plan : Plan} {o : Outcome}
    {t : FileTree} {a : α} {r : α × FileTree} (hjudge : s.judge S plan o t = unlessFailed o t a)
    (h : s.interpret S plan o t = .ok r) : r.1 = a := by
  rw [((accepted_iff_of_unlessFailed hjudge).1 h).2]

end Stage

structure HandOver where
  producer : Stage Path
  consumer : SomeStage
  written : Invocation → Option String
  taken : Invocation → Option String

/-- The optimizer is told a library and a pass before its input. -/
def handOvers : List HandOver := [
  ⟨.compileC true, ⟨_, .patchAssembly⟩, Invocation.output?, fun i => i.words[3]?⟩,
  ⟨.patchAssembly, ⟨_, .assemble⟩, Invocation.target, fun i => i.words[0]?⟩,
  ⟨.assemble, ⟨_, .runInstrumentedBinary⟩, Invocation.output?, fun i => some i.program⟩,
  ⟨.compileC false, ⟨_, .runBinary⟩, Invocation.output?, fun i => some i.program⟩]

/-- Both stages name the product that the producer reports. -/
structure HandOver.Agrees (k : HandOver) (root : Path) (cfg : ToolchainConfig) (name : String) :
    Prop where
  noSlash : '/' ∉ name.toList
  written : k.producer.Names k.written root cfg name
  taken : k.consumer.2.Names k.taken root cfg name
  reported : ∀ m plan o t r, k.producer.interpret (.inMode root cfg m) plan o t = .ok r →
    r.1 = (Project.ofRoot root).product name

theorem handOvers_agree (root : Path) (cfg : ToolchainConfig) {k : HandOver}
    (hk : k ∈ handOvers) : ∃ name, k.Agrees root cfg name := by
  simp only [handOvers, List.mem_cons, List.not_mem_nil, or_false] at hk
  rcases hk with rfl | rfl | rfl | rfl
  · exact ⟨_, Stage.no_slash_compileProductName root true, Stage.compileC_names_output true,
      Stage.patchAssembly_names_input, fun _ _ _ _ _ h => Stage.result_of_unlessFailed rfl h⟩
  · refine ⟨_, ?_, Stage.patchAssembly_names_target, Stage.assemble_names_input,
      fun _ _ _ _ _ h => Stage.result_of_unlessFailed rfl h⟩
    simp [Project.instrumentedIntermediateName, Stage.no_slash_instrumentedBinaryName]
  · exact ⟨_, Stage.no_slash_instrumentedBinaryName root, Stage.assemble_names_output,
      Stage.runInstrumentedBinary_names_program,
      fun _ _ _ _ _ h => Stage.result_of_unlessFailed rfl h⟩
  · exact ⟨_, Stage.no_slash_compileProductName root false, Stage.compileC_names_output false,
      Stage.runBinary_names_program, fun _ _ _ _ _ h => Stage.result_of_unlessFailed rfl h⟩

theorem Invocation.path_of_absolute (i : Invocation) {p : Path} (hp : p.isAbsolute = true) :
    i.path p.text = p := by
  unfold path
  split
  · exact if_pos hp
  · rfl

/-- What a stage makes is what the next one takes, in both modes, whatever the project is called. On
the host both commands name the path that the producer reports. In the container both scripts name,
from the directories that they change to, what lies at the same place under the mount point. The
commands there must be free of NULs, or they cannot be run at all. -/
theorem stages_hand_over {cfg : ToolchainConfig}
    (hmount : (⟨cfg.container.mountPoint⟩ : Path).isAbsolute = true) (root : Path) {k : HandOver}
    (hk : k ∈ handOvers) :
    ∃ (p : Path) (place : List Path.Part), p.parts = root.parts ++ place ∧
      (∀ m plan o t r, k.producer.interpret (.inMode root cfg m) plan o t = .ok r → r.1 = p) ∧
      (∀ t t' plan plan', k.producer.plan (.inMode root cfg .onHost) t = .ok plan →
        k.consumer.2.plan (.inMode root cfg .onHost) t' = .ok plan' →
        ∃ i j, plan.command.invocation? .onHost = some i ∧
          plan'.command.invocation? .onHost = some j ∧
          k.written i = some p.text ∧ k.taken j = some p.text ∧
          (root.isAbsolute = true → i.path p.text = p ∧ j.path p.text = p)) ∧
      ∀ t t' plan plan', k.producer.plan (.inMode root cfg .inContainer) t = .ok plan →
        k.consumer.2.plan (.inMode root cfg .inContainer) t' = .ok plan' →
        plan.command.NulFree → plan'.command.NulFree →
        ∃ i j a b, plan.command.invocation? .inContainer = some i ∧
          plan'.command.invocation? .inContainer = some j ∧
          k.written i = some a ∧ k.taken j = some b ∧ (i.dir = j.dir → a = b) ∧
          (i.path a).parts = (⟨cfg.container.mountPoint⟩ : Path).parts ++ place ∧
          (j.path b).parts = (⟨cfg.container.mountPoint⟩ : Path).parts ++ place := by
  obtain ⟨name, hk⟩ := handOvers_agree root cfg hk
  refine ⟨(Project.ofRoot root).product name, Project.placeOf name,
    Project.product_parts root hk.noSlash, hk.reported, ?_, ?_⟩
  · intro t t' plan plan' hp hp'
    obtain ⟨i, hi, hwritten⟩ := hk.written.onHost t plan hp
    obtain ⟨j, hj, htaken⟩ := hk.taken.onHost t' plan' hp'
    refine ⟨i, j, hi, hj, hwritten, htaken, fun hroot => ?_⟩
    have habsolute : ((Project.ofRoot root).product name).isAbsolute = true :=
      Path.isAbsolute_join (Path.isAbsolute_join hroot _) _
    exact ⟨i.path_of_absolute habsolute, j.path_of_absolute habsolute⟩
  · intro t t' plan plan' hp hp' hc hc'
    obtain ⟨i, a, hi, hwritten, ha⟩ := hk.written.inContainer t plan hp hc
    obtain ⟨j, b, hj, htaken, hb⟩ := hk.taken.inContainer t' plan' hp' hc'
    exact ⟨i, j, a, b, hi, hj, hwritten, htaken, ha.unique hb, ha.parts hmount hk.noSlash,
      hb.parts hmount hk.noSlash⟩

namespace Demo

def tools : FileTree :=
  ⟨.dir [("usr", .dir [
    ("bin", .dir [("clang", .file [] true), ("opt", .file [] true)]),
    ("local", .dir [("lib", .dir [("libInstrumentFunctions.so", .file [] false)])])])], []⟩

def oddRoot : Path := ⟨"/me/it's -o $demo"⟩

def planned {α : Type} (s : Stage α) (m : ExecutionMode) : Plan :=
  ((s.plan (.inMode oddRoot {} m) tools).toOption).getD default

def patched : HandOver :=
  ⟨.patchAssembly, ⟨_, .assemble⟩, Invocation.target, fun i => i.words[0]?⟩

theorem patched_nulFree : (planned Stage.patchAssembly .inContainer).command.NulFree ∧
    (planned Stage.assemble .inContainer).command.NulFree := by
  constructor <;> constructor <;> decide +kernel

end Demo

theorem stages_hand_over_of_odd_root :
    (⟨({} : ToolchainConfig).container.mountPoint⟩ : Path).isAbsolute = true ∧
    Demo.patched ∈ handOvers ∧ ∃ (p : Path) (place : List Path.Part),
      p.parts = Demo.oddRoot.parts ++ place ∧
      (∃ i j, (Demo.planned Stage.patchAssembly .onHost).command.invocation? .onHost = some i ∧
        (Demo.planned Stage.assemble .onHost).command.invocation? .onHost = some j ∧
        i.target = some p.text ∧ j.words[0]? = some p.text) ∧
      ∃ i j a b,
        (Demo.planned Stage.patchAssembly .inContainer).command.invocation? .inContainer = some i ∧
        (Demo.planned Stage.assemble .inContainer).command.invocation? .inContainer = some j ∧
        i.target = some a ∧ j.words[0]? = some b ∧
        (i.path a).parts = (⟨"/tessla"⟩ : Path).parts ++ place ∧
        (j.path b).parts = (⟨"/tessla"⟩ : Path).parts ++ place := by
  have hmem : Demo.patched ∈ handOvers := .tail _ (.head _)
  obtain ⟨p, place, hparts, -, hhost, hcontainer⟩ :=
    @stages_hand_over {} (by decide) Demo.oddRoot _ hmem
  obtain ⟨i, j, hi, hj, hwritten, htaken, -⟩ := hhost Demo.tools Demo.tools
    (Demo.planned Stage.patchAssembly .onHost) (Demo.planned Stage.assemble .onHost) rfl rfl
  obtain ⟨i', j', a, b, hi', hj', hwritten', htaken', -, ha, hb⟩ := hcontainer Demo.tools Demo.tools
    (Demo.planned Stage.patchAssembly .inContainer) (Demo.planned Stage.assemble .inContainer)
    rfl rfl Demo.patched_nulFree.1 Demo.patched_nulFree.2
  exact ⟨by decide, hmem, p, place, hparts, ⟨i, j, hi, hj, hwritten, htaken⟩, i', j', a, b, hi',
    hj', hwritten', htaken', ha, hb⟩

end TraceWorkbench
