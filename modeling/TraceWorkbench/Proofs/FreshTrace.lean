import TraceWorkbench.Proofs.FileChanges
import TraceWorkbench.Proofs.HandOvers
import TraceWorkbench.Proofs.VerifiedSpec

set_option autoImplicit false

/-!
# The trace that is verified

The logger, the removal before a run and the server name the trace from three directories. They mean
one file, and it is gone when the program is announced, so a trace that is found later is new.
-/
namespace TraceWorkbench

open ShellText

def ShellText.Token.isAssignment : Token → Bool
  | assignment .. => true
  | _ => false

/-- What the command calls, after the variables that a script sets for it. -/
def CommandSpec.call? (c : CommandSpec) : ExecutionMode → Option Invocation
  | .onHost => c.invocation? .onHost
  | .inContainer =>
    (c.args.getLast?.bind read).bind fun ts => Invocation.ofTokens (ts.filter (!·.isAssignment))

namespace Project

theorem no_slash_traceFileName (root : Path) : '/' ∉ (ofRoot root).traceFileName.toList := by
  simp [traceFileName, instrumentedBinaryName, no_slash_binaryName]

theorem traceFile_parts (root : Path) : (ofRoot root).traceFile.parts =
    (ofRoot root).outputDir.parts ++ [.name (ofRoot root).traceFileName.toList] :=
  product_parts_of_name root (no_slash_traceFileName root)
    (Path.partOf?_of_long (by simp [traceFileName, instrumentedBinaryName]))

end Project

namespace Stage

theorem filter_tokens (script : ShellScript) :
    script.tokens.filter (!·.isAssignment) =
      (script.program :: script.args).map .word ++ redirection script.redirect := by
  have hwords : ∀ ws : List String,
      (ws.map Token.word).filter (!·.isAssignment) = ws.map .word := by
    intro ws
    rw [List.filter_eq_self]
    intro t ht
    obtain ⟨w, -, rfl⟩ := List.mem_map.1 ht
    rfl
  have henv : ∀ f : String × String → Token, (∀ e, (f e).isAssignment = true) →
      (script.env.map f).filter (!·.isAssignment) = [] := by
    intro f hf
    rw [List.filter_eq_nil_iff]
    intro t ht
    obtain ⟨e, -, rfl⟩ := List.mem_map.1 ht
    simp [hf e]
  have hredirect : (redirection script.redirect).filter (!·.isAssignment) =
      redirection script.redirect := by
    cases script.redirect <;> rfl
  rw [ShellScript.tokens, List.filter_append, List.filter_append, henv _ fun _ => rfl, hwords,
    hredirect, List.nil_append]

theorem call_inContainer {s : Setting} {script : ShellScript} {subdir : Option String}
    (henv : ∀ e ∈ script.env, isName e.1.toList = true ∧ NulFree e.2)
    (hc : (inContainer s script subdir).NulFree) :
    (inContainer s script subdir).call? .inContainer =
      some ⟨some ⟨s.config.container.workingDir subdir⟩, script.program, script.args,
        script.redirect⟩ := by
  rw [CommandSpec.call?, read_inContainer henv hc, Option.bind_some, List.filter_append,
    filter_tokens]
  simp [Token.isAssignment, Invocation.ofTokens, Invocation.restOf_words]

theorem call_runProduct {s : Setting} (product : Path) (name : String) :
    (s.mode = .onHost → (runProduct s product name).call? .onHost =
      some { dir := some s.project.outputDir, program := product.text, words := [] }) ∧
    (s.mode = .inContainer → (runProduct s product name).NulFree →
      (runProduct s product name).call? .inContainer = some {
        dir := some ⟨s.config.container.workingDir (some Project.buildDir)⟩
        program := "./" ++ name
        words := [] }) := by
  unfold runProduct
  constructor
  · intro hm
    rw [hm]
    rfl
  · intro hm hc
    rw [hm] at hc ⊢
    exact call_inContainer (by simp) hc

theorem call_serverCommand {s : Setting} (json : Path) (outputs : List TraceOutput) :
    (s.mode = .onHost → (serverCommand s json outputs).call? .onHost = some {
      program := s.config.tesslaServer.text
      words := json.text :: "--trace" :: s.project.traceFile.text ::
        outputs.flatMap fun o => ["-o", o.selector] }) ∧
    (s.mode = .inContainer → (serverCommand s json outputs).NulFree →
      (serverCommand s json outputs).call? .inContainer = some {
        dir := some ⟨s.config.container.workingDir none⟩
        program := s.config.container.server
        words := containerPath s json :: "--trace" :: inBuildDir s.project.traceFileName ::
          outputs.flatMap fun o => ["-o", o.selector] }) := by
  unfold serverCommand
  constructor
  · intro hm
    rw [hm]
    rfl
  · intro hm hc
    simp only [hm] at hc ⊢
    exact call_inContainer (by simp [isName, isNameStart, isNameChar, NulFree]) hc

theorem runInstrumentedBinary_command {s : Setting} {t : FileTree} {plan : Plan}
    (h : runInstrumentedBinary.plan s t = .ok plan) :
    plan.command = runProduct s s.project.instrumentedBinary s.project.instrumentedBinaryName := by
  simp only [runInstrumentedBinary, bind, Except.bind] at h
  split at h
  · simp at h
  · obtain rfl := Except.ok.inj h
    rfl

/-- What stood at a path is gone, if it was there, and nothing else is changed. -/
structure Cleared (t t' : FileTree) (p : Path) : Prop where
  gone : ∀ m, t'.linkStat p ≠ .ok m
  only : t' = t ∨ ∃ q, t.resolve p false = .ok q ∧ t.ChangesOnly t' q ∧ t'.root.at? q = none

theorem removeTrace_clears {root : Path} {s : Setting} (hs : s.project = .ofRoot root)
    {t t' : FileTree} (h : removeTrace s t = .ok t') : Cleared t t' s.project.traceFile := by
  unfold removeTrace at h
  cases hremove : t.removeFile s.project.traceFile with
  | ok t₁ =>
    rw [hremove] at h
    obtain rfl := Except.ok.inj h
    have hparts : s.project.traceFile.parts = s.project.outputDir.parts ++
        [.name s.project.traceFileName.toList] := by
      rw [hs]
      exact Project.traceFile_parts root
    obtain ⟨q, hq, hchanges, hgone⟩ := FileTree.removeFile_spec hparts hremove
    exact ⟨hchanges.linkStat_gone hq hgone, .inr ⟨q, hq, hchanges, hgone⟩⟩
  | error e =>
    cases e with
    | noEntry =>
      rw [hremove] at h
      obtain rfl := Except.ok.inj h
      exact ⟨FileTree.not_linkStat_of_noEntry hremove, .inl rfl⟩
    | _ => simp [hremove] at h

end Stage

namespace Project

def traceRule (records target : String) : String :=
  records ++ "_cat.DEBUG \"" ++ target ++ "\"; " ++ records ++ "\n"

theorem traceConfigText_rules (p : Project) (f : TraceFormatting) (m : ExecutionMode) :
    ∃ formats, p.traceConfigText f m = formats ++ "[rules]\n" ++
      traceRule "variable_values" (p.traceTarget m) ++
      traceRule "function_calls" (p.traceTarget m) := by
  have hvalues : traceRule "variable_values" (p.traceTarget m) =
      "variable_values_cat.DEBUG \"" ++ p.traceTarget m ++ "\"; variable_values\n" := by
    apply String.toList_inj.1
    simp [traceRule]
  have hcalls : traceRule "function_calls" (p.traceTarget m) =
      "function_calls_cat.DEBUG \"" ++ p.traceTarget m ++ "\"; function_calls\n" := by
    apply String.toList_inj.1
    simp [traceRule]
  refine ⟨"[formats]\n" ++ "variable_values = \"" ++ f.variableValues ++ "\"\n" ++
    "function_calls = \"" ++ f.functionCalls ++ "\"\n", ?_⟩
  unfold traceConfigText
  simp only [hvalues, hcalls, String.append_assoc]

end Project

/-- The event that an effect makes known. -/
def Effect.event? : {β : Type} → Effect β → Option Event
  | _, .publish e => some e
  | _, _ => none

namespace Activity

variable {σ α β : Type} {h : Host σ}

/-- What a run makes known, each event with the world in which it becomes known. -/
def published (h : Host σ) : Activity α → World σ → List (Event × World σ)
  | .done _, _ => []
  | .step e next, w =>
    (e.event?.map fun event => (event, w)).toList ++
      published h (next (w.answer h e).1) (w.answer h e).2

theorem published_bind (x : Activity α) (f : α → Activity β) (w : World σ) :
    (x.bind f).published h w =
      x.published h w ++ (f (x.run h w).1).published h (x.run h w).2 := by
  induction x generalizing w with
  | done a => rfl
  | step e next ih =>
    change _ ++ ((next (w.answer h e).1).bind f).published h (w.answer h e).2 = _
    rw [ih, ← List.append_assoc]
    rfl

theorem published_andThen (x : Activity α) (f : α → Activity β) (w : World σ) :
    (x >>= f).published h w =
      x.published h w ++ (f (x.run h w).1).published h (x.run h w).2 := published_bind x f w

/-- No stage is announced in the run. -/
def Unannounced (h : Host σ) (x : Activity α) (w : World σ) : Prop :=
  ∀ q ∈ x.published h w, q.1.startedStage? = none

theorem Unannounced.bind {x : Activity α} {f : α → Activity β} {w : World σ}
    (hx : x.Unannounced h w) (hf : (f (x.run h w).1).Unannounced h (x.run h w).2) :
    (x >>= f).Unannounced h w := by
  intro q hq
  rw [published_andThen, List.mem_append] at hq
  exact hq.elim (hx q) (hf q)

theorem Unannounced.skip {x : Activity α} {f : α → Activity β} {w : World σ}
    (hx : x.Unannounced h w) {q : Event × World σ} (hq : q ∈ (x >>= f).published h w)
    (hstart : q.1.startedStage? ≠ none) :
    q ∈ (f (x.run h w).1).published h (x.run h w).2 := by
  rw [published_andThen, List.mem_append] at hq
  exact hq.resolve_left fun hmem => hstart (hx q hmem)

theorem unannounced_perform {e : Effect α} (he : e.event? = none) (w : World σ) :
    (perform e).Unannounced h w := by
  simp [Unannounced, perform, published, he]

theorem unannounced_publish {e : Event} (he : e.startedStage? = none) (w : World σ) :
    (publish e).Unannounced h w := by
  simp [Unannounced, publish, perform, published, Effect.event?, he]

theorem unannounced_pure (a : α) (w : World σ) : (pure a : Activity α).Unannounced h w := by
  simp [Unannounced, pure, published]

theorem unannounced_publishAll {es : List Event} (hes : Quiet es) (w : World σ) :
    (publishAll es).Unannounced h w := by
  induction es generalizing w with
  | nil => simp [Unannounced, publishAll, published]
  | cons e es ih =>
    intro q hq
    rcases List.mem_cons.1 hq with rfl | hq
    · exact (hes e List.mem_cons_self).1
    · exact ih (fun e he => hes e (List.mem_cons_of_mem _ he)) _ q hq

theorem unannounced_endRun (t : Ticket) (o : Outcome) (w : World σ) :
    (endRun t o).Unannounced h w := by
  have hidle : Quiet [.controlsChanged false] := by
    simp [Quiet, Event.startedStage?, Event.isReport]
  have hquiet : Quiet (.controlsChanged false :: exitEvents t.stage o) :=
    hidle.append (quiet_exitEvents _ o)
  exact .bind (unannounced_perform (e := .release t) rfl w)
    (.bind (unannounced_publishAll hquiet _) (unannounced_pure _ _))

theorem unannounced_prepareStdout (c : CommandSpec) (w : World σ) :
    (prepareStdout c).Unannounced h w := by
  unfold prepareStdout
  split
  · exact unannounced_pure _ _
  · refine .bind (x := Activity.files _) (unannounced_perform rfl w) ?_
    split <;> exact unannounced_pure _ _

theorem unannounced_runWatched (t : Ticket) (c : CommandSpec) (echo : Bool) (w : World σ) :
    (runWatched t c echo).Unannounced h w := by
  unfold runWatched
  refine .bind (unannounced_prepareStdout c w) ?_
  split
  · exact .bind (unannounced_perform rfl _) (unannounced_endRun _ _ _)
  · refine .bind (unannounced_perform rfl _) (.bind (unannounced_perform rfl _) ?_)
    split
    · exact unannounced_endRun _ _ _
    · exact .bind (unannounced_perform rfl _)
        (.bind (unannounced_perform rfl _) (unannounced_endRun _ _ _))

theorem unannounced_conclude (S : Setting) (s : Stage α) (plan : Plan) (o : Outcome)
    (w : World σ) : (conclude S s plan o).Unannounced h w := by
  unfold conclude
  refine .bind (unannounced_perform rfl _) ?_
  split
  · exact .bind (unannounced_publishAll (quiet_successEvents s _) _) (unannounced_pure _ _)
  · exact .bind (unannounced_publishAll (quiet_failureEvents s plan o _) _) (unannounced_pure _ _)

end Activity

namespace Stage

variable {σ α : Type} {h : Host σ} {S : Setting} {s : Stage α} {w : World σ}

/-- What a stage has behind it when it is announced in the world `v`. -/
structure Announced (S : Setting) (s : Stage α) (w : World σ) (plan : Plan) (e : Event)
    (v : World σ) : Prop where
  planned : s.plan S w.files = .ok plan
  free : w.slot.holder = none
  prepared : s.beforeSpawn S w.files = .ok v.files
  event : e = .stageStarted s.kind plan.command.text

theorem announced_of_ticketed {plan : Plan} {t : Ticket} {q : Event × World σ}
    (hq : q ∈ (runTicketed S s plan t).published h w) (hstart : q.1.startedStage? ≠ none) :
    s.beforeSpawn S w.files = .ok q.2.files ∧ q.1 = .stageStarted s.kind plan.command.text := by
  unfold runTicketed at hq
  have hrest := Activity.Unannounced.skip (x := Activity.files _)
    (Activity.unannounced_perform rfl w) hq hstart
  rw [Activity.run_files] at hrest
  cases hb : s.beforeSpawn S w.files with
  | error e =>
    have hquiet : (Activity.publish (.warning ("Unable to prepare " ++ s.kind.name) e.text) >>=
        fun _ => Activity.perform (.release t) >>= fun _ =>
        pure (Result.refused (α := α) (.io e))).Unannounced h w :=
      .bind (Activity.unannounced_publish rfl _)
        (.bind (Activity.unannounced_perform rfl _) (Activity.unannounced_pure _ _))
    rw [hb] at hrest
    exact absurd (hquiet q hrest) hstart
  | ok files =>
    rw [hb] at hrest
    simp only at hrest
    rw [Activity.published_andThen, List.mem_append] at hrest
    rcases hrest with hfirst | hrest
    · obtain rfl := List.mem_singleton.1 hfirst
      exact ⟨rfl, rfl⟩
    · have hquiet : ∀ v, (Activity.publish (.controlsChanged true) >>= fun _ =>
          runWatched t plan.command s.echoStdout >>= fun o =>
          conclude S s plan o).Unannounced h v :=
        fun v => .bind (Activity.unannounced_publish rfl v)
          (.bind (Activity.unannounced_runWatched _ _ _ _)
            (Activity.unannounced_conclude _ _ _ _ _))
      exact absurd (hquiet _ q hrest) hstart

theorem announced_of_planned {plan : Plan} {q : Event × World σ}
    (hq : q ∈ (runPlanned S s plan).published h w) (hstart : q.1.startedStage? ≠ none) :
    w.slot.holder = none ∧ s.beforeSpawn S w.files = .ok q.2.files ∧
      q.1 = .stageStarted s.kind plan.command.text := by
  unfold runPlanned at hq
  have hwarned := Activity.Unannounced.skip
    (Activity.unannounced_publishAll (quiet_warnings plan.warnings) w) hq hstart
  have hacquired := Activity.Unannounced.skip (Activity.unannounced_perform rfl _) hwarned hstart
  rw [Activity.run_publishAll, Activity.run_perform] at hacquired
  cases hholder : w.slot.holder with
  | some holder =>
    have hacq := Slot.acquire_of_busy hholder s.kind
    have hquiet : ∀ v r, (Activity.publish (.warning "A process is already running" r.message) >>=
        fun _ => pure (Result.refused (α := α) r)).Unannounced h v :=
      fun v r => .bind (Activity.unannounced_publish rfl v) (Activity.unannounced_pure _ _)
    simp only [World.answer, World.publishAll, hacq] at hacquired
    exact absurd (hquiet _ _ q hacquired) hstart
  | none =>
    have hacq := Slot.acquire_of_free hholder s.kind
    simp only [World.answer, World.publishAll, hacq] at hacquired
    have hticketed := announced_of_ticketed hacquired hstart
    exact ⟨rfl, hticketed⟩

/-- A stage is announced only when it was planned, the slot was free, and it is prepared; the files
are then as its preparation left them. -/
theorem announced_of_published {q : Event × World σ}
    (hq : q ∈ (runStage S s).toActivity.published h w) (hstart : q.1.startedStage? ≠ none) :
    ∃ plan, s.Announced S w plan q.1 q.2 := by
  have hplanned := Activity.Unannounced.skip (x := Activity.look (s.plan S))
    (Activity.unannounced_perform rfl w) hq hstart
  rw [Activity.run_look] at hplanned
  cases hp : s.plan S w.files with
  | error p =>
    have hquiet : (Workflow.refusePrecondition (α := α) p).toActivity.Unannounced h w :=
      Activity.Unannounced.bind (x := Activity.publish (.preconditionFailed p.title p.message))
        (Activity.unannounced_publish rfl w) (Activity.unannounced_pure _ _)
    rw [hp] at hplanned
    exact absurd (hquiet q hplanned) hstart
  | ok plan =>
    rw [hp] at hplanned
    obtain ⟨hfree, hprepared, hevent⟩ := announced_of_planned hplanned hstart
    exact ⟨plan, hp, hfree, hprepared, hevent⟩

theorem refused_keeps_files {r : Refusal}
    (hr : ((runStage S s).runFrom h w).1 = .refused r) :
    ((runStage S s).runFrom h w).2.files = w.files := by
  cases hrefusal : s.refusal? S w with
  | some r' => exact (runStage_of_refusal hrefusal).2.1
  | none =>
    obtain ⟨plan, o, v, hran⟩ := (refusal?_eq_none_iff h S s w).1 hrefusal
    rw [runStage_of_ran hran] at hr
    cases hi : s.interpret S plan o v.files with
    | ok a => simp [run_conclude_ok hi] at hr
    | error fault => simp [run_conclude_error hi] at hr

end Stage

/-- The trace by the name that the logger of the running program has for it, and by that which the
server is given. -/
structure TraceNames (root : Path) (m : ExecutionMode) (plan plan' : Plan) (written read : Path) :
    Prop where
  logger : ∃ i, plan.command.call? m = some i ∧
    i.path ((Project.ofRoot root).traceTarget m) = written
  server : ∃ j operand, plan'.command.call? m = some j ∧ j.words[1]? = some "--trace" ∧
    j.words[2]? = some operand ∧ j.path operand = read

section

variable {root : Path} {cfg : ToolchainConfig} {t t' : FileTree} {plan plan' : Plan}

theorem traceNames_onHost (hroot : root.isAbsolute = true)
    (hp : Stage.runInstrumentedBinary.plan (.inMode root cfg .onHost) t = .ok plan)
    (hp' : Stage.runVerificationServer.plan (.inMode root cfg .onHost) t' = .ok plan') :
    TraceNames root .onHost plan plan' (Project.ofRoot root).traceFile
      (Project.ofRoot root).traceFile := by
  obtain ⟨json, hserves⟩ := Stage.serverPlan_serves hp'
  obtain ⟨outputs, -, hcommand⟩ := hserves.command
  have habsolute : (Project.ofRoot root).traceFile.isAbsolute = true :=
    Path.isAbsolute_join (Path.isAbsolute_join hroot _) _
  have hmode := Setting.inMode_mode root cfg .onHost
  have hcall := (Stage.call_runProduct (s := .inMode root cfg .onHost)
    (Project.ofRoot root).instrumentedBinary (Project.ofRoot root).instrumentedBinaryName).1 hmode
  have hcall' := (Stage.call_serverCommand json outputs).1 hmode
  refine ⟨⟨_, (congrArg (CommandSpec.call? · .onHost)
    (Stage.runInstrumentedBinary_command hp)).trans hcall, ?_⟩, _, _,
    (congrArg (CommandSpec.call? · .onHost) hcommand).trans hcall', rfl, rfl, ?_⟩
  · exact Invocation.path_of_absolute _ habsolute
  · exact Invocation.path_of_absolute _ habsolute

theorem traceNames_inContainer (hmount : (⟨cfg.container.mountPoint⟩ : Path).isAbsolute = true)
    (hp : Stage.runInstrumentedBinary.plan (.inMode root cfg .inContainer) t = .ok plan)
    (hp' : Stage.runVerificationServer.plan (.inMode root cfg .inContainer) t' = .ok plan')
    (hc : plan.command.NulFree) (hc' : plan'.command.NulFree) :
    ∃ written read, TraceNames root .inContainer plan plan' written read ∧
      written.parts = (⟨cfg.container.mountPoint⟩ : Path).parts ++
        Project.placeOf (Project.ofRoot root).traceFileName ∧
      read.parts = (⟨cfg.container.mountPoint⟩ : Path).parts ++
        Project.placeOf (Project.ofRoot root).traceFileName := by
  obtain ⟨json, hserves⟩ := Stage.serverPlan_serves hp'
  obtain ⟨outputs, -, hcommand⟩ := hserves.command
  have hmode := Setting.inMode_mode root cfg .inContainer
  have hrun := Stage.runInstrumentedBinary_command hp
  rw [hrun] at hc
  rw [hcommand] at hc'
  have hcall := (Stage.call_runProduct (s := .inMode root cfg .inContainer) _ _).2 hmode hc
  have hcall' := (Stage.call_serverCommand json outputs).2 hmode hc'
  refine ⟨_, _, ⟨⟨_, (congrArg (CommandSpec.call? · .inContainer) hrun).trans hcall, rfl⟩, _, _,
    (congrArg (CommandSpec.call? · .inContainer) hcommand).trans hcall', rfl, rfl, rfl⟩, ?_, ?_⟩
  · have hdir : cfg.container.workingDir (some Project.buildDir) ≠ "" := by
      simp [ContainerConfig.workingDir]
    have hname := Project.no_slash_traceFileName root
    have hparts := Path.parts_join (p := ⟨cfg.container.workingDir (some Project.buildDir)⟩) hdir
      (Path.relative_of_no_slash hname)
    rw [ContainerConfig.workingDir_parts hmount, Path.segments_of_no_slash hname] at hparts
    refine hparts.trans ?_
    have hbuild : Path.segments Project.buildDir.toList = [Project.buildDir.toList] := rfl
    have hpart : Path.partOf? Project.buildDir.toList = some (.name Project.buildDir.toList) := rfl
    cases hlast : Path.partOf? (Project.ofRoot root).traceFileName.toList <;>
      simp [Project.placeOf, hbuild, hpart, hlast]
  · exact Invocation.Spells.parts (.inl ⟨rfl, rfl⟩) hmount (Project.no_slash_traceFileName root)

/-- What the logger writes, the run removes and the server reads is one file, in both modes: it is
named in both rules of the logger and resolved where the program runs, on the host to the path of
the trace, and in the container to the same place under the mount point. When the run of the
instrumented program is announced this file is gone, and nothing else has changed; a run that is
refused leaves all files as they are. -/
theorem verified_trace_is_fresh (hroot : root.isAbsolute = true)
    (hmount : (⟨cfg.container.mountPoint⟩ : Path).isAbsolute = true) :
    (∀ m f, ∃ formats, (Project.ofRoot root).traceConfigText f m = formats ++ "[rules]\n" ++
      Project.traceRule "variable_values" ((Project.ofRoot root).traceTarget m) ++
      Project.traceRule "function_calls" ((Project.ofRoot root).traceTarget m)) ∧
    (∀ t t' plan plan',
      Stage.runInstrumentedBinary.plan (.inMode root cfg .onHost) t = .ok plan →
      Stage.runVerificationServer.plan (.inMode root cfg .onHost) t' = .ok plan' →
      TraceNames root .onHost plan plan' (Project.ofRoot root).traceFile
        (Project.ofRoot root).traceFile) ∧
    (∃ place, (Project.ofRoot root).traceFile.parts = root.parts ++ place ∧
      ∀ t t' plan plan',
        Stage.runInstrumentedBinary.plan (.inMode root cfg .inContainer) t = .ok plan →
        Stage.runVerificationServer.plan (.inMode root cfg .inContainer) t' = .ok plan' →
        plan.command.NulFree → plan'.command.NulFree →
        ∃ written read, TraceNames root .inContainer plan plan' written read ∧
          written.parts = (⟨cfg.container.mountPoint⟩ : Path).parts ++ place ∧
          read.parts = (⟨cfg.container.mountPoint⟩ : Path).parts ++ place) ∧
    (∀ m t t', Stage.runInstrumentedBinary.beforeSpawn (.inMode root cfg m) t = .ok t' →
      Stage.Cleared t t' (Project.ofRoot root).traceFile) ∧
    ∀ (σ : Type) (h : Host σ) (m : ExecutionMode) (w : World σ),
      let run := runStage (.inMode root cfg m) Stage.runInstrumentedBinary
      (∀ e v, (e, v) ∈ run.toActivity.published h w → e.startedStage? ≠ none →
        e.startedStage? = some .runInstrumentedBinary ∧
        v.files.exists? (Project.ofRoot root).traceFile = false ∧
        Stage.Cleared w.files v.files (Project.ofRoot root).traceFile) ∧
      ∀ r, (run.runFrom h w).1 = .refused r → (run.runFrom h w).2.files = w.files := by
  have hcleared : ∀ m t t',
      Stage.runInstrumentedBinary.beforeSpawn (.inMode root cfg m) t = .ok t' →
      Stage.Cleared t t' (Project.ofRoot root).traceFile := by
    intro m t t' h
    exact Stage.removeTrace_clears (s := .inMode root cfg m) rfl h
  refine ⟨?_, ?_, ⟨Project.placeOf (Project.ofRoot root).traceFileName, ?_, ?_⟩, hcleared, ?_⟩
  · exact fun m f => Project.traceConfigText_rules (Project.ofRoot root) f m
  · exact fun t t' plan plan' hp hp' => traceNames_onHost hroot hp hp'
  · exact Project.product_parts root (Project.no_slash_traceFileName root)
  · exact fun t t' plan plan' hp hp' hc hc' => traceNames_inContainer hmount hp hp' hc hc'
  · intro σ h m w run
    refine ⟨fun e v hpublished hstart => ?_, fun r hr => Stage.refused_keeps_files hr⟩
    obtain ⟨plan, hannounced⟩ := Stage.announced_of_published hpublished hstart
    have hgone := hcleared m _ _ hannounced.prepared
    exact ⟨congrArg Event.startedStage? hannounced.event,
      FileTree.not_exists_of_linkStat hgone.gone, hgone⟩

end

namespace Demo

def earlierRun : World Unit := world (tree [("instrumented_demo", .file [] true),
  ("instrumented_demo.tessla.json", .file "\x7b\x7d".utf8Bytes false),
  ("instrumented_demo.trace", .file "1 old".utf8Bytes false)])

def planAfter {α : Type} (s : Stage α) : Plan :=
  ((s.plan (.inMode ⟨"/demo"⟩ {} .inContainer) earlierRun.files).toOption).getD default

theorem planAfter_nulFree : (planAfter Stage.runInstrumentedBinary).command.NulFree ∧
    (planAfter Stage.runVerificationServer).command.NulFree := by
  constructor <;> constructor <;> decide +kernel

def announcements : List (Event × World Unit) :=
  (runStage (.inMode ⟨"/demo"⟩ {} .inContainer) Stage.runInstrumentedBinary).toActivity.published
    host earlierRun

end Demo

theorem verified_trace_is_fresh_of_demo :
    (⟨"/demo"⟩ : Path).isAbsolute = true ∧
    (⟨({} : ToolchainConfig).container.mountPoint⟩ : Path).isAbsolute = true ∧
    Demo.earlierRun.files.exists? (Project.ofRoot ⟨"/demo"⟩).traceFile = true ∧
    (∃ written read, TraceNames ⟨"/demo"⟩ .inContainer (Demo.planAfter Stage.runInstrumentedBinary)
        (Demo.planAfter Stage.runVerificationServer) written read ∧ written.parts = read.parts) ∧
    ∃ e v, (e, v) ∈ Demo.announcements ∧ e.startedStage? = some .runInstrumentedBinary ∧
      v.files.exists? (Project.ofRoot ⟨"/demo"⟩).traceFile = false := by
  have hroot : (⟨"/demo"⟩ : Path).isAbsolute = true := by decide
  have hmount : (⟨({} : ToolchainConfig).container.mountPoint⟩ : Path).isAbsolute = true := by
    decide
  obtain ⟨-, -, ⟨place, -, hnames⟩, -, hruns⟩ := verified_trace_is_fresh hroot hmount
  obtain ⟨written, read, htrace, hwritten, hread⟩ := hnames Demo.earlierRun.files
    Demo.earlierRun.files (Demo.planAfter Stage.runInstrumentedBinary)
    (Demo.planAfter Stage.runVerificationServer) rfl rfl Demo.planAfter_nulFree.1
    Demo.planAfter_nulFree.2
  have hany : Demo.announcements.any (fun q => q.1.startedStage?.isSome) = true := by decide +kernel
  obtain ⟨⟨e, v⟩, hmem, hsome⟩ := List.any_eq_true.1 hany
  have hstart : e.startedStage? ≠ none := by
    intro hnone
    simp [hnone] at hsome
  obtain ⟨hstage, hgone, -⟩ := (hruns Unit Demo.host .inContainer Demo.earlierRun).1 e v hmem hstart
  exact ⟨hroot, hmount, by decide +kernel, ⟨written, read, htrace, hwritten.trans hread.symm⟩, e, v,
    hmem, hstage, hgone⟩

end TraceWorkbench
