import TraceWorkbench.Proofs.PrintedText
import TraceWorkbench.Proofs.WorkflowOrder

set_option autoImplicit false

/-!
# What a success stands for

A workflow that succeeds has run all its processes to an end of their own. Only the specification
compiler may have written to its error stream, and what the workflow returns is what the last
process was seen to print.
-/
namespace TraceWorkbench

variable {σ : Type}

/-- The process was started, and no signal ended it. -/
structure Ended (h : Host σ) (t : Ticket) (c : CommandSpec) (echo : Bool) (w : World σ)
    (o : Outcome) : Prop where
  spawned : ∃ pid v time, Spawned h t c w pid v time ∧
    o = .ofCollected (h.supervise t pid echo v).1 time
  signal : o.signal = none

theorem mem_chunksOf {stream : Stream} {cs : List Chunk} {c : Chunk} (hc : c ∈ cs)
    (hs : c.stream = stream) : c.text ∈ Outcome.chunksOf stream cs := by
  unfold Outcome.chunksOf
  exact List.mem_map_of_mem (List.mem_filter.2 ⟨hc, by simpa using hs⟩)

section

variable {h : Host σ} {t : Ticket} {c : CommandSpec} {echo : Bool} {w : World σ} {o : Outcome}
  {cs : List Chunk}

theorem Printed.stdout (hp : Printed h t c echo w o cs) :
    o.stdoutChunks = Outcome.chunksOf .stdout cs := by
  cases hp <;> rfl

theorem Printed.ended (hp : Printed h t c echo w o cs) (hsignal : o.signal = none)
    (hstarted : o.stdout ≠ "" ∨ ∀ chunk ∈ o.stderrChunks, chunk = "") : Ended h t c echo w o := by
  cases hp with
  | nothing told =>
    rcases hstarted with hstdout | hsilent
    · exact absurd rfl hstdout
    · exact absurd (hsilent _ (List.mem_singleton_self _)) told
  | collected spawned => exact ⟨⟨_, _, _, spawned, rfl⟩, hsignal⟩

theorem consoleText_chunks (stage : StageKind) (cs : List Chunk) :
    (cs.filterMap (Event.ofChunk stage true)).filterMap Event.consoleText? =
      Outcome.chunksOf .stdout cs := by
  induction cs with
  | nil => rfl
  | cons c cs ih =>
    obtain ⟨stream, text⟩ := c
    cases stream with
    | stdout => exact congrArg (text :: ·) ih
    | stderr => exact ih

end

/-- All error text among the events comes from the specification compiler. -/
def OnlyCompilerErrors (es : List Event) : Prop :=
  ∀ stage text, .errorText stage text ∈ es → stage = .compileSpecification

namespace OnlyCompilerErrors

theorem append {es fs : List Event} (he : OnlyCompilerErrors es) (hf : OnlyCompilerErrors fs) :
    OnlyCompilerErrors (es ++ fs) := by
  intro stage text hm
  rcases List.mem_append.1 hm with h | h
  · exact he stage text h
  · exact hf stage text h

theorem warnings (ws : List StageWarning) : OnlyCompilerErrors (ws.map StageWarning.event) := by
  intro stage text hm
  obtain ⟨w, -, hw⟩ := List.mem_map.1 hm
  simp [StageWarning.event] at hw

theorem exitEvents (stage : StageKind) (o : Outcome) : OnlyCompilerErrors (exitEvents stage o) := by
  unfold TraceWorkbench.exitEvents OnlyCompilerErrors
  split
  · cases o.exitMessage <;> simp
  · simp

theorem successEvents {α : Type} (s : Stage α) (command : String) :
    OnlyCompilerErrors (successEvents s command) := by
  unfold TraceWorkbench.successEvents OnlyCompilerErrors
  cases s.successSummary <;> split <;> simp

theorem chunks {stage : StageKind} {echo : Bool} {cs : List Chunk}
    (hcs : stage ≠ .compileSpecification → ∀ c ∈ cs, c.stream = .stdout) :
    OnlyCompilerErrors (cs.filterMap (Event.ofChunk stage echo)) := by
  intro stage' text hm
  obtain ⟨c, hc, he⟩ := List.mem_filterMap.1 hm
  by_contra hne
  unfold Event.ofChunk at he
  split at he
  · rename_i hstderr
    obtain ⟨rfl, -⟩ := Event.errorText.inj (Option.some.inj he)
    simp [hcs hne c hc] at hstderr
  · split at he <;> simp at he

end OnlyCompilerErrors

/-- What a stage must find in an outcome to accept it: no signal, and a process that was started.
Only the specification compiler looks at the standard output alone. -/
structure Stage.Strict {α : Type} (s : Stage α) : Prop where
  signal : ∀ {S plan o t r}, s.interpret S plan o t = .ok r → o.signal = none
  started : ∀ {S plan o t r}, s.interpret S plan o t = .ok r →
    o.stdout ≠ "" ∨ ∀ chunk ∈ o.stderrChunks, chunk = ""
  silent : s.kind ≠ .compileSpecification → ∀ {S plan o t r}, s.interpret S plan o t = .ok r →
    ∀ chunk ∈ o.stderrChunks, chunk = ""

namespace Stage

theorem strict_of_unlessFailed {α : Type} {s : Stage α}
    (hs : ∀ S plan o t, ∃ a, s.judge S plan o t = unlessFailed o t a) : s.Strict := by
  have hclean : ∀ {S plan o t r}, s.interpret S plan o t = .ok r →
      (∀ chunk ∈ o.stderrChunks, chunk = "") ∧ o.signal = none := by
    intro S plan o t r h
    obtain ⟨a, ha⟩ := hs S plan o t
    exact (Outcome.fault?_eq_none_iff o).1 ((accepted_iff_of_unlessFailed ha).1 h).1
  exact ⟨fun h => (hclean h).2, fun h => .inr (hclean h).1, fun _ _ _ _ _ _ h => (hclean h).1⟩

theorem compileSpecification_strict : compileSpecification.Strict where
  signal {S plan o t r} h := by
    rw [interpret_eq_ok_iff] at h
    simp only [compileSpecification, compiledDocument] at h
    cases hsignal : o.signal with
    | none => rfl
    | some signal => simp [hsignal] at h
  started {S plan o t r} h := by
    rw [interpret_eq_ok_iff] at h
    refine .inl fun hempty => ?_
    simp only [compileSpecification, compiledDocument, hempty] at h
    cases hsignal : o.signal <;> simp [hsignal] at h
  silent hne := absurd rfl hne

theorem projectStages_strict : ∀ s ∈ projectStages, s.2.Strict := by
  simp only [projectStages, List.forall_mem_cons]
  refine ⟨?_, ?_, ?_, ?_, compileSpecification_strict, ?_, by simp⟩
  all_goals exact strict_of_unlessFailed fun _ _ _ _ => ⟨_, rfl⟩

theorem cStages_strict : ∀ s ∈ cStages, s.2.Strict := by
  simp only [cStages, List.forall_mem_cons]
  refine ⟨?_, ?_, by simp⟩
  all_goals exact strict_of_unlessFailed fun _ _ _ _ => ⟨_, rfl⟩

end Stage

/-- The whole of a stage that was accepted: its process ended by itself, and all that was told of it
is known, `cs` being what the process printed. -/
structure Stage.Completes {α : Type} (h : Host σ) (S : Setting) (s : Stage α) (w : World σ)
    (plan : Plan) (o : Outcome) (cs : List Chunk) (a : α) (w' : World σ) : Prop where
  ended : ∃ files, s.beforeSpawn S w.files = .ok files ∧
    Ended h (s.ticketIn w) plan.command s.echoStdout (s.startedWorld plan files w) o
  accepted : ∃ v files, s.Ran h S w plan o v ∧ s.interpret S plan o v.files = .ok (a, files)
  events : w'.events = w.events ++ (plan.warnings.map StageWarning.event ++
    .stageStarted s.kind plan.command.text ::
      (.controlsChanged true :: cs.filterMap (Event.ofChunk s.kind s.echoStdout) ++
        .controlsChanged false :: (exitEvents s.kind o ++ successEvents s plan.command.text)))
  stdout : o.stdoutChunks = Outcome.chunksOf .stdout cs
  silent : s.kind ≠ .compileSpecification → ∀ c ∈ cs, c.stream = .stdout

theorem Stage.Passes.completes {α : Type} {h : Host σ} (hh : h.Faithful) (hprints : h.PrintsText)
    {S : Setting} {s : Stage α} (hs : s.Strict) {w w' : World σ} {a : α}
    (hpass : s.Passes h S w a w') : ∃ plan o cs, s.Completes h S w plan o cs a w' := by
  obtain ⟨plan, o, v, files, hran, hi, rfl⟩ := hpass
  obtain ⟨prepared, cs, hb, hprinted, hevents⟩ := hran.told hh
  have hsilent : s.kind ≠ .compileSpecification → ∀ c ∈ cs, c.stream = .stdout := by
    intro hne c hc
    cases hprinted with
    | nothing told => simp at hc
    | collected spawned =>
      cases hstream : c.stream with
      | stdout => rfl
      | stderr =>
        have hempty := hs.silent hne hi _ (List.mem_append_left _ (mem_chunksOf hc hstream))
        exact absurd hempty (hprints _ _ _ _ c hc)
  refine ⟨plan, o, cs, ⟨prepared, hb, hprinted.ended (hs.signal hi) (hs.started hi)⟩,
    ⟨v, files, hran, hi⟩, ?_, hprinted.stdout, hsilent⟩
  simp [hevents]

namespace Stage.Completes

variable {α : Type} {h : Host σ} {S : Setting} {s : Stage α} {w w' : World σ} {plan : Plan}
  {o : Outcome} {cs : List Chunk} {a : α}

theorem onlyCompilerErrors (hc : s.Completes h S w plan o cs a w') : ∃ es,
    w'.events = w.events ++ es ∧ OnlyCompilerErrors es ∧ startedStages es = [s.kind] := by
  refine ⟨_, hc.events, ?_, ?_⟩
  · have hstart :
        OnlyCompilerErrors [.stageStarted s.kind plan.command.text, .controlsChanged true] := by
      simp [OnlyCompilerErrors]
    have hidle : OnlyCompilerErrors [.controlsChanged false] := by simp [OnlyCompilerErrors]
    exact (OnlyCompilerErrors.warnings _).append (hstart.append
      ((OnlyCompilerErrors.chunks hc.silent).append (hidle.append
        ((OnlyCompilerErrors.exitEvents _ o).append (.successEvents s _)))))
  · have hbusy : Quiet [.controlsChanged true] := by
      simp [Quiet, Event.startedStage?, Event.isReport]
    have hidle : Quiet [.controlsChanged false] := by
      simp [Quiet, Event.startedStage?, Event.isReport]
    have hrest := (hbusy.append (quiet_chunks s.kind s.echoStdout cs)).append
      (hidle.append ((quiet_exitEvents s.kind o).append (quiet_successEvents s plan.command.text)))
    rw [startedStages_append, (quiet_warnings plan.warnings).startedStages, List.nil_append]
    exact congrArg (s.kind :: ·) hrest.startedStages

end Stage.Completes

/-- Stages that ran one after another, each to the end of its process, and were accepted. -/
inductive AllComplete (h : Host σ) (S : Setting) : List SomeStage → World σ → World σ → Prop where
  | nil (w : World σ) : AllComplete h S [] w w
  | cons {s : SomeStage} {ss : List SomeStage} {w w₁ w₂ : World σ} {plan : Plan} {o : Outcome}
      {cs : List Chunk} {a : s.1} (first : s.2.Completes h S w plan o cs a w₁)
      (tail : AllComplete h S ss w₁ w₂) : AllComplete h S (s :: ss) w w₂

section

variable {h : Host σ} {S : Setting} {ss : List SomeStage} {w w₁ w₂ : World σ}

theorem AllPass.allComplete (hh : h.Faithful) (hprints : h.PrintsText)
    (hs : ∀ s ∈ ss, s.2.Strict) (hpass : AllPass h S ss w w₂) : AllComplete h S ss w w₂ := by
  induction hpass with
  | nil w => exact .nil w
  | cons pass tail ih =>
    obtain ⟨plan, o, cs, hcompletes⟩ := pass.completes hh hprints (hs _ List.mem_cons_self)
    exact .cons hcompletes (ih fun s hmem => hs s (List.mem_cons_of_mem _ hmem))

theorem AllComplete.concat {s : SomeStage} {plan : Plan} {o : Outcome} {cs : List Chunk} {a : s.1}
    (hall : AllComplete h S ss w w₁) (hlast : s.2.Completes h S w₁ plan o cs a w₂) :
    AllComplete h S (ss ++ [s]) w w₂ := by
  induction hall with
  | nil w => exact .cons hlast (.nil w₂)
  | cons first tail ih => exact .cons first (ih hlast)

theorem AllComplete.events (hall : AllComplete h S ss w w₂) : ∃ es, w₂.events = w.events ++ es ∧
    OnlyCompilerErrors es ∧ startedStages es = ss.map SomeStage.kind := by
  induction hall with
  | nil w => exact ⟨[], by simp, by simp [OnlyCompilerErrors], rfl⟩
  | cons first tail ih =>
    obtain ⟨es, hes, herrors, hstart⟩ := first.onlyCompilerErrors
    obtain ⟨fs, hfs, herrors', hstart'⟩ := ih
    refine ⟨es ++ fs, by rw [hfs, hes, List.append_assoc], herrors.append herrors', ?_⟩
    rw [startedStages_append, hstart, hstart']
    rfl

theorem passes_of_success {α : Type} (hh : h.Faithful) {s : Stage α} {a : α}
    (hrun : (runStage S s).runFrom h w = (.success a, w₁)) : s.Passes h S w a w₁ := by
  rcases runStage_cases hh S s w with
    ⟨r, es, -, hr, -⟩ | ⟨es, -, -, -, ⟨a', ha, hpass⟩ | ⟨f, hf, -⟩⟩
  · simp [hrun] at hr
  · rw [hrun] at ha hpass
    rw [Result.success.inj ha]
    exact hpass
  · simp [hrun] at hf

end

/-- A workflow that tells nothing when it succeeds. -/
def Workflow.SilentSuccess {α : Type} (h : Host σ) (x : Workflow α) : Prop :=
  ∀ w a w', x.runFrom h w = (.success a, w') → w'.events = w.events

namespace Workflow.SilentSuccess

variable {α β : Type} {h : Host σ}

theorem bind {x : Workflow α} {f : α → Workflow β} (hx : x.SilentSuccess h)
    (hf : ∀ a, (f a).SilentSuccess h) : (x >>= f).SilentSuccess h := by
  intro w b w' hrun
  obtain ⟨a, w₁, hfirst, hrest⟩ := runFrom_bind_eq_success hrun
  exact (hf a _ _ _ hrest).trans (hx _ _ _ hfirst)

theorem attempt {x : Activity (Except OsError α)} (hx : ∀ w, (x.run h w).2.events = w.events) :
    (Workflow.attempt x).SilentSuccess h := by
  intro w a w' hrun
  rw [runFrom_attempt] at hrun
  rw [← hx w]
  cases hr : x.run h w with
  | mk r w₁ =>
    rw [hr] at hrun
    cases r with
    | error e => simp at hrun
    | ok b => exact (congrArg (fun q => q.2.events) hrun).symm

theorem always {x : Activity α} (hx : ∀ w, (x.run h w).2.events = w.events) :
    (Workflow.always x).SilentSuccess h := by
  intro w a w' hrun
  rw [runFrom_always] at hrun
  exact (congrArg (fun q => q.2.events) hrun).symm.trans (hx w)

theorem pure (a : α) : (Pure.pure a : Workflow α).SilentSuccess h := by
  intro w b w' hrun
  exact (congrArg (fun q => q.2.events) hrun).symm

theorem activeProject : Bench.activeProject.SilentSuccess h := by
  intro w p w' hrun
  rw [run_activeProject] at hrun
  cases hcurrent : w.active.current with
  | none => simp [hcurrent] at hrun
  | some q =>
    rw [hcurrent] at hrun
    exact (congrArg (fun q => q.2.events) hrun).symm

theorem makeOutputDir (p : Project) : (Bench.makeOutputDir p).SilentSuccess h := by
  refine .attempt fun w => ?_
  rw [Activity.run_files]
  cases w.files.makeDirs p.outputDir <;> rfl

theorem prepareC (b : Bench) : b.prepareC.SilentSuccess h :=
  activeProject.bind fun p => (makeOutputDir p).bind fun _ =>
    (always (saveAll_events h _)).bind fun _ => pure p

theorem prepareProject (b : Bench) : b.prepareProject.SilentSuccess h :=
  activeProject.bind fun p => (makeOutputDir p).bind fun _ =>
    (attempt fun _ => rfl).bind fun _ => (always (saveAll_events h _)).bind fun _ => pure p

end Workflow.SilentSuccess

/-- How a successful workflow went. Its stages ran one after another, each to the end of its process
and without a signal; error text came only from the specification compiler; and the last stage
printed the chunks that the console shows between its start and its end. -/
structure Succeeded (h : Host σ) (prepare : Workflow Project) (setting : Project → Setting)
    (stages : List SomeStage) (w : World σ) (es : List Event) (output : List String) : Prop where
  complete : ∃ p w₀ w₁, prepare.runFrom h w = (.success p, w₀) ∧
    AllComplete h (setting p) stages w₀ w₁
  errors : ∀ stage text, .errorText stage text ∈ es → stage = .compileSpecification
  output : ∃ front last command before during after, stages = front ++ [last] ∧
    es = before ++ .stageStarted last.kind command :: (during ++ .controlsChanged false :: after) ∧
    startedStages before = front.map SomeStage.kind ∧ startedStages (during ++ after) = [] ∧
    .controlsChanged false ∉ during ∧ output = during.filterMap Event.consoleText?

theorem not_idle_of_chunks (stage : StageKind) (echo : Bool) (cs : List Chunk) :
    .controlsChanged false ∉ .controlsChanged true :: cs.filterMap (Event.ofChunk stage echo) := by
  intro hm
  have hmem : .controlsChanged false ∈ cs.filterMap (Event.ofChunk stage echo) := by simpa using hm
  obtain ⟨c, -, hc⟩ := List.mem_filterMap.1 hmem
  unfold Event.ofChunk at hc
  split at hc
  · simp at hc
  · split at hc <;> simp at hc

theorem succeeded_of_last {h : Host σ} {prepare : Workflow Project} {setting : Project → Setting}
    {front : List SomeStage} (last : SomeStage) {w w₀ w₁ w₂ : World σ} {p : Project} {plan : Plan}
    {o : Outcome} {cs : List Chunk} {a : last.1} (hprepare : prepare.SilentSuccess h)
    (hp : prepare.runFrom h w = (.success p, w₀)) (hfront : AllComplete h (setting p) front w₀ w₁)
    (hlast : last.2.Completes h (setting p) w₁ plan o cs a w₂) (hecho : last.2.echoStdout = true)
    {tail : List Event} (htail : OnlyCompilerErrors tail) (hquiet : startedStages tail = []) :
    ∃ es, w₂.events ++ tail = w.events ++ es ∧
      Succeeded h prepare setting (front ++ [last]) w es o.stdoutChunks := by
  have hw₀ := hprepare _ _ _ hp
  obtain ⟨fs, hfs, herrors, hstart⟩ := hfront.events
  obtain ⟨gs, hgs, herrors', -⟩ := hlast.onlyCompilerErrors
  have hall : w₂.events = w.events ++ (fs ++ gs) := by rw [hgs, hfs, hw₀, List.append_assoc]
  have hlisted := List.append_cancel_left (hgs.symm.trans hlast.events)
  refine ⟨fs ++ gs ++ tail, by rw [hall, List.append_assoc], ⟨p, w₀, w₂, hp, hfront.concat hlast⟩,
    (herrors.append herrors').append htail, front, last, plan.command.text,
    fs ++ plan.warnings.map StageWarning.event, .controlsChanged true ::
      cs.filterMap (Event.ofChunk last.kind last.2.echoStdout),
    exitEvents last.kind o ++ successEvents last.2 plan.command.text ++ tail, rfl, ?_, ?_, ?_,
    not_idle_of_chunks _ _ _, ?_⟩
  · rw [hlisted]
    simp [SomeStage.kind]
  · rw [startedStages_append, hstart, (quiet_warnings _).startedStages, List.append_nil]
  · have hbusy : Quiet [.controlsChanged true] := by
      simp [Quiet, Event.startedStage?, Event.isReport]
    have hduring := hbusy.append (quiet_chunks last.kind last.2.echoStdout cs)
    have hafter := (quiet_exitEvents last.kind o).append
      (quiet_successEvents last.2 plan.command.text)
    rw [startedStages_append, startedStages_append, hafter.startedStages, hquiet, List.append_nil]
    exact hduring.startedStages.symm ▸ rfl
  · rw [hlast.stdout, hecho]
    exact (consoleText_chunks last.kind cs).symm

theorem succeeded_of_run {α : Type} {h : Host σ} (hh : h.Faithful) (hprints : h.PrintsText)
    {prepare : Workflow Project} {setting : Project → Setting} {front : List SomeStage}
    {last : Stage α} {w w₀ w₁ w₂ : World σ} {p : Project} {a : α}
    (hprepare : prepare.SilentSuccess h) (hp : prepare.runFrom h w = (.success p, w₀))
    (hfront : AllPass h (setting p) front w₀ w₁)
    (hlast : (runStage (setting p) last).runFrom h w₁ = (.success a, w₂))
    (hstrict : ∀ s ∈ front ++ [⟨α, last⟩], s.2.Strict) (hecho : last.echoStdout = true)
    (tail : List Event) (htail : OnlyCompilerErrors tail) (hquiet : startedStages tail = []) :
    ∃ es plan o t r, w₂.events ++ tail = w.events ++ es ∧
      Succeeded h prepare setting (front ++ [⟨α, last⟩]) w es o.stdoutChunks ∧
      last.interpret (setting p) plan o t = .ok (a, r) := by
  have hall := hfront.allComplete hh hprints fun s hs => hstrict s (List.mem_append_left _ hs)
  obtain ⟨plan, o, cs, hcompletes⟩ := (passes_of_success hh hlast).completes hh hprints
    (hstrict ⟨α, last⟩ (List.mem_append_right _ (List.mem_singleton_self _)))
  obtain ⟨v, files, -, haccepted⟩ := hcompletes.accepted
  obtain ⟨es, hes, hsucceeded⟩ := succeeded_of_last ⟨α, last⟩ hprepare hp hall hcompletes hecho
    htail hquiet
  exact ⟨es, plan, o, v.files, files, hes, hsucceeded, haccepted⟩

/-- A workflow that succeeds has no failed stage behind it. Every process of its stages was started
and ended without a signal; all error text is from the specification compiler; and what is returned
is what the last stage printed: the report holds the chunks that the console shows from the start to
the end of the server, and the text of the program is these chunks put together. -/
theorem success_stands_for_success {h : Host σ} (hh : h.Faithful) (hprints : h.PrintsText)
    (b : Bench) (w : World σ) :
    (∀ report, (b.compileAndRunProject.runFrom h w).1 = .success report →
      ∃ es, (b.compileAndRunProject.runFrom h w).2.events = w.events ++ es ∧
        Succeeded h b.prepareProject b.setting projectStages w es report.output) ∧
    ∀ text, (b.compileAndRunC.runFrom h w).1 = .success text →
      ∃ es chunks, (b.compileAndRunC.runFrom h w).2.events = w.events ++ es ∧
        Succeeded h b.prepareC b.setting cStages w es chunks ∧ text = String.join chunks := by
  have hproject := Stage.projectStages_strict
  have hc := Stage.cStages_strict
  constructor
  · intro report hreport
    have hrun := Prod.ext (y := (_, (b.compileAndRunProject.runFrom h w).2)) hreport rfl
    generalize (b.compileAndRunProject.runFrom h w).2 = w' at hrun ⊢
    unfold Bench.compileAndRunProject at hrun
    obtain ⟨p, w₀, hp, hrun⟩ := Workflow.runFrom_bind_eq_success hrun
    obtain ⟨_, w₁, h₁, hrun⟩ := Workflow.runFrom_bind_eq_success hrun
    obtain ⟨_, w₂, h₂, hrun⟩ := Workflow.runFrom_bind_eq_success hrun
    obtain ⟨_, w₃, h₃, hrun⟩ := Workflow.runFrom_bind_eq_success hrun
    obtain ⟨_, w₄, h₄, hrun⟩ := Workflow.runFrom_bind_eq_success hrun
    obtain ⟨_, w₅, h₅, hrun⟩ := Workflow.runFrom_bind_eq_success hrun
    obtain ⟨report', w₆, h₆, hrun⟩ := Workflow.runFrom_bind_eq_success hrun
    obtain ⟨_, w₇, hpublish, hrun⟩ := Workflow.runFrom_bind_eq_success hrun
    have hfront : AllPass h (b.setting p) projectStages.dropLast w₀ w₅ :=
      .cons (passes_of_success hh h₁) <| .cons (passes_of_success hh h₂) <|
        .cons (passes_of_success hh h₃) <| .cons (passes_of_success hh h₄) <|
        .cons (passes_of_success hh h₅) (.nil w₅)
    obtain rfl : report' = report := Result.success.inj (congrArg Prod.fst hrun)
    have hw' : w'.events = w₆.events ++ [.verificationOutput report'.output report'.startedAt] := by
      rw [Workflow.runFrom_always] at hpublish
      have hsame := Workflow.SilentSuccess.pure report' _ _ _ hrun
      rw [hsame, ← (Prod.mk.inj hpublish).2]
      rfl
    obtain ⟨es, plan, o, t, r, hes, hsucceeded, haccepted⟩ := succeeded_of_run hh hprints
      (Workflow.SilentSuccess.prepareProject b) hp hfront h₆ hproject rfl
      [.verificationOutput report'.output report'.startedAt]
      (by simp [OnlyCompilerErrors]) rfl
    have houtput : report'.output = o.stdoutChunks := by
      have hresult := ((Stage.accepted_iff_of_unlessFailed rfl).1 haccepted).2
      rw [(Prod.mk.inj hresult).1]
    refine ⟨es, hw'.trans hes, ?_⟩
    rw [houtput]
    exact hsucceeded
  · intro text htext
    have hrun := Prod.ext (y := (_, (b.compileAndRunC.runFrom h w).2)) htext rfl
    generalize (b.compileAndRunC.runFrom h w).2 = w' at hrun ⊢
    unfold Bench.compileAndRunC at hrun
    obtain ⟨p, w₀, hp, hrun⟩ := Workflow.runFrom_bind_eq_success hrun
    obtain ⟨_, w₁, h₁, hlast⟩ := Workflow.runFrom_bind_eq_success hrun
    have hfront : AllPass h (b.setting p) cStages.dropLast w₀ w₁ :=
      .cons (passes_of_success hh h₁) (.nil w₁)
    obtain ⟨es, plan, o, t, r, hes, hsucceeded, haccepted⟩ := succeeded_of_run hh hprints
      (Workflow.SilentSuccess.prepareC b) hp hfront hlast hc rfl []
      (by simp [OnlyCompilerErrors]) rfl
    rw [List.append_nil] at hes
    refine ⟨es, o.stdoutChunks, hes, hsucceeded, ?_⟩
    have hresult := ((Stage.accepted_iff_of_unlessFailed rfl).1 haccepted).2
    exact (Prod.mk.inj hresult).1

namespace Demo

def talkative : Host Unit := .scripted fun
  | .compileSpecification => [.print ⟨.stderr, "deprecated"⟩, .print ⟨.stdout, "\x7b\x7d"⟩]
  | .runVerificationServer => [.print ⟨.stdout, "1: calls"⟩, .print ⟨.stdout, " = 2"⟩]
  | _ => []

theorem talkative_printsText : talkative.PrintsText := by
  refine Host.scripted_printsText fun stage c hc => ?_
  cases stage <;> simp at hc
  · rcases hc with rfl | rfl <;> decide
  · rcases hc with rfl | rfl <;> decide

def talk : Result VerificationReport × World Unit :=
  bench.compileAndRunProject.runFrom talkative (world (tree []))

def printed? : Result VerificationReport → Option (List String)
  | .success report => some report.output
  | _ => none

end Demo

theorem success_stands_for_success_of_talkative :
    Demo.talkative.Faithful ∧ Demo.talkative.PrintsText ∧
    ∃ report es, Demo.talk.1 = .success report ∧ report.output = ["1: calls", " = 2"] ∧
      .errorText .compileSpecification "deprecated" ∈ Demo.talk.2.events ∧
      Succeeded Demo.talkative Demo.bench.prepareProject Demo.bench.setting projectStages
        (Demo.world (Demo.tree [])) es report.output := by
  have hh : Demo.talkative.Faithful := Host.scripted_faithful _
  have houtput : Demo.printed? Demo.talk.1 = some ["1: calls", " = 2"] := by decide +kernel
  cases hr : Demo.talk.1 with
  | success report =>
    obtain ⟨es, -, hsucceeded⟩ := (success_stands_for_success hh Demo.talkative_printsText
      Demo.bench (Demo.world (Demo.tree []))).1 report hr
    rw [hr] at houtput
    exact ⟨hh, Demo.talkative_printsText, report, es, rfl, Option.some.inj houtput,
      by decide +kernel, hsucceeded⟩
  | failure | refused => simp [hr, Demo.printed?] at houtput

end TraceWorkbench
