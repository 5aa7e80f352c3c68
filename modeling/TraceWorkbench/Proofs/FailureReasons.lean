import Mathlib.Data.List.Infix
import TraceWorkbench.CommandLine.Console
import TraceWorkbench.Proofs.StageEvents

set_option autoImplicit false

/-!
# What a terminal user sees of a failure

The terminal shows what a process printed, how it ended if that is announced, and the summary of the
failure, but not its detail. So the user sees the reason of a failure where it was printed or
announced, and nowhere else.
-/
namespace TraceWorkbench

/-! What the terminal shows of events -/

namespace Event

def shownOn (stream : Stream) (e : Event) : String :=
  match e.render with
  | some (s, text) => if s = stream then text else ""
  | none => ""

theorem rendered_nil (stream : Stream) : rendered stream [] = "" := rfl

theorem rendered_cons (stream : Stream) (e : Event) (es : List Event) :
    rendered stream (e :: es) = e.shownOn stream ++ rendered stream es := by
  unfold rendered shownOn
  rw [List.filterMap_cons]
  cases e.render with
  | none => simp
  | some r => by_cases h : r.1 = stream <;> simp [h]

theorem rendered_append (stream : Stream) (es fs : List Event) :
    rendered stream (es ++ fs) = rendered stream es ++ rendered stream fs := by
  unfold rendered
  rw [List.filterMap_append, String.join_append]

theorem rendered_toList (stream : Stream) (es : List Event) :
    (rendered stream es).toList = es.flatMap fun e => (e.shownOn stream).toList := by
  induction es with
  | nil => rfl
  | cons e es ih => rw [rendered_cons, String.toList_append, ih, List.flatMap_cons]

end Event

open Event

def printedText (stream : Stream) (cs : List Chunk) : String :=
  String.join (Outcome.chunksOf stream cs)

theorem rendered_chunks (stage : StageKind) (echo : Bool) (cs : List Chunk) :
    rendered .stderr (cs.filterMap (ofChunk stage echo)) = printedText .stderr cs ∧
    rendered .stdout (cs.filterMap (ofChunk stage echo)) =
      if echo then printedText .stdout cs else "" := by
  induction cs with
  | nil => cases echo <;> exact ⟨rfl, rfl⟩
  | cons c cs ih =>
    obtain ⟨herr, hout⟩ := ih
    obtain ⟨stream, text⟩ := c
    cases stream <;> cases echo <;>
      simp_all [ofChunk, rendered_cons, shownOn, render, printedText, Outcome.chunksOf]

theorem rendered_warnings (ws : List StageWarning) :
    rendered .stdout (ws.map StageWarning.event) = "" := by
  induction ws with
  | nil => rfl
  | cons w ws ih =>
    rw [List.map_cons, rendered_cons, ih]
    rfl

theorem rendered_exitEvents (stage : StageKind) (o : Outcome) :
    rendered .stderr (exitEvents stage o) = "" := by
  unfold exitEvents
  split
  · cases o.exitMessage <;> rfl
  · rfl

/-! What it shows of a failed stage -/

namespace StageFailure

/-- The output of the failed stage on the error stream of the terminal. What the specification
compiler prints is no output of a program, so it is shown there as well. -/
def shownOutput (f : StageFailure) (cs : List Chunk) : String :=
  printedText .stderr cs ++ if f.stage = .compileSpecification then printedText .stdout cs else ""

def announcement (f : StageFailure) : String :=
  rendered .stdout (exitEvents f.stage ⟨f.exitCode, f.signal, [], [], ""⟩)

/-- All that the terminal shows of the stage, behind what came before it: the command, the output,
the end of the process, the summary, and the place of an error in the specification. -/
structure Shown (f : StageFailure) (cs : List Chunk) (es : List Event) : Prop where
  stderr : ∃ before place, rendered .stderr es = before ++
      ("==> " ++ f.stage.name ++ ": " ++ f.command ++ "\n") ++ f.shownOutput cs ++
      ("error: " ++ f.summary ++ "\n") ++ place ∧ (f.specError = none → place = "")
  stdout : ∃ before, rendered .stdout es = before ++
      (if f.stage = .compileSpecification then "" else printedText .stdout cs) ++ f.announcement

/-- The detail can be read on one of the two streams of the terminal. -/
def Seen (f : StageFailure) (es : List Event) : Prop :=
  ∃ stream, f.detail.toList <:+: (rendered stream es).toList

/-- The process was killed, and this was announced. -/
structure Announced (f : StageFailure) : Prop where
  announces : f.stage.announcesExit = true
  killed : f.exitCode = none
  reason : f.signal.map Outcome.killedBy = some f.detail

/-- The ways in which the terminal does not come to show the detail. -/
inductive Withheld (f : StageFailure) (cs : List Chunk) : Prop
  /-- The process could not be started; what is said of this is no output of it. -/
  | notStarted (unended : f.exitCode = none ∧ f.signal = none) (silent : cs = [])
  /-- It could not be waited for; this is said behind its output, and is none of it either. -/
  | waitFailed (before after : String) (e : OsError) (unended : f.exitCode = none)
      (reason : f.detail = before ++ printedText .stderr cs ++ Outcome.waitFailed e ++
        (if f.stage = .compileSpecification then printedText .stdout cs else "") ++ after)
  /-- The process was killed, and nothing or another end was announced. -/
  | killed {name : String} (signal : f.signal = some name)
      (unannounced : f.stage.announcesExit = false ∨ f.exitCode ≠ none)
      (reason : f.detail = f.shownOutput cs ++ Outcome.killedBy name)
  | invalidDocument {e : Json.ReadError} (stage : f.stage = .compileSpecification)
      (reason : f.detail = "The TeSSLa compiler produced invalid JSON: " ++ e.message ++ "\n" ++
        f.shownOutput cs)
  | unwritten {path : Path} {e : OsError} (stage : f.stage = .compileSpecification)
      (reason : f.detail = "Failed to write '" ++ path.text ++ "': " ++ e.text)

theorem seen_of_eq {f : StageFailure} {es : List Event} {stream : Stream} {before after : String}
    (h : rendered stream es = before ++ f.detail ++ after) : f.Seen es :=
  ⟨stream, before.toList, after.toList, by rw [h, String.toList_append, String.toList_append]⟩

theorem Shown.seen_of_output {f : StageFailure} {cs : List Chunk} {es : List Event}
    (hs : f.Shown cs es) (hf : f.detail = f.shownOutput cs) : f.Seen es := by
  obtain ⟨before, place, hrendered, -⟩ := hs.stderr
  rw [← hf] at hrendered
  exact seen_of_eq (hrendered.trans String.append_assoc)

theorem Shown.seen_of_announced {f : StageFailure} {cs : List Chunk} {es : List Event}
    (hs : f.Shown cs es) (hf : f.Announced) : f.Seen es := by
  obtain ⟨before, hrendered⟩ := hs.stdout
  have htold : f.announcement = "\n" ++ f.detail ++ "\n\n" := by
    cases hsignal : f.signal with
    | none =>
      have hreason := hf.reason
      simp [hsignal] at hreason
    | some name =>
      have hreason : Outcome.killedBy name = f.detail := by
        simpa [hsignal] using hf.reason
      simp [announcement, exitEvents, hf.announces, Outcome.exitMessage, hf.killed, hsignal,
        hreason, rendered_cons, rendered_nil, shownOn, render]
  rw [htold, ← String.append_assoc, ← String.append_assoc] at hrendered
  exact seen_of_eq hrendered

end StageFailure

/-! Why a stage fails -/

variable {σ α : Type}

theorem waitFailed_ne_empty (e : OsError) : Outcome.waitFailed e ≠ "" :=
  fun h => absurd (String.append_eq_empty_iff.1 h).1 (by decide)

theorem stderr_ofCollected (c : Collected) (startedAt : String) :
    (Outcome.ofCollected c startedAt).stderr =
      printedText .stderr c.chunks ++ String.join (Outcome.complaint c.waited) :=
  String.join_append

theorem Printed.cases {h : Host σ} {t : Ticket} {c : CommandSpec} {echo : Bool} {w : World σ}
    {o : Outcome} {cs : List Chunk} (hp : Printed h t c echo w o cs) :
    ((o.exitCode = none ∧ o.signal = none) ∧ cs = []) ∨ o.stderr = printedText .stderr cs ∨
      ∃ e, o.exitCode = none ∧ o.stderr = printedText .stderr cs ++ Outcome.waitFailed e := by
  cases hp with
  | nothing told => exact .inl ⟨⟨rfl, rfl⟩, rfl⟩
  | @collected pid v time spawned =>
    right
    rw [stderr_ofCollected]
    cases hwaited : (h.supervise t pid echo v).1.waited with
    | ended ending => exact .inl String.append_empty
    | failed e =>
      refine .inr ⟨e, by simp only [Outcome.ofCollected, hwaited], ?_⟩
      rw [Outcome.complaint, String.join_cons, String.join_nil, String.append_empty]

theorem Printed.stdout_eq {h : Host σ} {t : Ticket} {c : CommandSpec} {echo : Bool} {w : World σ}
    {o : Outcome} {cs : List Chunk} (hp : Printed h t c echo w o cs) :
    o.stdout = printedText .stdout cs := by
  cases hp with
  | nothing told => rfl
  | collected spawned => rfl

/-- Output is what the stage is judged by, and it is shown as it is printed. -/
structure Stage.JudgedByStderr (s : Stage α) : Prop where
  echoes : s.echoStdout = true
  stage : s.kind ≠ .compileSpecification
  fault : ∀ {S plan o t fault}, s.interpret S plan o t = .error fault →
    o.fault? = some fault.detail ∧ fault.specError = none

theorem fault?_eq_some {o : Outcome} {detail : String} (h : o.fault? = some detail) :
    detail = o.stderr ∨ o.stderr = "" ∧ ∃ name, o.signal = some name ∧
      detail = Outcome.killedBy name := by
  unfold Outcome.fault? at h
  split at h
  · exact .inl (Option.some.inj h).symm
  · rename_i hquiet
    right
    obtain ⟨name, hname, hdetail⟩ := Option.map_eq_some_iff.1 h
    refine ⟨?_, name, hname, hdetail.symm⟩
    have hempty : ∀ chunk ∈ o.stderrChunks, chunk = "" := by
      simpa [Outcome.hasStderr] using hquiet
    rw [← String.toList_inj, Outcome.stderr, String.toList_join]
    simpa [List.flatMap_eq_nil_iff] using hempty

/-- The reason of a failure: what was printed, what was announced, or what is withheld. -/
def StageFailure.Reasoned (f : StageFailure) (cs : List Chunk) : Prop :=
  f.detail = f.shownOutput cs ∨ f.Announced ∨ f.Withheld cs

theorem Stage.JudgedByStderr.reasoned {s : Stage α} (hs : s.JudgedByStderr) {h : Host σ}
    {S : Setting} {t : Ticket} {echo : Bool} {w : World σ} {plan : Plan} {o : Outcome}
    {files : FileTree} {cs : List Chunk} {fault : StageFault}
    (hp : Printed h t plan.command echo w o cs) (hi : s.interpret S plan o files = .error fault) :
    (failureOf s plan o fault).Reasoned cs := by
  have hshown : (failureOf s plan o fault).shownOutput cs = printedText .stderr cs := by
    simp [StageFailure.shownOutput, failureOf, hs.stage]
  rcases hp.cases with ⟨hend, hcs⟩ | herr | ⟨e, hend, herr⟩
  · exact .inr (.inr (.notStarted hend hcs))
  · rcases fault?_eq_some (hs.fault hi).1 with hdetail | ⟨hquiet, name, hsignal, hdetail⟩
    · left
      rw [hshown, ← herr]
      exact hdetail
    · right
      by_cases htold : s.kind.announcesExit = true ∧ o.exitCode = none
      · exact .inl ⟨htold.1, htold.2, by simp [failureOf, hsignal, hdetail]⟩
      · -- An exit code is announced in place of the signal, where there is one.
        refine .inr (.killed hsignal ?_ ?_)
        · rw [not_and_or, Bool.not_eq_true] at htold
          exact htold
        · rw [hshown, ← herr, hquiet, String.empty_append]
          exact hdetail
  · refine .inr (.inr (.waitFailed "" "" e hend ?_))
    rcases fault?_eq_some (hs.fault hi).1 with hdetail | ⟨hquiet, -⟩
    · rw [String.empty_append, String.append_empty, ← herr]
      simpa [failureOf, hs.stage] using hdetail
    · -- The message is not empty, so it is what counts.
      rw [herr] at hquiet
      exact absurd (String.append_eq_empty_iff.1 hquiet).2 (waitFailed_ne_empty e)

theorem compiledDocument_eq_error {o : Outcome} {fault : StageFault}
    (h : Stage.compiledDocument o = .error fault) :
    (∃ name, o.signal = some name ∧
      fault.detail = o.stderr ++ o.stdout ++ Outcome.killedBy name) ∨
    fault.detail = o.stderr ++ o.stdout ∨
    ∃ e : Json.ReadError, fault.detail = "The TeSSLa compiler produced invalid JSON: " ++
      e.message ++ "\n" ++ o.stderr ++ o.stdout := by
  unfold Stage.compiledDocument at h
  split at h
  · rename_i name hname
    obtain rfl := Except.error.inj h
    exact .inl ⟨name, hname, rfl⟩
  · split at h
    · obtain rfl := Except.error.inj h
      exact .inr (.inl rfl)
    · simp only at h
      split at h
      · simp at h
      · rename_i e he
        obtain rfl := Except.error.inj h
        exact .inr (.inr ⟨e, rfl⟩)

theorem compileSpecification_eq_error {S : Setting} {plan : Plan} {o : Outcome} {t : FileTree}
    {fault : StageFault} (h : Stage.compileSpecification.interpret S plan o t = .error fault) :
    Stage.compiledDocument o = .error fault ∨
      ∃ e : OsError, fault.detail =
        "Failed to write '" ++ S.project.compiledSpec.text ++ "': " ++ e.text := by
  rw [Stage.interpret_eq_error_iff] at h
  simp only [Stage.compileSpecification] at h
  split at h
  · rename_i fault' hdocument
    obtain rfl := Except.error.inj h
    exact .inl hdocument
  · split at h
    · rename_i e he
      obtain rfl := Except.error.inj h
      exact .inr ⟨e, rfl⟩
    · simp at h

theorem compileSpecification_reasoned {h : Host σ} {S : Setting} {t : Ticket} {echo : Bool}
    {w : World σ} {plan : Plan} {o : Outcome} {files : FileTree} {cs : List Chunk}
    {fault : StageFault} (hp : Printed h t plan.command echo w o cs)
    (hi : Stage.compileSpecification.interpret S plan o files = .error fault) :
    (failureOf Stage.compileSpecification plan o fault).Reasoned cs := by
  have hkind : (failureOf Stage.compileSpecification plan o fault).stage =
    .compileSpecification := rfl
  rcases hp.cases with ⟨hend, hcs⟩ | herr | ⟨e, hend, herr⟩
  · exact .inr (.inr (.notStarted hend hcs))
  · have hshown : (failureOf Stage.compileSpecification plan o fault).shownOutput cs =
        o.stderr ++ o.stdout := by
      rw [herr, hp.stdout_eq]
      rfl
    rcases compileSpecification_eq_error hi with hdocument | ⟨e, hdetail⟩
    · rcases compiledDocument_eq_error hdocument with
        ⟨name, hname, hdetail⟩ | hdetail | ⟨e, hdetail⟩
      · exact .inr (.inr (.killed hname (.inl rfl) (by rw [hshown]; exact hdetail)))
      · exact .inl (by rw [hshown]; exact hdetail)
      · refine .inr (.inr (.invalidDocument (e := e) rfl ?_))
        rw [hshown, ← String.append_assoc]
        exact hdetail
    · exact .inr (.inr (.unwritten rfl hdetail))
  · rcases compileSpecification_eq_error hi with hdocument | ⟨_, hdetail⟩
    · have hwithheld (before after : String)
          (hdetail : fault.detail = before ++ o.stderr ++ o.stdout ++ after) :
          (failureOf Stage.compileSpecification plan o fault).Withheld cs := by
        refine .waitFailed before after e hend ?_
        rw [if_pos hkind, ← hp.stdout_eq, @String.append_assoc before, ← herr]
        exact hdetail
      rcases compiledDocument_eq_error hdocument with
        ⟨name, -, hdetail⟩ | hdetail | ⟨e', hdetail⟩
      · exact .inr (.inr (hwithheld "" (Outcome.killedBy name) (by simpa using hdetail)))
      · exact .inr (.inr (hwithheld "" "" (by simpa using hdetail)))
      · exact .inr (.inr (hwithheld
          ("The TeSSLa compiler produced invalid JSON: " ++ e'.message ++ "\n") ""
          (by simpa using hdetail)))
    · exact .inr (.inr (.unwritten rfl hdetail))

/-! What a failing stage shows -/

/-- A stage of which it is known by what it is judged. -/
inductive SomeStage.Judged : SomeStage → Prop
  | byStderr {α : Type} {s : Stage α} (h : s.JudgedByStderr) : Judged ⟨α, s⟩
  | byDocument : Judged ⟨_, .compileSpecification⟩

theorem SomeStage.Judged.echo_eq {s : SomeStage} (hs : s.Judged) :
    s.2.echoStdout = decide (s.2.kind ≠ .compileSpecification) := by
  cases hs with
  | byStderr h => simp [h.echoes, h.stage]
  | byDocument => rfl

theorem SomeStage.Judged.reasoned {s : SomeStage} (hs : s.Judged) {h : Host σ} {S : Setting}
    {t : Ticket} {echo : Bool} {w : World σ} {plan : Plan} {o : Outcome} {files : FileTree}
    {cs : List Chunk} {fault : StageFault} (hp : Printed h t plan.command echo w o cs)
    (hi : s.2.interpret S plan o files = .error fault) :
    (failureOf s.2 plan o fault).Reasoned cs := by
  cases hs with
  | byStderr hs => exact hs.reasoned hp hi
  | byDocument => exact compileSpecification_reasoned hp hi

theorem rendered_failureEvents (s : Stage α) (plan : Plan) (o : Outcome) (fault : StageFault) :
    rendered .stdout (failureEvents s plan o fault) = "" ∧
    ∃ place, rendered .stderr (failureEvents s plan o fault) =
        (if s.echoStdout then "" else o.stdout) ++
          ("error: " ++ s.failureSummary ++ "\n") ++ place ∧
      (fault.specError = none → place = "") := by
  have hrest : rendered .stdout (if !s.echoStdout && !o.stdoutChunks.isEmpty then
        [.errorText s.kind o.stdout] else []) = "" ∧
      rendered .stderr (if !s.echoStdout && !o.stdoutChunks.isEmpty then
        [.errorText s.kind o.stdout] else []) = if s.echoStdout then "" else o.stdout := by
    cases s.echoStdout with
    | true => exact ⟨rfl, rfl⟩
    | false =>
      cases hchunks : o.stdoutChunks with
      | nil => simp [Outcome.stdout, hchunks, rendered_nil]
      | cons chunk more => simp [rendered_cons, rendered_nil, shownOn, render]
  unfold failureEvents
  simp only [rendered_append, hrest.1, hrest.2]
  cases fault.specError with
  | none => exact ⟨rfl, "", by simp [rendered_cons, rendered_nil, shownOn, render], fun _ => rfl⟩
  | some e =>
    cases plan.input with
    | none => exact ⟨rfl, "", by simp [rendered_cons, rendered_nil, shownOn, render], fun _ => rfl⟩
    | some file =>
      refine ⟨rfl, rendered .stderr [.specError file e], ?_, by simp⟩
      simp [rendered_cons, rendered_nil, shownOn, render, String.append_assoc]

theorem Stage.Fails.shown {h : Host σ} (hh : h.Faithful) {S : Setting} {s : SomeStage}
    (hs : s.Judged) {w w' : World σ} {f : StageFailure} (hf : s.2.Fails h S w f w') :
    ∃ es cs, w'.events = w.events ++ es ∧ f.Shown cs es ∧ f.Reasoned cs := by
  obtain ⟨plan, o, v, fault, hran, hi, rfl, rfl⟩ := hf
  obtain ⟨files, cs, -, hp, hv⟩ := hran.told hh
  obtain ⟨hout, place, herr, hplace⟩ := rendered_failureEvents s.2 plan o fault
  obtain ⟨hchunkErr, hchunkOut⟩ := rendered_chunks s.2.kind s.2.echoStdout cs
  have hstart : ∀ stream, rendered stream [.stageStarted s.2.kind plan.command.text,
      .controlsChanged true] = if stream = .stderr then
        "==> " ++ s.2.kind.name ++ ": " ++ plan.command.text ++ "\n" else "" := by
    intro stream
    cases stream <;> simp [rendered_cons, rendered_nil, shownOn, render]
  have hfree : ∀ stream es,
      rendered stream (.controlsChanged false :: es) = rendered stream es := by
    intro stream es
    simp [rendered_cons, shownOn, render]
  have hecho := hs.echo_eq
  refine ⟨plan.warnings.map StageWarning.event ++ ([.stageStarted s.2.kind plan.command.text,
      .controlsChanged true] ++ (cs.filterMap (ofChunk s.2.kind s.2.echoStdout) ++
      (.controlsChanged false :: exitEvents s.2.kind o ++ failureEvents s.2 plan o fault))), cs,
    by simp [hv], ⟨⟨rendered .stderr (plan.warnings.map StageWarning.event), place, ?_, hplace⟩,
      ⟨"", ?_⟩⟩, hs.reasoned hp hi⟩
  · rw [rendered_append, rendered_append, rendered_append, List.cons_append, hfree, rendered_append,
      hstart, hchunkErr, rendered_exitEvents, herr, hp.stdout_eq, hecho]
    by_cases hspec : s.2.kind = .compileSpecification <;>
      simp [StageFailure.shownOutput, failureOf, hspec, String.append_assoc]
  · have hend : (failureOf s.2 plan o fault).announcement =
        rendered .stdout (exitEvents s.2.kind o) := rfl
    rw [rendered_append, rendered_append, rendered_append, List.cons_append, hfree, rendered_append,
      hstart, hchunkOut, hout, rendered_warnings, hecho, hend]
    by_cases hspec : s.2.kind = .compileSpecification <;> simp [failureOf, hspec]

/-! Workflows -/

/-- A workflow never takes back an event, and it fails only with a stage of the list. -/
structure Workflow.FailsOnlyIn (h : Host σ) (ss : List SomeStage) (x : Workflow α) : Prop where
  events : ∀ w, w.events <+: (x.runFrom h w).2.events
  failure : ∀ w f, (x.runFrom h w).1 = .failure f → ∃ s ∈ ss, ∃ S w₁, w.events <+: w₁.events ∧
    s.2.Fails h S w₁ f (x.runFrom h w).2

namespace Workflow.FailsOnlyIn

variable {β : Type} {h : Host σ} {ss : List SomeStage}

theorem of_prepares {x : Workflow α} (hx : x.Prepares h) : x.FailsOnlyIn h ss := by
  constructor
  · intro w
    obtain ⟨es, hes, -⟩ := hx.quiet w
    exact ⟨es, hes.symm⟩
  · intro w f hf
    exact absurd hf (hx.no_failure w f)

theorem andThen {x : Workflow α} {k : α → Workflow β} (hx : x.FailsOnlyIn h ss)
    (hk : ∀ a, (k a).FailsOnlyIn h ss) : (x.andThen k).FailsOnlyIn h ss := by
  constructor
  · intro w
    have hfirst := hx.events w
    rw [runFrom_andThen]
    cases hrun : x.runFrom h w with
    | mk r w₁ =>
      rw [hrun] at hfirst
      cases r with
      | success a => exact hfirst.trans ((hk a).events w₁)
      | failure f => exact hfirst
      | refused e => exact hfirst
  · intro w f
    have hfirst := hx.events w
    have hfails := hx.failure w
    rw [runFrom_andThen]
    cases hrun : x.runFrom h w with
    | mk r w₁ =>
      rw [hrun] at hfirst hfails
      cases r with
      | success a =>
        intro hf
        obtain ⟨s, hs, S, w₂, hlater, hfail⟩ := (hk a).failure w₁ f hf
        exact ⟨s, hs, S, w₂, hfirst.trans hlater, hfail⟩
      | failure f' =>
        intro hf
        obtain rfl := Result.failure.inj hf
        exact hfails f' rfl
      | refused e => simp

theorem stage (hh : h.Faithful) {S : Setting} {s : SomeStage} (hs : s ∈ ss) :
    (runStage S s.2).FailsOnlyIn h ss := by
  constructor
  · intro w
    rcases runStage_cases hh S s.2 w with ⟨-, es, -, -, hes, -⟩ | ⟨es, hes, -⟩
    · exact ⟨es, hes.symm⟩
    · exact ⟨es, hes.symm⟩
  · intro w f hf
    rcases runStage_cases hh S s.2 w with ⟨r, -, -, hr, -⟩ |
      ⟨-, -, -, -, ⟨a, ha, -⟩ | ⟨f', hf', hfail⟩⟩
    · simp [hf] at hr
    · simp [hf] at ha
    · rw [hf] at hf'
      obtain rfl := Result.failure.inj hf'
      exact ⟨s, hs, S, w, List.prefix_rfl, hfail⟩

theorem always {x : Activity α} (hx : ∀ w, w.events <+: (x.run h w).2.events) :
    (Workflow.always x).FailsOnlyIn h ss := by
  constructor
  · intro w
    rw [runFrom_always]
    exact hx w
  · intro w f hf
    rw [runFrom_always] at hf
    simp at hf

theorem attempt {x : Activity (Except OsError α)} (hx : ∀ w, w.events <+: (x.run h w).2.events) :
    (Workflow.attempt x).FailsOnlyIn h ss := by
  constructor
  · intro w
    have hrun := hx w
    rw [runFrom_attempt]
    cases hr : x.run h w with
    | mk r w₁ =>
      rw [hr] at hrun
      cases r <;> exact hrun
  · intro w f
    rw [runFrom_attempt]
    cases x.run h w with
    | mk r w₁ => cases r <;> simp

theorem publish (e : Event) : (Workflow.always (Activity.publish e)).FailsOnlyIn h ss :=
  .always fun w => List.prefix_append w.events [e]

theorem look (f : FileTree → Except OsError α) :
    (Workflow.attempt (Activity.look f)).FailsOnlyIn h ss :=
  .attempt fun w => List.prefix_refl w.events

theorem succeed (a : α) : (Workflow.succeed a).FailsOnlyIn h ss := of_prepares (.succeed a)

theorem refusePrecondition (p : Precondition) :
    (Workflow.refusePrecondition p : Workflow α).FailsOnlyIn h ss := by
  constructor
  · exact fun w => List.prefix_append w.events [_]
  · intro w f hf
    simp [Workflow.refusePrecondition, runFrom, toActivity, ofActivity, Activity.run] at hf

end Workflow.FailsOnlyIn

/-- All stages that a workflow may run. -/
def allStages : List SomeStage :=
  [⟨_, .compileC false⟩, ⟨_, .compileC true⟩, ⟨_, .patchAssembly⟩, ⟨_, .assemble⟩,
    ⟨_, .runInstrumentedBinary⟩, ⟨_, .runBinary⟩, ⟨_, .compileSpecification⟩,
    ⟨_, .runVerificationServer⟩]

theorem judged_of_mem {s : SomeStage} (hs : s ∈ allStages) : s.Judged := by
  -- Every stage but one succeeds unless `fault?` finds something in the outcome.
  have hrule : ∀ {α : Type} {s : Stage α}, s.echoStdout = true → s.kind ≠ .compileSpecification →
      (∀ S plan o t, ∃ a, s.judge S plan o t = Stage.unlessFailed o t a) →
      SomeStage.Judged ⟨α, s⟩ := by
    intro α s hecho hkind hjudge
    refine .byStderr ⟨hecho, hkind, fun {S plan o t fault} hi => ?_⟩
    obtain ⟨a, ha⟩ := hjudge S plan o t
    obtain ⟨detail, hdetail, rfl⟩ := (Stage.rejected_iff_of_unlessFailed ha).1 hi
    exact ⟨hdetail, rfl⟩
  simp only [allStages, List.mem_cons, List.not_mem_nil, or_false] at hs
  rcases hs with rfl | rfl | rfl | rfl | rfl | rfl | rfl | rfl
  case inr.inr.inr.inr.inr.inr.inl => exact .byDocument
  all_goals exact hrule rfl (by decide) fun _ _ _ _ => ⟨_, rfl⟩

namespace Bench

variable {h : Host σ} (hh : h.Faithful) (b : Bench)

include hh

theorem compileAndRunC_failsOnlyIn : b.compileAndRunC.FailsOnlyIn h allStages :=
  .andThen (.of_prepares (prepareC_prepares h b)) fun _ =>
    .andThen (.stage hh (s := ⟨_, .compileC false⟩) (by simp [allStages])) fun _ =>
      .stage hh (s := ⟨_, .runBinary⟩) (by simp [allStages])

theorem compileAndRunProject_failsOnlyIn : b.compileAndRunProject.FailsOnlyIn h allStages := by
  have hstage : ∀ {S : Setting} {s : SomeStage}, s ∈ allStages →
      (runStage S s.2).FailsOnlyIn h allStages := fun hs => .stage hh hs
  refine .andThen (.of_prepares (prepareProject_prepares h b)) fun p => ?_
  refine .andThen (hstage (s := ⟨_, .compileC true⟩) (by simp [allStages])) fun _ => ?_
  refine .andThen (hstage (s := ⟨_, .patchAssembly⟩) (by simp [allStages])) fun _ => ?_
  refine .andThen (hstage (s := ⟨_, .assemble⟩) (by simp [allStages])) fun _ => ?_
  refine .andThen (hstage (s := ⟨_, .runInstrumentedBinary⟩) (by simp [allStages])) fun _ => ?_
  refine .andThen (hstage (s := ⟨_, .compileSpecification⟩) (by simp [allStages])) fun _ => ?_
  refine .andThen (hstage (s := ⟨_, .runVerificationServer⟩) (by simp [allStages])) fun report => ?_
  exact .andThen (.publish _) fun _ => .succeed report

theorem buildC_failsOnlyIn (emitLlvm : Bool) : (b.buildC emitLlvm).FailsOnlyIn h allStages := by
  refine .andThen (.of_prepares (activeProject_prepares h)) fun p => ?_
  refine .andThen (.of_prepares (makeOutputDir_prepares h p)) fun _ => ?_
  exact .stage hh (s := ⟨_, .compileC emitLlvm⟩) (by cases emitLlvm <;> simp [allStages])

theorem runBinary_failsOnlyIn : b.runBinary.FailsOnlyIn h allStages :=
  .andThen (.of_prepares (activeProject_prepares h)) fun _ =>
    .stage hh (s := ⟨_, .runBinary⟩) (by simp [allStages])

omit hh

theorem highlightUnused_failsOnlyIn : highlightUnused.FailsOnlyIn h [] := by
  refine .andThen (.of_prepares (activeProject_prepares h)) fun p => ?_
  refine .andThen (.always fun w => List.prefix_refl w.events) fun spec => ?_
  cases spec with
  | none => exact .refusePrecondition _
  | some spec =>
    exact .andThen (.look _) fun occurrences => .andThen (.publish _) fun _ => .succeed occurrences

theorem setUp_failsOnlyIn : b.setUp.FailsOnlyIn h [] := by
  refine .andThen (.of_prepares (activeProject_prepares h)) fun p => ?_
  refine .andThen (.attempt fun w => List.prefix_refl w.events) fun outcome => ?_
  split
  · exact .andThen (.publish _) fun _ => .succeed outcome
  · exact .succeed outcome

end Bench

/-- Where a workflow fails, the terminal shows the failed stage as `Shown` says, and the detail is
seen or withheld. -/
def Workflow.TellsFailures (h : Host σ) (x : Workflow α) (w : World σ) : Prop :=
  ∀ f, (x.runFrom h w).1 = .failure f → ∃ es cs, (x.runFrom h w).2.events = w.events ++ es ∧
    f.Shown cs es ∧ (f.Seen es ∨ f.Withheld cs)

theorem StageFailure.Shown.behind {f : StageFailure} {cs : List Chunk} {es : List Event}
    (hs : f.Shown cs es) (earlier : List Event) : f.Shown cs (earlier ++ es) := by
  obtain ⟨⟨before, place, herr, hplace⟩, before', hout⟩ := hs
  refine ⟨⟨rendered .stderr earlier ++ before, place, ?_, hplace⟩,
    rendered .stdout earlier ++ before', ?_⟩
  · simp only [rendered_append, herr, String.append_assoc]
  · simp only [rendered_append, hout, String.append_assoc]

theorem Workflow.FailsOnlyIn.tells {h : Host σ} (hh : h.Faithful) {ss : List SomeStage}
    (hss : ∀ s ∈ ss, s ∈ allStages) {x : Workflow α} (hx : x.FailsOnlyIn h ss) (w : World σ) :
    x.TellsFailures h w := by
  intro f hf
  obtain ⟨s, hs, S, w₁, ⟨earlier, hearlier⟩, hfail⟩ := hx.failure w f hf
  obtain ⟨es, cs, hes, hshown, hreason⟩ := hfail.shown hh (judged_of_mem (hss s hs))
  have hall := hshown.behind earlier
  refine ⟨earlier ++ es, cs, by rw [hes, ← hearlier, List.append_assoc], hall, ?_⟩
  rcases hreason with houtput | hannounced | hwithheld
  · exact .inl (hall.seen_of_output houtput)
  · exact .inl (hall.seen_of_announced hannounced)
  · exact .inr hwithheld

/-- For every workflow of the command line and whatever its processes do: where it fails, the
terminal shows the detail of the failure, or one of five things has happened. The process could not
be started, or not be waited for; it was killed and this was not announced; or the specification
compiler printed no JSON document, or one that cannot be written. What the terminal then shows of
the failed stage is its command, its output, its announced end and the summary. -/
theorem failure_reason_seen_or_withheld {h : Host σ} (hh : h.Faithful) (b : Bench) (w : World σ) :
    b.compileAndRunC.TellsFailures h w ∧ b.compileAndRunProject.TellsFailures h w ∧
    (∀ emitLlvm, (b.buildC emitLlvm).TellsFailures h w) ∧ b.runBinary.TellsFailures h w ∧
    (∀ f, (Bench.highlightUnused.runFrom h w).1 ≠ .failure f) ∧
    ∀ f, (b.setUp.runFrom h w).1 ≠ .failure f := by
  have hall : ∀ s ∈ allStages, s ∈ allStages := fun _ hs => hs
  refine ⟨(b.compileAndRunC_failsOnlyIn hh).tells hh hall w,
    (b.compileAndRunProject_failsOnlyIn hh).tells hh hall w,
    fun emitLlvm => (b.buildC_failsOnlyIn hh emitLlvm).tells hh hall w,
    (b.runBinary_failsOnlyIn hh).tells hh hall w, fun f hf => ?_, fun f hf => ?_⟩
  · obtain ⟨s, hs, -⟩ := Bench.highlightUnused_failsOnlyIn.failure w f hf
    simp at hs
  · obtain ⟨s, hs, -⟩ := b.setUp_failsOnlyIn.failure w f hf
    simp at hs

theorem failure_reason_seen_of_complaint : Demo.complaining.Faithful ∧ ∃ f,
    (Demo.bench.compileAndRunC.runFrom Demo.complaining (Demo.world (Demo.tree []))).1 =
      .failure f ∧ f.detail = "boom" ∧
    f.Seen (Demo.bench.compileAndRunC.runFrom Demo.complaining
      (Demo.world (Demo.tree []))).2.events := by
  have hh : Demo.complaining.Faithful := Host.scripted_faithful _
  obtain ⟨f, hf, hdetail, hstage, hsignal, hexit⟩ : ∃ f,
      (Demo.bench.compileAndRunC.runFrom Demo.complaining (Demo.world (Demo.tree []))).1 =
        .failure f ∧ f.detail = "boom" ∧ f.stage = .compileC ∧ f.signal = none ∧
      f.exitCode = some 0 :=
    ⟨_, rfl, by decide +kernel, by decide +kernel, by decide +kernel, by decide +kernel⟩
  obtain ⟨es, cs, hes, -, hseen⟩ :=
    (failure_reason_seen_or_withheld hh Demo.bench (Demo.world (Demo.tree []))).1 f hf
  refine ⟨hh, f, hf, hdetail, ?_⟩
  rw [hes]
  rcases hseen with hseen | hwithheld
  · exact hseen
  · cases hwithheld with
    | notStarted unended => simp [hexit] at unended
    | waitFailed before after e unended => simp [hexit] at unended
    | killed signal => simp [hsignal] at signal
    | invalidDocument stage => simp [hstage] at stage
    | unwritten stage => simp [hstage] at stage

namespace Demo

/-- No process can be started. -/
def stuck : Host Unit := { host with launch := fun _ w => (.error .denied, w) }

/-- The compiler is killed before it says anything. -/
def killed : Host Unit := .scripted fun
  | .compileC => [.exit (.ended (.signalled 11)), .poll .exit]
  | _ => []

/-- Somebody else has taken the status of the compiler. -/
def bereft : Host Unit := .scripted fun
  | .compileC => [.exit (.failed .noChild), .poll .exit]
  | _ => []

theorem stuck_faithful : stuck.Faithful where
  launch _ w := ⟨w.files, w.host, rfl⟩
  supervise := (Host.scripted_faithful _).supervise

/-- The workflow fails for the reason, and the terminal does not show it. -/
def Unseen {α : Type} (h : Host Unit) (x : Workflow α) (detail : String) : Prop :=
  ∃ f, (x.runFrom h (world (tree []))).1 = .failure f ∧ f.detail = detail ∧
    ¬ f.Seen (x.runFrom h (world (tree []))).2.events

/-- `Unseen`, as it is computed. -/
def hides {α : Type} (h : Host Unit) (x : Workflow α) (detail : String) : Bool :=
  let r := x.runFrom h (world (tree []))
  match r.1 with
  | .failure f => f.detail == detail &&
      [Stream.stdout, .stderr].all fun stream =>
        !decide (detail.toList <:+: r.2.events.flatMap fun e => (e.shownOn stream).toList)
  | _ => false

theorem unseen_of_hides {α : Type} {h : Host Unit} {x : Workflow α} {detail : String}
    (hhides : hides h x detail = true) : Unseen h x detail := by
  unfold hides at hhides
  dsimp only at hhides
  split at hhides
  · rename_i f hf
    simp only [Bool.and_eq_true, beq_iff_eq, List.all_cons, List.all_nil, Bool.not_eq_true',
      decide_eq_false_iff_not, Bool.and_true] at hhides
    obtain ⟨rfl, hout, herr⟩ := hhides
    refine ⟨f, hf, rfl, fun ⟨stream, hseen⟩ => ?_⟩
    rw [rendered_toList] at hseen
    cases stream <;> contradiction
  · exact absurd hhides (by simp)

end Demo

/-- Neither a failed start or wait nor a signal is shown. -/
theorem failure_reasons_not_seen :
    Demo.stuck.Faithful ∧ Demo.Unseen Demo.stuck Demo.bench.compileAndRunC
      "Failed to start 'docker': Permission denied (os error 13)" ∧
    Demo.killed.Faithful ∧ Demo.Unseen Demo.killed Demo.bench.compileAndRunC
      "Process was killed due to signal SIGSEGV" ∧
    Demo.bereft.Faithful ∧ Demo.Unseen Demo.bereft Demo.bench.compileAndRunC
      "Failed to wait for process: No child processes (os error 10)" :=
  ⟨Demo.stuck_faithful, Demo.unseen_of_hides (by decide +kernel),
    Host.scripted_faithful _, Demo.unseen_of_hides (by decide +kernel),
    Host.scripted_faithful _, Demo.unseen_of_hides (by decide +kernel)⟩

end TraceWorkbench
