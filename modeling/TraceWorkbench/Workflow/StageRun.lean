import TraceWorkbench.Workflow.Result

set_option autoImplicit false

/-!
# Running a stage

A stage is planned, takes the slot, is prepared, and has its process run and watched; then its
outcome is judged. The slot is given back on every way out, before anybody hears that the process
has ended.
-/
namespace TraceWorkbench

def exitEvents (stage : StageKind) (o : Outcome) : List Event :=
  if stage.announcesExit then
    (o.exitMessage.map fun message => Event.console ("\n" ++ message ++ "\n\n")).toList
  else []

def endRun (t : Ticket) (o : Outcome) : Activity Outcome := do
  .perform (.release t)
  .publishAll (.controlsChanged false :: exitEvents t.stage o)
  return o

def prepareStdout (c : CommandSpec) : Activity (Except (Path × OsError) Unit) :=
  match c.stdoutFile with
  | none => .done (.ok ())
  | some file => Activity.bind (.files fun t => (t.openForWriting file true).map Prod.snd) fun
    | .ok () => .done (.ok ())
    | .error e => .done (.error (file, e))

/-- Runs a process and watches it. What cannot be started has an outcome as well. -/
def runWatched (t : Ticket) (c : CommandSpec) (echo : Bool) : Activity Outcome := do
  match ← prepareStdout c with
  | .error (file, e) =>
    let now ← .perform .time
    endRun t (.notStarted ("Failed to create '" ++ file.text ++ "': " ++ e.text) now)
  | .ok () =>
    let now ← .perform .time
    match ← .perform (.launch c) with
    | .error e =>
      endRun t (.notStarted ("Failed to start '" ++ c.program.text ++ "': " ++ e.text) now)
    | .ok pid =>
      .perform (.recordPid t pid)
      let collected ← .perform (.supervise t pid echo)
      endRun t (.ofCollected collected now)

def successEvents {α : Type} (stage : Stage α) (command : String) : List Event :=
  .log command stage.successSummary ::
    (stage.successSummary.map (Event.stageSucceeded stage.kind)).toList ++
    (if stage.kind = .compileSpecification then [.specErrorsCleared] else [])

/-- The events of a stage that failed: output that was not shown so far is shown now. -/
def failureEvents {α : Type} (stage : Stage α) (plan : Plan) (o : Outcome) (fault : StageFault) :
    List Event :=
  (if !stage.echoStdout && !o.stdoutChunks.isEmpty then [.errorText stage.kind o.stdout] else []) ++
    [.log plan.command.text (some stage.failureSummary),
      .stageFailed stage.kind stage.failureSummary fault.detail] ++
    match fault.specError, plan.input with
    | some error, some file => [.specError file error]
    | _, _ => []

def failureOf {α : Type} (stage : Stage α) (plan : Plan) (o : Outcome) (fault : StageFault) :
    StageFailure where
  stage := stage.kind
  summary := stage.failureSummary
  detail := fault.detail
  command := plan.command.text
  exitCode := o.exitCode
  signal := o.signal
  specError := fault.specError

def conclude {α : Type} (s : Setting) (stage : Stage α) (plan : Plan) (o : Outcome) :
    Activity (Result α) := do
  match ← Activity.perform (.files (stage.judge s plan o)) with
  | .ok a =>
    .publishAll (successEvents stage plan.command.text)
    return .success a
  | .error fault =>
    .publishAll (failureEvents stage plan o fault)
    return .failure (failureOf stage plan o fault)

def StageWarning.event (w : StageWarning) : Event := .warning w.title w.detail

def runTicketed {α : Type} (s : Setting) (stage : Stage α) (plan : Plan) (t : Ticket) :
    Activity (Result α) := do
  match ← Activity.files (stage.beforeSpawn s) with
  | .error e =>
    .publish (.warning ("Unable to prepare " ++ stage.kind.name) e.text)
    .perform (.release t)
    return .refused (.io e)
  | .ok () =>
    .publish (.stageStarted stage.kind plan.command.text)
    .publish (.controlsChanged true)
    let o ← runWatched t plan.command stage.echoStdout
    conclude s stage plan o

def runPlanned {α : Type} (s : Setting) (stage : Stage α) (plan : Plan) : Activity (Result α) := do
  .publishAll (plan.warnings.map StageWarning.event)
  match ← .perform (.acquire stage.kind) with
  | .error r =>
    .publish (.warning "A process is already running" r.message)
    return .refused r
  | .ok t => runTicketed s stage plan t

def runStage {α : Type} (s : Setting) (stage : Stage α) : Workflow α :=
  .ofActivity <| (Activity.look (stage.plan s)).bind fun
    | .error p => (Workflow.refusePrecondition p).toActivity
    | .ok plan => runPlanned s stage plan

end TraceWorkbench
