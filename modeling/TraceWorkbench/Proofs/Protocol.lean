import TraceWorkbench.Pool
import TraceWorkbench.Proofs.StageRuns
import TraceWorkbench.Workflow.Pipeline

set_option autoImplicit false

/-!
# How workflows use the slot

A workflow takes the slot before it starts a process and keeps the ticket until the process is gone;
when it is turned away it says so and stops, and when its process was killed it fails with the stage
of this process. This is read off its text, whatever the effects answer, so it holds no matter what
others do in between.
-/
namespace TraceWorkbench

/-- Where a workflow stands with the slot. -/
inductive Phase where
  | outside
  /-- The slot was taken by somebody else; this has not been told yet. -/
  | turnedAway (r : Refusal)
  | stopped (r : Refusal)
  | holding (t : Ticket) (announced : Bool)
  | launched (t : Ticket) (pid : UInt32)
  /-- The process is gone, and this was its signal. -/
  | waited (t : Ticket) (signal : Option String)
  /-- The slot was given back by a stage whose process had this signal. -/
  | killed (stage : StageKind) (signal : String)
  deriving DecidableEq, Repr

namespace Phase

def hasTicket : Phase → Bool
  | holding .. | launched .. | waited .. => true
  | _ => false

/-- What the end of the process of a stage leads to. -/
def released (stage : StageKind) : Option String → Phase
  | some signal => killed stage signal
  | none => outside

/-- A stage is announced only by the holder of a ticket for it, and nothing is launched before. Once
its process was killed, no other is. -/
def Allows : {β : Type} → Phase → Effect β → Prop
  | _, outside, .publish _ | _, outside, .files _ | _, outside, .project _ | _, outside, .save _
  | _, outside, .acquire _ | _, outside, .time => True
  | _, turnedAway r, .publish e => e = .warning "A process is already running" r.message
  | _, holding t _, .publish e => ∀ stage ∈ e.startedStage?, stage = t.stage
  | _, holding _ _, .files _ | _, holding _ _, .time => True
  | _, holding t _, .release t' => t' = t
  | _, holding _ announced, .launch _ => announced = true
  | _, launched t pid, .recordPid t' pid' => t' = t ∧ pid' = pid
  | _, launched t pid, .supervise t' pid' _ => t' = t ∧ pid' = pid
  | _, waited t _, .release t' => t' = t
  | _, killed .., .publish e => e.startedStage? = none
  | _, killed .., .files _ => True
  | _, _, _ => False

def after : {β : Type} → Phase → Effect β → β → Phase
  | _, outside, .acquire _, .ok t => holding t false
  | _, outside, .acquire _, .error r => turnedAway r
  | _, turnedAway r, .publish _, _ => stopped r
  | _, holding t announced, .publish e, _ => holding t (announced || e.startedStage?.isSome)
  | _, holding _ _, .release _, _ => outside
  | _, holding t _, .launch _, .ok pid => launched t pid
  | _, launched t _, .supervise .., c => waited t (Outcome.signalOf c)
  | _, waited t signal, .release _, _ => released t.stage signal
  | _, ph, _, _ => ph

end Phase

/-- A ticket is for the stage that it was asked for, and what is made of files is made of some. -/
def Effect.CanAnswer : {β : Type} → Effect β → β → Prop
  | _, .acquire stage, .ok t => t.stage = stage
  | _, .files f, a => ∃ t, a = (f t).1
  | _, _, _ => True

namespace Activity

variable {α β : Type}

/-- From this phase on all effects are allowed, whatever they answer, and so is where it ends. -/
def Obeys (final : Phase → α → Prop) : Phase → Activity α → Prop
  | ph, done a => final ph a
  | ph, step e next => ph.Allows e ∧ ∀ b, e.CanAnswer b → Obeys final (ph.after e b) (next b)

theorem Obeys.bind {final : Phase → α → Prop} {final' : Phase → β → Prop} {ph : Phase}
    {x : Activity α} {f : α → Activity β} (hx : x.Obeys final ph)
    (hf : ∀ ph a, final ph a → (f a).Obeys final' ph) : (x.bind f).Obeys final' ph := by
  induction x generalizing ph with
  | done a => exact hf ph a hx
  | step e next ih => exact ⟨hx.1, fun b hb => ih b (hx.2 b hb)⟩

/-- The slot is left alone. -/
def KeepsOut (x : Activity α) : Prop := x.Obeys (fun ph _ => ph = .outside) .outside

theorem KeepsOut.bind {final : Phase → β → Prop} {x : Activity α} {f : α → Activity β}
    (hx : x.KeepsOut) (hf : ∀ a, (f a).Obeys final .outside) :
    (x.bind f).Obeys final .outside :=
  Obeys.bind hx fun ph a hph => by
    subst hph
    exact hf a

theorem publish_keepsOut (e : Event) : (publish e).KeepsOut := ⟨trivial, fun _ _ => rfl⟩

theorem publishAll_keepsOut (es : List Event) : (publishAll es).KeepsOut := by
  induction es with
  | nil => rfl
  | cons e es ih => exact ⟨trivial, fun _ _ => ih⟩

theorem publishAll_killed (stage : StageKind) (signal : String) {es : List Event} (hes : Quiet es) :
    (publishAll es).Obeys (fun ph _ => ph = .killed stage signal) (.killed stage signal) := by
  induction es with
  | nil => rfl
  | cons e es ih =>
    exact ⟨(hes e List.mem_cons_self).1,
      fun _ _ => ih fun e' he' => hes e' (List.mem_cons_of_mem e he')⟩

theorem publishAll_released (stage : StageKind) (signal : Option String) {es : List Event}
    (hes : Quiet es) : (publishAll es).Obeys (fun ph _ => ph = .released stage signal)
      (.released stage signal) := by
  cases signal with
  | none => exact publishAll_keepsOut es
  | some signal => exact publishAll_killed stage signal hes

end Activity

/-- Where a workflow may end: without a ticket; turned away only if this is its result; and after
its process was killed only with the failure of this stage. -/
def Phase.Ends {α : Type} : Phase → Result α → Prop
  | outside, _ => True
  | stopped r, a => a = .refused r
  | killed stage signal, a => ∃ f, a = .failure f ∧ f.stage = stage ∧ f.signal = some signal
  | _, _ => False

/-- A workflow that keeps to the rules for the slot. -/
def Workflow.Orderly {α : Type} (x : Workflow α) : Prop := x.toActivity.Obeys Phase.Ends .outside

section

variable {α : Type}

/-- Whatever a killed process printed, its stage counts as failed. -/
def Stage.FailsIfKilled (s : Stage α) : Prop :=
  ∀ S plan o t, o.signal ≠ none → ∃ fault, (s.judge S plan o t).1 = .error fault

theorem Stage.failsIfKilled_of_unlessFailed {s : Stage α}
    (hs : ∀ S plan o t, ∃ a, s.judge S plan o t = unlessFailed o t a) : s.FailsIfKilled := by
  intro S plan o t hsignal
  obtain ⟨a, ha⟩ := hs S plan o t
  rw [ha, unlessFailed]
  cases hfault : o.fault? with
  | some detail => exact ⟨_, rfl⟩
  | none => exact absurd ((Outcome.fault?_eq_none_iff o).1 hfault).2 hsignal

theorem Stage.compileSpecification_failsIfKilled : compileSpecification.FailsIfKilled := by
  intro S plan o t hs
  obtain ⟨signal, hsignal⟩ := Option.ne_none_iff_exists'.1 hs
  simp only [compileSpecification, compiledDocument, hsignal]
  exact ⟨_, rfl⟩

theorem endRun_notStarted_obeys (t : Ticket) (announced : Bool) (message time : String) :
    (endRun t (.notStarted message time)).Obeys (fun ph o => ph = .released t.stage o.signal)
      (.holding t announced) :=
  ⟨rfl, fun _ _ => (Activity.publishAll_keepsOut _).bind fun _ => rfl⟩

theorem endRun_obeys (t : Ticket) (o : Outcome) :
    (endRun t o).Obeys (fun ph o => ph = .released t.stage o.signal) (.waited t o.signal) := by
  have hexit : Quiet (.controlsChanged false :: exitEvents t.stage o) :=
    List.forall_mem_cons.2 ⟨⟨rfl, rfl⟩, quiet_exitEvents t.stage o⟩
  refine ⟨rfl, fun _ _ => (Activity.publishAll_released t.stage o.signal hexit).bind
    fun ph _ hph => ?_⟩
  subst hph
  rfl

theorem prepareStdout_obeys (t : Ticket) (announced : Bool) (c : CommandSpec) :
    (prepareStdout c).Obeys (fun ph _ => ph = .holding t announced) (.holding t announced) := by
  unfold prepareStdout
  split
  · rfl
  · refine ⟨trivial, fun r _ => ?_⟩
    cases r <;> rfl

theorem runWatched_obeys (t : Ticket) (c : CommandSpec) (echo : Bool) :
    (runWatched t c echo).Obeys (fun ph o => ph = .released t.stage o.signal)
      (.holding t true) := by
  refine (prepareStdout_obeys t true c).bind fun ph r hph => ?_
  subst hph
  cases r with
  | error fe => exact ⟨trivial, fun now _ => endRun_notStarted_obeys t true _ _⟩
  | ok u =>
    refine ⟨trivial, fun now _ => ⟨rfl, fun launched _ => ?_⟩⟩
    cases launched with
    | error e => exact endRun_notStarted_obeys t true _ _
    | ok pid =>
      exact ⟨⟨rfl, rfl⟩, fun _ _ => ⟨⟨rfl, rfl⟩, fun collected _ =>
        endRun_obeys t (.ofCollected collected now)⟩⟩

theorem conclude_obeys (S : Setting) {s : Stage α} (hs : s.FailsIfKilled) (plan : Plan)
    (o : Outcome) : (conclude S s plan o).Obeys Phase.Ends (.released s.kind o.signal) := by
  cases hsignal : o.signal with
  | none =>
    refine ⟨trivial, fun judged _ => ?_⟩
    cases judged with
    | ok a => exact (Activity.publishAll_keepsOut _).bind fun _ => trivial
    | error fault => exact (Activity.publishAll_keepsOut _).bind fun _ => trivial
  | some signal =>
    refine ⟨trivial, fun judged hjudged => ?_⟩
    obtain ⟨files, rfl⟩ := hjudged
    obtain ⟨fault, hfault⟩ := hs S plan o files (by simp [hsignal])
    rw [hfault]
    refine (Activity.publishAll_killed s.kind signal (quiet_failureEvents s plan o fault)).bind
      fun ph _ hph => ?_
    subst hph
    exact ⟨_, rfl, rfl, hsignal⟩

theorem runTicketed_obeys (S : Setting) {s : Stage α} (hs : s.FailsIfKilled) (plan : Plan)
    {t : Ticket} (ht : t.stage = s.kind) :
    (runTicketed S s plan t).Obeys Phase.Ends (.holding t false) := by
  refine ⟨trivial, fun r _ => ?_⟩
  cases r with
  | error e =>
    refine ⟨?_, fun _ _ => ⟨rfl, fun _ _ => trivial⟩⟩
    simp [Phase.after, Phase.Allows, Event.startedStage?]
  | ok u =>
    refine ⟨?_, fun _ _ => ⟨?_, fun _ _ => ?_⟩⟩
    · simpa [Phase.after, Phase.Allows, Event.startedStage?] using ht.symm
    · simp [Phase.after, Phase.Allows, Event.startedStage?]
    · refine (runWatched_obeys t plan.command s.echoStdout).bind fun ph o hph => ?_
      subst hph
      rw [ht]
      exact conclude_obeys S hs plan o

theorem runPlanned_obeys (S : Setting) {s : Stage α} (hs : s.FailsIfKilled) (plan : Plan) :
    (runPlanned S s plan).Obeys Phase.Ends .outside := by
  refine (Activity.publishAll_keepsOut _).bind fun _ => ⟨trivial, fun r hr => ?_⟩
  cases r with
  | error r => exact ⟨rfl, fun _ _ => rfl⟩
  | ok t => exact runTicketed_obeys S hs plan hr

theorem runStage_orderly (S : Setting) {s : Stage α} (hs : s.FailsIfKilled) :
    (runStage S s).Orderly := by
  refine ⟨trivial, fun r _ => ?_⟩
  cases r with
  | error p => exact ⟨trivial, fun _ _ => trivial⟩
  | ok plan => exact runPlanned_obeys S hs plan

theorem runStage_orderly_of_unlessFailed (S : Setting) {s : Stage α}
    (hs : ∀ S plan o t, ∃ a, s.judge S plan o t = Stage.unlessFailed o t a) :
    (runStage S s).Orderly :=
  runStage_orderly S (Stage.failsIfKilled_of_unlessFailed hs)

end

namespace Workflow

variable {α β : Type}

theorem Orderly.andThen {x : Workflow α} {f : α → Workflow β} (hx : x.Orderly)
    (hf : ∀ a, (f a).Orderly) : (x.andThen f).Orderly := by
  refine Activity.Obeys.bind hx fun ph r hph => ?_
  cases ph with
  | outside =>
    cases r with
    | success a => exact hf a
    | failure e => trivial
    | refused e => trivial
  | stopped e =>
    obtain rfl : r = .refused e := hph
    rfl
  | killed stage signal =>
    obtain ⟨f, rfl, hf⟩ := hph
    exact ⟨f, rfl, hf⟩
  | turnedAway | holding | launched | waited => exact hph.elim

theorem orderly_succeed (a : α) : (succeed a).Orderly := trivial

theorem orderly_refusePrecondition (p : Precondition) :
    (refusePrecondition p : Workflow α).Orderly := ⟨trivial, fun _ _ => trivial⟩

theorem orderly_always {x : Activity α} (hx : x.KeepsOut) : (always x).Orderly :=
  hx.bind fun _ => trivial

theorem orderly_attempt {x : Activity (Except OsError α)} (hx : x.KeepsOut) :
    (attempt x).Orderly :=
  hx.bind fun a => by cases a <;> trivial

end Workflow

namespace Bench

open Workflow

theorem activeProject_orderly : activeProject.Orderly := by
  refine ⟨trivial, fun p _ => ?_⟩
  cases p with
  | none => exact orderly_refusePrecondition _
  | some p => trivial

theorem makeOutputDir_orderly (p : Project) : (makeOutputDir p).Orderly :=
  orderly_attempt ⟨trivial, fun _ _ => rfl⟩

theorem saveAll_keepsOut (ps : List Path) : (saveAll ps).KeepsOut := by
  induction ps with
  | nil => rfl
  | cons p more ih => exact ⟨trivial, fun _ _ => ih⟩

theorem prepareC_orderly (b : Bench) : b.prepareC.Orderly := by
  refine activeProject_orderly.andThen fun p => (makeOutputDir_orderly p).andThen fun _ => ?_
  exact (orderly_always (saveAll_keepsOut _)).andThen fun _ => orderly_succeed p

theorem prepareProject_orderly (b : Bench) : b.prepareProject.Orderly := by
  refine activeProject_orderly.andThen fun p => (makeOutputDir_orderly p).andThen fun _ => ?_
  refine Orderly.andThen (orderly_attempt ⟨trivial, fun _ _ => rfl⟩) fun _ => ?_
  exact (orderly_always (saveAll_keepsOut _)).andThen fun _ => orderly_succeed p

theorem compileAndRunC_orderly (b : Bench) : b.compileAndRunC.Orderly :=
  b.prepareC_orderly.andThen fun _ =>
    (runStage_orderly_of_unlessFailed _ fun _ _ _ _ => ⟨_, rfl⟩).andThen fun _ =>
      runStage_orderly_of_unlessFailed _ fun _ _ _ _ => ⟨_, rfl⟩

theorem compileAndRunProject_orderly (b : Bench) : b.compileAndRunProject.Orderly := by
  refine b.prepareProject_orderly.andThen fun p => ?_
  refine (runStage_orderly_of_unlessFailed _ fun _ _ _ _ => ⟨_, rfl⟩).andThen fun _ => ?_
  refine (runStage_orderly_of_unlessFailed _ fun _ _ _ _ => ⟨_, rfl⟩).andThen fun _ => ?_
  refine (runStage_orderly_of_unlessFailed _ fun _ _ _ _ => ⟨_, rfl⟩).andThen fun _ => ?_
  refine (runStage_orderly_of_unlessFailed _ fun _ _ _ _ => ⟨_, rfl⟩).andThen fun _ => ?_
  refine (runStage_orderly _ Stage.compileSpecification_failsIfKilled).andThen fun _ => ?_
  refine (runStage_orderly_of_unlessFailed _ fun _ _ _ _ => ⟨_, rfl⟩).andThen fun report => ?_
  exact (orderly_always (Activity.publish_keepsOut _)).andThen fun _ => orderly_succeed report

theorem buildC_orderly (b : Bench) (emitLlvm : Bool) : (b.buildC emitLlvm).Orderly :=
  activeProject_orderly.andThen fun p => (makeOutputDir_orderly p).andThen fun _ =>
    runStage_orderly_of_unlessFailed _ fun _ _ _ _ => ⟨_, rfl⟩

theorem runBinary_orderly (b : Bench) : b.runBinary.Orderly :=
  activeProject_orderly.andThen fun _ =>
    runStage_orderly_of_unlessFailed _ fun _ _ _ _ => ⟨_, rfl⟩

theorem highlightUnused_orderly : highlightUnused.Orderly := by
  refine activeProject_orderly.andThen fun p => ?_
  refine Orderly.andThen (orderly_always ⟨trivial, fun _ _ => rfl⟩) fun spec => ?_
  cases spec with
  | none => exact orderly_refusePrecondition _
  | some spec =>
    refine Orderly.andThen (orderly_attempt ⟨trivial, fun _ _ => rfl⟩) fun occurrences => ?_
    exact (orderly_always (Activity.publish_keepsOut _)).andThen fun _ =>
      orderly_succeed occurrences

theorem setUp_orderly (b : Bench) : b.setUp.Orderly := by
  refine activeProject_orderly.andThen fun p => ?_
  refine Orderly.andThen (orderly_attempt ⟨trivial, fun _ _ => rfl⟩) fun outcome => ?_
  split
  · exact (orderly_always (Activity.publish_keepsOut _)).andThen fun _ => orderly_succeed outcome
  · exact orderly_succeed outcome

theorem announce_keepsOut (b : Bench) (u : ProjectUpdate) : (b.announce u).KeepsOut := by
  cases u with
  | changed project =>
    refine (Activity.publish_keepsOut _).bind fun _ => ?_
    cases project with
    | none => rfl
    | some p => exact ⟨trivial, fun _ _ => rfl⟩
  | refreshed project => exact Activity.publish_keepsOut _
  | unchanged => rfl

theorem update_keepsOut (b : Bench) (f : ActiveProject → ProjectUpdate × ActiveProject) :
    (b.update f).KeepsOut :=
  ⟨trivial, fun u _ => (b.announce_keepsOut u).bind fun _ => rfl⟩

theorem fileSaved_keepsOut (b : Bench) (file : Path) : (b.fileSaved file).KeepsOut := by
  unfold fileSaved fileSavedIn
  split
  · rfl
  · exact b.update_keepsOut _

theorem splitView_keepsOut (b : Bench) : b.splitView.KeepsOut := by
  unfold splitView splitViewIn
  split
  · exact ⟨trivial, fun _ _ => rfl⟩
  · refine (b.update_keepsOut _).bind fun _ => ⟨trivial, fun view _ => ?_⟩
    simp only [Activity.bind_done]
    split
    · exact ⟨trivial, fun _ _ => rfl⟩
    · rfl

end Bench

/-- What can be asked of a session. -/
inductive Job where
  | compileAndRunC
  | compileAndRunProject
  | buildC (emitLlvm : Bool)
  | runBinary
  | highlightUnused
  | setUp
  | openProject (root : Path)
  | fileChanged (file : Option Path)
  | fileSaved (file : Path)
  | lastFileClosed
  | splitView
  deriving DecidableEq, Repr

def Job.party (b : Bench) : Job → Party
  | compileAndRunC => .of b.compileAndRunC
  | compileAndRunProject => .of b.compileAndRunProject
  | buildC emitLlvm => .of (b.buildC emitLlvm)
  | runBinary => .of b.runBinary
  | highlightUnused => .of Bench.highlightUnused
  | setUp => .of b.setUp
  | openProject root => .of (.always (b.openProject root))
  | fileChanged file => .of (.always (b.fileChanged file))
  | fileSaved file => .of (.always (b.fileSaved file))
  | lastFileClosed => .of (.always b.lastFileClosed)
  | splitView => .of (.always b.splitView)

theorem Job.party_orderly (b : Bench) (j : Job) :
    ∃ (α : Type) (x : Workflow α), j.party b = .of x ∧ x.Orderly := by
  cases j with
  | compileAndRunC => exact ⟨_, _, rfl, b.compileAndRunC_orderly⟩
  | compileAndRunProject => exact ⟨_, _, rfl, b.compileAndRunProject_orderly⟩
  | buildC emitLlvm => exact ⟨_, _, rfl, b.buildC_orderly emitLlvm⟩
  | runBinary => exact ⟨_, _, rfl, b.runBinary_orderly⟩
  | highlightUnused => exact ⟨_, _, rfl, Bench.highlightUnused_orderly⟩
  | setUp => exact ⟨_, _, rfl, b.setUp_orderly⟩
  | openProject root => exact ⟨_, _, rfl, Workflow.orderly_always (b.update_keepsOut _)⟩
  | fileChanged file => exact ⟨_, _, rfl, Workflow.orderly_always (b.update_keepsOut _)⟩
  | fileSaved file => exact ⟨_, _, rfl, Workflow.orderly_always (b.fileSaved_keepsOut file)⟩
  | lastFileClosed => exact ⟨_, _, rfl, Workflow.orderly_always (b.update_keepsOut _)⟩
  | splitView => exact ⟨_, _, rfl, Workflow.orderly_always b.splitView_keepsOut⟩

end TraceWorkbench
