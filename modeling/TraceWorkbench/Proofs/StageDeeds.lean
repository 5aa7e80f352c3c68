import TraceWorkbench.Proofs.Protocol
import TraceWorkbench.Proofs.StageEvents

set_option autoImplicit false

/-!
# The deeds of a job

What matters to others is when a job takes the slot, gives it back, starts a process and tells
something. Its text fixes in which order it can do so, whatever its effects answer. A stage says
that none runs only after it has given the slot back.
-/
namespace TraceWorkbench

inductive Deed where
  | took (stage : StageKind)
  | gaveBack
  | launched (pid : UInt32)
  | told (e : Event)
  deriving DecidableEq, Repr

namespace Deed

def startedStage? : Deed → Option StageKind
  | told e => e.startedStage?
  | _ => none

/-- What it says about the controls: whether a process runs. -/
def sign? : Deed → Option Bool
  | told e => e.busySign?
  | _ => none

def addTo (ks : List StageKind) : Option Deed → List StageKind
  | some (.told (.stageStarted stage _)) => ks ++ [stage]
  | _ => ks

theorem addTo_eq (ks : List StageKind) (d : Option Deed) :
    addTo ks d = ks ++ d.toList.filterMap startedStage? := by
  unfold addTo
  split
  · rfl
  · rename_i hother
    cases d with
    | none => simp
    | some d =>
      cases d with
      | told e =>
        cases e with
        | stageStarted stage command => exact absurd rfl (hother stage command)
        | _ => simp [startedStage?, Event.startedStage?]
      | _ => simp [startedStage?]

end Deed

def Effect.deed? : {β : Type} → Effect β → β → Option Deed
  | _, .publish e, _ => some (.told e)
  | _, .acquire stage, .ok _ => some (.took stage)
  | _, .release _, _ => some .gaveBack
  | _, .launch _, .ok pid => some (.launched pid)
  | _, _, _ => none

/-- Neither starts a stage nor says whether a process runs. -/
def Event.isPlain (e : Event) : Bool := e.startedStage?.isNone && e.busySign?.isNone

/-- How far a job is with a stage, as others can see. -/
inductive Standing where
  | idle
  | holding (stage : StageKind)
  | announced (stage : StageKind)
  /-- It has said that a process runs, and has not given the slot back. -/
  | busy (stage : StageKind)
  /-- It has given the slot back and has still to say that none runs. -/
  | owing
  deriving DecidableEq, Repr

namespace Standing

def holds? : Standing → Option StageKind
  | holding stage | announced stage | busy stage => some stage
  | _ => none

/-- Where a deed leads; other deeds are not done there. -/
def next? : Standing → Deed → Option Standing
  | idle, .took stage => some (holding stage)
  | holding _, .gaveBack => some idle
  | announced stage, .told (.controlsChanged true) => some (busy stage)
  | busy stage, .launched _ => some (busy stage)
  | busy _, .gaveBack => some owing
  | owing, .told (.controlsChanged false) => some idle
  | idle, .told e => if e.isPlain then some idle else none
  | holding stage, .told (.stageStarted kind _) =>
    if kind = stage then some (announced stage) else none
  | holding stage, .told e => if e.isPlain then some (holding stage) else none
  | _, _ => none

/-- All steps from a standing to the next. -/
inductive Next : Standing → Deed → Standing → Prop where
  | take (stage : StageKind) : Next idle (.took stage) (holding stage)
  | giveUp (stage : StageKind) : Next (holding stage) .gaveBack idle
  | announce (stage : StageKind) (command : String) :
    Next (holding stage) (.told (.stageStarted stage command)) (announced stage)
  | sign (stage : StageKind) : Next (announced stage) (.told (.controlsChanged true)) (busy stage)
  | launch (stage : StageKind) (pid : UInt32) : Next (busy stage) (.launched pid) (busy stage)
  | giveBack (stage : StageKind) : Next (busy stage) .gaveBack owing
  | settle : Next owing (.told (.controlsChanged false)) idle
  | tell (st : Standing) {e : Event} (plain : e.isPlain = true) : Next st (.told e) st

theorem next_of_next? {st st' : Standing} {d : Deed} (h : st.next? d = some st') :
    st.Next d st' := by
  unfold next? at h
  split at h
  · obtain rfl := Option.some.inj h
    exact .take _
  · obtain rfl := Option.some.inj h
    exact .giveUp _
  · obtain rfl := Option.some.inj h
    exact .sign _
  · obtain rfl := Option.some.inj h
    exact .launch _ _
  · obtain rfl := Option.some.inj h
    exact .giveBack _
  · obtain rfl := Option.some.inj h
    exact .settle
  · split at h
    · rename_i hplain
      obtain rfl := Option.some.inj h
      exact .tell _ hplain
    · simp at h
  · split at h
    · rename_i hkind
      obtain rfl := Option.some.inj h
      rw [hkind]
      exact .announce _ _
    · simp at h
  · split at h
    · rename_i hplain
      obtain rfl := Option.some.inj h
      exact .tell _ hplain
    · simp at h
  · simp at h

def after? (st : Standing) (ds : List Deed) : Option Standing := ds.foldlM next? st

theorem after?_append (st : Standing) (ds es : List Deed) :
    st.after? (ds ++ es) = (st.after? ds).bind fun st' => st'.after? es := by
  simp [after?]

theorem after?_singleton (st : Standing) (d : Deed) : st.after? [d] = st.next? d := by
  simp [after?]

theorem after?_concat (st : Standing) (ds : List Deed) (d : Deed) :
    st.after? (ds ++ [d]) = (st.after? ds).bind fun st' => st'.next? d := by
  simp only [after?_append, after?_singleton]

theorem next?_plain {e : Event} (he : e.isPlain = true) : idle.next? (.told e) = some idle := by
  simp [next?, he]

end Standing

namespace Activity

variable {α β : Type}

/-- With some answers to its effects, and these deeds, the activity gets as far as that. -/
inductive Does : Activity α → List Deed → Activity α → Prop where
  | start (x : Activity α) : Does x [] x
  | step {β : Type} {e : Effect β} {next : β → Activity α} {b : β} {ds : List Deed}
    {y : Activity α} (can : e.CanAnswer b) (rest : Does (next b) ds y) :
    Does (.step e next) ((e.deed? b).toList ++ ds) y

theorem Does.concat {x : Activity α} {ds : List Deed} {e : Effect β} {next : β → Activity α} {b : β}
    (hx : x.Does ds (.step e next)) (hb : e.CanAnswer b) :
    x.Does (ds ++ (e.deed? b).toList) (next b) := by
  generalize hy : Activity.step e next = y at hx
  induction hx with
  | start x =>
    subst hy
    simpa using Does.step hb (.start (next b))
  | step can rest ih =>
    rw [List.append_assoc]
    exact .step can (ih hy)

/-- From this standing on, with these stages started before, all deeds have their place, and the
end has. -/
def Follows (final : Standing → List StageKind → α → Prop) :
    Standing → List StageKind → Activity α → Prop
  | st, ks, done a => final st ks a
  | st, ks, step e next => ∀ b, e.CanAnswer b →
    ∃ st', st.after? (e.deed? b).toList = some st' ∧
      Follows final st' (Deed.addTo ks (e.deed? b)) (next b)

theorem Follows.bind {final : Standing → List StageKind → α → Prop}
    {final' : Standing → List StageKind → β → Prop} {st : Standing} {ks : List StageKind}
    {x : Activity α} {f : α → Activity β} (hx : x.Follows final st ks)
    (hf : ∀ st ks a, final st ks a → (f a).Follows final' st ks) :
    (x.bind f).Follows final' st ks := by
  induction x generalizing st ks with
  | done a => exact hf st ks a hx
  | step e next ih =>
    intro b hb
    obtain ⟨st', hst', hrest⟩ := hx b hb
    exact ⟨st', hst', ih b hrest⟩

theorem Follows.mono {final final' : Standing → List StageKind → α → Prop} {st : Standing}
    {ks : List StageKind} {x : Activity α} (hx : x.Follows final st ks)
    (hfinal : ∀ st ks a, final st ks a → final' st ks a) : x.Follows final' st ks := by
  rw [← bind_pure x]
  exact hx.bind hfinal

theorem Follows.of_does {final : Standing → List StageKind → α → Prop} {st : Standing}
    {ks : List StageKind} {x y : Activity α} {ds : List Deed} (hx : x.Follows final st ks)
    (hd : x.Does ds y) : ∃ st', st.after? ds = some st' ∧
      y.Follows final st' (ks ++ ds.filterMap Deed.startedStage?) := by
  induction hd generalizing st ks with
  | start x => exact ⟨st, rfl, by simpa using hx⟩
  | @step β e next b ds y can rest ih =>
    obtain ⟨st₁, hst₁, hrest⟩ := hx b can
    obtain ⟨st₂, hst₂, hy⟩ := ih hrest
    refine ⟨st₂, ?_, ?_⟩
    · rw [Standing.after?_append, hst₁]
      exact hst₂
    · rwa [List.filterMap_append, ← List.append_assoc, ← Deed.addTo_eq]

/-- It tells nothing but plain events and leaves the slot alone. -/
def Plain (x : Activity α) : Prop :=
  ∀ ks, x.Follows (fun st ks' _ => st = .idle ∧ ks' = ks) .idle ks

theorem Plain.bind {final : Standing → List StageKind → β → Prop} {ks : List StageKind}
    {x : Activity α} {f : α → Activity β} (hx : x.Plain) (hf : ∀ a, (f a).Follows final .idle ks) :
    (x.bind f).Follows final .idle ks :=
  (hx ks).bind fun st ks' a h => by
    obtain ⟨rfl, rfl⟩ := h
    exact hf a

theorem plain_done (a : α) : (done a).Plain := fun _ => ⟨rfl, rfl⟩

theorem follows_told {final : Standing → List StageKind → α → Prop} {ks : List StageKind}
    {e : Event} {next : Unit → Activity α} (he : e.isPlain = true)
    (hnext : (next ()).Follows final .idle ks) :
    (step (.publish e) next).Follows final .idle ks := by
  intro b _
  refine ⟨.idle, ?_, ?_⟩
  · change Standing.after? .idle [.told e] = _
    rw [Standing.after?_singleton, Standing.next?_plain he]
  · have hnone : e.startedStage? = none := by
      simp only [Event.isPlain, Bool.and_eq_true, Option.isNone_iff_eq_none] at he
      exact he.1
    have hsame : Deed.addTo ks (some (.told e)) = ks := by
      simp [Deed.addTo_eq, Deed.startedStage?, hnone]
    change Follows final .idle (Deed.addTo ks (some (.told e))) (next b)
    rw [hsame]
    exact hnext

theorem plain_publish {e : Event} (he : e.isPlain = true) : (publish e).Plain :=
  fun _ => follows_told he ⟨rfl, rfl⟩

theorem plain_publishAll {es : List Event} (hes : ∀ e ∈ es, e.isPlain = true) :
    (publishAll es).Plain := by
  induction es with
  | nil => exact plain_done ()
  | cons e es ih =>
    exact fun ks => follows_told (hes e List.mem_cons_self)
      (ih (fun e' he' => hes e' (List.mem_cons_of_mem e he')) ks)

theorem plain_perform {e : Effect α} (he : ∀ b, e.deed? b = none) : (perform e).Plain := by
  intro ks b _
  refine ⟨.idle, ?_, ?_⟩
  · rw [he b]
    rfl
  · rw [he b]
    exact ⟨rfl, rfl⟩

end Activity

section

variable {α : Type}

theorem plain_exitEvents (stage : StageKind) (o : Outcome) :
    ∀ e ∈ exitEvents stage o, e.isPlain = true := by
  intro e he
  unfold exitEvents at he
  split at he
  · obtain ⟨message, -, rfl⟩ := Option.map_eq_some_iff.1 (Option.mem_toList.1 he)
    rfl
  · simp at he

theorem endRun_follows (t : Ticket) (o : Outcome) (stage : StageKind) (ks : List StageKind) :
    (endRun t o).Follows (fun st ks' _ => st = .idle ∧ ks' = ks) (.busy stage) ks :=
  fun _ _ => ⟨.owing, rfl, fun _ _ => ⟨.idle, rfl,
    (Activity.plain_publishAll (plain_exitEvents t.stage o)).bind fun _ => ⟨rfl, rfl⟩⟩⟩

theorem prepareStdout_follows (c : CommandSpec) (stage : StageKind) (ks : List StageKind) :
    (prepareStdout c).Follows (fun st ks' _ => st = .busy stage ∧ ks' = ks) (.busy stage) ks := by
  unfold prepareStdout
  split
  · exact ⟨rfl, rfl⟩
  · refine fun r _ => ⟨.busy stage, rfl, ?_⟩
    cases r <;> exact ⟨rfl, rfl⟩

theorem runWatched_follows (t : Ticket) (c : CommandSpec) (echo : Bool) (stage : StageKind)
    (ks : List StageKind) : (runWatched t c echo).Follows (fun st ks' _ => st = .idle ∧ ks' = ks)
      (.busy stage) ks := by
  refine (prepareStdout_follows c stage ks).bind fun st ks' r h => ?_
  obtain ⟨rfl, rfl⟩ := h
  cases r with
  | error fe => exact fun _ _ => ⟨.busy stage, rfl, endRun_follows t _ stage _⟩
  | ok u =>
    refine fun now _ => ⟨.busy stage, rfl, fun launched _ => ?_⟩
    cases launched with
    | error e => exact ⟨.busy stage, rfl, endRun_follows t _ stage _⟩
    | ok pid =>
      exact ⟨.busy stage, rfl, fun _ _ => ⟨.busy stage, rfl, fun _ _ =>
        ⟨.busy stage, rfl, endRun_follows t _ stage _⟩⟩⟩

theorem plain_successEvents (s : Stage α) (command : String) :
    ∀ e ∈ successEvents s command, e.isPlain = true := by
  intro e he
  simp only [successEvents, List.cons_append, List.mem_cons, List.mem_append, Option.mem_toList,
    Option.map_eq_some_iff] at he
  rcases he with rfl | ⟨summary, -, rfl⟩ | he
  · rfl
  · rfl
  · split at he
    · obtain rfl := List.mem_singleton.1 he
      rfl
    · simp at he

theorem plain_failureEvents (s : Stage α) (plan : Plan) (o : Outcome) (fault : StageFault) :
    ∀ e ∈ failureEvents s plan o fault, e.isPlain = true := by
  intro e he
  simp only [failureEvents, List.mem_append] at he
  rcases he with (he | he) | he
  · split at he
    · obtain rfl := List.mem_singleton.1 he
      rfl
    · simp at he
  · simp only [List.mem_cons, List.not_mem_nil, or_false] at he
    rcases he with rfl | rfl <;> rfl
  · split at he
    · obtain rfl := List.mem_singleton.1 he
      rfl
    · simp at he

theorem conclude_follows (S : Setting) (s : Stage α) (plan : Plan) (o : Outcome) :
    (conclude S s plan o).Plain := by
  refine fun ks judged _ => ⟨.idle, rfl, ?_⟩
  cases judged with
  | ok a => exact (Activity.plain_publishAll (plain_successEvents s _)).bind fun _ => ⟨rfl, rfl⟩
  | error fault =>
    exact (Activity.plain_publishAll (plain_failureEvents s plan o _)).bind fun _ => ⟨rfl, rfl⟩

end

namespace Workflow

variable {α β : Type}

def Starts (stages : List StageKind) (x : Workflow α) : Prop :=
  ∀ ks, x.toActivity.Follows
    (fun st ks' r => st = .idle ∧ (r.isSuccess = true → ks' = ks ++ stages)) .idle ks

theorem Starts.andThen {stages stages' : List StageKind} {x : Workflow α} {f : α → Workflow β}
    (hx : x.Starts stages) (hf : ∀ a, (f a).Starts stages') :
    (x.andThen f).Starts (stages ++ stages') := by
  intro ks
  refine (hx ks).bind fun st ks' r h => ?_
  obtain ⟨rfl, hstarted⟩ := h
  cases r with
  | success a =>
    rw [hstarted rfl, ← List.append_assoc]
    exact hf a _
  | failure | refused => exact ⟨rfl, fun hs => absurd hs Bool.false_ne_true⟩

theorem starts_of_plain {x : Activity (Result α)} (hx : x.Plain) : (ofActivity x).Starts [] := by
  intro ks
  refine (hx ks).mono fun st ks' r h => ⟨h.1, fun _ => ?_⟩
  rw [h.2, List.append_nil]

theorem starts_succeed (a : α) : (succeed a).Starts [] := starts_of_plain (Activity.plain_done _)

theorem starts_refusePrecondition (p : Precondition) :
    (refusePrecondition p : Workflow α).Starts [] :=
  starts_of_plain fun _ => Activity.follows_told rfl ⟨rfl, rfl⟩

theorem starts_always {x : Activity α} (hx : x.Plain) : (always x).Starts [] :=
  starts_of_plain fun _ => hx.bind fun _ => ⟨rfl, rfl⟩

theorem starts_attempt {x : Activity (Except OsError α)} (hx : x.Plain) : (attempt x).Starts [] :=
  starts_of_plain fun _ => hx.bind fun a => by cases a <;> exact ⟨rfl, rfl⟩

end Workflow

section

variable {α : Type}

theorem runTicketed_follows (S : Setting) (s : Stage α) (plan : Plan) (t : Ticket)
    (ks : List StageKind) : (runTicketed S s plan t).Follows
      (fun st ks' r => st = .idle ∧ (r.isSuccess = true → ks' = ks ++ [s.kind]))
      (.holding s.kind) ks := by
  refine fun r _ => ⟨.holding s.kind, rfl, ?_⟩
  cases r with
  | error e =>
    exact fun _ _ => ⟨.holding s.kind, rfl, fun _ _ =>
      ⟨.idle, rfl, rfl, fun hs => absurd hs Bool.false_ne_true⟩⟩
  | ok u =>
    intro _ _
    refine ⟨.announced s.kind, ?_, fun _ _ => ⟨.busy s.kind, rfl, ?_⟩⟩
    · change Standing.after? (.holding s.kind) [.told (.stageStarted s.kind _)] = _
      simp [Standing.after?_singleton, Standing.next?]
    · refine (runWatched_follows t plan.command s.echoStdout s.kind _).bind fun st ks' o h => ?_
      obtain ⟨rfl, rfl⟩ := h
      exact (conclude_follows S s plan o _).mono fun st ks' r h => ⟨h.1, fun _ => h.2⟩

theorem runPlanned_follows (S : Setting) (s : Stage α) (plan : Plan) (ks : List StageKind) :
    (runPlanned S s plan).Follows
      (fun st ks' r => st = .idle ∧ (r.isSuccess = true → ks' = ks ++ [s.kind])) .idle ks := by
  have hwarnings : ∀ e ∈ plan.warnings.map StageWarning.event, e.isPlain = true := by
    intro e he
    obtain ⟨warning, -, rfl⟩ := List.mem_map.1 he
    rfl
  refine (Activity.plain_publishAll hwarnings).bind fun _ => ?_
  intro r _
  cases r with
  | error r =>
    exact ⟨.idle, rfl, fun _ _ => ⟨.idle, rfl, rfl, fun hs => absurd hs Bool.false_ne_true⟩⟩
  | ok t => exact ⟨.holding s.kind, rfl, runTicketed_follows S s plan t ks⟩

theorem runStage_starts (S : Setting) (s : Stage α) : (runStage S s).Starts [s.kind] := by
  refine fun ks r _ => ⟨.idle, rfl, ?_⟩
  cases r with
  | error p => exact fun _ _ => ⟨.idle, rfl, rfl, fun hs => absurd hs Bool.false_ne_true⟩
  | ok plan => exact runPlanned_follows S s plan ks

end

namespace Bench

open Workflow

theorem activeProject_starts : activeProject.Starts [] := by
  refine starts_of_plain fun ks p _ => ⟨.idle, rfl, ?_⟩
  cases p with
  | none => exact fun _ _ => ⟨.idle, rfl, rfl, rfl⟩
  | some p => exact ⟨rfl, rfl⟩

theorem makeOutputDir_starts (p : Project) : (makeOutputDir p).Starts [] :=
  starts_attempt (Activity.plain_perform fun _ => rfl)

theorem saveAll_plain (ps : List Path) : (saveAll ps).Plain := by
  induction ps with
  | nil => exact Activity.plain_done ()
  | cons p more ih => exact fun ks _ _ => ⟨.idle, rfl, ih ks⟩

theorem prepareC_starts (b : Bench) : b.prepareC.Starts [] :=
  activeProject_starts.andThen fun p => (makeOutputDir_starts p).andThen fun _ =>
    (starts_always (saveAll_plain _)).andThen fun _ => starts_succeed p

theorem prepareProject_starts (b : Bench) : b.prepareProject.Starts [] := by
  refine activeProject_starts.andThen fun p => (makeOutputDir_starts p).andThen fun _ => ?_
  refine (starts_attempt (Activity.plain_perform fun _ => rfl)).andThen fun _ => ?_
  exact (starts_always (saveAll_plain _)).andThen fun _ => starts_succeed p

theorem compileAndRunC_starts (b : Bench) :
    b.compileAndRunC.Starts (cStages.map SomeStage.kind) :=
  b.prepareC_starts.andThen fun _ => (runStage_starts _ _).andThen fun _ => runStage_starts _ _

theorem compileAndRunProject_starts (b : Bench) :
    b.compileAndRunProject.Starts (projectStages.map SomeStage.kind) := by
  refine b.prepareProject_starts.andThen fun p => ?_
  refine (runStage_starts _ _).andThen fun _ => (runStage_starts _ _).andThen fun _ => ?_
  refine (runStage_starts _ _).andThen fun _ => (runStage_starts _ _).andThen fun _ => ?_
  refine (runStage_starts _ _).andThen fun _ => (runStage_starts _ _).andThen fun report => ?_
  exact (starts_always (Activity.plain_publish rfl)).andThen fun _ => starts_succeed report

theorem buildC_starts (b : Bench) (emitLlvm : Bool) : (b.buildC emitLlvm).Starts [.compileC] :=
  activeProject_starts.andThen fun p => (makeOutputDir_starts p).andThen fun _ =>
    runStage_starts _ _

theorem runBinary_starts (b : Bench) : b.runBinary.Starts [.runBinary] :=
  activeProject_starts.andThen fun _ => runStage_starts _ _

theorem highlightUnused_starts : highlightUnused.Starts [] := by
  refine activeProject_starts.andThen fun p => ?_
  refine Starts.andThen (starts_always (Activity.plain_perform fun _ => rfl)) fun spec => ?_
  cases spec with
  | none => exact starts_refusePrecondition _
  | some spec =>
    refine Starts.andThen (starts_attempt (Activity.plain_perform fun _ => rfl)) fun found => ?_
    exact (starts_always (Activity.plain_publish rfl)).andThen fun _ => starts_succeed found

theorem setUp_starts (b : Bench) : b.setUp.Starts [] := by
  refine activeProject_starts.andThen fun p => ?_
  refine Starts.andThen (starts_attempt (Activity.plain_perform fun _ => rfl)) fun outcome => ?_
  split
  · exact (starts_always (Activity.plain_publish rfl)).andThen fun _ => starts_succeed outcome
  · exact starts_succeed outcome

theorem announce_plain (b : Bench) (u : ProjectUpdate) : (b.announce u).Plain := by
  cases u with
  | changed project =>
    refine fun ks => (Activity.plain_publish rfl).bind fun _ => ?_
    cases project with
    | none => exact ⟨rfl, rfl⟩
    | some p => exact Activity.plain_perform (fun _ => rfl) ks
  | refreshed project => exact Activity.plain_publish rfl
  | unchanged => exact Activity.plain_done ()

theorem update_plain (b : Bench) (f : ActiveProject → ProjectUpdate × ActiveProject) :
    (b.update f).Plain :=
  fun _ u _ => ⟨.idle, rfl, (b.announce_plain u).bind fun _ => ⟨rfl, rfl⟩⟩

theorem fileSaved_plain (b : Bench) (file : Path) : (b.fileSaved file).Plain := by
  unfold fileSaved fileSavedIn
  split
  · exact Activity.plain_done _
  · exact b.update_plain _

theorem splitView_plain (b : Bench) : b.splitView.Plain := by
  unfold splitView splitViewIn
  split
  · exact fun _ _ _ => ⟨.idle, rfl, rfl, rfl⟩
  · refine fun ks => (b.update_plain _).bind fun _ => ?_
    refine fun view _ => ⟨.idle, rfl, ?_⟩
    simp only [Activity.bind_done]
    split
    · exact fun _ _ => ⟨.idle, rfl, rfl, rfl⟩
    · exact ⟨rfl, rfl⟩

end Bench

/-- The stages that a job has started when it succeeds. -/
def Job.stages : Job → List StageKind
  | compileAndRunC => cStages.map SomeStage.kind
  | compileAndRunProject => projectStages.map SomeStage.kind
  | buildC _ => [.compileC]
  | runBinary => [.runBinary]
  | _ => []

theorem Job.party_starts (b : Bench) (j : Job) :
    ∃ (α : Type) (x : Workflow α), j.party b = .of x ∧ x.Starts j.stages := by
  cases j with
  | compileAndRunC => exact ⟨_, _, rfl, b.compileAndRunC_starts⟩
  | compileAndRunProject => exact ⟨_, _, rfl, b.compileAndRunProject_starts⟩
  | buildC emitLlvm => exact ⟨_, _, rfl, b.buildC_starts emitLlvm⟩
  | runBinary => exact ⟨_, _, rfl, b.runBinary_starts⟩
  | highlightUnused => exact ⟨_, _, rfl, Bench.highlightUnused_starts⟩
  | setUp => exact ⟨_, _, rfl, b.setUp_starts⟩
  | openProject root => exact ⟨_, _, rfl, Workflow.starts_always (b.update_plain _)⟩
  | fileChanged file => exact ⟨_, _, rfl, Workflow.starts_always (b.update_plain _)⟩
  | fileSaved file => exact ⟨_, _, rfl, Workflow.starts_always (b.fileSaved_plain file)⟩
  | lastFileClosed => exact ⟨_, _, rfl, Workflow.starts_always (b.update_plain _)⟩
  | splitView => exact ⟨_, _, rfl, Workflow.starts_always b.splitView_plain⟩

end TraceWorkbench
