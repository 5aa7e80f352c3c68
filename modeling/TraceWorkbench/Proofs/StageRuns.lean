import TraceWorkbench.Proofs.Watching
import TraceWorkbench.Workflow.StageRun

set_option autoImplicit false

/-!
# Runs of a single stage

A stage either refuses in the world it meets, and then starts nothing, or its process is run and
its outcome is judged. The host is any that does what processes can do.
-/
namespace TraceWorkbench

def Event.isReport : Event → Bool
  | verificationOutput .. => true
  | _ => false

def startedStages (es : List Event) : List StageKind := es.filterMap Event.startedStage?

/-- No stage was started, and nothing was reported. -/
def Quiet (es : List Event) : Prop := ∀ e ∈ es, e.startedStage? = none ∧ e.isReport = false

theorem Quiet.nil : Quiet [] := by simp [Quiet]

theorem Quiet.append {es fs : List Event} (he : Quiet es) (hf : Quiet fs) : Quiet (es ++ fs) := by
  intro e hm
  rcases List.mem_append.1 hm with h | h
  · exact he e h
  · exact hf e h

theorem Quiet.startedStages {es : List Event} (he : Quiet es) : startedStages es = [] := by
  rw [TraceWorkbench.startedStages, List.filterMap_eq_nil_iff]
  exact fun e hm => (he e hm).1

theorem startedStages_append (es fs : List Event) :
    startedStages (es ++ fs) = startedStages es ++ startedStages fs := List.filterMap_append

theorem quiet_chunks (stage : StageKind) (echo : Bool) (cs : List Chunk) :
    Quiet (cs.filterMap (Event.ofChunk stage echo)) := by
  intro e hm
  obtain ⟨c, -, hc⟩ := List.mem_filterMap.1 hm
  unfold Event.ofChunk at hc
  split at hc
  · obtain rfl := Option.some.inj hc
    exact ⟨rfl, rfl⟩
  · split at hc
    · obtain rfl := Option.some.inj hc
      exact ⟨rfl, rfl⟩
    · simp at hc

theorem quiet_exitEvents (stage : StageKind) (o : Outcome) : Quiet (exitEvents stage o) := by
  unfold exitEvents
  split
  · cases o.exitMessage <;> simp [Quiet, Event.startedStage?, Event.isReport]
  · exact Quiet.nil

theorem quiet_warnings (ws : List StageWarning) : Quiet (ws.map StageWarning.event) := by
  intro e hm
  obtain ⟨w, -, rfl⟩ := List.mem_map.1 hm
  exact ⟨rfl, rfl⟩

section

variable {σ α : Type}

theorem quiet_successEvents (s : Stage α) (command : String) : Quiet (successEvents s command) := by
  unfold successEvents
  cases s.successSummary <;> split <;> simp [Quiet, Event.startedStage?, Event.isReport]

theorem quiet_failureEvents (s : Stage α) (plan : Plan) (o : Outcome) (fault : StageFault) :
    Quiet (failureEvents s plan o fault) := by
  unfold failureEvents
  split <;> split <;> simp [Quiet, Event.startedStage?, Event.isReport]

theorem run_endRun (h : Host σ) (t : Ticket) (o : Outcome) (w : World σ) :
    (endRun t o).run h w = (o, { w with
      slot := w.slot.release t
      events := w.events ++ .controlsChanged false :: exitEvents t.stage o }) := by
  unfold endRun
  simp only [Activity.run_andThen, Activity.run_perform, Activity.run_publishAll, World.answer,
    World.publishAll]
  rfl

theorem run_prepareStdout (h : Host σ) (c : CommandSpec) (w : World σ) :
    ∃ files, ((prepareStdout c).run h w).2 = { w with files } := by
  unfold prepareStdout
  split
  · exact ⟨w.files, rfl⟩
  · rename_i file hfile
    rw [Activity.run_bind, Activity.run_files]
    cases (w.files.openForWriting file true).map Prod.snd with
    | ok files => exact ⟨files, rfl⟩
    | error e => exact ⟨w.files, rfl⟩

/-- The process of a command was started in a world: the ticket shows its pid, and it is watched
from the second world on. The time is that of its start. -/
structure Spawned (h : Host σ) (t : Ticket) (c : CommandSpec) (w : World σ) (pid : UInt32)
    (v : World σ) (time : String) : Prop where
  exists_worlds : ∃ w₁ w₂, (prepareStdout c).run h w = (.ok (), w₁) ∧ time = h.time w₁ ∧
    h.launch c w₁ = (.ok pid, w₂) ∧ v = { w₂ with slot := w₂.slot.recordPid t pid }

theorem Spawned.frame {h : Host σ} (hh : h.Faithful) {t : Ticket} {c : CommandSpec} {w v : World σ}
    {pid : UInt32} {time : String} (hs : Spawned h t c w pid v time) :
    ∃ files host, v = { w with files, host, slot := w.slot.recordPid t pid } := by
  obtain ⟨w₁, w₂, hp, -, hl, rfl⟩ := hs.exists_worlds
  obtain ⟨files₁, h₁⟩ := run_prepareStdout h c w
  obtain ⟨files₂, host₂, h₂⟩ := hh.launch c w₁
  rw [hp] at h₁
  rw [hl] at h₂
  simp only at h₁ h₂
  subst h₁ h₂
  exact ⟨files₂, host₂, rfl⟩

theorem runWatched_of_spawned {h : Host σ} {t : Ticket} {c : CommandSpec} {w v : World σ}
    {pid : UInt32} {time : String} (hs : Spawned h t c w pid v time) (echo : Bool) :
    (runWatched t c echo).run h w =
      (endRun t (.ofCollected (h.supervise t pid echo v).1 time)).run h
        (h.supervise t pid echo v).2 := by
  obtain ⟨w₁, w₂, hp, rfl, hl, rfl⟩ := hs.exists_worlds
  unfold runWatched
  simp only [Activity.run_andThen, hp, Activity.run_perform, World.answer, hl]

theorem runWatched_cases (h : Host σ) (t : Ticket) (c : CommandSpec) (echo : Bool) (w : World σ) :
    (∃ pid v time, Spawned h t c w pid v time) ∨
      ∃ message time v, message ≠ "" ∧ (runWatched t c echo).run h w =
          (endRun t (.notStarted message time)).run h v ∧
        ((∃ files, v = { w with files }) ∨
          ∃ files, v = (h.launch c { w with files }).2) := by
  obtain ⟨files, hfiles⟩ := run_prepareStdout h c w
  cases hp : (prepareStdout c).run h w with
  | mk r w₁ =>
    rw [hp] at hfiles
    simp only at hfiles
    cases r with
    | error fe =>
      right
      refine ⟨"Failed to create '" ++ fe.1.text ++ "': " ++ fe.2.text, h.time w₁, w₁, by simp, ?_,
        .inl ⟨files, hfiles⟩⟩
      unfold runWatched
      simp only [Activity.run_andThen, hp, Activity.run_perform, World.answer]
    | ok u =>
      cases hl : h.launch c w₁ with
      | mk r₂ w₂ =>
        cases r₂ with
        | ok pid => exact .inl ⟨pid, _, _, ⟨w₁, w₂, hp, rfl, hl, rfl⟩⟩
        | error e =>
          right
          refine ⟨"Failed to start '" ++ c.program.text ++ "': " ++ e.text, h.time w₁, w₂, by simp,
            ?_, .inr ⟨files, by rw [← hfiles, hl]⟩⟩
          unfold runWatched
          simp only [Activity.run_andThen, hp, Activity.run_perform, World.answer, hl]

/-- What became of a command, and what its process printed. -/
inductive Printed (h : Host σ) (t : Ticket) (c : CommandSpec) (echo : Bool) (w : World σ) :
    Outcome → List Chunk → Prop where
  | nothing {message time : String} (told : message ≠ "") :
      Printed h t c echo w (.notStarted message time) []
  | collected {pid : UInt32} {v : World σ} {time : String} (spawned : Spawned h t c w pid v time) :
      Printed h t c echo w (.ofCollected (h.supervise t pid echo v).1 time)
        (h.supervise t pid echo v).1.chunks

/-- All that a watched run publishes: what the process prints, that the slot is free, and perhaps
how the process ended. -/
theorem runWatched_events {h : Host σ} (hh : h.Faithful) (t : Ticket) (c : CommandSpec)
    (echo : Bool) (w : World σ) :
    ∃ cs, Printed h t c echo w ((runWatched t c echo).run h w).1 cs ∧
      ((runWatched t c echo).run h w).2.events =
        w.events ++ cs.filterMap (Event.ofChunk t.stage echo) ++
          .controlsChanged false :: exitEvents t.stage ((runWatched t c echo).run h w).1 := by
  rcases runWatched_cases h t c echo w with
    ⟨pid, v, time, hs⟩ | ⟨message, time, v, htold, hr, hv⟩
  · obtain ⟨files, host, hv⟩ := hs.frame hh
    obtain ⟨ms, hms⟩ := hh.supervise t pid echo v
    have hshow : ((Watch.start v).after t echo ms).ShowsChunks t echo v :=
      Watch.after_showsChunks v ms
    have hev : v.events = w.events := by rw [hv]
    refine ⟨(h.supervise t pid echo v).1.chunks, ?_, ?_⟩
    · rw [runWatched_of_spawned hs, run_endRun]
      exact .collected hs
    · rw [runWatched_of_spawned hs, run_endRun, ← hms.2, Watch.chunks_of_collected hms.1]
      simp only
      rw [hshow, hev]
  · have hev : v.events = w.events := by
      rcases hv with ⟨files, rfl⟩ | ⟨files, rfl⟩
      · rfl
      · obtain ⟨files', host', hl⟩ := hh.launch c { w with files }
        rw [hl]
    refine ⟨[], ?_, ?_⟩
    · rw [hr, run_endRun]
      exact .nothing htold
    · rw [hr, run_endRun]
      simp [hev]

theorem Spawned.held {h : Host σ} (hh : h.Faithful) {t : Ticket} {c : CommandSpec} {w v : World σ}
    {pid : UInt32} {time : String} (hs : Spawned h t c w pid v time)
    (hw : w.slot.HeldBy t .armed) : (Watch.start v).Held t .armed := by
  obtain ⟨files, host, rfl⟩ := hs.frame hh
  exact ⟨hw.recordPid pid, by simp [Watch.start, Wait.Fits]⟩

theorem runWatched_frees {h : Host σ} (hh : h.Faithful) {t : Ticket} (c : CommandSpec) (echo : Bool)
    {w : World σ} (hw : w.slot.HeldBy t .armed) :
    ((runWatched t c echo).run h w).2.slot.holder = none := by
  rcases runWatched_cases h t c echo w with
    ⟨pid, v, time, hs⟩ | ⟨message, time, v, -, hr, hv⟩
  · obtain ⟨ms, hms⟩ := hh.supervise t pid echo v
    obtain ⟨switch, hheld⟩ := (hs.held hh hw).after echo ms
    rw [runWatched_of_spawned hs, run_endRun, ← hms.2]
    exact hheld.slot.release
  · have hslot : v.slot = w.slot := by
      rcases hv with ⟨files, rfl⟩ | ⟨files, rfl⟩
      · rfl
      · obtain ⟨files', host', hl⟩ := hh.launch c { w with files }
        rw [hl]
    rw [hr, run_endRun, hslot]
    exact hw.release

namespace Stage

/-- Why a stage does not start in a world: its plan, the slot or its preparation refuses. -/
def refusal? (S : Setting) (s : Stage α) (w : World σ) : Option Refusal :=
  match s.plan S w.files, (w.slot.acquire s.kind).1, s.beforeSpawn S w.files with
  | .error p, _, _ => some (.precondition p)
  | .ok _, .error r, _ => some r
  | .ok _, .ok _, .error e => some (.io e)
  | .ok _, .ok _, .ok _ => none

def ticketIn (s : Stage α) (w : World σ) : Ticket := ⟨w.slot.nextId, s.kind⟩

def startedWorld (s : Stage α) (plan : Plan) (files : FileTree) (w : World σ) : World σ :=
  { w with
    files
    slot := (w.slot.acquire s.kind).2
    events := w.events ++ plan.warnings.map StageWarning.event ++
      [.stageStarted s.kind plan.command.text, .controlsChanged true] }

theorem startedWorld_held (s : Stage α) (plan : Plan) (files : FileTree) {w : World σ}
    (hw : w.slot.holder = none) :
    (s.startedWorld plan files w).slot.HeldBy (s.ticketIn w) .armed := by
  rw [startedWorld, Slot.acquire_of_free hw]
  exact ⟨_, rfl, rfl, rfl, rfl⟩

/-- A stage was started in `w`, and its process left the outcome and the world `v`. -/
structure Ran (h : Host σ) (S : Setting) (s : Stage α) (w : World σ) (plan : Plan) (o : Outcome)
    (v : World σ) : Prop where
  planned : s.plan S w.files = .ok plan
  free : w.slot.holder = none
  watched : ∃ files, s.beforeSpawn S w.files = .ok files ∧
    (runWatched (s.ticketIn w) plan.command s.echoStdout).run h
      (s.startedWorld plan files w) = (o, v)

/-- A stage was started in `w` and interpreted as a success, which leaves the world `w'`. -/
def Passes (h : Host σ) (S : Setting) (s : Stage α) (w : World σ) (a : α) (w' : World σ) : Prop :=
  ∃ plan o v files, s.Ran h S w plan o v ∧ s.interpret S plan o v.files = .ok (a, files) ∧
    w' = { v with files, events := v.events ++ successEvents s plan.command.text }

/-- A stage was started in `w` and interpreted as a failure. -/
def Fails (h : Host σ) (S : Setting) (s : Stage α) (w : World σ) (f : StageFailure)
    (w' : World σ) : Prop :=
  ∃ plan o v fault, s.Ran h S w plan o v ∧ s.interpret S plan o v.files = .error fault ∧
    f = failureOf s plan o fault ∧ w' = { v with
      files := (s.judge S plan o v.files).2
      events := v.events ++ failureEvents s plan o fault }

theorem Fails.stage_eq {h : Host σ} {S : Setting} {s : Stage α} {w w' : World σ} {f : StageFailure}
    (hf : s.Fails h S w f w') : f.stage = s.kind := by
  obtain ⟨plan, o, v, fault, -, -, rfl, -⟩ := hf
  rfl

theorem refusal?_eq_none_iff (h : Host σ) (S : Setting) (s : Stage α) (w : World σ) :
    s.refusal? S w = none ↔ ∃ plan o v, s.Ran h S w plan o v := by
  constructor
  · intro hn
    unfold refusal? at hn
    split at hn
    · simp at hn
    · simp at hn
    · simp at hn
    · rename_i plan t files hp ha hb
      have hfree : w.slot.holder = none := by
        by_contra hheld
        obtain ⟨holder, hholder⟩ := Option.ne_none_iff_exists'.1 hheld
        rw [Slot.acquire_of_busy hholder] at ha
        simp at ha
      exact ⟨plan, _, _, hp, hfree, files, hb, rfl⟩
  · rintro ⟨plan, o, v, hp, hfree, files, hb, -⟩
    unfold refusal?
    rw [hp, hb, Slot.acquire_of_free hfree]

theorem Ran.not_refused {h : Host σ} {S : Setting} {s : Stage α} {w v : World σ} {plan : Plan}
    {o : Outcome} (hr : s.Ran h S w plan o v) : s.refusal? S w = none :=
  (refusal?_eq_none_iff h S s w).2 ⟨plan, o, v, hr⟩

end Stage

theorem runStage_unplanned {h : Host σ} {S : Setting} {s : Stage α} {w : World σ}
    {p : Precondition} (hp : s.plan S w.files = .error p) :
    (runStage S s).runFrom h w =
      (.refused (.precondition p), w.publish (.preconditionFailed p.title p.message)) := by
  change ((Activity.look (s.plan S)).bind _).run h w = _
  rw [Activity.run_bind, Activity.run_look]
  simp only [hp]
  rfl

theorem runStage_planned {h : Host σ} {S : Setting} {s : Stage α} {w : World σ} {plan : Plan}
    (hp : s.plan S w.files = .ok plan) :
    (runStage S s).runFrom h w = (runPlanned S s plan).run h w := by
  change ((Activity.look (s.plan S)).bind _).run h w = _
  rw [Activity.run_bind, Activity.run_look]
  simp only [hp]

theorem runPlanned_busy {h : Host σ} {S : Setting} {s : Stage α} {w : World σ} {r : Refusal}
    {slot : Slot} (plan : Plan) (ha : w.slot.acquire s.kind = (.error r, slot)) :
    (runPlanned S s plan).run h w = (.refused r, { w with
      slot, events := w.events ++ plan.warnings.map StageWarning.event ++
        [.warning "A process is already running" r.message] }) := by
  unfold runPlanned
  simp only [Activity.run_andThen, Activity.run_publishAll, Activity.run_perform, World.answer,
    World.publishAll, ha]
  rfl

theorem runPlanned_free {h : Host σ} {S : Setting} {s : Stage α} {w : World σ} {t : Ticket}
    {slot : Slot} (plan : Plan) (ha : w.slot.acquire s.kind = (.ok t, slot)) :
    (runPlanned S s plan).run h w = (runTicketed S s plan t).run h { w with
      slot, events := w.events ++ plan.warnings.map StageWarning.event } := by
  unfold runPlanned
  simp only [Activity.run_andThen, Activity.run_publishAll, Activity.run_perform, World.answer,
    World.publishAll, ha]

theorem runTicketed_unprepared {h : Host σ} {S : Setting} {s : Stage α} {w : World σ}
    {e : OsError} (plan : Plan) (t : Ticket) (hb : s.beforeSpawn S w.files = .error e) :
    (runTicketed S s plan t).run h w = (.refused (.io e), { w with
      slot := w.slot.release t
      events := w.events ++ [.warning ("Unable to prepare " ++ s.kind.name) e.text] }) := by
  unfold runTicketed
  simp only [Activity.run_andThen, Activity.run_files, hb]
  rfl

theorem runTicketed_prepared {h : Host σ} {S : Setting} {s : Stage α} {w : World σ}
    {files : FileTree} (plan : Plan) (t : Ticket) (hb : s.beforeSpawn S w.files = .ok files) :
    (runTicketed S s plan t).run h w =
      (runWatched t plan.command s.echoStdout >>= fun o => conclude S s plan o).run h { w with
        files, events := w.events ++
          [.stageStarted s.kind plan.command.text, .controlsChanged true] } := by
  unfold runTicketed
  simp only [Activity.run_andThen, Activity.run_files, hb, Activity.run_publish, World.publish,
    List.append_assoc, List.cons_append, List.nil_append]

theorem runStage_of_refusal {h : Host σ} {S : Setting} {s : Stage α} {w : World σ} {r : Refusal}
    (hr : s.refusal? S w = some r) :
    ((runStage S s).runFrom h w).1 = .refused r ∧
      ((runStage S s).runFrom h w).2.files = w.files ∧
      ∃ es, ((runStage S s).runFrom h w).2.events = w.events ++ es ∧ Quiet es := by
  unfold Stage.refusal? at hr
  split at hr
  · rename_i p hp
    rw [runStage_unplanned hp]
    exact ⟨by simpa using hr, rfl, [_], rfl,
      by simp [Quiet, Event.startedStage?, Event.isReport]⟩
  · rename_i plan e hp ha
    have hacq : w.slot.acquire s.kind = (.error e, (w.slot.acquire s.kind).2) := by rw [← ha]
    rw [runStage_planned hp, runPlanned_busy plan hacq]
    refine ⟨by simpa using hr, rfl, _, List.append_assoc _ _ _, ?_⟩
    exact (quiet_warnings _).append (by simp [Quiet, Event.startedStage?, Event.isReport])
  · rename_i plan t e hp ha hb
    have hacq : w.slot.acquire s.kind = (.ok t, (w.slot.acquire s.kind).2) := by rw [← ha]
    rw [runStage_planned hp, runPlanned_free plan hacq, runTicketed_unprepared
      (w := { w with slot := _, events := w.events ++ plan.warnings.map StageWarning.event })
      plan t hb]
    refine ⟨by simpa using hr, rfl, _, List.append_assoc _ _ _, ?_⟩
    exact (quiet_warnings _).append (by simp [Quiet, Event.startedStage?, Event.isReport])
  · simp at hr

theorem runStage_of_ran {h : Host σ} {S : Setting} {s : Stage α} {w v : World σ} {plan : Plan}
    {o : Outcome} (hr : s.Ran h S w plan o v) :
    (runStage S s).runFrom h w = (conclude S s plan o).run h v := by
  obtain ⟨hp, hfree, files, hb, hw⟩ := hr
  have hacq := Slot.acquire_of_free hfree s.kind
  rw [runStage_planned hp, runPlanned_free plan hacq, runTicketed_prepared
    (w := { w with slot := _, events := w.events ++ plan.warnings.map StageWarning.event })
    plan _ hb, Activity.run_andThen]
  have hv : s.startedWorld plan files w = { w with
      files, slot := ⟨some ⟨w.slot.nextId, s.kind, none, .armed⟩, w.slot.nextId + 1⟩
      events := w.events ++ plan.warnings.map StageWarning.event ++
        [.stageStarted s.kind plan.command.text, .controlsChanged true] } := by
    simp [Stage.startedWorld, hacq]
  rw [hv, Stage.ticketIn] at hw
  simp only [hw]

theorem run_conclude_ok {h : Host σ} {S : Setting} {s : Stage α} {v : World σ} {plan : Plan}
    {o : Outcome} {a : α} {files : FileTree} (hi : s.interpret S plan o v.files = .ok (a, files)) :
    (conclude S s plan o).run h v = (.success a, { v with
      files, events := v.events ++ successEvents s plan.command.text }) := by
  have hjudged := Stage.interpret_eq_ok_iff.1 hi
  unfold conclude
  simp only [Activity.run_andThen, Activity.run_perform, World.answer, hjudged,
    Activity.run_publishAll, World.publishAll, Activity.run_pure]

theorem run_conclude_error {h : Host σ} {S : Setting} {s : Stage α} {v : World σ} {plan : Plan}
    {o : Outcome} {fault : StageFault} (hi : s.interpret S plan o v.files = .error fault) :
    (conclude S s plan o).run h v = (.failure (failureOf s plan o fault), { v with
      files := (s.judge S plan o v.files).2
      events := v.events ++ failureEvents s plan o fault }) := by
  have hjudged := Stage.interpret_eq_error_iff.1 hi
  unfold conclude
  simp only [Activity.run_andThen, Activity.run_perform, World.answer, hjudged,
    Activity.run_publishAll, World.publishAll, Activity.run_pure]

theorem Stage.Ran.told {h : Host σ} (hh : h.Faithful) {S : Setting} {s : Stage α} {w v : World σ}
    {plan : Plan} {o : Outcome} (hr : s.Ran h S w plan o v) :
    ∃ files cs, s.beforeSpawn S w.files = .ok files ∧
      Printed h (s.ticketIn w) plan.command s.echoStdout (s.startedWorld plan files w) o cs ∧
      v.events = w.events ++ plan.warnings.map StageWarning.event ++
        [.stageStarted s.kind plan.command.text, .controlsChanged true] ++
        cs.filterMap (Event.ofChunk s.kind s.echoStdout) ++
        .controlsChanged false :: exitEvents s.kind o := by
  obtain ⟨-, -, files, hb, hw⟩ := hr
  obtain ⟨cs, hprinted, hcs⟩ := runWatched_events hh (s.ticketIn w) plan.command s.echoStdout
    (s.startedWorld plan files w)
  rw [hw] at hprinted hcs
  exact ⟨files, cs, hb, hprinted, hcs⟩

theorem Stage.Ran.frees {h : Host σ} (hh : h.Faithful) {S : Setting} {s : Stage α} {w v : World σ}
    {plan : Plan} {o : Outcome} (hr : s.Ran h S w plan o v) : v.slot.holder = none := by
  obtain ⟨-, hfree, files, -, hw⟩ := hr
  have hnone := runWatched_frees hh plan.command s.echoStdout
    (s.startedWorld_held plan files hfree)
  rwa [hw] at hnone

/-- A stage that runs announces itself once, right behind its warnings, and nothing else is started
or reported. -/
theorem Stage.Ran.events {h : Host σ} (hh : h.Faithful) {S : Setting} {s : Stage α} {w v : World σ}
    {plan : Plan} {o : Outcome} (hr : s.Ran h S w plan o v) :
    ∃ fs, v.events = w.events ++ plan.warnings.map StageWarning.event ++
        .stageStarted s.kind plan.command.text :: fs ∧ Quiet fs := by
  obtain ⟨-, cs, -, -, hcs⟩ := hr.told hh
  refine ⟨.controlsChanged true :: cs.filterMap (Event.ofChunk s.kind s.echoStdout) ++
      .controlsChanged false :: exitEvents s.kind o, by simpa using hcs, ?_⟩
  have hbusy : Quiet [.controlsChanged true] := by
    simp [Quiet, Event.startedStage?, Event.isReport]
  have hfree : Quiet [.controlsChanged false] := by
    simp [Quiet, Event.startedStage?, Event.isReport]
  exact (hbusy.append (quiet_chunks _ _ cs)).append (hfree.append (quiet_exitEvents _ o))

theorem runStage_cases {h : Host σ} (hh : h.Faithful) (S : Setting) (s : Stage α) (w : World σ) :
    (∃ r es, s.refusal? S w = some r ∧ ((runStage S s).runFrom h w).1 = .refused r ∧
        ((runStage S s).runFrom h w).2.events = w.events ++ es ∧ Quiet es) ∨
      ∃ es, ((runStage S s).runFrom h w).2.events = w.events ++ es ∧
        startedStages es = [s.kind] ∧ (∀ e ∈ es, e.isReport = false) ∧
        ((∃ a, ((runStage S s).runFrom h w).1 = .success a ∧
            s.Passes h S w a ((runStage S s).runFrom h w).2) ∨
          ∃ f, ((runStage S s).runFrom h w).1 = .failure f ∧
            s.Fails h S w f ((runStage S s).runFrom h w).2) := by
  cases hr : s.refusal? S w with
  | some r =>
    obtain ⟨hres, -, es, hes, hquiet⟩ := runStage_of_refusal (h := h) hr
    exact .inl ⟨r, es, rfl, hres, hes, hquiet⟩
  | none =>
    right
    obtain ⟨plan, o, v, hran⟩ := (Stage.refusal?_eq_none_iff h S s w).1 hr
    obtain ⟨fs, hv, hfs⟩ := hran.events hh
    have hes : Quiet (plan.warnings.map StageWarning.event) := quiet_warnings _
    generalize plan.warnings.map StageWarning.event = es at hv hes
    have hstarted : ∀ gs, Quiet gs →
        startedStages (es ++ .stageStarted s.kind plan.command.text :: fs ++ gs) = [s.kind] := by
      intro gs hgs
      have hsplit : es ++ Event.stageStarted s.kind plan.command.text :: fs ++ gs =
          es ++ [.stageStarted s.kind plan.command.text] ++ (fs ++ gs) := by simp
      rw [hsplit, startedStages_append, startedStages_append, hes.startedStages,
        (hfs.append hgs).startedStages]
      rfl
    have hreport : ∀ gs, Quiet gs →
        ∀ e ∈ es ++ .stageStarted s.kind plan.command.text :: fs ++ gs, e.isReport = false := by
      intro gs hgs e he
      simp only [List.append_assoc, List.mem_append, List.cons_append, List.mem_cons] at he
      rcases he with he | rfl | he | he
      · exact (hes e he).2
      · rfl
      · exact (hfs e he).2
      · exact (hgs e he).2
    rw [runStage_of_ran hran]
    cases hi : s.interpret S plan o v.files with
    | ok r =>
      obtain ⟨a, files⟩ := r
      have hquiet := quiet_successEvents s plan.command.text
      rw [run_conclude_ok hi]
      exact ⟨_, by simp [hv], hstarted _ hquiet, hreport _ hquiet,
        .inl ⟨a, rfl, plan, o, v, files, hran, hi, rfl⟩⟩
    | error fault =>
      have hquiet := quiet_failureEvents s plan o fault
      rw [run_conclude_error hi]
      exact ⟨_, by simp [hv], hstarted _ hquiet, hreport _ hquiet,
        .inr ⟨_, rfl, plan, o, v, fault, hran, hi, rfl, rfl⟩⟩

end

end TraceWorkbench
