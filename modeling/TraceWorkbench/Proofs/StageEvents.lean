import TraceWorkbench.Proofs.WorkflowOrder

set_option autoImplicit false

/-!
# What a stage tells

The events of a stage follow a grammar: they say why the stage does not start, or they lead from its
start over what its process prints to how it ended and what came of it. On every way out the slot is
as free as it was before.
-/
namespace TraceWorkbench

variable {σ α : Type}

/-- What a process prints: error text is always told, other output if the stage shows it. -/
def Event.IsOutputOf (stage : StageKind) (echo : Bool) (e : Event) : Prop :=
  (∃ text, e = .errorText stage text) ∨ echo = true ∧ ∃ text, e = .console text

def Event.busySign? : Event → Option Bool
  | controlsChanged busy => some busy
  | _ => none

/-- What a result says about the signs that a process runs: one that it does and one that it no
longer does, or none. -/
def Result.busySigns : Result α → List Bool
  | refused _ => []
  | _ => [true, false]

namespace Stage

/-- From the warnings of the plan to the end of the process. -/
structure TellsRun (s : Stage α) (plan : Plan) (o : Outcome) (es output exit : List Event) :
    Prop where
  events : es = plan.warnings.map StageWarning.event ++
    [.stageStarted s.kind plan.command.text, .controlsChanged true] ++ output ++
    [.controlsChanged false] ++ exit
  output : ∀ e ∈ output, e.IsOutputOf s.kind s.echoStdout
  exit : exit = (if s.kind.announcesExit then o.exitMessage else none).toList.map fun message =>
    .console ("\n" ++ message ++ "\n\n")

/-- The events of a call of a stage and its result. No two of the cases can meet: they differ in
what the plan, the slot, the preparation and the judgement of the outcome answer. -/
inductive Tells (h : Host σ) (S : Setting) (s : Stage α) (w : World σ) :
    List Event → Result α → Prop where
  | unplanned {p : Precondition} (unplanned : s.plan S w.files = .error p) :
      Tells h S s w [.preconditionFailed p.title p.message] (.refused (.precondition p))
  | busy {plan : Plan} {holder : Slot.Holder} (planned : s.plan S w.files = .ok plan)
      (held : w.slot.holder = some holder) :
      Tells h S s w
        (plan.warnings.map StageWarning.event ++
          [.warning "A process is already running" (Refusal.busy s.kind holder.stage).message])
        (.refused (.busy s.kind holder.stage))
  | unprepared {plan : Plan} {e : OsError} (planned : s.plan S w.files = .ok plan)
      (free : w.slot.holder = none) (unprepared : s.beforeSpawn S w.files = .error e) :
      Tells h S s w
        (plan.warnings.map StageWarning.event ++
          [.warning ("Unable to prepare " ++ s.kind.name) e.text])
        (.refused (.io e))
  | succeeded {plan : Plan} {o : Outcome} {v : World σ} {a : α} {files : FileTree}
      {es output exit : List Event} (ran : s.Ran h S w plan o v)
      (judged : s.interpret S plan o v.files = .ok (a, files))
      (run : s.TellsRun plan o es output exit) :
      Tells h S s w
        (es ++ [.log plan.command.text s.successSummary] ++
          (s.successSummary.map (Event.stageSucceeded s.kind)).toList ++
          if s.kind = .compileSpecification then [.specErrorsCleared] else [])
        (.success a)
  | failed {plan : Plan} {o : Outcome} {v : World σ} {fault : StageFault}
      {es output exit : List Event} (ran : s.Ran h S w plan o v)
      (judged : s.interpret S plan o v.files = .error fault)
      (run : s.TellsRun plan o es output exit) :
      Tells h S s w
        (es ++ (if s.echoStdout = false ∧ o.stdoutChunks ≠ [] then [.errorText s.kind o.stdout]
            else []) ++
          [.log plan.command.text (some s.failureSummary),
            .stageFailed s.kind s.failureSummary fault.detail] ++
          match fault.specError, plan.input with
          | some error, some file => [.specError file error]
          | _, _ => [])
        (.failure {
          stage := s.kind, summary := s.failureSummary, detail := fault.detail
          command := plan.command.text, exitCode := o.exitCode, signal := o.signal
          specError := fault.specError })

theorem isOutputOf_chunks {stage : StageKind} {echo : Bool} {cs : List Chunk} {e : Event}
    (he : e ∈ cs.filterMap (Event.ofChunk stage echo)) : e.IsOutputOf stage echo := by
  obtain ⟨c, -, hc⟩ := List.mem_filterMap.1 he
  unfold Event.ofChunk at hc
  split at hc
  · exact .inl ⟨c.text, (Option.some.inj hc).symm⟩
  · split at hc
    · rename_i hecho
      exact .inr ⟨hecho, c.text, (Option.some.inj hc).symm⟩
    · simp at hc

theorem Ran.tellsRun {h : Host σ} (hh : h.Faithful) {S : Setting} {s : Stage α} {w v : World σ}
    {plan : Plan} {o : Outcome} (hr : s.Ran h S w plan o v) :
    ∃ es output exit, s.TellsRun plan o es output exit ∧ v.events = w.events ++ es := by
  obtain ⟨-, cs, -, -, hcs⟩ := hr.told hh
  refine ⟨_, cs.filterMap (Event.ofChunk s.kind s.echoStdout), exitEvents s.kind o,
    ⟨rfl, fun e he => isOutputOf_chunks he, ?_⟩, by simp [hcs]⟩
  unfold exitEvents
  cases s.kind.announcesExit with
  | true => cases o.exitMessage <;> rfl
  | false => rfl

theorem busySigns_warnings (ws : List StageWarning) :
    (ws.map StageWarning.event).filterMap Event.busySign? = [] := by
  rw [List.filterMap_map, List.filterMap_eq_nil_iff]
  exact fun _ _ => rfl

theorem TellsRun.busySigns {s : Stage α} {plan : Plan} {o : Outcome} {es output exit : List Event}
    (ht : s.TellsRun plan o es output exit) : es.filterMap Event.busySign? = [true, false] := by
  have houtput : output.filterMap Event.busySign? = [] := by
    rw [List.filterMap_eq_nil_iff]
    intro e he
    rcases ht.output e he with ⟨text, rfl⟩ | ⟨-, text, rfl⟩ <;> rfl
  have hexit : exit.filterMap Event.busySign? = [] := by
    rw [ht.exit, List.filterMap_map, List.filterMap_eq_nil_iff]
    exact fun _ _ => rfl
  simp only [ht.events, List.filterMap_append, busySigns_warnings, houtput, hexit]
  rfl

theorem Tells.busySigns {h : Host σ} {S : Setting} {s : Stage α} {w : World σ} {es : List Event}
    {r : Result α} (ht : s.Tells h S w es r) : es.filterMap Event.busySign? = r.busySigns := by
  cases ht with
  | unplanned => rfl
  | busy => rw [List.filterMap_append, busySigns_warnings]; rfl
  | unprepared => rw [List.filterMap_append, busySigns_warnings]; rfl
  | succeeded ran judged run =>
    simp only [List.filterMap_append, run.busySigns]
    cases s.successSummary <;> split <;> rfl
  | failed ran judged run =>
    simp only [List.filterMap_append, run.busySigns]
    split <;> split <;> rfl

end Stage

/-- The events of a call of a stage, that no other overlaps, follow the grammar, on any host that
does what processes can do. Only a stage whose process was run says that one runs, and it says once
that this is over. Whatever happens, the slot is held afterwards just as it was before. -/
theorem stage_tells_by_grammar {h : Host σ} (hh : h.Faithful) (S : Setting) (s : Stage α)
    (w : World σ) :
    ∃ es, ((runStage S s).runFrom h w).2.events = w.events ++ es ∧
      s.Tells h S w es ((runStage S s).runFrom h w).1 ∧
      es.filterMap Event.busySign? = ((runStage S s).runFrom h w).1.busySigns ∧
      ((runStage S s).runFrom h w).2.slot.holder = w.slot.holder := by
  suffices hsuff : ∃ es, ((runStage S s).runFrom h w).2.events = w.events ++ es ∧
      s.Tells h S w es ((runStage S s).runFrom h w).1 ∧
      ((runStage S s).runFrom h w).2.slot.holder = w.slot.holder by
    obtain ⟨es, hes, ht, hslot⟩ := hsuff
    exact ⟨es, hes, ht, ht.busySigns, hslot⟩
  cases hp : s.plan S w.files with
  | error p =>
    rw [runStage_unplanned hp]
    exact ⟨_, rfl, .unplanned hp, rfl⟩
  | ok plan =>
    cases hslot : w.slot.holder with
    | some holder =>
      rw [runStage_planned hp, runPlanned_busy plan (Slot.acquire_of_busy hslot s.kind)]
      exact ⟨_, List.append_assoc _ _ _, .busy hp hslot, hslot⟩
    | none =>
      cases hb : s.beforeSpawn S w.files with
      | error e =>
        rw [runStage_planned hp, runPlanned_free plan (Slot.acquire_of_free hslot s.kind),
          runTicketed_unprepared (w := { w with
            slot := _, events := w.events ++ plan.warnings.map StageWarning.event }) plan _ hb]
        refine ⟨_, List.append_assoc _ _ _, .unprepared hp hslot hb, ?_⟩
        simp [Slot.release, Slot.modify]
      | ok files =>
        obtain ⟨o, v, hran⟩ : ∃ o v, s.Ran h S w plan o v :=
          ⟨_, _, hp, hslot, files, hb, rfl⟩
        obtain ⟨es, output, exit, ht, hes⟩ := hran.tellsRun hh
        rw [runStage_of_ran hran]
        cases hi : s.interpret S plan o v.files with
        | ok r =>
          obtain ⟨a, files'⟩ := r
          rw [run_conclude_ok hi]
          refine ⟨_, ?_, .succeeded hran hi ht, hran.frees hh⟩
          simp [hes, successEvents]
        | error fault =>
          rw [run_conclude_error hi]
          refine ⟨_, ?_, .failed hran hi ht, hran.frees hh⟩
          simp only [hes, failureEvents, List.append_assoc]
          cases s.echoStdout <;> cases o.stdoutChunks <;> cases fault.specError <;>
            cases plan.input <;> rfl

namespace Demo

def complaining : Host Unit := .scripted fun
  | .compileC => [.print ⟨.stderr, "boom"⟩]
  | _ => []

def compileRun : Result Path × World Unit :=
  (runStage (bench.setting (.ofRoot ⟨"/demo"⟩)) (.compileC false)).runFrom complaining
    (world (tree []))

end Demo

theorem stage_tells_by_grammar_of_complaint : Demo.complaining.Faithful ∧ ∃ f,
    Demo.compileRun.1 = .failure f ∧ f.detail = "boom" ∧
    (Stage.compileC false).Tells Demo.complaining (Demo.bench.setting (.ofRoot ⟨"/demo"⟩))
      (Demo.world (Demo.tree [])) Demo.compileRun.2.events (.failure f) ∧
    Demo.compileRun.2.events.filterMap Event.busySign? = [true, false] ∧
    Demo.compileRun.2.slot.holder = none := by
  have hh : Demo.complaining.Faithful := Host.scripted_faithful _
  have hr : ∃ f, Demo.compileRun.1 = .failure f ∧ f.detail = "boom" := ⟨_, rfl, by decide +kernel⟩
  obtain ⟨f, hf, hdetail⟩ := hr
  obtain ⟨es, hes, ht, hsigns, hslot⟩ := stage_tells_by_grammar hh
    (Demo.bench.setting (.ofRoot ⟨"/demo"⟩)) (.compileC false) (Demo.world (Demo.tree []))
  have hevents : Demo.compileRun.2.events = es := hes
  have hfree : Demo.compileRun.2.slot.holder = none := hslot
  rw [← hevents] at ht hsigns
  change (Stage.compileC false).Tells _ _ _ _ Demo.compileRun.1 at ht
  change _ = Demo.compileRun.1.busySigns at hsigns
  rw [hf] at ht hsigns
  exact ⟨hh, f, hf, hdetail, ht, hsigns, hfree⟩

end TraceWorkbench
