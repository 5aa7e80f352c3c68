import TraceWorkbench.Proofs.PoolHistory

set_option autoImplicit false

/-!
# Jobs that overlap

The slot keeps processes apart, not jobs. While a stage has the slot no other stage is started, but
between two stages of a job any other job may run some of its own, on the same files.
-/
namespace TraceWorkbench

def Party.succeeded (q : Party) : Bool :=
  match q.doing with
  | .acting (.done (.success _)) => true
  | _ => false

theorem Party.succeeded_iff {q : Party} :
    q.succeeded = true ↔ ∃ a, q.doing = .acting (.done (.success a)) := by
  unfold succeeded
  split
  · rename_i a ha
    exact ⟨fun _ => ⟨a, ha⟩, fun _ => rfl⟩
  · rename_i hother
    refine ⟨fun h => by simp at h, ?_⟩
    rintro ⟨a, ha⟩
    exact absurd ha (hother a)

namespace Pool

variable {σ : Type} {p : Pool σ} {hist : History} {firsts : List Party} {signs : List Bool}

theorem Traced.started_of_succeeded (hp : p.Traced firsts hist) {i : Nat} {first q : Party}
    {stages : List StageKind} (hfirst : firsts[i]? = some first) (hstarts : first.Starts stages)
    (hq : p.parties[i]? = some q) (hsucceeded : q.succeeded = true) :
    hist.started i = stages := by
  obtain ⟨first', hfirst', hcame⟩ := hp i q hq
  obtain rfl : first' = first := Option.some.inj (hfirst'.symm.trans hfirst)
  obtain ⟨a, ha⟩ := Party.succeeded_iff.1 hsucceeded
  exact (hcame.stands hstarts).2 a ha

theorem Records.holder?_of_running (hp : p.Records firsts signs hist) {r : Process}
    (hr : r ∈ p.running) :
    ∃ stage, r.stage = some stage ∧ hist.holder? = some (r.party, stage) := by
  obtain ⟨stage, hstage, hshown⟩ := hp.owned.ordered.stage_of_running hr
  obtain ⟨mine, hbusy⟩ := hp.running r hr
  have hholder : hist.holder? = some (r.party, mine) := hp.lawful.holder?_of_standing hbusy rfl
  rw [hp.owned.activeStage, hholder] at hshown
  obtain rfl : mine = stage := Option.some.inj hshown
  exact ⟨mine, hstage, hholder⟩

end Pool

/-- For any number of jobs on one session and any order of their steps: a job that succeeds has
started its own stages, all of them and in order. Whoever starts a stage has the slot for it, taken
and not yet given back, and so has the party of every process that runs. The slot shows this
stage. -/
theorem stages_of_overlapping_jobs_keep_apart {σ : Type} {h : Host σ} (hh : h.Faithful)
    {w : World σ} (hw : w.slot.holder = none) (jobs : List (Bench × Job))
    (turns : List (Turn σ)) :
    let start := Pool.start w (jobs.map fun (b, j) => j.party b)
    let hist := start.history h turns
    let p := start.after h turns
    (∀ i b j q, jobs[i]? = some (b, j) → p.parties[i]? = some q → q.succeeded = true →
      hist.started i = j.stages) ∧
    (∀ (front back : History) i stage command,
      hist = front ++ (i, .told (.stageStarted stage command)) :: back →
      front.holder? = some (i, stage)) ∧
    (∀ r ∈ p.running, ∃ stage, r.stage = some stage ∧ hist.holder? = some (r.party, stage)) ∧
    p.world.slot.activeStage = hist.holder?.map Prod.snd := by
  intro start hist p
  have hp : p.Records _ _ hist := Pool.records_of_jobs hh hw jobs turns
  refine ⟨fun i b j q hj hq hsucceeded => ?_, fun front back i stage command hsplit => ?_,
    fun r => hp.holder?_of_running, hp.owned.activeStage⟩
  · have hfirst : (jobs.map fun (b, j) => Job.party b j)[i]? = some (j.party b) := by
      rw [List.getElem?_map, hj]
      rfl
    exact hp.traced.started_of_succeeded hfirst (j.party_starts b) hq hsucceeded
  · have hlawful := hp.lawful
    rw [hsplit] at hlawful
    exact hlawful.holder?_of_started

namespace Demo

/-- Turns with which a party does one effect, or sees its process print a document and exit. -/
def round (i : Nat) : List (Turn Unit) :=
  [.act i, .watch i (.print ⟨.stdout, "\x7b\x7d"⟩), .watch i (.exit (.ended (.exited 0))),
    .watch i (.poll .exit)]

def rounds (i n : Nat) : List (Turn Unit) := (List.replicate n (round i)).flatten

def twins : Pool Unit :=
  .start (world (tree [])) ([(bench, .compileAndRunProject), (bench, .compileAndRunProject)].map
    fun (b, j) => Job.party b j)

/-- The second one compiles when the first one has compiled, and before it goes on. -/
def gap : List (Turn Unit) := rounds 0 15 ++ rounds 1 15 ++ rounds 0 80

end Demo

theorem stages_of_twins_keep_apart :
    Demo.host.Faithful ∧ (Demo.world (Demo.tree [])).slot.holder = none ∧
    ∃ q, (Demo.twins.after Demo.host Demo.gap).parties[0]? = some q ∧ q.succeeded = true ∧
      (Demo.twins.history Demo.host Demo.gap).started 0 = projectStages.map SomeStage.kind := by
  have hh : Demo.host.Faithful := Host.scripted_faithful _
  have hfree : (Demo.world (Demo.tree [])).slot.holder = none := rfl
  have hsucceeded : (Demo.twins.after Demo.host Demo.gap).parties[0]?.map Party.succeeded =
      some true := by decide +kernel
  obtain ⟨q, hq, hq'⟩ := Option.map_eq_some_iff.1 hsucceeded
  obtain ⟨hstarted, -⟩ := stages_of_overlapping_jobs_keep_apart hh hfree
    [(Demo.bench, .compileAndRunProject), (Demo.bench, .compileAndRunProject)] Demo.gap
  exact ⟨hh, hfree, q, hq, hq', hstarted 0 Demo.bench .compileAndRunProject q rfl hq hq'⟩

/-- The first run succeeds, although a stage of the other was started among its own. -/
theorem stage_started_between_stages_of_other :
    (Demo.twins.after Demo.host Demo.gap).parties.map Party.succeeded = [true, false] ∧
    ((Demo.twins.history Demo.host Demo.gap).filterMap fun (i, d) =>
      d.startedStage?.map fun stage => (i, stage)) =
      [(0, .compileC), (1, .compileC), (0, .patchAssembly), (0, .assemble),
        (0, .runInstrumentedBinary), (0, .compileSpecification), (0, .runVerificationServer)] := by
  decide +kernel

end TraceWorkbench
