import TraceWorkbench.Proofs.StageRuns
import TraceWorkbench.Workflow.Pipeline

set_option autoImplicit false

/-!
# The order of the stages

A workflow prepares its project and then runs stages in a fixed order. How far it got can be read
from the stages it announced, and its result says why it went no further.
-/
namespace TraceWorkbench

abbrev SomeStage := Sigma Stage

def SomeStage.kind (s : SomeStage) : StageKind := s.2.kind

def cStages : List SomeStage := [⟨_, .compileC false⟩, ⟨_, .runBinary⟩]

def projectStages : List SomeStage := [
  ⟨_, .compileC true⟩, ⟨_, .patchAssembly⟩, ⟨_, .assemble⟩, ⟨_, .runInstrumentedBinary⟩,
  ⟨_, .compileSpecification⟩, ⟨_, .runVerificationServer⟩]

def Result.forget {α : Type} : Result α → Result Unit
  | success _ => .success ()
  | failure f => .failure f
  | refused r => .refused r

variable {σ : Type}

/-- Stages that were started one after another, each interpreted as a success. -/
inductive AllPass (h : Host σ) (S : Setting) : List SomeStage → World σ → World σ → Prop where
  | nil (w : World σ) : AllPass h S [] w w
  | cons {s : SomeStage} {ss : List SomeStage} {a : s.1} {w w₁ w₂ : World σ}
      (pass : s.2.Passes h S w a w₁) (tail : AllPass h S ss w₁ w₂) : AllPass h S (s :: ss) w w₂

/-- The course of stages that are run in order from a world: which were started, and what came of
it. -/
inductive Course (h : Host σ) (S : Setting) :
    List SomeStage → World σ → List SomeStage → Result Unit → Prop where
  | complete (w : World σ) : Course h S [] w [] (.success ())
  | next {s : SomeStage} {ss started : List SomeStage} {a : s.1} {w w₁ : World σ} {r : Result Unit}
      (pass : s.2.Passes h S w a w₁) (tail : Course h S ss w₁ started r) :
      Course h S (s :: ss) w (s :: started) r
  | failed {s : SomeStage} {ss : List SomeStage} {w w₁ : World σ} {f : StageFailure}
      (fail : s.2.Fails h S w f w₁) : Course h S (s :: ss) w [s] (.failure f)
  | refused {s : SomeStage} {ss : List SomeStage} {w : World σ} {r : Refusal}
      (refuse : s.2.refusal? S w = some r) : Course h S (s :: ss) w [] (.refused r)

theorem Stage.Passes.run {h : Host σ} {S : Setting} {α : Type} {s : Stage α} {w w' : World σ}
    {a : α} (hp : s.Passes h S w a w') : (runStage S s).runFrom h w = (.success a, w') := by
  obtain ⟨plan, o, v, files, hr, hi, rfl⟩ := hp
  rw [runStage_of_ran hr, run_conclude_ok hi]

theorem Stage.Fails.run {h : Host σ} {S : Setting} {α : Type} {s : Stage α} {w w' : World σ}
    {f : StageFailure} (hf : s.Fails h S w f w') :
    (runStage S s).runFrom h w = (.failure f, w') := by
  obtain ⟨plan, o, v, fault, hr, hi, rfl, rfl⟩ := hf
  rw [runStage_of_ran hr, run_conclude_error hi]

namespace Course

variable {h : Host σ} {S : Setting}

theorem unique {ss started started' : List SomeStage} {w : World σ} {r r' : Result Unit}
    (hc : Course h S ss w started r) (hc' : Course h S ss w started' r') :
    started = started' ∧ r = r' := by
  induction hc generalizing started' r' with
  | complete w => cases hc' with | complete => exact ⟨rfl, rfl⟩
  | next pass tail ih =>
    cases hc' with
    | next pass' tail' =>
      have hw := congrArg Prod.snd (pass.run.symm.trans pass'.run)
      simp only at hw
      rw [← hw] at tail'
      obtain ⟨rfl, rfl⟩ := ih tail'
      exact ⟨rfl, rfl⟩
    | failed fail => simpa using pass.run.symm.trans fail.run
    | refused refuse =>
      have hr := (runStage_of_refusal (h := h) refuse).1
      rw [pass.run] at hr
      simp at hr
  | failed fail =>
    cases hc' with
    | next pass tail => simpa using pass.run.symm.trans fail.run
    | failed fail' =>
      have hf := fail.run.symm.trans fail'.run
      simp only [Prod.mk.injEq, Result.failure.injEq] at hf
      exact ⟨rfl, by rw [hf.1]⟩
    | refused refuse =>
      have hr := (runStage_of_refusal (h := h) refuse).1
      rw [fail.run] at hr
      simp at hr
  | refused refuse =>
    have hr := (runStage_of_refusal (h := h) refuse).1
    cases hc' with
    | next pass tail =>
      rw [pass.run] at hr
      simp at hr
    | failed fail =>
      rw [fail.run] at hr
      simp at hr
    | refused refuse' =>
      have he := Option.some.inj (refuse.symm.trans refuse')
      exact ⟨rfl, by rw [he]⟩

end Course

theorem AllPass.course {h : Host σ} {S : Setting} {done rest started : List SomeStage}
    {w w₁ : World σ} {r : Result Unit} (hd : AllPass h S done w w₁)
    (hc : Course h S rest w₁ started r) : Course h S (done ++ rest) w (done ++ started) r := by
  induction hd with
  | nil w => exact hc
  | cons pass tail ih => exact .next pass (ih hc)

theorem AllPass.of_cons {h : Host σ} {S : Setting} {s : SomeStage} {ss : List SomeStage}
    {w w₂ : World σ} (hp : AllPass h S (s :: ss) w w₂) :
    ∃ a w₁, s.2.Passes h S w a w₁ ∧ AllPass h S ss w₁ w₂ := by
  cases hp with
  | cons pass tail => exact ⟨_, _, pass, tail⟩

theorem AllPass.of_concat {h : Host σ} {S : Setting} {done : List SomeStage} {s : SomeStage}
    {w w₂ : World σ} (hp : AllPass h S (done ++ [s]) w w₂) :
    ∃ a w₁, AllPass h S done w w₁ ∧ s.2.Passes h S w₁ a w₂ := by
  induction done generalizing w with
  | nil =>
    obtain ⟨a, w₁, pass, tail⟩ := hp.of_cons
    cases tail
    exact ⟨a, w, .nil w, pass⟩
  | cons s' done ih =>
    obtain ⟨a', w', pass, tail⟩ := hp.of_cons
    obtain ⟨a, w₁, hdone, hlast⟩ := ih tail
    exact ⟨a, w₁, .cons pass hdone, hlast⟩

theorem Course.started_prefix {h : Host σ} {S : Setting} {ss started : List SomeStage}
    {w : World σ} {r : Result Unit} (hc : Course h S ss w started r) : started <+: ss := by
  induction hc with
  | complete w => exact List.prefix_rfl
  | next pass tail ih => exact List.cons_prefix_cons.2 ⟨rfl, ih⟩
  | failed fail => exact List.cons_prefix_cons.2 ⟨rfl, List.nil_prefix⟩
  | refused refuse => exact List.nil_prefix

theorem Course.cases {h : Host σ} {S : Setting} {ss started : List SomeStage} {w : World σ}
    {r : Result Unit} (hc : Course h S ss w started r) :
    (r = .success () ∧ started = ss ∧ ∃ w₁, AllPass h S ss w w₁) ∨
    (∃ f done s rest w₁ w₂, r = .failure f ∧ ss = done ++ s :: rest ∧ started = done ++ [s] ∧
      AllPass h S done w w₁ ∧ s.2.Fails h S w₁ f w₂) ∨
    ∃ e s rest w₁, r = .refused e ∧ ss = started ++ s :: rest ∧ AllPass h S started w w₁ ∧
      s.2.refusal? S w₁ = some e := by
  induction hc with
  | complete w => exact .inl ⟨rfl, rfl, w, .nil w⟩
  | @next s ss started a w w₁ r pass tail ih =>
    rcases ih with ⟨hr, rfl, w₂, hp⟩ | ⟨f, done, s', rest, w₂, w₃, hr, rfl, rfl, hd, hf⟩ |
      ⟨e, s', rest, w₂, hr, rfl, hp, he⟩
    · exact .inl ⟨hr, rfl, w₂, .cons pass hp⟩
    · exact .inr (.inl ⟨f, s :: done, s', rest, w₂, w₃, hr, rfl, rfl, .cons pass hd, hf⟩)
    · exact .inr (.inr ⟨e, s', rest, w₂, hr, rfl, .cons pass hp, he⟩)
  | @failed s ss w w₁ f fail =>
    exact .inr (.inl ⟨f, [], s, ss, w, w₁, rfl, rfl, rfl, .nil w, fail⟩)
  | @refused s ss w r refuse => exact .inr (.inr ⟨r, s, ss, w, rfl, rfl, .nil w, refuse⟩)

section

variable {h : Host σ} {S : Setting} {ss started : List SomeStage} {w : World σ} {r : Result Unit}

/-- All started stages but the last were interpreted as successes, and the last was not refused. -/
theorem Course.passed (hc : Course h S ss w started r) {done : List SomeStage} {s : SomeStage}
    (hs : started = done ++ [s]) : ∃ w₁, AllPass h S done w w₁ ∧ s.2.refusal? S w₁ = none := by
  have hpassed : ∀ w₂, AllPass h S started w w₂ →
      ∃ w₁, AllPass h S done w w₁ ∧ s.2.refusal? S w₁ = none := by
    intro w₂ hpass
    rw [hs] at hpass
    obtain ⟨a, w₁, hdone, plan, o, v, files, hran, -⟩ := hpass.of_concat
    exact ⟨w₁, hdone, hran.not_refused⟩
  rcases hc.cases with ⟨-, rfl, w₂, hpass⟩ | ⟨f, done', s', rest, w₁, w₂, -, -, hs', hpass, hfail⟩ |
    ⟨e, s', rest, w₂, -, -, hpass, -⟩
  · exact hpassed w₂ hpass
  · obtain ⟨rfl, hlast⟩ := List.append_inj' (hs.symm.trans hs') rfl
    obtain rfl := List.singleton_inj.1 hlast
    obtain ⟨plan, o, v, fault, hran, -⟩ := hfail
    exact ⟨w₁, hpass, hran.not_refused⟩
  · exact hpassed w₂ hpass

theorem Course.success_iff (hc : Course h S ss w started r) :
    r = .success () ↔ started = ss ∧ ∃ w₁, AllPass h S ss w w₁ := by
  constructor
  · intro hr
    rcases hc.cases with ⟨-, hs, hpass⟩ | ⟨f, done, s, rest, w₁, w₂, hf, -⟩ |
      ⟨e, s, rest, w₁, he, -⟩
    · exact ⟨hs, hpass⟩
    · simp [hr] at hf
    · simp [hr] at he
  · rintro ⟨-, w₁, hpass⟩
    have hcourse := hpass.course (.complete w₁)
    rw [List.append_nil] at hcourse
    exact (hc.unique hcourse).2

theorem Course.failure_iff (hc : Course h S ss w started r) (f : StageFailure) :
    r = .failure f ↔ ∃ done s w₁ w₂, started = done ++ [s] ∧ AllPass h S done w w₁ ∧
      s.2.Fails h S w₁ f w₂ := by
  constructor
  · intro hr
    rcases hc.cases with ⟨hs, -⟩ | ⟨f', done, s, rest, w₁, w₂, hf, -, hs, hpass, hfail⟩ |
      ⟨e, s, rest, w₁, he, -⟩
    · simp [hr] at hs
    · rw [hr] at hf
      rw [← Result.failure.inj hf] at hfail
      exact ⟨done, s, w₁, w₂, hs, hpass, hfail⟩
    · simp [hr] at he
  · rintro ⟨done, s, w₁, w₂, hs, hpass, hfail⟩
    obtain ⟨rest, hstages⟩ := hc.started_prefix
    rw [← hstages, hs, List.append_assoc] at hc
    exact (hc.unique (hpass.course (.failed hfail))).2

theorem Course.refused_iff (hc : Course h S ss w started r) (e : Refusal) :
    r = .refused e ↔ ∃ s rest w₁, ss = started ++ s :: rest ∧ AllPass h S started w w₁ ∧
      s.2.refusal? S w₁ = some e := by
  constructor
  · intro hr
    rcases hc.cases with ⟨hs, -⟩ | ⟨f', done, s, rest, w₁, w₂, hf, -⟩ |
      ⟨e', s, rest, w₁, he, hstages, hpass, hrefuse⟩
    · simp [hr] at hs
    · simp [hr] at hf
    · rw [hr] at he
      rw [← Result.refused.inj he] at hrefuse
      exact ⟨s, rest, w₁, hstages, hpass, hrefuse⟩
  · rintro ⟨s, rest, w₁, hstages, hpass, hrefuse⟩
    rw [hstages] at hc
    have hlast : Course h S (s :: rest) w₁ [] (.refused e) := .refused hrefuse
    exact (hc.unique (hpass.course hlast)).2

end

/-- A workflow runs stages in order. Its events tell how far it got; what closes them comes only
after a success. -/
def RunsStages {β : Type} (h : Host σ) (S : Setting) (closing : β → List Event)
    (ss : List SomeStage) (x : Workflow β) (w : World σ) : Prop :=
  ∃ started es tail, Course h S ss w started (x.runFrom h w).1.forget ∧
    (x.runFrom h w).2.events = w.events ++ es ++ tail ∧
    startedStages es = started.map SomeStage.kind ∧ (∀ e ∈ es, e.isReport = false) ∧
    (∀ b, (x.runFrom h w).1 = .success b → tail = closing b) ∧
    ((x.runFrom h w).1.isSuccess = false → tail = [])

namespace RunsStages

variable {α β : Type} {h : Host σ} {S : Setting} {closing : β → List Event}

theorem finish {x : Workflow β} {w : World σ} {b : β}
    (hx : x.runFrom h w = (.success b, w.publishAll (closing b))) :
    RunsStages h S closing [] x w := by
  refine ⟨[], [], closing b, ?_, ?_, rfl, by simp, ?_, ?_⟩
  · rw [hx]
    exact .complete w
  · rw [hx]
    simp [World.publishAll]
  · intro b' hb'
    rw [hx] at hb'
    rw [Result.success.inj hb']
  · rw [hx]
    simp [Result.isSuccess]

theorem step (hh : h.Faithful) {s : Stage α} {k : α → Workflow β} {ss : List SomeStage}
    {w : World σ} (hk : ∀ a w₁, s.Passes h S w a w₁ → RunsStages h S closing ss (k a) w₁) :
    RunsStages h S closing (⟨α, s⟩ :: ss) ((runStage S s).andThen k) w := by
  unfold RunsStages
  rw [Workflow.runFrom_andThen]
  cases hrun : (runStage S s).runFrom h w with
  | mk r w₁ =>
    have hcases := runStage_cases hh S s w
    rw [hrun] at hcases
    simp only at hcases
    rcases hcases with ⟨e, es, hrefuse, rfl, hes, hquiet⟩ |
      ⟨es, hes, hstart, hreport, ⟨a, rfl, hpass⟩ | ⟨f, rfl, hfail⟩⟩
    · -- a refusal starts nothing, so the course is empty
      exact ⟨[], es, [], .refused hrefuse, by simp [hes], hquiet.startedStages,
        fun e he => (hquiet e he).2, by simp, by simp⟩
    · -- a success goes on with the other stages in the world that it leaves
      obtain ⟨started, fs, tail, hcourse, hfs, hstarts, hreports, htail⟩ := hk a w₁ hpass
      refine ⟨⟨α, s⟩ :: started, es ++ fs, tail, .next (s := ⟨α, s⟩) hpass hcourse,
        by simp [hfs, hes], ?_, ?_, htail⟩
      · rw [startedStages_append, hstart, hstarts]
        rfl
      · intro e he
        rcases List.mem_append.1 he with he | he
        · exact hreport e he
        · exact hreports e he
    · exact ⟨[⟨α, s⟩], es, [], .failed (s := ⟨α, s⟩) hfail, by simp [hes], hstart, hreport,
        by simp, by simp⟩

theorem last (hh : h.Faithful) {s : Stage β} (w : World σ) :
    RunsStages h S (fun _ => []) [⟨β, s⟩] (runStage S s) w := by
  have hsame :
      ((runStage S s).andThen Workflow.succeed).runFrom h w = (runStage S s).runFrom h w := by
    rw [Workflow.runFrom_andThen]
    cases (runStage S s).runFrom h w with
    | mk r w₁ => cases r <;> rfl
  have hstep : RunsStages h S (fun _ => []) [⟨β, s⟩] ((runStage S s).andThen Workflow.succeed) w :=
    step hh fun a w₁ _ => finish (by simp [World.publishAll]; rfl)
  unfold RunsStages at hstep ⊢
  rw [hsame] at hstep
  exact hstep

end RunsStages

/-- How a workflow that prepares a project and then runs stages for it went: which stages were
started, and what that says about the result. -/
structure Sequenced (h : Host σ) (prepare : Workflow Project) (setting : Project → Setting)
    (stages : List SomeStage) (w : World σ) (started : List SomeStage) (r : Result Unit) :
    Prop where
  course : ∀ p w₀, prepare.runFrom h w = (.success p, w₀) → Course h (setting p) stages w₀ started r
  in_order : started <+: stages
  passed : ∀ done s, started = done ++ [s] → ∃ p w₀ w₁, prepare.runFrom h w = (.success p, w₀) ∧
    AllPass h (setting p) done w₀ w₁ ∧ s.2.refusal? (setting p) w₁ = none
  success_iff : r = .success () ↔ started = stages ∧ ∃ p w₀ w₁,
    prepare.runFrom h w = (.success p, w₀) ∧ AllPass h (setting p) stages w₀ w₁
  failure_iff : ∀ f, r = .failure f ↔ ∃ done s p w₀ w₁ w₂, started = done ++ [s] ∧
    prepare.runFrom h w = (.success p, w₀) ∧ AllPass h (setting p) done w₀ w₁ ∧
    s.2.Fails h (setting p) w₁ f w₂
  failed_stage : ∀ f, r = .failure f → ∃ done s, started = done ++ [s] ∧ f.stage = s.kind
  refused_iff : ∀ e, r = .refused e ↔ (prepare.runFrom h w).1 = .refused e ∨ ∃ p w₀ w₁ s rest,
    prepare.runFrom h w = (.success p, w₀) ∧ stages = started ++ s :: rest ∧
    AllPass h (setting p) started w₀ w₁ ∧ s.2.refusal? (setting p) w₁ = some e

theorem Sequenced.of_refused {h : Host σ} {prepare : Workflow Project}
    {setting : Project → Setting} {stages : List SomeStage} {w w₀ : World σ} {e : Refusal}
    (hp : prepare.runFrom h w = (.refused e, w₀)) :
    Sequenced h prepare setting stages w [] (.refused e) where
  course p w₀ hp' := by simp [hp] at hp'
  in_order := List.nil_prefix
  passed done s hs := by simp at hs
  success_iff := by simp [hp]
  failure_iff f := by simp
  failed_stage f hf := by simp at hf
  refused_iff e' := by simp [hp]

theorem Sequenced.of_course {h : Host σ} {prepare : Workflow Project}
    {setting : Project → Setting} {stages started : List SomeStage} {w w₀ : World σ} {p : Project}
    {r : Result Unit} (hp : prepare.runFrom h w = (.success p, w₀))
    (hc : Course h (setting p) stages w₀ started r) :
    Sequenced h prepare setting stages w started r := by
  have hprep : ∀ {p' w₀'}, prepare.runFrom h w = (.success p', w₀') → p' = p ∧ w₀' = w₀ := by
    intro p' w₀' hp'
    have heq := hp.symm.trans hp'
    simp only [Prod.mk.injEq, Result.success.injEq] at heq
    exact ⟨heq.1.symm, heq.2.symm⟩
  refine ⟨?_, hc.started_prefix, ?_, ?_, ?_, ?_, ?_⟩
  · intro p' w₀' hp'
    obtain ⟨rfl, rfl⟩ := hprep hp'
    exact hc
  · intro done s hs
    obtain ⟨w₁, hpass, hnone⟩ := hc.passed hs
    exact ⟨p, w₀, w₁, hp, hpass, hnone⟩
  · rw [hc.success_iff]
    constructor
    · rintro ⟨hs, w₁, hpass⟩
      exact ⟨hs, p, w₀, w₁, hp, hpass⟩
    · rintro ⟨hs, p', w₀', w₁, hp', hpass⟩
      obtain ⟨rfl, rfl⟩ := hprep hp'
      exact ⟨hs, w₁, hpass⟩
  · intro f
    rw [hc.failure_iff]
    constructor
    · rintro ⟨done, s, w₁, w₂, hs, hpass, hfail⟩
      exact ⟨done, s, p, w₀, w₁, w₂, hs, hp, hpass, hfail⟩
    · rintro ⟨done, s, p', w₀', w₁, w₂, hs, hp', hpass, hfail⟩
      obtain ⟨rfl, rfl⟩ := hprep hp'
      exact ⟨done, s, w₁, w₂, hs, hpass, hfail⟩
  · intro f hr
    obtain ⟨done, s, w₁, w₂, hs, -, hfail⟩ := (hc.failure_iff f).1 hr
    exact ⟨done, s, hs, hfail.stage_eq⟩
  · intro e
    simp only [hp, reduceCtorEq, false_or]
    rw [hc.refused_iff]
    constructor
    · rintro ⟨s, rest, w₁, hstages, hpass, hrefuse⟩
      exact ⟨p, w₀, w₁, s, rest, rfl, hstages, hpass, hrefuse⟩
    · rintro ⟨p', w₀', w₁, s, rest, hp', hstages, hpass, hrefuse⟩
      obtain ⟨rfl, rfl⟩ := hprep (hp.trans hp')
      exact ⟨s, rest, w₁, hstages, hpass, hrefuse⟩

theorem Workflow.runFrom_attempt {α : Type} (h : Host σ) (x : Activity (Except OsError α))
    (w : World σ) : (Workflow.attempt x).runFrom h w = match x.run h w with
      | (.ok a, w) => (.success a, w)
      | (.error e, w) => (.refused (.io e), w) := by
  refine (Activity.run_bind h x _ w).trans ?_
  cases x.run h w with
  | mk r w₁ => cases r <;> rfl

theorem Workflow.runFrom_always {α : Type} (h : Host σ) (x : Activity α) (w : World σ) :
    (Workflow.always x).runFrom h w = (.success (x.run h w).1, (x.run h w).2) :=
  Activity.run_bind h x _ w

/-- A workflow that starts and reports nothing, and that fails only by being refused. -/
structure Workflow.Prepares {α : Type} (h : Host σ) (x : Workflow α) : Prop where
  quiet : ∀ w, ∃ es, (x.runFrom h w).2.events = w.events ++ es ∧ Quiet es
  no_failure : ∀ w f, (x.runFrom h w).1 ≠ .failure f

namespace Workflow.Prepares

variable {α β : Type} {h : Host σ}

theorem andThen {x : Workflow α} {f : α → Workflow β} (hx : x.Prepares h)
    (hf : ∀ a, (f a).Prepares h) : (x.andThen f).Prepares h := by
  constructor
  · intro w
    obtain ⟨es, hes, hquiet⟩ := hx.quiet w
    rw [runFrom_andThen]
    cases hrun : x.runFrom h w with
    | mk r w₁ =>
      rw [hrun] at hes
      simp only at hes
      cases r with
      | success a =>
        obtain ⟨fs, hfs, hquiet'⟩ := (hf a).quiet w₁
        exact ⟨es ++ fs, by simp [hfs, hes], hquiet.append hquiet'⟩
      | failure e => exact ⟨es, hes, hquiet⟩
      | refused e => exact ⟨es, hes, hquiet⟩
  · intro w e
    have hno := hx.no_failure w
    rw [runFrom_andThen]
    cases hrun : x.runFrom h w with
    | mk r w₁ =>
      rw [hrun] at hno
      cases r with
      | success a => exact (hf a).no_failure w₁ e
      | failure e' => exact absurd rfl (hno e')
      | refused e' => simp

theorem succeed (a : α) : (Workflow.succeed a).Prepares h :=
  ⟨fun w => ⟨[], by simp [runFrom, Workflow.succeed, toActivity, ofActivity, Activity.run],
    Quiet.nil⟩, fun w f => by
      simp [runFrom, Workflow.succeed, toActivity, ofActivity, Activity.run]⟩

theorem attempt {x : Activity (Except OsError α)} (hx : ∀ w, (x.run h w).2.events = w.events) :
    (Workflow.attempt x).Prepares h := by
  constructor
  · intro w
    have hes := hx w
    refine ⟨[], ?_, Quiet.nil⟩
    rw [runFrom_attempt]
    cases hr : x.run h w with
    | mk r w₁ =>
      rw [hr] at hes
      cases r <;> simpa using hes
  · intro w f
    rw [runFrom_attempt]
    cases x.run h w with
    | mk r w₁ => cases r <;> simp

theorem always {x : Activity α} (hx : ∀ w, (x.run h w).2.events = w.events) :
    (Workflow.always x).Prepares h := by
  constructor
  · intro w
    exact ⟨[], by rw [runFrom_always, hx]; simp, Quiet.nil⟩
  · intro w f
    rw [runFrom_always]
    simp

end Workflow.Prepares

theorem saveAll_events (h : Host σ) (ps : List Path) (w : World σ) :
    ((Bench.saveAll ps).run h w).2.events = w.events := by
  induction ps generalizing w with
  | nil => rfl
  | cons p ps ih => exact ih _

theorem run_activeProject (h : Host σ) (w : World σ) : Bench.activeProject.runFrom h w =
    match w.active.current with
    | some p => (.success p, w)
    | none => (.refused (.precondition .noActiveProject), w.publish
        (.preconditionFailed Precondition.noActiveProject.title
          Precondition.noActiveProject.message)) := by
  refine (Activity.run_bind h _ _ w).trans ?_
  simp only [Activity.run_perform, World.answer]
  cases w.active.current <;> rfl

theorem activeProject_prepares (h : Host σ) : Bench.activeProject.Prepares h := by
  constructor
  · intro w
    rw [run_activeProject]
    cases w.active.current with
    | some p => exact ⟨[], by simp, Quiet.nil⟩
    | none => exact ⟨[_], rfl, by simp [Quiet, Event.startedStage?, Event.isReport]⟩
  · intro w f
    rw [run_activeProject]
    cases w.active.current <;> simp

theorem makeOutputDir_prepares (h : Host σ) (p : Project) :
    (Bench.makeOutputDir p).Prepares h := by
  refine .attempt fun w => ?_
  rw [Activity.run_files]
  cases w.files.makeDirs p.outputDir <;> rfl

theorem prepareC_prepares (h : Host σ) (b : Bench) : b.prepareC.Prepares h :=
  (activeProject_prepares h).andThen fun p => (makeOutputDir_prepares h p).andThen fun _ =>
    (Workflow.Prepares.always (saveAll_events h _)).andThen fun _ => .succeed p

theorem prepareProject_prepares (h : Host σ) (b : Bench) : b.prepareProject.Prepares h :=
  (activeProject_prepares h).andThen fun p => (makeOutputDir_prepares h p).andThen fun _ =>
    (Workflow.Prepares.attempt fun _ => rfl).andThen fun _ =>
      (Workflow.Prepares.always (saveAll_events h _)).andThen fun _ => .succeed p

theorem runsStages_c {h : Host σ} (hh : h.Faithful) (b : Bench) (p : Project) (w : World σ) :
    RunsStages h (b.setting p) (fun _ => []) cStages
      ((runStage (b.setting p) (.compileC false)).andThen fun _ =>
        runStage (b.setting p) .runBinary) w :=
  .step hh fun _ w₁ _ => .last hh w₁

theorem runsStages_project {h : Host σ} (hh : h.Faithful) (b : Bench) (p : Project) (w : World σ) :
    RunsStages h (b.setting p)
      (fun report => [.verificationOutput report.output report.startedAt]) projectStages
      ((runStage (b.setting p) (.compileC true)).andThen fun _ =>
        (runStage (b.setting p) .patchAssembly).andThen fun _ =>
        (runStage (b.setting p) .assemble).andThen fun _ =>
        (runStage (b.setting p) .runInstrumentedBinary).andThen fun _ =>
        (runStage (b.setting p) .compileSpecification).andThen fun _ =>
        (runStage (b.setting p) .runVerificationServer).andThen fun report =>
        (Workflow.always (.publish (.verificationOutput report.output report.startedAt))).andThen
          fun _ => .succeed report) w :=
  .step hh fun _ _ _ => .step hh fun _ _ _ => .step hh fun _ _ _ => .step hh fun _ _ _ =>
    .step hh fun _ _ _ => .step hh fun _ _ _ => .finish rfl

theorem sequenced_of_runsStages {β : Type} {h : Host σ} {prepare : Workflow Project}
    {setting : Project → Setting} {closing : β → List Event} {stages : List SomeStage}
    {rest : Project → Workflow β} (hprepare : prepare.Prepares h)
    (hrest : ∀ p w, RunsStages h (setting p) closing stages (rest p) w) (w : World σ) :
    ∃ started es tail,
      Sequenced h prepare setting stages w started ((prepare.andThen rest).runFrom h w).1.forget ∧
      ((prepare.andThen rest).runFrom h w).2.events = w.events ++ es ++ tail ∧
      startedStages es = started.map SomeStage.kind ∧ (∀ e ∈ es, e.isReport = false) ∧
      (∀ b, ((prepare.andThen rest).runFrom h w).1 = .success b → tail = closing b) ∧
      (((prepare.andThen rest).runFrom h w).1.isSuccess = false → tail = []) := by
  obtain ⟨es, hes, hquiet⟩ := hprepare.quiet w
  have hno := hprepare.no_failure w
  rw [Workflow.runFrom_andThen]
  cases hp : prepare.runFrom h w with
  | mk r w₀ =>
    rw [hp] at hes hno
    simp only at hes hno
    cases r with
    | failure f => exact absurd rfl (hno f)
    | refused e =>
      exact ⟨[], es, [], .of_refused hp, by simpa using hes, hquiet.startedStages,
        fun e he => (hquiet e he).2, by simp, by simp⟩
    | success p =>
      obtain ⟨started, fs, tail, hcourse, hfs, hstart, hreport, htail⟩ := hrest p w₀
      refine ⟨started, es ++ fs, tail, .of_course hp hcourse, by simp [hfs, hes], ?_, ?_, htail⟩
      · rw [startedStages_append, hquiet.startedStages, hstart]
        rfl
      · intro e he
        rcases List.mem_append.1 he with he | he
        · exact (hquiet e he).2
        · exact hreport e he

/-- Both workflows run their stages in order. The stages that are announced are the first of the
list, and all but the last of them were interpreted as successes. The result is a success just if
all were started and interpreted so, and a failure just if the last started stage was interpreted as
that failure, which then names this stage; it is a refusal just if the preparation refused, or the
plan, the slot or the preparation of the next stage. A report is published only by a successful run
of the project, once, and after everything else. -/
theorem workflows_run_in_order {h : Host σ} (hh : h.Faithful) (b : Bench) (w : World σ) :
    (∃ started es tail,
      Sequenced h b.prepareProject b.setting projectStages w started
        (b.compileAndRunProject.runFrom h w).1.forget ∧
      (b.compileAndRunProject.runFrom h w).2.events = w.events ++ es ++ tail ∧
      startedStages es = started.map SomeStage.kind ∧
      startedStages es <+: [.compileC, .patchAssembly, .assemble, .runInstrumentedBinary,
        .compileSpecification, .runVerificationServer] ∧
      (∀ e ∈ es, e.isReport = false) ∧
      (∀ report, (b.compileAndRunProject.runFrom h w).1 = .success report →
        tail = [.verificationOutput report.output report.startedAt]) ∧
      ((b.compileAndRunProject.runFrom h w).1.isSuccess = false → tail = [])) ∧
    ∃ started es,
      Sequenced h b.prepareC b.setting cStages w started
        (b.compileAndRunC.runFrom h w).1.forget ∧
      (b.compileAndRunC.runFrom h w).2.events = w.events ++ es ∧
      startedStages es = started.map SomeStage.kind ∧
      startedStages es <+: [.compileC, .runBinary] ∧ ∀ e ∈ es, e.isReport = false := by
  constructor
  · obtain ⟨started, es, tail, hseq, hes, hstart, hreport, htail⟩ :=
      sequenced_of_runsStages (prepareProject_prepares h b)
        (fun p w => runsStages_project hh b p w) w
    refine ⟨started, es, tail, hseq, hes, hstart, ?_, hreport, htail⟩
    rw [hstart]
    exact hseq.in_order.map SomeStage.kind
  · obtain ⟨started, es, tail, hseq, hes, hstart, hreport, hdone, hstopped⟩ :=
      sequenced_of_runsStages (prepareC_prepares h b) (fun p w => runsStages_c hh b p w) w
    have htail : tail = [] := by
      cases hr : (b.compileAndRunC.runFrom h w).1 with
      | success out => exact hdone out hr
      | failure f => exact hstopped (congrArg Result.isSuccess hr)
      | refused e => exact hstopped (congrArg Result.isSuccess hr)
    rw [htail, List.append_nil] at hes
    refine ⟨started, es, hseq, hes, hstart, ?_, hreport⟩
    rw [hstart]
    exact hseq.in_order.map SomeStage.kind

namespace Demo

def bench : Bench := ⟨{ useDocker := true }, ⟨[⟨"/demo"⟩], [], none⟩, []⟩

def tree (products : Entries) : FileTree :=
  ⟨.dir [("demo", .dir [("build", .dir products), ("main.c", .file [] false),
    ("spec.tessla", .file [] false)])], []⟩

def world (files : FileTree) : World Unit :=
  ⟨files, [], .empty, .ofRoot ⟨"/demo"⟩, [], ()⟩

/-- Nothing fails, and the specification compiles to an empty document. -/
def host : Host Unit := .scripted fun
  | .compileSpecification => [.print ⟨.stdout, "\x7b\x7d"⟩]
  | _ => []

end Demo

theorem workflows_run_in_order_of_demo :
    Demo.host.Faithful ∧ ∃ es report,
      (Demo.bench.compileAndRunProject.runFrom Demo.host (Demo.world (Demo.tree []))).1 =
        .success report ∧
      (Demo.bench.compileAndRunProject.runFrom Demo.host (Demo.world (Demo.tree []))).2.events =
        es ++ [.verificationOutput report.output report.startedAt] ∧
      startedStages es = projectStages.map SomeStage.kind ∧ ∀ e ∈ es, e.isReport = false := by
  have hh : Demo.host.Faithful := Host.scripted_faithful _
  obtain ⟨started, es, tail, hseq, hes, hstart, -, hreport, htail, -⟩ :=
    (workflows_run_in_order hh Demo.bench (Demo.world (Demo.tree []))).1
  have hok : (Demo.bench.compileAndRunProject.runFrom Demo.host
      (Demo.world (Demo.tree []))).1.isSuccess = true := by decide +kernel
  cases hr : (Demo.bench.compileAndRunProject.runFrom Demo.host (Demo.world (Demo.tree []))).1 with
  | success report =>
    rw [hr] at hseq
    have hall : started = projectStages := (hseq.success_iff.1 rfl).1
    refine ⟨hh, es, report, rfl, ?_, by rw [hstart, hall], hreport⟩
    rw [hes, htail report hr]
    rfl
  | failure f => simp [hr, Result.isSuccess] at hok
  | refused e => simp [hr, Result.isSuccess] at hok

end TraceWorkbench
