import TraceWorkbench.Proofs.CallCourses
import TraceWorkbench.Proofs.MutualExclusion

set_option autoImplicit false

/-!
# What is told when a call is refused

Stages never refuse in silence. What a call does to files around its stages may fail, and then the
error is all that comes of it.
-/
namespace TraceWorkbench

open Activity

/-- Tells the user why an action does not start. -/
def Event.isNotice : Event → Bool
  | preconditionFailed .. | warning .. => true
  | _ => false

section

variable {σ α β : Type} {steps : List (OwnStep σ)} {r : Refusal}

def OwnStep.GivesNotice (s : OwnStep σ) : Prop := ∃ e, s.told? = some e ∧ e.isNotice = true

def Noticed (steps : List (OwnStep σ)) : Prop := ∃ s ∈ steps, s.GivesNotice

def Untold (steps : List (OwnStep σ)) : Prop := ∀ s ∈ steps, s.told? = none

theorem Noticed.behind {back : List (OwnStep σ)} (hn : Noticed back) (front : List (OwnStep σ)) :
    Noticed (front ++ back) := by
  obtain ⟨s, hs, hnotice⟩ := hn
  exact ⟨s, List.mem_append_right front hs, hnotice⟩

theorem Untold.append {front back : List (OwnStep σ)} (hf : Untold front) (hb : Untold back) :
    Untold (front ++ back) := by
  intro s hs
  exact (List.mem_append.1 hs).elim (hf s) (hb s)

theorem untold_singleton {s : OwnStep σ} (hs : s.told? = none) : Untold [s] := by
  simpa [Untold] using hs

/-- Whenever the workflow is refused, it has given notice. -/
def Workflow.GivesNotice (σ : Type) (x : Workflow α) : Prop :=
  ∀ (steps : List (OwnStep σ)) (r : Refusal), x.toActivity.Takes steps (.refused r) → Noticed steps

theorem Workflow.GivesNotice.andThen {x : Workflow α} {f : α → Workflow β} (hx : x.GivesNotice σ)
    (hf : ∀ a, (f a).GivesNotice σ) : (x.andThen f).GivesNotice σ := by
  intro steps r hr
  rcases takes_refused_andThen hr with hfirst | ⟨front, back, a, rfl, -, hback⟩
  · exact hx steps r hfirst
  · exact (hf a back r hback).behind front

theorem Workflow.givesNotice_always (x : Activity α) : (Workflow.always x).GivesNotice σ := by
  intro steps r hr
  obtain ⟨a, ha, -⟩ := takes_always hr
  simp at ha

theorem Workflow.givesNotice_succeed (a : α) : (Workflow.succeed a).GivesNotice σ := by
  intro steps r hr
  obtain ⟨-, ha⟩ := takes_succeed hr
  simp at ha

theorem Workflow.givesNotice_refusePrecondition (p : Precondition) :
    (Workflow.refusePrecondition p : Workflow α).GivesNotice σ := by
  intro steps r hr
  obtain ⟨-, w, rfl⟩ := takes_refusePrecondition hr
  exact ⟨_, List.mem_singleton_self _, _, rfl, rfl⟩

theorem givesNotice_activeProject : Bench.activeProject.GivesNotice σ := by
  intro steps r hr
  obtain ⟨first, more, rfl, -, -, -, ⟨p, hp, -⟩ | ⟨-, s, rfl, hs⟩⟩ := Bench.takes_activeProject hr
  · simp at hp
  · exact ⟨s, by simp, _, hs, rfl⟩

theorem conclude_not_refused {S : Setting} {s : Stage α} {plan : Plan} {o : Outcome}
    (hx : (conclude S s plan o).Takes steps (.refused r)) : False := by
  obtain ⟨front, back, judged, rfl, -, hback⟩ := Takes.of_bind hx
  cases judged with
  | ok a =>
    obtain ⟨-, back, u, rfl, -, hend⟩ := Takes.of_bind hback
    simpa using hend.of_done.2
  | error fault =>
    obtain ⟨-, back, u, rfl, -, hend⟩ := Takes.of_bind hback
    simpa using hend.of_done.2

theorem noticed_of_runTicketed {S : Setting} {s : Stage α} {plan : Plan} {t : Ticket}
    (hx : (runTicketed S s plan t).Takes steps (.refused r)) : Noticed steps := by
  obtain ⟨front, back, prepared, rfl, -, hback⟩ := Takes.of_bind hx
  cases prepared with
  | error e =>
    obtain ⟨h, w, more, rfl, -⟩ := Takes.of_step hback
    exact Noticed.behind ⟨_, List.mem_cons_self, _, rfl, rfl⟩ front
  | ok u =>
    obtain ⟨-, back, u, rfl, -, hback⟩ := Takes.of_bind hback
    obtain ⟨-, back, u, rfl, -, hback⟩ := Takes.of_bind hback
    obtain ⟨-, back, o, rfl, -, hback⟩ := Takes.of_bind hback
    exact (conclude_not_refused hback).elim

theorem noticed_of_runPlanned {S : Setting} {s : Stage α} {plan : Plan}
    (hx : (runPlanned S s plan).Takes steps (.refused r)) : Noticed steps := by
  obtain ⟨front, back, u, rfl, -, hback⟩ := Takes.of_bind hx
  obtain ⟨asked, back, answer, rfl, -, hback⟩ := Takes.of_bind hback
  refine Noticed.behind (Noticed.behind ?_ asked) front
  cases answer with
  | error r =>
    obtain ⟨h, w, more, rfl, -⟩ := Takes.of_step hback
    exact ⟨_, List.mem_cons_self, _, rfl, rfl⟩
  | ok t => exact noticed_of_runTicketed hback

theorem givesNotice_runStage (S : Setting) (s : Stage α) : (runStage S s).GivesNotice σ := by
  intro steps r hr
  obtain ⟨front, back, planned, rfl, -, hback⟩ := Takes.of_bind hr
  refine Noticed.behind ?_ front
  cases planned with
  | error p => exact Workflow.givesNotice_refusePrecondition p back r hback
  | ok plan => exact noticed_of_runPlanned hback

namespace Workflow

/-- Notice is given of a refusal unless the last step has met files on which this can fail. -/
def ToldUnless (σ : Type) (fault : FileTree → OsError → Prop) (x : Workflow α) : Prop :=
  ∀ (steps : List (OwnStep σ)) (r : Refusal), x.toActivity.Takes steps (.refused r) →
    Noticed steps ∨ Untold steps ∧
      ∃ last e, steps.getLast? = some last ∧ r = .io e ∧ fault last.before.files e

def SilentlySucceeds (σ : Type) (x : Workflow α) : Prop :=
  ∀ (steps : List (OwnStep σ)) (a : α), x.toActivity.Takes steps (.success a) → Untold steps

variable {fault : FileTree → OsError → Prop}

theorem GivesNotice.toldUnless {x : Workflow α} (hx : x.GivesNotice σ) : x.ToldUnless σ fault :=
  fun steps r hr => .inl (hx steps r hr)

theorem ToldUnless.andThen {x : Workflow α} {f : α → Workflow β} (hx : x.ToldUnless σ fault)
    (hsilent : x.SilentlySucceeds σ) (hf : ∀ a, (f a).ToldUnless σ fault) :
    (x.andThen f).ToldUnless σ fault := by
  intro steps r hr
  rcases takes_refused_andThen hr with hfirst | ⟨front, back, a, rfl, hfront, hback⟩
  · exact hx steps r hfirst
  · rcases hf a back r hback with hnotice | ⟨huntold, last, e, hlast, hr, hfault⟩
    · exact .inl (hnotice.behind front)
    · refine .inr ⟨(hsilent front a hfront).append huntold, last, e, ?_, hr, hfault⟩
      simp [List.getLast?_append, hlast]

theorem toldUnless_attempt {e : Effect (Except OsError α)} (he : e.event? = none)
    (hfault : ∀ (h : Host σ) (w : World σ) (err : OsError), (w.answer h e).1 = .error err →
      fault w.files err) : (attempt (.perform e)).ToldUnless σ fault := by
  intro steps r hr
  rcases takes_attempt hr with ⟨a, ha, -⟩ | ⟨err, herr, htakes⟩
  · simp at ha
  · obtain ⟨h, w, rfl, hanswer⟩ := Takes.of_perform htakes
    exact .inr ⟨untold_singleton he, _, err, rfl, Result.refused.inj herr,
      hfault h w err hanswer.symm⟩

theorem silentlySucceeds_attempt {e : Effect (Except OsError α)} (he : e.event? = none) :
    (attempt (.perform e)).SilentlySucceeds σ := by
  intro steps a ha
  rcases takes_attempt ha with ⟨a', -, htakes⟩ | ⟨err, herr, -⟩
  · obtain ⟨h, w, rfl, -⟩ := Takes.of_perform htakes
    exact untold_singleton he
  · simp at herr

/-- The same for a workflow on the active project, which its first step has looked up. -/
def ToldUnlessOf (σ : Type) (fault : Project → FileTree → OsError → Prop) (x : Workflow α) : Prop :=
  ∀ (steps : List (OwnStep σ)) (r : Refusal), x.toActivity.Takes steps (.refused r) →
    Noticed steps ∨ Untold steps ∧ ∃ p first last e,
      steps.head? = some first ∧ first.before.active.current = some p ∧
      steps.getLast? = some last ∧ r = .io e ∧ fault p last.before.files e

theorem ToldUnlessOf.andThen {fault : Project → FileTree → OsError → Prop} {x : Workflow α}
    {f : α → Workflow β} (hx : x.ToldUnlessOf σ fault) (hf : ∀ a, (f a).GivesNotice σ) :
    (x.andThen f).ToldUnlessOf σ fault := by
  intro steps r hr
  rcases takes_refused_andThen hr with hfirst | ⟨front, back, a, rfl, -, hback⟩
  · exact hx steps r hfirst
  · exact .inl ((hf a back r hback).behind front)

theorem toldUnlessOf_activeProject {fault : Project → FileTree → OsError → Prop}
    {f : Project → Workflow α} (hf : ∀ p, (f p).ToldUnless σ (fault p)) :
    (Bench.activeProject.andThen f).ToldUnlessOf σ fault := by
  intro steps r hr
  rcases takes_refused_andThen hr with hfirst | ⟨front, back, p, rfl, hfront, hback⟩
  · exact .inl (givesNotice_activeProject steps r hfirst)
  · obtain ⟨first, more, rfl, hsilent, -, -, ⟨p', hp, hcurrent, rfl⟩ | ⟨hp, -⟩⟩ :=
      Bench.takes_activeProject hfront
    · obtain rfl := Result.success.inj hp
      rcases hf p back r hback with hnotice | ⟨huntold, last, e, hlast, hr, hfault⟩
      · exact .inl (hnotice.behind _)
      · refine .inr ⟨(untold_singleton hsilent).append huntold, p, first, last, e, rfl, hcurrent,
          ?_, hr, hfault⟩
        rw [List.getLast?_append, hlast]
        rfl
    · simp at hp

end Workflow

end

/-- What can fail on the files that a job meets, besides its stages. Only the search for unused
functions has looked at files before, to find its specification. -/
def Job.CanFailOn (b : Bench) (j : Job) (p : Project) (looked t : FileTree) (e : OsError) : Prop :=
  match j with
  | .compileAndRunC | .buildC _ => t.makeDirs p.outputDir = .error e
  | .compileAndRunProject => t.makeDirs p.outputDir = .error e ∨
    (p.writeTraceConfig b.config.formatting b.config.mode t).1 = .error e
  | .highlightUnused => ∃ spec, (Scan.specFiles looked p.root).head? = some spec ∧
    Bench.unusedIn t p.root spec = .error e
  | .setUp => b.setUpFiles p.root t = .error e
  | _ => False

namespace Bench

open Workflow

variable {σ : Type} {fault : FileTree → OsError → Prop}

theorem answer_files_error {h : Host σ} {w : World σ} {f : FileTree → Except OsError FileTree}
    {e : OsError}
    (he : (w.answer h (.files fun t =>
      match f t with
      | .ok t => (.ok (), t)
      | .error e => (.error e, t)) : Except OsError Unit × World σ).1 = .error e) :
    f w.files = .error e := by
  simp only [World.answer] at he
  cases hf : f w.files with
  | ok t => simp [hf] at he
  | error e' => simpa [hf] using he

theorem makeOutputDir_toldUnless {p : Project}
    (hfault : ∀ t e, t.makeDirs p.outputDir = .error e → fault t e) :
    (makeOutputDir p).ToldUnless σ fault :=
  toldUnless_attempt rfl fun _ _ _ he => hfault _ _ (answer_files_error he)

theorem makeOutputDir_silentlySucceeds (p : Project) :
    (makeOutputDir p).SilentlySucceeds σ := silentlySucceeds_attempt rfl

theorem saved_givesNotice (ps : List Path) (p : Project) :
    ((always (saveAll ps)).andThen fun _ => succeed p).GivesNotice σ :=
  (givesNotice_always _).andThen fun _ => givesNotice_succeed p

theorem compileAndRunC_told (b : Bench) :
    b.compileAndRunC.ToldUnlessOf σ fun p t => Job.compileAndRunC.CanFailOn b p t t := by
  have hprepare : b.prepareC.ToldUnlessOf σ fun p t => Job.compileAndRunC.CanFailOn b p t t :=
    toldUnlessOf_activeProject fun p => (makeOutputDir_toldUnless fun _ _ he => he).andThen
      (makeOutputDir_silentlySucceeds p) fun _ => (saved_givesNotice _ p).toldUnless
  exact hprepare.andThen fun p => (givesNotice_runStage _ _).andThen fun _ =>
    givesNotice_runStage _ _

theorem compileAndRunProject_told (b : Bench) :
    b.compileAndRunProject.ToldUnlessOf σ
      fun p t => Job.compileAndRunProject.CanFailOn b p t t := by
  have hprepare : b.prepareProject.ToldUnlessOf σ
      fun p t => Job.compileAndRunProject.CanFailOn b p t t := by
    refine toldUnlessOf_activeProject fun p => ?_
    refine (makeOutputDir_toldUnless fun _ _ he => .inl he).andThen
      (makeOutputDir_silentlySucceeds p) fun _ => ?_
    refine ToldUnless.andThen (toldUnless_attempt rfl fun _ _ _ he => .inr he)
      (silentlySucceeds_attempt rfl) fun _ => (saved_givesNotice _ p).toldUnless
  refine hprepare.andThen fun p => ?_
  refine (givesNotice_runStage _ _).andThen fun _ => (givesNotice_runStage _ _).andThen fun _ => ?_
  refine (givesNotice_runStage _ _).andThen fun _ => (givesNotice_runStage _ _).andThen fun _ => ?_
  refine (givesNotice_runStage _ _).andThen fun _ => (givesNotice_runStage _ _).andThen fun a => ?_
  exact (givesNotice_always _).andThen fun _ => givesNotice_succeed a

theorem buildC_told (b : Bench) (emitLlvm : Bool) :
    (b.buildC emitLlvm).ToldUnlessOf σ fun p t => (Job.buildC emitLlvm).CanFailOn b p t t :=
  toldUnlessOf_activeProject fun p => (makeOutputDir_toldUnless fun _ _ he => he).andThen
    (makeOutputDir_silentlySucceeds p) fun _ => (givesNotice_runStage _ _).toldUnless

theorem runBinary_givesNotice (b : Bench) : b.runBinary.GivesNotice σ :=
  givesNotice_activeProject.andThen fun _ => givesNotice_runStage _ _

theorem highlightUnused_told (b : Bench) {steps : List (OwnStep σ)} {r : Refusal}
    (hx : highlightUnused.toActivity.Takes steps (.refused r)) :
    Noticed steps ∨ Untold steps ∧ ∃ p first looked last e,
      steps.head? = some first ∧ first.before.active.current = some p ∧ looked ∈ steps ∧
      steps.getLast? = some last ∧ r = .io e ∧
      Job.highlightUnused.CanFailOn b p looked.before.files last.before.files e := by
  rcases takes_refused_andThen hx with hfirst | ⟨asked, back, p, rfl, hproject, hlooks⟩
  · exact .inl (givesNotice_activeProject steps r hfirst)
  obtain ⟨first, more, rfl, hsilent, -, -, ⟨p', hp, hcurrent, rfl⟩ | ⟨hp, -⟩⟩ :=
    takes_activeProject hproject
  case inr => simp at hp
  obtain rfl := Result.success.inj hp
  rcases takes_refused_andThen hlooks with hlook | ⟨looked, back, file?, rfl, hlook, hsearches⟩
  · obtain ⟨a, ha, -⟩ := takes_always hlook
    simp at ha
  obtain ⟨found, hfound, hlook⟩ := takes_always hlook
  obtain ⟨second, rfl, hsilent', rfl⟩ := takes_look hlook
  obtain rfl := Result.success.inj hfound
  cases hfile : (Scan.specFiles second.before.files p.root).head? with
  | none =>
    rw [hfile] at hsearches
    exact .inl (Noticed.behind ((givesNotice_refusePrecondition _ _ _ hsearches).behind _) _)
  | some file =>
    rw [hfile] at hsearches
    rcases takes_refused_andThen hsearches with hsearch | ⟨searched, back, a, rfl, -, htells⟩
    · rcases takes_attempt hsearch with ⟨a, ha, -⟩ | ⟨e, he, hsearch⟩
      · simp at ha
      · obtain ⟨third, rfl, hsilent'', hunused⟩ := takes_look hsearch
        refine .inr ⟨(untold_singleton hsilent).append ((untold_singleton hsilent').append
            (untold_singleton hsilent'')), p, first, second, third, e, rfl, hcurrent, by simp, rfl,
          Result.refused.inj he, file, hfile, hunused.symm⟩
    · have htold := ((givesNotice_always _).andThen fun _ => givesNotice_succeed a) back r htells
      exact .inl (Noticed.behind (Noticed.behind (htold.behind _) _) _)

theorem setUp_told (b : Bench) : b.setUp.ToldUnlessOf σ fun p t => Job.setUp.CanFailOn b p t t := by
  refine toldUnlessOf_activeProject fun p => ?_
  refine ToldUnless.andThen (toldUnless_attempt rfl fun h w e he => ?_)
    (silentlySucceeds_attempt rfl) fun outcome => ?_
  · simp only [World.answer] at he
    cases hset : b.setUpFiles p.root w.files with
    | ok r => simp [hset] at he
    | error e' =>
      rw [hset] at he
      exact hset.trans (by simpa using he)
  · split
    · exact ((givesNotice_always _).andThen fun _ => givesNotice_succeed outcome).toldUnless
    · exact (givesNotice_succeed outcome).toldUnless

end Bench

/-- A job that is refused has given notice, or it has told nothing at all: then the error of the
system is its result, and the last thing that it did was to make the build directory, to write the
trace configuration, to read the sources or to set the project up, which fails on the files that it
met there. -/
theorem refused_job_told_or_failed_on_files {σ : Type} (b : Bench) (j : Job)
    {x : Activity (Result (j.party b).Answer)} (hx : (j.party b).doing = .acting x)
    {steps : List (OwnStep σ)} {r : Refusal} (hr : x.Takes steps (.refused r)) :
    (∃ s ∈ steps, ∃ e, s.told? = some e ∧ e.isNotice = true) ∨
    (∀ s ∈ steps, s.told? = none) ∧ ∃ p first looked last e,
      steps.head? = some first ∧ first.before.active.current = some p ∧ looked ∈ steps ∧
      steps.getLast? = some last ∧ r = .io e ∧
      j.CanFailOn b p looked.before.files last.before.files e := by
  have hoflast {α : Type} {y : Workflow α} (hy : y.toActivity.Takes steps (.refused r))
      (htold : y.ToldUnlessOf σ fun p t => j.CanFailOn b p t t) :
      Noticed steps ∨ Untold steps ∧ ∃ p first looked last e,
        steps.head? = some first ∧ first.before.active.current = some p ∧ looked ∈ steps ∧
        steps.getLast? = some last ∧ r = .io e ∧
        j.CanFailOn b p looked.before.files last.before.files e := by
    refine (htold steps r hy).imp_right fun ⟨huntold, p, first, last, e, hfirst, hp, hlast, hr,
      hfault⟩ => ⟨huntold, p, first, last, last, e, hfirst, hp, List.mem_of_getLast? hlast, hlast,
        hr, hfault⟩
  cases j with
  | compileAndRunC =>
    obtain rfl := Doing.acting.inj hx
    exact hoflast hr b.compileAndRunC_told
  | compileAndRunProject =>
    obtain rfl := Doing.acting.inj hx
    exact hoflast hr b.compileAndRunProject_told
  | buildC emitLlvm =>
    obtain rfl := Doing.acting.inj hx
    exact hoflast hr (b.buildC_told emitLlvm)
  | runBinary =>
    obtain rfl := Doing.acting.inj hx
    exact .inl (b.runBinary_givesNotice steps r hr)
  | highlightUnused =>
    obtain rfl := Doing.acting.inj hx
    exact Bench.highlightUnused_told b hr
  | setUp =>
    obtain rfl := Doing.acting.inj hx
    exact hoflast hr b.setUp_told
  | openProject | fileChanged | fileSaved | lastFileClosed | splitView =>
    obtain rfl := Doing.acting.inj hx
    exact .inl (Workflow.givesNotice_always _ steps r hr)

namespace Demo

/-- A file stands where the build directory should be made. -/
def blocked : World Unit :=
  world ⟨.dir [("demo", .dir [("build", .file [] false), ("main.c", .file [] false)])], []⟩

end Demo

theorem blocked_job_fails_on_files :
    (Job.compileAndRunC.party Demo.bench).doing = .acting Demo.bench.compileAndRunC.toActivity ∧
    ∃ steps : List (OwnStep Unit),
      Demo.bench.compileAndRunC.toActivity.Takes steps (.refused (.io .alreadyExists)) ∧
      (∀ s ∈ steps, s.told? = none) ∧ ∃ p looked, looked ∈ steps ∧ ∃ last,
        steps.getLast? = some last ∧
        Job.compileAndRunC.CanFailOn Demo.bench p looked.before.files last.before.files
          .alreadyExists := by
  have htakes := Activity.takes_run Demo.host Demo.bench.compileAndRunC.toActivity Demo.blocked
  have hr : (Demo.bench.compileAndRunC.toActivity.run Demo.host Demo.blocked).1 =
      .refused (.io .alreadyExists) := by decide +kernel
  rw [hr] at htakes
  have hsilent : (Demo.bench.compileAndRunC.toActivity.steps Demo.host Demo.blocked).filterMap
      OwnStep.told? = [] := by decide +kernel
  rw [List.filterMap_eq_nil_iff] at hsilent
  refine ⟨rfl, _, htakes, hsilent, ?_⟩
  rcases refused_job_told_or_failed_on_files Demo.bench .compileAndRunC rfl htakes with
    ⟨s, hs, e, htold, -⟩ | ⟨-, p, first, looked, last, e, -, -, hlooked, hlast, he, hfault⟩
  · simp [hsilent s hs] at htold
  · obtain rfl := Refusal.io.inj he
    exact ⟨p, looked, hlooked, last, hlast, hfault⟩

/-- Such a call leaves the user with an error and not a single event. -/
theorem blocked_build_dir_goes_untold :
    (Demo.bench.compileAndRunC.runFrom Demo.host Demo.blocked).1 = .refused (.io .alreadyExists) ∧
    (Demo.bench.compileAndRunC.runFrom Demo.host Demo.blocked).2.events = [] := by
  decide +kernel

end TraceWorkbench
