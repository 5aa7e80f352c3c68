import TraceWorkbench.CommandLine.Answer
import TraceWorkbench.Proofs.CallCourses
import TraceWorkbench.Proofs.UnusedPlaces

set_option autoImplicit false

/-!
# Reports of unused functions

A call that looks for unused functions tells of their places in the specification, and the command
line prints a line for each place. So a function whose references are all written with blanks, which
has no place, is found and not reported.
-/
namespace TraceWorkbench

namespace Activity

variable {σ : Type} {steps : List (OwnStep σ)}

theorem takes_publish {e : Event} {u : Unit} (hx : (publish e).Takes steps u) :
    ∃ s, steps = [s] ∧ s.told? = some e := by
  obtain ⟨h, w, rfl, -⟩ := Takes.of_perform hx
  exact ⟨_, rfl, rfl⟩

end Activity

namespace Bench

open Activity Workflow

variable {σ : Type} {steps : List (OwnStep σ)}

/-- The call read the specification `text` and the sources of the active project. It told of the
places that it found, and of nothing else. -/
structure ReportsUnused (steps : List (OwnStep σ)) (text : String) (sources : List String)
    (os : List FunctionOccurrence) : Prop where
  read : ∃ p file, (∃ s ∈ steps, s.before.active.current = some p) ∧
    (∃ s ∈ steps, (Scan.specFiles s.before.files p.root).head? = some file) ∧
    (∃ s ∈ steps, s.before.files.readText file = .ok text ∧
      readAll s.before.files (Scan.cSources s.before.files p.root) = .ok sources) ∧
    steps.filterMap OwnStep.told? = [.unusedFunctions file os]
  found : os = Unused.occurrences text (Unused.ofSpec text sources)

theorem unusedIn_eq_ok {t : FileTree} {root file : Path} {os : List FunctionOccurrence}
    (h : unusedIn t root file = .ok os) : ∃ text sources, t.readText file = .ok text ∧
      readAll t (Scan.cSources t root) = .ok sources ∧
      os = Unused.occurrences text (Unused.ofSpec text sources) := by
  unfold unusedIn at h
  split at h
  · simp at h
  · rename_i text htext
    cases hsources : readAll t (Scan.cSources t root) with
    | error e => simp [hsources, Except.map] at h
    | ok sources =>
      rw [hsources] at h
      exact ⟨text, sources, htext, rfl, (Except.ok.inj h).symm⟩

theorem reportsUnused_of_takes {os : List FunctionOccurrence}
    (hx : highlightUnused.toActivity.Takes steps (.success os)) :
    ∃ text sources, ReportsUnused steps text sources os := by
  obtain ⟨asked, back, p, rfl, hproject, hlooks⟩ := takes_success_andThen hx
  obtain ⟨first, more, rfl, hsilent, -, -, ⟨p', hp, hcurrent, rfl⟩ | ⟨hp, -⟩⟩ :=
    takes_activeProject hproject
  case inr => simp at hp
  obtain rfl := Result.success.inj hp
  obtain ⟨looked, back, file?, rfl, hlook, hsearches⟩ := takes_success_andThen hlooks
  obtain ⟨found, hfound, hlook⟩ := takes_always hlook
  obtain ⟨second, rfl, hsilent', rfl⟩ := takes_look hlook
  obtain rfl := Result.success.inj hfound
  cases hfile : (Scan.specFiles second.before.files p.root).head? with
  | none =>
    rw [hfile] at hsearches
    obtain ⟨hq, -⟩ := takes_refusePrecondition hsearches
    simp at hq
  | some file =>
    rw [hfile] at hsearches
    obtain ⟨searched, back, places, rfl, hsearch, htells⟩ := takes_success_andThen hsearches
    obtain ⟨places', hplaces, hsearch⟩ | ⟨e, he, -⟩ := takes_attempt hsearch
    case inr => simp at he
    obtain rfl := Result.success.inj hplaces
    obtain ⟨third, rfl, hsilent'', hunused⟩ := takes_look hsearch
    obtain ⟨text, sources, htext, hsources, hfound⟩ := unusedIn_eq_ok hunused.symm
    obtain ⟨told, back, u, rfl, hpublish, hend⟩ := takes_success_andThen htells
    obtain ⟨u', -, hpublish⟩ := takes_always hpublish
    obtain ⟨last, rfl, hlast⟩ := takes_publish hpublish
    obtain ⟨rfl, hos⟩ := takes_succeed hend
    obtain rfl := Result.success.inj hos
    refine ⟨text, sources, ⟨p, file, ⟨first, by simp, hcurrent⟩, ⟨second, by simp, hfile⟩,
      ⟨third, by simp, htext, hsources⟩, ?_⟩, hfound⟩
    simp [hsilent, hsilent', hsilent'', hlast]

end Bench

namespace CommandLine

open Activity

theorem reportsUnused_of_answered {σ : Type} {steps : List (OwnStep σ)} {b : Bench} {a : Answer}
    (hx : (answerInProject b .unused).Takes steps a) (hcode : a.code = 0) :
    ∃ text sources os, Bench.ReportsUnused steps text sources os ∧
      a.stdout = String.join (os.map Answer.ofOccurrence) := by
  obtain ⟨front, back, q, rfl, hfront, hback⟩ := Takes.of_bind hx
  obtain ⟨rfl, rfl⟩ := hback.of_done
  rw [List.append_nil]
  cases q with
  | success os =>
    obtain ⟨text, sources, hreports⟩ := Bench.reportsUnused_of_takes hfront
    exact ⟨text, sources, os, hreports, rfl⟩
  | failure f => simp [Answer.ofUnused, Answer.ofResult, Answer.failure] at hcode
  | refused r => simp [Answer.ofUnused, Answer.ofResult, Answer.error] at hcode

end CommandLine

namespace Unused

open Text Tracked

variable {spec : String} {sources : List String} {f : String}

/-- A function has a place in the specification. -/
def Located (spec : String) (functions : List String) (f : String) : Prop :=
  ∃ o ∈ occurrences spec functions, o.function = f

theorem located_iff (hf : f ∈ ofSpec spec sources) : Located spec (ofSpec spec sources) f ↔
    ∃ line ∈ lines spec.toList, spelling f <:+: line := by
  constructor
  · rintro ⟨o, ho, rfl⟩
    obtain ⟨-, line, front, hm⟩ := mem_occurrences_ofSpec_iff.1 ho
    obtain ⟨rest, hsplit⟩ := hm.spelled
    exact ⟨line, hm.mem_lines, front, rest, hsplit⟩
  · rintro ⟨line, hline, front, rest, hsplit⟩
    obtain ⟨o, rfl, hm⟩ := exists_marks hline ⟨rest, hsplit⟩
    exact ⟨o, mem_occurrences_ofSpec_iff.2 ⟨hf, line, front, hm⟩, rfl⟩

theorem located_of_plain {line front : List Char}
    (hf : f ∈ ofSpec spec sources) (hline : line ∈ lines spec.toList)
    (href : ReferenceAt (code line) front [] f.toList []) :
    Located spec (ofSpec spec sources) f := by
  rw [located_iff hf, spelling_eq]
  exact ⟨line, hline, ((List.suffix_append front _).isInfix.trans href.text.isInfix).trans
    (before_starts ['-', '-'] line).isInfix⟩

end Unused

open Unused in
/-- An unused function, which is referred to in the code of the specification, has a place in it
just if some line spells a reference to it without blanks. It has none only if there are blanks in
each reference that counts. The places are what a call that looks for unused functions returns and
tells of, and all that the command line prints. -/
theorem unused_reported_just_if_spelled_plainly {σ : Type} :
    (∀ (spec : String) (sources : List String), ∀ f ∈ ofSpec spec sources,
      (∃ line ∈ Text.lines spec.toList, ∃ front blanks blanks',
        Tracked.ReferenceAt (Tracked.code line) front blanks f.toList blanks') ∧
      (Located spec (ofSpec spec sources) f ↔
        ∃ line ∈ Text.lines spec.toList, spelling f <:+: line) ∧
      (¬ Located spec (ofSpec spec sources) f →
        ∀ line ∈ Text.lines spec.toList, ∀ front blanks blanks',
          Tracked.ReferenceAt (Tracked.code line) front blanks f.toList blanks' →
            blanks ≠ [] ∨ blanks' ≠ [])) ∧
    (∀ (steps : List (OwnStep σ)) (os : List FunctionOccurrence),
      Bench.highlightUnused.toActivity.Takes steps (.success os) →
        ∃ text sources, Bench.ReportsUnused steps text sources os) ∧
    ∀ (b : Bench) (steps : List (OwnStep σ)) (a : CommandLine.Answer),
      (CommandLine.answerInProject b .unused).Takes steps a → a.code = 0 →
        ∃ text sources os, Bench.ReportsUnused steps text sources os ∧
          a.stdout = String.join (os.map CommandLine.Answer.ofOccurrence) := by
  refine ⟨fun spec sources f hf => ⟨?_, located_iff hf, ?_⟩,
    fun steps os hx => Bench.reportsUnused_of_takes hx,
    fun b steps a hx hcode => CommandLine.reportsUnused_of_answered hx hcode⟩
  · exact Tracked.mem_functions_iff.1 (mem_tracked_of_mem_ofSpec hf)
  · intro hnone line hline front blanks blanks' href
    by_contra hplain
    rw [not_or, not_ne_iff, not_ne_iff] at hplain
    obtain ⟨rfl, rfl⟩ := hplain
    exact hnone (located_of_plain hf hline href)

namespace Demo

def spaced : String := "def x := function_calls( \"sub\" )"

end Demo

open Unused in
/-- The function is tracked and unused, but the search for its places finds none. -/
theorem spaced_reference_has_no_place :
    Tracked.functions Demo.spaced = ["sub"] ∧ ofSpec Demo.spaced [] = ["sub"] ∧
    ¬ Located Demo.spaced (ofSpec Demo.spaced []) "sub" := by
  have hunused : ofSpec Demo.spaced [] = ["sub"] := by decide +kernel
  refine ⟨by decide +kernel, hunused, ?_⟩
  rw [located_iff (by rw [hunused]; exact List.mem_singleton_self _)]
  decide +kernel

end TraceWorkbench
