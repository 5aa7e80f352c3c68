import TraceWorkbench.Proofs.TrackedReferences
import TraceWorkbench.Spec.Unused

set_option autoImplicit false

/-!
# Calls in sources

What counts as a use of a function is said here without a search: somewhere in a source, from a word
boundary on, stand its name, blanks, line ends among them, and an opening parenthesis. The unused
functions are those that no source uses.
-/
namespace TraceWorkbench.Unused

open Text
open SpecError (Blanks exists_blanks trimStart_append)

def EndsInWord (s : List Char) : Prop := ∃ c ∈ s.getLast?, isWordChar c = true

def BeginsWithWord (s : List Char) : Prop := ∃ c ∈ s.head?, isWordChar c = true

/-- A word ends or begins between the two texts, but not both. -/
def WordBoundary (front back : List Char) : Prop := EndsInWord front ↔ ¬ BeginsWithWord back

structure CallAt (source name front blanks : List Char) : Prop where
  skipped : Blanks blanks
  text : front ++ (name ++ (blanks ++ ['('])) <+: source
  boundary : WordBoundary front (source.drop front.length)

def Called (name source : String) : Prop :=
  ∃ front blanks, CallAt source.toList name.toList front blanks

section

variable {name s : List Char} {left : Option Char}

theorem isBoundary_iff {right : Option Char} : isBoundary left right = true ↔
    ((∃ c ∈ left, isWordChar c = true) ↔ ¬ ∃ c ∈ right, isWordChar c = true) := by
  have hword : ∀ o : Option Char, (o.map isWordChar).getD false = true ↔
      ∃ c ∈ o, isWordChar c = true := by
    rintro (_ | c) <;> simp
  rw [isBoundary, bne_iff_ne, ne_eq, Bool.eq_iff_iff, hword, hword]
  exact not_iff.trans (not_iff_comm.trans iff_comm)

/-- Blanks end at the parenthesis, so it does not matter how many of them are skipped. -/
theorem callAt_iff : callAt name left s = true ↔
    isBoundary left s.head? = true ∧ ∃ blanks, Blanks blanks ∧ name ++ (blanks ++ ['(']) <+: s := by
  rw [callAt, Bool.and_eq_true]
  refine and_congr_right fun _ => ?_
  constructor
  · intro h
    cases hstrip : Tracked.strip? name s with
    | none => simp [hstrip] at h
    | some rest =>
      rw [Tracked.strip?_eq_some_iff] at hstrip
      subst hstrip
      obtain ⟨blanks, hblanks, hrest⟩ := exists_blanks rest
      obtain ⟨behind, hbehind⟩ : ∃ behind, trimStart rest = '(' :: behind := by
        refine List.head?_eq_some_iff.1 ?_
        simpa [Tracked.strip?_eq_some_iff.2] using h
      refine ⟨blanks, hblanks, behind, ?_⟩
      rw [hrest, hbehind]
      simp
  · rintro ⟨blanks, hblanks, behind, rfl⟩
    have hstrip : Tracked.strip? name (name ++ (blanks ++ ['(']) ++ behind) =
        some (blanks ++ '(' :: behind) :=
      Tracked.strip?_eq_some_iff.2 (by simp)
    have htrim : trimStart (blanks ++ '(' :: behind) = '(' :: behind :=
      Tracked.trimStart_blanks_cons hblanks (by decide)
    rw [hstrip]
    simp [htrim]

theorem calls_iff : calls name left s = true ↔
    ∃ front blanks, Blanks blanks ∧ front ++ (name ++ (blanks ++ ['('])) <+: s ∧
      isBoundary (front.getLast?.or left) (s.drop front.length).head? = true := by
  induction s generalizing left with
  | nil =>
    rw [calls, callAt_iff]
    simp
  | cons c s ih =>
    have hlast : ∀ front : List Char,
        (c :: front).getLast?.or left = front.getLast?.or (some c) := by
      intro front
      rw [List.getLast?_cons]
      cases front.getLast? <;> rfl
    rw [calls, Bool.or_eq_true, callAt_iff, ih]
    constructor
    · rintro (⟨hboundary, blanks, hblanks, htext⟩ | ⟨front, blanks, hblanks, htext, hboundary⟩)
      · exact ⟨[], blanks, hblanks, htext, hboundary⟩
      · refine ⟨c :: front, blanks, hblanks, (List.prefix_cons_inj c).2 htext, ?_⟩
        rwa [hlast, List.length_cons, List.drop_succ_cons]
    · rintro ⟨front, blanks, hblanks, htext, hboundary⟩
      cases front with
      | nil => exact .inl ⟨hboundary, blanks, hblanks, htext⟩
      | cons d front =>
        obtain ⟨rfl, hrest⟩ := List.cons_prefix_cons.1 htext
        refine .inr ⟨front, blanks, hblanks, hrest, ?_⟩
        rwa [hlast, List.length_cons, List.drop_succ_cons] at hboundary

end

theorem calls_iff_called {name source : String} :
    calls name.toList none source.toList = true ↔ Called name source := by
  rw [calls_iff]
  constructor
  · rintro ⟨front, blanks, hblanks, htext, hboundary⟩
    rw [Option.or_none] at hboundary
    exact ⟨front, blanks, hblanks, htext, isBoundary_iff.1 hboundary⟩
  · rintro ⟨front, blanks, hblanks, htext, hboundary⟩
    refine ⟨front, blanks, hblanks, htext, ?_⟩
    rw [Option.or_none]
    exact isBoundary_iff.2 hboundary

instance (name source : String) : Decidable (Called name source) :=
  decidable_of_iff _ calls_iff_called

end TraceWorkbench.Unused

namespace TraceWorkbench

open Unused in
/-- The unused functions are those that no source calls, in the order and as often as they are
listed. -/
theorem unused_functions_are_uncalled (tracked sources : List String) :
    Unused.functions tracked sources =
      tracked.filter fun name => ∀ source ∈ sources, ¬ Called name source := by
  refine List.filter_congr fun name _ => ?_
  rw [Bool.eq_iff_iff, Bool.not_eq_true', List.any_eq_false, decide_eq_true_iff]
  exact forall₂_congr fun source _ => not_congr calls_iff_called

/-- A call may be spread over lines, and a part of a longer word is no call. Signs in a name stand
for themselves. -/
example : Unused.functions ["add", "tract", "a.b", "add"] ["subtract(1); axb(2);", "add \n\t(3)"] =
    ["tract", "a.b"] := by
  decide +kernel

end TraceWorkbench
