import Mathlib.Data.List.Infix
import TraceWorkbench.Proofs.TrackedReferences
import TraceWorkbench.Spec.Unused

set_option autoImplicit false

/-!
# The places of unused functions

The scanner of references leaves out comments and allows blanks. The places of the functions that
turn out to be unused are searched for otherwise: a place is wherever a line spells the reference
without blanks, be it in its code or in its comment.
-/
namespace TraceWorkbench

namespace Unused

open Text Tracked

section

variable {mark s : List Char} {column skip place : Nat}

theorem split_of_mem_places (h : place ∈ places mark column skip s) :
    ∃ a b, s = a ++ (mark ++ b) ∧ place = column + a.length := by
  induction s generalizing column skip with
  | nil => simp [places] at h
  | cons c s ih =>
    have hlater : ∀ {skip}, place ∈ places mark (column + 1) skip s →
        ∃ a b, c :: s = a ++ (mark ++ b) ∧ place = column + a.length := by
      intro skip hmem
      obtain ⟨a, b, rfl, rfl⟩ := ih hmem
      exact ⟨c :: a, b, rfl, by rw [List.length_cons]; omega⟩
    cases skip with
    | succ skip => exact hlater h
    | zero =>
      simp only [places] at h
      split at h
      · rename_i hprefix
        obtain ⟨b, hb⟩ := List.isPrefixOf_iff_prefix.1 hprefix
        rcases List.mem_cons.1 h with rfl | hmem
        · exact ⟨[], b, hb.symm, rfl⟩
        · exact hlater hmem
      · exact hlater h

/-- Two places of a mark do not overlap if its last character stands nowhere else in it. -/
theorem length_le_of_two_marks {m a b b' : List Char} {x : Char} (hx : x ∉ m) (ha : a ≠ [])
    (h : m ++ x :: b' = a ++ (m ++ x :: b)) : (m ++ [x]).length ≤ a.length := by
  by_contra hshort
  rw [List.length_append, List.length_singleton] at hshort
  have hpos := List.length_pos_iff.2 ha
  have hsecond : a ++ m <+: m ++ x :: b' := ⟨x :: b, by rw [h, List.append_assoc]⟩
  have hend : m ++ [x] <+: m ++ x :: b' := ⟨b', by simp⟩
  have hfrom : a <+: m :=
    List.prefix_of_prefix_length_le ((List.prefix_append a m).trans hsecond)
      (List.prefix_append m _) (by omega)
  refine hx (mem_of_between hsecond hend hfrom ?_)
  rw [List.length_append]
  omega

theorem mem_places_of_split {m : List Char} {x : Char} (hx : x ∉ m) {a b : List Char}
    (hskip : skip ≤ a.length) (hs : s = a ++ (m ++ x :: b)) :
    column + a.length ∈ places (m ++ [x]) column skip s := by
  induction s generalizing column skip a with
  | nil => simp at hs
  | cons c s ih =>
    cases a with
    | nil =>
      obtain rfl : skip = 0 := Nat.le_zero.1 hskip
      have hprefix : (m ++ [x]).isPrefixOf (c :: s) = true :=
        List.isPrefixOf_iff_prefix.2 ⟨b, by simp [hs]⟩
      rw [places, if_pos hprefix]
      exact List.mem_cons_self
    | cons d a =>
      obtain ⟨rfl, rfl⟩ := List.cons.inj hs
      have hcolumn : column + (c :: a).length = column + 1 + a.length := by
        rw [List.length_cons]
        omega
      rw [hcolumn]
      cases skip with
      | succ skip => exact ih (Nat.le_of_succ_le_succ hskip) rfl
      | zero =>
        rw [places]
        split
        · rename_i hprefix
          obtain ⟨b', hb'⟩ := List.isPrefixOf_iff_prefix.1 hprefix
          have hlength := length_le_of_two_marks hx (List.cons_ne_nil c a)
            (show m ++ x :: b' = c :: a ++ (m ++ x :: b) by simpa using hb')
          rw [List.length_cons] at hlength
          exact List.mem_cons_of_mem _ (ih (by omega) rfl)
        · exact ih (Nat.zero_le _) rfl

end

section

variable {spec : String} {functions : List String} {o : FunctionOccurrence}
  {line front : List Char} {f : String}

theorem spelling_eq (f : String) : spelling f = referenceText [] f.toList [] := by
  simp [spelling, referenceText]

theorem spelling_length_pos (f : String) : 0 < (spelling f).length := by
  simp only [spelling, List.length_append, List.length_cons]
  omega

theorem mem_places_spelling_iff (hf : ')' ∉ f.toList) {place : Nat} :
    place ∈ places (spelling f) 0 0 line ↔
      ∃ front, front ++ spelling f <+: line ∧ place = front.length := by
  constructor
  · intro h
    obtain ⟨front, rest, rfl, rfl⟩ := split_of_mem_places h
    exact ⟨front, ⟨rest, List.append_assoc ..⟩, Nat.zero_add _⟩
  · rintro ⟨front, ⟨rest, rfl⟩, rfl⟩
    have hbracket : ')' ∉ opening ++ '"' :: (f.toList ++ ['"']) := by
      have hopening : ')' ∉ opening := by decide +kernel
      simp [hopening, hf]
    have hend : spelling f = opening ++ '"' :: (f.toList ++ ['"']) ++ [')'] := by
      simp [spelling]
    have hsplit : front ++ spelling f ++ rest =
        front ++ (opening ++ '"' :: (f.toList ++ ['"']) ++ ')' :: rest) := by simp [spelling]
    have hplace : 0 + front.length ∈ places _ 0 0 (front ++ spelling f ++ rest) :=
      mem_places_of_split hbracket (Nat.zero_le front.length) hsplit
    rwa [Nat.zero_add, ← hend] at hplace

/-- The occurrence stands for a spelling of its function in a line of the specification, behind
`front`. -/
structure Marks (spec : String) (o : FunctionOccurrence) (line front : List Char) : Prop where
  spelled : front ++ spelling o.function <+: line
  number : ∃ n, (lines spec.toList)[n]? = some line ∧ o.line = clamp n
  start : o.startColumn = clamp front.length
  stop : o.endColumn = clamp (front.length + (spelling o.function).length)

theorem mem_inLine_iff (hnames : ∀ f ∈ functions, ')' ∉ f.toList) {n : Nat} :
    o ∈ inLine functions n line ↔ o.function ∈ functions ∧ ∃ front,
      front ++ spelling o.function <+: line ∧ o = ⟨o.function, clamp n, clamp front.length,
        clamp (front.length + (spelling o.function).length)⟩ := by
  simp only [inLine, List.mem_flatMap, List.mem_map]
  constructor
  · rintro ⟨f, hf, place, hplace, rfl⟩
    obtain ⟨front, hfront, rfl⟩ := (mem_places_spelling_iff (hnames f hf)).1 hplace
    exact ⟨hf, front, hfront, rfl⟩
  · rintro ⟨hf, front, hfront, ho⟩
    exact ⟨o.function, hf, front.length,
      (mem_places_spelling_iff (hnames _ hf)).2 ⟨front, hfront, rfl⟩, ho.symm⟩

theorem mem_occurrences_iff (hnames : ∀ f ∈ functions, ')' ∉ f.toList) :
    o ∈ occurrences spec functions ↔ o.function ∈ functions ∧ ∃ line front,
      Marks spec o line front := by
  simp only [occurrences, List.mem_mergeSort, List.mem_flatMap, Prod.exists,
    List.mem_zipIdx_iff_getElem?, mem_inLine_iff hnames]
  constructor
  · rintro ⟨line, n, hline, hf, front, hspelled, ho⟩
    refine ⟨hf, line, front, hspelled, ⟨n, hline, ?_⟩, ?_, ?_⟩
    all_goals rw [ho]
  · rintro ⟨hf, line, front, hspelled, ⟨n, hline, hnumber⟩, hstart, hstop⟩
    refine ⟨line, n, hline, hf, front, hspelled, ?_⟩
    rw [← hnumber, ← hstart, ← hstop]

/-- The functions that a specification tracks and no source uses. -/
def ofSpec (spec : String) (sources : List String) : List String :=
  Unused.functions (Tracked.functions spec) sources

theorem mem_tracked_of_mem_ofSpec {sources : List String} (hf : f ∈ ofSpec spec sources) :
    f ∈ Tracked.functions spec :=
  (List.mem_filter.1 hf).1

theorem nameText_of_mem_ofSpec {sources : List String} (hf : f ∈ ofSpec spec sources) :
    NameText f.toList :=
  nameText_of_mem_functions (mem_tracked_of_mem_ofSpec hf)

/-- For the functions of a specification, the search finds just what the lines spell. -/
theorem mem_occurrences_ofSpec_iff {sources : List String} :
    o ∈ occurrences spec (ofSpec spec sources) ↔
      o.function ∈ ofSpec spec sources ∧ ∃ line front, Marks spec o line front :=
  mem_occurrences_iff fun _ hf => (nameText_of_mem_ofSpec hf).not_mem (by decide)

theorem exists_marks (hline : line ∈ lines spec.toList) (hspelled : front ++ spelling f <+: line) :
    ∃ o, o.function = f ∧ Marks spec o line front := by
  obtain ⟨n, hn⟩ := List.mem_iff_getElem?.1 hline
  exact ⟨⟨f, clamp n, clamp front.length, clamp (front.length + (spelling f).length)⟩, rfl,
    hspelled, ⟨n, hn, rfl⟩, rfl, rfl⟩

theorem Marks.mem_lines (h : Marks spec o line front) : line ∈ lines spec.toList := by
  obtain ⟨n, hn, -⟩ := h.number
  exact List.mem_of_getElem? hn

/-! Places in the code and in the comment of a line -/

def InCode (line front : List Char) (f : String) : Prop := front ++ spelling f <+: code line

def InComment (line front : List Char) : Prop := code line ++ ['-', '-'] <+: front

/-- A spelling holds no hyphen, so it does not reach over the start of the comment. -/
theorem in_code_or_comment (hf : NameText f.toList) (hspelled : front ++ spelling f <+: line) :
    InCode line front f ∨ InComment line front := by
  have hhyphen : '-' ∉ spelling f := by
    have hopening : '-' ∉ opening := by decide +kernel
    simp [spelling, hopening, hf.not_mem (show isAsciiWord '-' = false by decide)]
  have hcode : code line <+: line := before_starts ['-', '-'] line
  have hfront : front <+: line := (List.prefix_append front _).trans hspelled
  rcases Nat.lt_or_ge (code line).length (front ++ spelling f).length with hlonger | hfits
  · have hsecond : code line ++ ['-'] ++ ['-'] <+: line := by
      rcases code_eq_or_hyphens line with hall | hhyphens
      · rw [hall] at hlonger
        exact absurd hspelled.length_le (Nat.not_le_of_lt hlonger)
      · simpa using hhyphens
    have hfirst : code line ++ ['-'] <+: line := (List.prefix_append _ _).trans hsecond
    refine .inr (List.prefix_of_prefix_length_le (by simpa using hsecond) hfront ?_)
    by_contra hshort
    simp only [List.length_append, List.length_cons, List.length_nil] at hshort
    rcases Nat.lt_or_ge (code line).length front.length with hbetween | hbefore
    · have hprefix := List.prefix_of_prefix_length_le hfront hfirst (by
        rw [List.length_append, List.length_singleton]
        omega)
      refine hhyphen (mem_of_between hspelled hsecond hprefix ?_)
      have hpos := spelling_length_pos f
      simp only [List.length_append, List.length_singleton]
      omega
    · have hprefix := List.prefix_of_prefix_length_le hfront hcode hbefore
      exact hhyphen (mem_of_between hspelled hfirst hprefix hlonger)
  · exact .inl (List.prefix_of_prefix_length_le hspelled hcode hfits)

theorem InCode.counted (hf : NameText f.toList) (h : InCode line front f) :
    reference? ((code line).drop front.length) = some f.toList := by
  rw [InCode, spelling_eq] at h
  exact ReferenceAt.drop ⟨hf, by simp [SpecError.Blanks], by simp [SpecError.Blanks], h⟩

theorem InCode.not_behind_code {between : List Char} : ¬ InCode line (code line ++ between) f := by
  intro h
  have hlength := h.length_le
  have hpos := spelling_length_pos f
  simp only [List.length_append] at hlength
  omega

theorem InComment.spelled (h : InComment line front) (hspelled : front ++ spelling f <+: line) :
    spelling f <:+: comment line := by
  obtain ⟨between, rfl⟩ := (List.prefix_append (code line) _).trans h
  obtain ⟨rest, hsplit⟩ := hspelled
  have hsame : code line ++ (between ++ spelling f ++ rest) = code line ++ comment line := by
    rw [code_append_comment]
    simpa using hsplit
  exact ⟨between, rest, List.append_cancel_left hsame⟩

end

end Unused

open Unused in
/-- Every place of an unused function is a spelling of it in a line of the specification. It lies in
the code, where the scanner of references counts it, or it lies in the comment behind the hyphens.
So all places lie in code just if no comment spells an unused function. -/
theorem unused_places_in_code_unless_commented (spec : String) (sources : List String) :
    (∀ o ∈ occurrences spec (ofSpec spec sources),
      o.function ∈ ofSpec spec sources ∧ (∃ line front, Marks spec o line front) ∧
      ∀ line front, Marks spec o line front →
        (InCode line front o.function ∧
          Tracked.reference? ((Tracked.code line).drop front.length) = some o.function.toList) ∨
        InComment line front) ∧
    ((∀ o ∈ occurrences spec (ofSpec spec sources), ∀ line front, Marks spec o line front →
        InCode line front o.function) ↔
      ∀ f ∈ ofSpec spec sources, ∀ line ∈ Text.lines spec.toList,
        ¬ spelling f <:+: Tracked.comment line) := by
  constructor
  · intro o ho
    obtain ⟨hf, hmarks⟩ := mem_occurrences_ofSpec_iff.1 ho
    refine ⟨hf, hmarks, fun line front hm => ?_⟩
    rcases in_code_or_comment (nameText_of_mem_ofSpec hf) hm.spelled with hcode | hcomment
    · exact .inl ⟨hcode, hcode.counted (nameText_of_mem_ofSpec hf)⟩
    · exact .inr hcomment
  · constructor
    · rintro hall f hf line hline ⟨between, rest, hsplit⟩
      have hspelled : Tracked.code line ++ between ++ spelling f <+: line := by
        refine ⟨rest, ?_⟩
        rw [List.append_assoc, List.append_assoc, ← List.append_assoc between, hsplit,
          Tracked.code_append_comment]
      obtain ⟨o, rfl, hm⟩ := exists_marks hline hspelled
      have ho := mem_occurrences_ofSpec_iff.2 ⟨hf, line, _, hm⟩
      exact InCode.not_behind_code (hall o ho line _ hm)
    · intro hnone o ho line front hm
      have hf := (mem_occurrences_ofSpec_iff.1 ho).1
      rcases in_code_or_comment (nameText_of_mem_ofSpec hf) hm.spelled with hcode | hcomment
      · exact hcode
      · exact absurd (hcomment.spelled hm.spelled) (hnone _ hf line hm.mem_lines)

namespace Demo

def commented : String := "def x := function_calls(\"sub\") -- function_calls(\"sub\")"

end Demo

open Unused in
/-- The second of the two places lies behind the hyphens. -/
theorem place_in_comment :
    ∃ o ∈ occurrences Demo.commented (ofSpec Demo.commented []),
      o = ⟨"sub", 0, 34, 55⟩ ∧ ∃ line front, Marks Demo.commented o line front ∧
        InComment line front ∧ ¬ InCode line front o.function := by
  have hmarks : Marks Demo.commented ⟨"sub", 0, 34, 55⟩ Demo.commented.toList
      "def x := function_calls(\"sub\") -- ".toList :=
    ⟨by decide +kernel, ⟨0, by decide +kernel, rfl⟩, by decide +kernel, by decide +kernel⟩
  have hunused : "sub" ∈ ofSpec Demo.commented [] := by decide +kernel
  refine ⟨_, mem_occurrences_ofSpec_iff.2 ⟨hunused, _, _, hmarks⟩, rfl, _, _, hmarks, ?_, ?_⟩
  · unfold InComment
    decide +kernel
  · unfold InCode
    decide +kernel

end TraceWorkbench
