import TraceWorkbench.Proofs.UnusedPlaces

set_option autoImplicit false

/-!
# The sites of references

A site is said here without a search: a line of a specification, and a range of its characters that
spell the reference to a function. The search finds each site of its functions once, from the first
line to the last and from left to right.
-/
namespace TraceWorkbench

/-- A range of characters in a line. Lines and columns count from 0 and have no bound. -/
structure Site where
  function : String
  line : Nat
  start : Nat
  stop : Nat
  deriving DecidableEq, Repr

def FunctionOccurrence.site (o : FunctionOccurrence) : Site :=
  ⟨o.function, o.line.toNat, o.startColumn.toNat, o.endColumn.toNat⟩

namespace Site

/-- The line is there, and its characters from `start` to `stop` spell the reference. -/
def SpelledIn (spec : String) (s : Site) : Prop :=
  ∃ line, (Text.lines spec.toList)[s.line]? = some line ∧ s.stop ≤ line.length ∧
    line.extract s.start s.stop = ("function_calls(\"" ++ s.function ++ "\")").toList

def Before (a b : Site) : Prop := a.line < b.line ∨ a.line = b.line ∧ a.start < b.start

theorem Before.ne {a b : Site} (h : a.Before b) : a ≠ b := by
  rintro rfl
  rcases h with h | ⟨-, h⟩ <;> exact Nat.lt_irrefl _ h

end Site

/-- The numbers of all lines and columns have 32 bits. -/
structure FitsWords (spec : String) : Prop where
  lines : (Text.lines spec.toList).length < UInt32.size
  columns : ∀ line ∈ Text.lines spec.toList, line.length < UInt32.size

namespace Unused

open Text Tracked

section

variable {mark s : List Char} {column skip : Nat}

theorem le_of_mem_places {place : Nat} (h : place ∈ places mark column skip s) :
    column ≤ place := by
  obtain ⟨a, -, -, rfl⟩ := split_of_mem_places h
  exact Nat.le_add_right column a.length

theorem pairwise_places : (places mark column skip s).Pairwise (· < ·) := by
  induction s generalizing column skip with
  | nil => exact .nil
  | cons c s ih =>
    cases skip with
    | succ skip => exact ih
    | zero =>
      rw [places]
      split
      · exact List.pairwise_cons.2 ⟨fun _ hlater => le_of_mem_places hlater, ih⟩
      · exact ih

theorem toNat_clamp {n : Nat} (h : n < UInt32.size) : (clamp n).toNat = n := by
  rw [clamp, Nat.min_eq_left (Nat.le_sub_one_of_lt h), UInt32.toNat_ofNat_of_lt' h]

theorem clamp_inj {m n : Nat} (hm : m < UInt32.size) (hn : n < UInt32.size)
    (h : clamp m = clamp n) : m = n := by
  rw [← toNat_clamp hm, h, toNat_clamp hn]

end

/-- Names that a quoted reference can hold: identifiers have neither a quote nor a bracket. -/
def Quotable (f : String) : Prop := '"' ∉ f.toList ∧ ')' ∉ f.toList

instance (f : String) : Decidable (Quotable f) := inferInstanceAs (Decidable (_ ∧ _))

section

variable {spec f g : String} {functions : List String} {line front : List Char}

theorem spelling_eq_text (f : String) :
    spelling f = ("function_calls(\"" ++ f ++ "\")").toList := by
  have hfront : "function_calls(\"".toList = opening ++ ['"'] := by decide +kernel
  have hend : "\")".toList = ['"', ')'] := by decide +kernel
  simp [spelling, String.toList_append, hfront, hend]

theorem extract_eq_of_prefix {mark : List Char} (h : front ++ mark <+: line) :
    line.extract front.length (front.length + mark.length) = mark := by
  obtain ⟨rest, rfl⟩ := h
  rw [List.append_assoc, List.extract, List.drop_left, Nat.add_sub_cancel_left, List.take_left]

theorem prefix_of_extract {mark : List Char} {start stop : Nat} (hne : mark ≠ [])
    (hstop : stop ≤ line.length) (h : line.extract start stop = mark) :
    (line.take start).length = start ∧ stop = start + mark.length ∧
      line.take start ++ mark <+: line := by
  have hlength : mark.length = stop - start := by
    rw [← h, List.extract, List.length_take, List.length_drop]
    omega
  have hpos := List.length_pos_iff.2 hne
  refine ⟨by rw [List.length_take]; omega, by omega, ?_⟩
  rw [← h, List.extract]
  calc
    line.take start ++ (line.drop start).take (stop - start) <+:
        line.take start ++ line.drop start :=
      (List.prefix_append_right_inj _).2 (List.take_prefix _ _)
    _ = line := List.take_append_drop start line

theorem site_of_marks {o : FunctionOccurrence} (hfits : FitsWords spec)
    (h : Marks spec o line front) : (Text.lines spec.toList)[o.site.line]? = some line ∧
      o.site.start = front.length ∧ o.site.stop = front.length + (spelling o.function).length := by
  obtain ⟨hspelled, ⟨n, hline, hnumber⟩, hstart, hstop⟩ := h
  have hn : n < UInt32.size :=
    (List.getElem?_eq_some_iff.1 hline).1.trans hfits.lines
  have hwidth := hfits.columns line (List.mem_of_getElem? hline)
  have hlength := hspelled.length_le
  rw [List.length_append] at hlength
  simp only [FunctionOccurrence.site, hnumber, hstart, hstop]
  rw [toNat_clamp hn, toNat_clamp (by omega), toNat_clamp (by omega)]
  exact ⟨hline, rfl, rfl⟩

theorem mem_sites_iff (hfits : FitsWords spec) (hnames : ∀ f ∈ functions, Quotable f) (s : Site) :
    s ∈ (occurrences spec functions).map FunctionOccurrence.site ↔
      s.function ∈ functions ∧ s.SpelledIn spec := by
  have hbrackets : ∀ f ∈ functions, ')' ∉ f.toList := fun f hf => (hnames f hf).2
  rw [List.mem_map]
  constructor
  · rintro ⟨o, ho, rfl⟩
    obtain ⟨hf, line, front, hm⟩ := (mem_occurrences_iff hbrackets).1 ho
    obtain ⟨hline, hstart, hstop⟩ := site_of_marks hfits hm
    refine ⟨hf, line, hline, ?_, ?_⟩
    · simpa [hstop] using hm.spelled.length_le
    · rw [hstart, hstop, extract_eq_of_prefix hm.spelled]
      exact spelling_eq_text o.function
  · rintro ⟨hf, line, hline, hstop, htext⟩
    rw [← spelling_eq_text] at htext
    obtain ⟨hlength, hend, hspelled⟩ :=
      prefix_of_extract (List.length_pos_iff.1 (spelling_length_pos _)) hstop htext
    have hm : Marks spec ⟨s.function, clamp s.line, clamp s.start, clamp s.stop⟩ line
        (line.take s.start) :=
      ⟨hspelled, ⟨s.line, hline, rfl⟩, by rw [hlength], by rw [hlength, ← hend]⟩
    refine ⟨_, (mem_occurrences_iff hbrackets).2 ⟨hf, line, _, hm⟩, ?_⟩
    have hn := (List.getElem?_eq_some_iff.1 hline).1.trans hfits.lines
    have hwidth := hfits.columns line (List.mem_of_getElem? hline)
    simp only [FunctionOccurrence.site]
    rw [toNat_clamp hn, toNat_clamp (by omega), toNat_clamp (by omega)]

/-! The order of the sites -/

/-- One place has the spelling of one function only: the name ends at the first quote. -/
theorem function_unique (hf : Quotable f) (hg : Quotable g)
    (hspelled : front ++ spelling f <+: line) (hspelled' : front ++ spelling g <+: line) :
    f = g := by
  obtain ⟨rest, hrest⟩ := hspelled
  obtain ⟨rest', hrest'⟩ := hspelled'
  have hquoted : f.toList ++ '"' :: (')' :: rest) = g.toList ++ '"' :: (')' :: rest') := by
    have hsame := hrest.trans hrest'.symm
    simpa [spelling] using hsame
  exact String.toList_inj.1 (split_at_first hf.1 hg.1 hquoted).1

def SameStart (o p : FunctionOccurrence) : Prop := o.line = p.line ∧ o.startColumn = p.startColumn

theorem SameStart.symm {o p : FunctionOccurrence} (h : SameStart o p) : SameStart p o :=
  ⟨h.1.symm, h.2.symm⟩

/-- Within a line, the search of one function goes on from left to right, and two functions have no
place in common. -/
theorem pairwise_inLine (n : Nat) (hdistinct : functions.Nodup)
    (hnames : ∀ f ∈ functions, Quotable f) (hwidth : line.length < UInt32.size) :
    (inLine functions n line).Pairwise fun o p => ¬ SameStart o p := by
  have hfront : ∀ {f place}, f ∈ functions → place ∈ places (spelling f) 0 0 line →
      place < UInt32.size ∧ line.take place ++ spelling f <+: line := by
    intro f place hf hplace
    obtain ⟨front, hspelled, rfl⟩ := (mem_places_spelling_iff (hnames f hf).2).1 hplace
    have hlength := hspelled.length_le
    rw [List.length_append] at hlength
    refine ⟨by omega, ?_⟩
    rwa [← List.prefix_iff_eq_take.1 ((List.prefix_append front _).trans hspelled)]
  rw [inLine, List.pairwise_flatMap]
  constructor
  · intro f hf
    refine List.pairwise_map.2 (pairwise_places.imp_of_mem ?_)
    intro place later hplace hlater hlt hsame
    exact hlt.ne (clamp_inj (hfront hf hplace).1 (hfront hf hlater).1 hsame.2)
  · refine hdistinct.imp_of_mem ?_
    intro f g hf hg hne o ho p hp hsame
    obtain ⟨place, hplace, rfl⟩ := List.mem_map.1 ho
    obtain ⟨place', hplace', rfl⟩ := List.mem_map.1 hp
    obtain rfl : place = place' := clamp_inj (hfront hf hplace).1 (hfront hg hplace').1 hsame.2
    exact hne (function_unique (hnames f hf) (hnames g hg) (hfront hf hplace).2
      (hfront hg hplace').2)

theorem line_of_mem_inLine {o : FunctionOccurrence} {n : Nat} (ho : o ∈ inLine functions n line) :
    o.line = clamp n := by
  obtain ⟨f, -, hplace⟩ := List.mem_flatMap.1 ho
  obtain ⟨place, -, rfl⟩ := List.mem_map.1 hplace
  rfl

theorem pairwise_occurrences (hfits : FitsWords spec) (hdistinct : functions.Nodup)
    (hnames : ∀ f ∈ functions, Quotable f) :
    (occurrences spec functions).Pairwise fun o p => ¬ SameStart o p := by
  rw [occurrences]
  refine ((List.mergeSort_perm _ _).pairwise_iff fun h hsame => h hsame.symm).2 ?_
  rw [List.pairwise_flatMap]
  constructor
  · rintro ⟨line, n⟩ hline
    have hmem := List.mem_of_getElem? (List.mem_zipIdx_iff_getElem?.1 hline)
    exact pairwise_inLine n hdistinct hnames (hfits.columns line hmem)
  · refine (pairwise_zipIdx (lines spec.toList)).imp_of_mem ?_
    rintro ⟨line, n⟩ ⟨line', n'⟩ hline hline' hlt o ho p hp hsame
    have hsize : ∀ {line n}, (line, n) ∈ (lines spec.toList).zipIdx → n < UInt32.size :=
      fun h => (List.getElem?_eq_some_iff.1 (List.mem_zipIdx_iff_getElem?.1 h)).1.trans hfits.lines
    have hclamp : clamp n = clamp n' := by
      rw [← line_of_mem_inLine ho, ← line_of_mem_inLine hp]
      exact hsame.1
    exact hlt.ne (clamp_inj (hsize hline) (hsize hline') hclamp)

theorem sites_in_order (hfits : FitsWords spec) (hdistinct : functions.Nodup)
    (hnames : ∀ f ∈ functions, Quotable f) :
    ((occurrences spec functions).map FunctionOccurrence.site).Pairwise Site.Before := by
  have hsorted : (occurrences spec functions).Pairwise fun a b =>
      (a.line < b.line || (a.line == b.line && a.startColumn ≤ b.startColumn)) = true := by
    refine List.pairwise_mergeSort ?_ ?_ _
    · intro a b c
      simp only [Bool.or_eq_true, Bool.and_eq_true, decide_eq_true_eq, beq_iff_eq,
        UInt32.lt_iff_toNat_lt, UInt32.le_iff_toNat_le, ← UInt32.toNat_inj]
      omega
    · intro a b
      simp only [Bool.or_eq_true, Bool.and_eq_true, decide_eq_true_eq, beq_iff_eq,
        UInt32.lt_iff_toNat_lt, UInt32.le_iff_toNat_le, ← UInt32.toNat_inj]
      omega
  refine List.pairwise_map.2 ((hsorted.and (pairwise_occurrences hfits hdistinct hnames)).imp ?_)
  rintro a b ⟨hle, hne⟩
  simp only [SameStart, Bool.or_eq_true, Bool.and_eq_true, decide_eq_true_eq, beq_iff_eq,
    UInt32.lt_iff_toNat_lt, UInt32.le_iff_toNat_le, ← UInt32.toNat_inj] at hle hne
  simp only [Site.Before, FunctionOccurrence.site]
  omega

end

end Unused

open Unused in
/-- The occurrences of a list of functions are all their sites in the specification and nothing
else, each of them once, in the order of their lines and columns. -/
theorem occurrences_are_sites_in_order {spec : String} {functions : List String}
    (hfits : FitsWords spec) (hdistinct : functions.Nodup)
    (hnames : ∀ f ∈ functions, Quotable f) :
    (∀ s : Site, s ∈ (occurrences spec functions).map FunctionOccurrence.site ↔
      s.function ∈ functions ∧ s.SpelledIn spec) ∧
    ((occurrences spec functions).map FunctionOccurrence.site).Nodup ∧
    ((occurrences spec functions).map FunctionOccurrence.site).Pairwise Site.Before := by
  have horder := sites_in_order hfits hdistinct hnames
  exact ⟨mem_sites_iff hfits hnames, horder.imp Site.Before.ne, horder⟩

namespace Demo

def mixed : String :=
  "in x: Events[Int]\ndef both := merge(function_calls(\"sub\"), function_calls(\"add\"))\r\n" ++
    "-- für function_calls(\"sub\")"

end Demo

open Unused in
theorem occurrences_of_mixed :
    FitsWords Demo.mixed ∧ ["add", "sub"].Nodup ∧ (∀ f ∈ ["add", "sub"], Quotable f) ∧
    (∀ s ∈ [⟨"sub", 1, 18, 39⟩, ⟨"add", 1, 41, 62⟩, ⟨"sub", 2, 7, 28⟩],
      s ∈ (occurrences Demo.mixed ["add", "sub"]).map FunctionOccurrence.site) ∧
    ((occurrences Demo.mixed ["add", "sub"]).map FunctionOccurrence.site).Pairwise Site.Before := by
  have hfits : FitsWords Demo.mixed := ⟨by decide +kernel, by decide +kernel⟩
  have hnames : ∀ f ∈ ["add", "sub"], Quotable f := by decide
  obtain ⟨hsites, -, horder⟩ := occurrences_are_sites_in_order hfits (by decide) hnames
  refine ⟨hfits, by decide, hnames, fun s hs => (hsites s).2 ?_, horder⟩
  have hline : (Text.lines Demo.mixed.toList)[1]? =
      some "def both := merge(function_calls(\"sub\"), function_calls(\"add\"))".toList := by
    decide +kernel
  have hlast : (Text.lines Demo.mixed.toList)[2]? =
      some "-- für function_calls(\"sub\")".toList := by
    decide +kernel
  simp only [List.mem_cons, List.not_mem_nil, or_false] at hs
  rcases hs with rfl | rfl | rfl
  · exact ⟨by simp, _, hline, by decide +kernel, by decide +kernel⟩
  · exact ⟨by simp, _, hline, by decide +kernel, by decide +kernel⟩
  · exact ⟨by simp, _, hlast, by decide +kernel, by decide +kernel⟩

end TraceWorkbench
