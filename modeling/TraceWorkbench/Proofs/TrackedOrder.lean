import TraceWorkbench.Proofs.TrackedReferences

set_option autoImplicit false

/-!
# The order of tracked functions

A reference has a place: the number of its line and the column where it starts. A function is
tracked once, however often it is referred to, and the functions are listed in the order of their
first places.
-/
namespace TraceWorkbench.Tracked

open Text

/-- The part of a line before its first two hyphens in a row; all of the line if it has none. -/
structure CodePart (line part : List Char) : Prop where
  whole_or_cut : part = line ∨ part ++ ['-', '-'] <+: line
  first : ∀ front, front ++ ['-', '-'] <+: line → part.length ≤ front.length

/-- The code of a line of the specification has a reference to `f`. Lines and columns count
from 0. -/
def ReferredAt (spec f : String) (number column : Nat) : Prop :=
  ∃ line part, (lines spec.toList)[number]? = some line ∧ CodePart line part ∧
    ∃ front blanks blanks', ReferenceAt part front blanks f.toList blanks' ∧ front.length = column

/-- Some reference to `f` comes before all references to `g`. -/
def SeenBefore (spec f g : String) : Prop :=
  ∃ number column, ReferredAt spec f number column ∧
    ∀ number' column', ReferredAt spec g number' column' →
      number < number' ∨ number = number' ∧ column < column'

/-! The code of a line -/

theorem CodePart.length_le {line part other : List Char} (h : CodePart line part)
    (hother : CodePart line other) : part.length ≤ other.length := by
  rcases hother.whole_or_cut with rfl | hcut
  · rcases h.whole_or_cut with rfl | hpart
    · exact Nat.le_refl _
    · exact ((List.prefix_append part _).trans hpart).length_le
  · exact h.first other hcut

theorem CodePart.starts {line part : List Char} (h : CodePart line part) : part <+: line := by
  rcases h.whole_or_cut with rfl | hcut
  · exact List.prefix_refl part
  · exact (List.prefix_append part _).trans hcut

theorem codePart_code (line : List Char) : CodePart line (code line) := by
  refine ⟨code_eq_or_hyphens line, ?_⟩
  induction line with
  | nil => exact fun front _ => Nat.zero_le _
  | cons c line ih =>
    intro front hfront
    unfold code before
    split
    · exact Nat.zero_le _
    · rename_i hmark
      cases front with
      | nil => exact absurd (List.isPrefixOf_iff_prefix.2 hfront) hmark
      | cons d front => exact Nat.succ_le_succ (ih front (List.cons_prefix_cons.1 hfront).2)

theorem codePart_iff {line part : List Char} : CodePart line part ↔ part = code line := by
  constructor
  · intro h
    have hcode := codePart_code line
    have hlength := Nat.le_antisymm (h.length_le hcode) (hcode.length_le h)
    exact (List.prefix_of_prefix_length_le h.starts hcode.starts hlength.le).eq_of_length hlength
  · rintro rfl
    exact codePart_code line

/-! The references of a specification with their places -/

def columnsOf (s : List Char) : List (Nat × List Char) :=
  s.tails.zipIdx.filterMap fun (rest, column) => (reference? rest).map fun name => (column, name)

/-- The references of a specification in the order of reading, each with its line and column. -/
def sightings (spec : String) : List ((Nat × Nat) × List Char) :=
  (lines spec.toList).zipIdx.flatMap fun (line, number) =>
    (columnsOf (code line)).map fun (column, name) => ((number, column), name)

/-- The order of reading. -/
def Precedes (p q : Nat × Nat) : Prop := p.1 < q.1 ∨ p.1 = q.1 ∧ p.2 < q.2

section

variable {spec f : String} {number column : Nat} {s name : List Char}

theorem names_of_columnsOf (s : List Char) : (columnsOf s).map (·.2) = references 0 s := by
  have hforget : (fun x : List Char × Nat =>
      ((reference? x.1).map fun name => (x.2, name)).map (·.2)) = reference? ∘ Prod.fst := by
    funext x
    cases hname : reference? x.1 <;> simp [hname]
  rw [references_zero, columnsOf, List.map_filterMap, hforget, ← List.filterMap_map,
    List.zipIdx_map_fst]

theorem mem_columnsOf_iff : (column, name) ∈ columnsOf s ↔
    ∃ front blanks blanks', ReferenceAt s front blanks name blanks' ∧ front.length = column := by
  simp only [columnsOf, List.mem_filterMap, Option.map_eq_some_iff, Prod.mk.injEq, Prod.exists,
    List.mem_zipIdx_iff_getElem?]
  constructor
  · rintro ⟨rest, _, htail, _, hname, rfl, rfl⟩
    obtain ⟨hbound, rfl⟩ := List.getElem?_eq_some_iff.1 htail
    rw [List.getElem_tails] at hname
    exact exists_referenceAt_of_drop hname
  · rintro ⟨front, blanks, blanks', href, rfl⟩
    have hwithin := ((List.prefix_append front _).trans href.text).length_le
    refine ⟨s.drop front.length, front.length, ?_, name, href.drop, rfl, rfl⟩
    refine List.getElem?_eq_some_iff.2 ⟨?_, List.getElem_tails s _ _⟩
    rw [List.length_tails]
    omega

theorem pairwise_columnsOf (s : List Char) : (columnsOf s).Pairwise fun a b => a.1 < b.1 := by
  refine List.pairwise_filterMap.2 ((pairwise_zipIdx s.tails).imp ?_)
  rintro a b hlt x hx y hy
  obtain ⟨_, -, rfl⟩ := Option.map_eq_some_iff.1 hx
  obtain ⟨_, -, rfl⟩ := Option.map_eq_some_iff.1 hy
  exact hlt

theorem names_of_sightings (spec : String) :
    (sightings spec).map (·.2) =
      (lines spec.toList).flatMap fun line => references 0 (code line) := by
  have hline : ∀ line, ∀ number : Nat,
      ((columnsOf (code line)).map fun (column, name) => ((number, column), name)).map (·.2) =
        references 0 (code line) := by
    intro line number
    rw [List.map_map, ← names_of_columnsOf]
    rfl
  simp only [sightings, List.map_flatMap, hline]
  rw [← List.flatMap_map (f := Prod.fst) (g := fun line => references 0 (code line)),
    List.zipIdx_map_fst]

theorem mem_sightings_iff :
    ((number, column), f.toList) ∈ sightings spec ↔ ReferredAt spec f number column := by
  simp only [sightings, List.mem_flatMap, List.mem_map, Prod.mk.injEq, Prod.exists,
    List.mem_zipIdx_iff_getElem?, ReferredAt, codePart_iff]
  constructor
  · rintro ⟨line, _, hline, _, _, hfound, ⟨rfl, rfl⟩, rfl⟩
    exact ⟨line, _, hline, rfl, mem_columnsOf_iff.1 hfound⟩
  · rintro ⟨line, _, hline, rfl, hfound⟩
    exact ⟨line, number, hline, column, f.toList, mem_columnsOf_iff.2 hfound, ⟨rfl, rfl⟩, rfl⟩

theorem pairwise_sightings (spec : String) :
    (sightings spec).Pairwise fun a b => Precedes a.1 b.1 := by
  rw [sightings, List.pairwise_flatMap]
  constructor
  · rintro ⟨line, number⟩ -
    refine List.pairwise_map.2 ((pairwise_columnsOf (code line)).imp ?_)
    exact fun hlt => .inr ⟨rfl, hlt⟩
  · refine (pairwise_zipIdx (lines spec.toList)).imp ?_
    rintro ⟨line, number⟩ ⟨line', number'⟩ hlt a ha b hb
    obtain ⟨_, -, rfl⟩ := List.mem_map.1 ha
    obtain ⟨_, -, rfl⟩ := List.mem_map.1 hb
    exact .inl hlt

end

/-- Where the entries of a list have places, in order, and the first entry of each kind is kept, the
kept ones are in the order of their first places. -/
theorem pairwise_eraseDups {ι α : Type} [BEq α] [LawfulBEq α] {R : ι → ι → Prop} (l : List (ι × α))
    (h : l.Pairwise fun a b => R a.1 b.1) :
    (l.map (·.2)).eraseDups.Pairwise fun a b => ∃ p, (p, a) ∈ l ∧ ∀ q, (q, b) ∈ l → R p q := by
  match l, h with
  | [], _ => exact .nil
  | (p, a) :: l, h =>
    obtain ⟨hhead, htail⟩ := List.pairwise_cons.1 h
    have hkept : (((p, a) :: l).map (·.2)).eraseDups =
        a :: ((l.filter fun e => !e.2 == a).map (·.2)).eraseDups := by
      rw [List.map_cons, List.eraseDups_cons, List.filter_map]
      rfl
    have hlater : ∀ b, b ∈ ((l.filter fun e => !e.2 == a).map (·.2)).eraseDups → b ≠ a := by
      intro b hb
      obtain ⟨e, he, rfl⟩ := List.mem_map.1 (List.mem_eraseDups.1 hb)
      simpa using (List.mem_filter.1 he).2
    rw [hkept, List.pairwise_cons]
    constructor
    · intro b hb
      refine ⟨p, List.mem_cons_self, fun q hq => ?_⟩
      rcases List.mem_cons.1 hq with hq | hq
      · exact absurd (Prod.mk.inj hq).2 (hlater b hb)
      · exact hhead _ hq
    · refine (pairwise_eraseDups _ (htail.filter _)).imp_of_mem ?_
      rintro b c hb hc ⟨q, hq, hfirst⟩
      refine ⟨q, List.mem_cons_of_mem _ (List.mem_filter.1 hq).1, fun r hr => ?_⟩
      rcases List.mem_cons.1 hr with hr | hr
      · exact absurd (Prod.mk.inj hr).2 (hlater c hc)
      · exact hfirst r (List.mem_filter.2 ⟨hr, by simpa using hlater c hc⟩)
termination_by l.length
decreasing_by exact Nat.lt_succ_of_le (List.length_filter_le _ _)

section

variable {spec f : String}

theorem functions_eq (spec : String) :
    functions spec = ((sightings spec).map (·.2)).eraseDups.map String.ofList := by
  rw [names_of_sightings, functions]

theorem mem_functions_iff_referredAt :
    f ∈ functions spec ↔ ∃ number column, ReferredAt spec f number column := by
  simp only [functions_eq, List.mem_map, List.mem_eraseDups, ← mem_sightings_iff]
  constructor
  · rintro ⟨_, ⟨⟨⟨number, column⟩, name⟩, hname, rfl⟩, rfl⟩
    exact ⟨number, column, by rwa [String.toList_ofList]⟩
  · rintro ⟨number, column, hname⟩
    exact ⟨f.toList, ⟨_, hname, rfl⟩, String.ofList_toList⟩

theorem pairwise_functions (spec : String) : (functions spec).Pairwise (SeenBefore spec) := by
  rw [functions_eq]
  refine List.pairwise_map.2 ((pairwise_eraseDups _ (pairwise_sightings spec)).imp ?_)
  rintro a b ⟨⟨number, column⟩, ha, hfirst⟩
  refine ⟨number, column, mem_sightings_iff.1 (by rwa [String.toList_ofList]), ?_⟩
  intro number' column' hb
  exact hfirst (number', column') (by simpa using mem_sightings_iff.2 hb)

theorem SeenBefore.ne {g : String} (h : SeenBefore spec f g) : f ≠ g := by
  rintro rfl
  obtain ⟨number, column, href, hfirst⟩ := h
  rcases hfirst number column href with h | ⟨-, h⟩ <;> exact Nat.lt_irrefl _ h

end

end TraceWorkbench.Tracked

namespace TraceWorkbench

open Tracked in
/-- A function is tracked just if the code of some line has a reference to it. It is listed once,
and the functions are listed in the order in which a reader first sees them. -/
theorem tracked_functions_in_order_of_sight (spec : String) :
    (∀ f, f ∈ functions spec ↔ ∃ number column, ReferredAt spec f number column) ∧
    (functions spec).Nodup ∧ (functions spec).Pairwise (SeenBefore spec) :=
  ⟨fun _ => mem_functions_iff_referredAt, (pairwise_functions spec).imp SeenBefore.ne,
    pairwise_functions spec⟩

/-- References in a comment do not count, and a name that is itself the word of a reference does. -/
example : Tracked.functions ("-- function_calls(\"old\")\n" ++
    "function_calls(function_calls(\"b\"), function_calls( \"function_calls\" ))" ++
    " -- function_calls(\"c\")\nfunction_calls(\"a\") function_calls(\"b\")") =
      ["b", "function_calls", "a"] := by
  decide +kernel

end TraceWorkbench
