import Mathlib.Data.List.Infix
import TraceWorkbench.Proofs.ErrorGrammar
import TraceWorkbench.Spec.Tracked

set_option autoImplicit false

/-!
# The grammar of references

What a specification tracks is said here without a scanner. A reference has the form

    function_calls( blanks " name " blanks )

and it counts when it stands in the code of its line, which ends before the first two hyphens in a
row.
-/
namespace TraceWorkbench.Tracked

open Text
open SpecError (Blanks exists_blanks trimStart_append)

structure NameText (name : List Char) : Prop where
  ne_nil : name ≠ []
  word : ∀ c ∈ name, isAsciiWord c = true
  start : ∀ c ∈ name.head?, c.isDigit = false

def referenceText (blanks name blanks' : List Char) : List Char :=
  opening ++ (blanks ++ '"' :: (name ++ '"' :: (blanks' ++ [')'])))

/-- The text has a reference to `name` behind `front`, with these blanks around the name. -/
structure ReferenceAt (s front blanks name blanks' : List Char) : Prop where
  identifier : NameText name
  before : Blanks blanks
  behind : Blanks blanks'
  text : front ++ referenceText blanks name blanks' <+: s

section

variable {s front rest blanks name blanks' line : List Char}

theorem NameText.not_mem (h : NameText name) {c : Char} (hc : isAsciiWord c = false) :
    c ∉ name := by
  intro hmem
  rw [h.word c hmem] at hc
  simp at hc

theorem strip?_eq_some_iff {mark : List Char} : strip? mark s = some rest ↔ s = mark ++ rest := by
  unfold strip?
  constructor
  · intro h
    split at h
    · rename_i hprefix
      obtain ⟨tail, rfl⟩ := List.isPrefixOf_iff_prefix.1 hprefix
      rw [List.drop_left, Option.some_inj] at h
      rw [h]
    · simp at h
  · rintro rfl
    rw [if_pos (List.isPrefixOf_iff_prefix.2 (List.prefix_append ..)), List.drop_left]

theorem trimStart_blanks_cons (hblanks : Blanks blanks) {c : Char} (hc : isBlank c = false) :
    trimStart (blanks ++ c :: s) = c :: s :=
  trimStart_append hblanks fun d hd => by
    rwa [← Option.some.inj hd]

theorem takeWhile_word (hname : ∀ c ∈ name, isAsciiWord c = true) :
    (name ++ '"' :: s).takeWhile isAsciiWord = name ∧
      (name ++ '"' :: s).dropWhile isAsciiWord = '"' :: s := by
  have hquote : ¬ isAsciiWord '"' = true := by decide
  rw [List.takeWhile_append_of_pos hname, List.dropWhile_append_of_pos hname,
    List.takeWhile_cons_of_neg hquote, List.dropWhile_cons_of_neg hquote, List.append_nil]
  exact ⟨rfl, rfl⟩

theorem exists_reference (h : readReference? s = some (name, rest)) :
    ∃ blanks blanks', ReferenceAt s [] blanks name blanks' ∧
      referenceText blanks name blanks' ++ rest = s := by
  simp only [readReference?, Option.bind_eq_bind, Option.bind_eq_some_iff] at h
  obtain ⟨s₁, h₁, s₂, h₂, s₃, h₃, s₄, h₄, hname⟩ := h
  obtain ⟨blanks, hblanks, hs₁⟩ := exists_blanks s₁
  obtain ⟨blanks', hblanks', hs₃⟩ := exists_blanks s₃
  rw [strip?_eq_some_iff] at h₁ h₂ h₃ h₄
  have hword := List.takeWhile_append_dropWhile (p := isAsciiWord) (l := s₂)
  cases hrun : s₂.takeWhile isAsciiWord with
  | nil => simp [hrun] at hname
  | cons c more =>
    simp only [hrun] at hname
    split at hname
    · simp at hname
    · rename_i hdigit
      obtain ⟨rfl, rfl⟩ := Prod.mk.inj (Option.some.inj hname)
      have htext : referenceText blanks (c :: more) blanks' ++ s₄ = s := by
        rw [hrun, h₃, hs₃, h₄] at hword
        rw [h₁, hs₁, h₂, ← hword]
        simp [referenceText]
      refine ⟨blanks, blanks', ⟨⟨List.cons_ne_nil c more, ?_, ?_⟩, hblanks, hblanks', s₄, htext⟩,
        htext⟩
      · rw [← hrun]
        exact List.all_eq_true.1 List.all_takeWhile
      · simpa using hdigit

theorem ReferenceAt.read (h : ReferenceAt s [] blanks name blanks') :
    ∃ rest, readReference? s = some (name, rest) ∧
      referenceText blanks name blanks' ++ rest = s := by
  obtain ⟨hname, hbefore, hbehind, rest, htext⟩ := h
  obtain ⟨htake, hdrop⟩ := takeWhile_word (s := blanks' ++ [')'] ++ rest) hname.word
  have hsplit :
      opening ++ (blanks ++ '"' :: (name ++ '"' :: (blanks' ++ [')'] ++ rest))) = s := by
    simpa [referenceText] using htext
  have hopen := strip?_eq_some_iff.2 hsplit.symm
  have hquote := trimStart_blanks_cons (s := name ++ '"' :: (blanks' ++ [')'] ++ rest)) hbefore
    (show isBlank '"' = false by decide)
  have hclose : trimStart (blanks' ++ [')'] ++ rest) = ')' :: rest := by
    rw [List.append_assoc]
    exact trimStart_blanks_cons hbehind (by decide)
  have hstrip : ∀ c s, strip? [c] (c :: s) = some s := fun c s => strip?_eq_some_iff.2 rfl
  refine ⟨rest, ?_, htext⟩
  simp only [readReference?, hopen, Option.bind_eq_bind, Option.bind_some, hquote, hstrip, htake,
    hdrop, hclose]
  cases name with
  | nil => exact absurd rfl hname.ne_nil
  | cons c more => simp [hname.start c rfl]

theorem reference?_eq_some_iff :
    reference? s = some name ↔ ∃ blanks blanks', ReferenceAt s [] blanks name blanks' := by
  constructor
  · intro h
    obtain ⟨⟨_, rest⟩, hread, rfl⟩ := Option.map_eq_some_iff.1 h
    obtain ⟨blanks, blanks', href, -⟩ := exists_reference hread
    exact ⟨blanks, blanks', href⟩
  · rintro ⟨blanks, blanks', h⟩
    obtain ⟨rest, hread, -⟩ := h.read
    exact Option.map_eq_some_iff.2 ⟨(name, rest), hread, rfl⟩

theorem reference?_nil : reference? [] = none := by decide +kernel

theorem ReferenceAt.drop (h : ReferenceAt s front blanks name blanks') :
    reference? (s.drop front.length) = some name := by
  obtain ⟨rest, rfl⟩ := h.text
  rw [List.append_assoc, List.drop_left]
  exact reference?_eq_some_iff.2 ⟨blanks, blanks', h.identifier, h.before, h.behind, rest, rfl⟩

theorem exists_referenceAt_of_drop {column : Nat} (h : reference? (s.drop column) = some name) :
    ∃ front blanks blanks', ReferenceAt s front blanks name blanks' ∧ front.length = column := by
  obtain ⟨blanks, blanks', hname, hbefore, hbehind, htext⟩ := reference?_eq_some_iff.1 h
  refine ⟨s.take column, blanks, blanks', ⟨hname, hbefore, hbehind, ?_⟩, ?_⟩
  · calc
      s.take column ++ referenceText blanks name blanks' <+: s.take column ++ s.drop column :=
        (List.prefix_append_right_inj _).2 htext
      _ = s := List.take_append_drop column s
  · by_contra hshort
    rw [List.length_take] at hshort
    have hnil : s.drop column = [] := List.drop_eq_nil_of_le (by omega)
    rw [hnil, reference?_nil] at h
    simp at h

/-! References do not overlap -/

theorem mem_of_between {mid a : List Char} {c : Char} (hmid : front ++ mid <+: line)
    (ha : a ++ [c] <+: line) (hfrom : front <+: a) (hto : a.length < (front ++ mid).length) :
    c ∈ mid := by
  have hwithin : a ++ [c] <+: front ++ mid :=
    List.prefix_of_prefix_length_le ha hmid (by simpa [Nat.succ_le_iff] using hto)
  obtain ⟨inner, rfl⟩ := hfrom
  rw [List.append_assoc, List.prefix_append_right_inj] at hwithin
  exact hwithin.subset (by simp)

theorem opening_eq : opening = "function_calls".toList ++ ['('] := by decide +kernel

theorem ReferenceAt.opens (h : ReferenceAt s front blanks name blanks') :
    front ++ opening <+: s :=
  ((List.prefix_append_right_inj front).2 (List.prefix_append opening _)).trans h.text

theorem ReferenceAt.bracket_not_mem (h : ReferenceAt s front blanks name blanks') :
    '(' ∉ blanks ++ '"' :: (name ++ '"' :: (blanks' ++ [')'])) := by
  have hblank : ∀ {b}, Blanks b → '(' ∉ b := fun hb hmem => absurd (hb _ hmem) (by decide)
  have hname := h.identifier.not_mem (show isAsciiWord '(' = false by decide)
  simp [hblank h.before, hblank h.behind, hname]

section

variable {blanks₁ name₁ blanks₂ : List Char}

theorem ReferenceAt.length_le_bracket (h : ReferenceAt s [] blanks name blanks')
    (h' : ReferenceAt s front blanks₁ name₁ blanks₂) (hfront : front ≠ []) :
    (referenceText blanks name blanks').length ≤ (front ++ "function_calls".toList).length := by
  have hpos := List.length_pos_iff.2 hfront
  have hbracket : front ++ "function_calls".toList ++ ['('] <+: s := by
    rw [List.append_assoc, ← opening_eq]
    exact h'.opens
  have hbefore : opening <+: front ++ "function_calls".toList := by
    refine List.prefix_of_prefix_length_le h.opens ((List.prefix_append _ _).trans hbracket) ?_
    rw [opening_eq, List.length_append, List.length_append, List.length_singleton]
    omega
  by_contra hinside
  exact h.bracket_not_mem (mem_of_between h.text hbracket hbefore (Nat.lt_of_not_le hinside))

/-- A reference that began within another one would have its bracket in the blanks or the name of
the other, or the closing bracket of the other in its first word. -/
theorem ReferenceAt.apart (h : ReferenceAt s [] blanks name blanks')
    (h' : ReferenceAt s front blanks₁ name₁ blanks₂) (hfront : front ≠ []) :
    (referenceText blanks name blanks').length ≤ front.length := by
  have hend : opening ++ (blanks ++ '"' :: (name ++ '"' :: blanks')) ++ [')'] <+: s := by
    simpa [referenceText] using h.text
  have hlength : (referenceText blanks name blanks').length =
      (opening ++ (blanks ++ '"' :: (name ++ '"' :: blanks'))).length + 1 := by
    simp only [referenceText, List.length_append, List.length_cons, List.length_nil]
    omega
  have hbracket := h.length_le_bracket h' hfront
  by_contra hshort
  have hbefore : front <+: opening ++ (blanks ++ '"' :: (name ++ '"' :: blanks')) :=
    List.prefix_of_prefix_length_le ((List.prefix_append _ _).trans h'.opens)
      ((List.prefix_append _ _).trans hend) (by omega)
  have hclose : ')' ∈ opening := by
    have hlater : (front ++ opening).length = (front ++ "function_calls".toList).length + 1 := by
      rw [opening_eq, ← List.append_assoc, List.length_append, List.length_singleton]
    exact mem_of_between h'.opens hend hbefore (by omega)
  exact absurd hclose (by decide +kernel)

end

/-- The search misses nothing: it finds the references at all places of the text, although it does
not look into those that it has found. -/
theorem references_eq_filterMap {skip : Nat}
    (hskip : ∀ i < skip, reference? (s.drop i) = none) :
    references skip s = s.tails.filterMap reference? := by
  induction s generalizing skip with
  | nil => rw [references, List.tails, List.filterMap_cons_none reference?_nil, List.filterMap_nil]
  | cons c s ih =>
    rw [List.tails_cons]
    cases skip with
    | succ skip =>
      have hnone : reference? (c :: s) = none := hskip 0 (Nat.zero_lt_succ skip)
      rw [references, List.filterMap_cons_none hnone]
      exact ih fun i hi => hskip (i + 1) (Nat.succ_lt_succ hi)
    | zero =>
      rw [references]
      cases hread : readReference? (c :: s) with
      | none =>
        rw [List.filterMap_cons_none (by rw [reference?, hread]; rfl)]
        exact ih fun i hi => absurd hi (Nat.not_lt_zero i)
      | some found =>
        obtain ⟨name, rest⟩ := found
        obtain ⟨blanks, blanks', href, htext⟩ := exists_reference hread
        rw [List.filterMap_cons_some (by rw [reference?, hread]; rfl)]
        refine congrArg (name :: ·) (ih fun i hi => ?_)
        by_contra hfound
        obtain ⟨other, hother⟩ := Option.ne_none_iff_exists'.1 hfound
        have hlater : reference? ((c :: s).drop (i + 1)) = some other := hother
        obtain ⟨front, blanks₁, blanks₂, href', hfront⟩ := exists_referenceAt_of_drop hlater
        have hapart := href.apart href' (List.length_pos_iff.1 (by omega))
        have hlength := congrArg List.length htext
        rw [List.length_append, List.length_cons] at hlength
        omega

theorem references_zero (s : List Char) : references 0 s = s.tails.filterMap reference? :=
  references_eq_filterMap fun i hi => absurd hi (Nat.not_lt_zero i)

theorem mem_references_iff :
    name ∈ references 0 s ↔ ∃ front blanks blanks', ReferenceAt s front blanks name blanks' := by
  rw [references_zero, List.mem_filterMap]
  constructor
  · rintro ⟨rest, hrest, hname⟩
    obtain ⟨front, rfl⟩ := (List.mem_tails _ _).1 hrest
    have hdrop : reference? ((front ++ rest).drop front.length) = some name := by
      rwa [List.drop_left]
    obtain ⟨front', blanks, blanks', href, -⟩ := exists_referenceAt_of_drop hdrop
    exact ⟨front', blanks, blanks', href⟩
  · rintro ⟨front, blanks, blanks', href⟩
    exact ⟨_, (List.mem_tails _ _).2 (List.drop_suffix front.length s), href.drop⟩

/-! The code of a line and its comment -/

/-- What follows the code of a line. -/
def comment (line : List Char) : List Char := line.drop (code line).length

theorem before_starts (mark s : List Char) : before mark s <+: s := by
  induction s with
  | nil => exact List.prefix_refl []
  | cons c s ih =>
    unfold before
    split
    · exact List.nil_prefix
    · exact (List.prefix_cons_inj c).2 ih

theorem code_append_comment (line : List Char) : code line ++ comment line = line :=
  (List.prefix_iff_eq_append.1 (before_starts ['-', '-'] line))

theorem code_eq_or_hyphens (line : List Char) :
    code line = line ∨ code line ++ ['-', '-'] <+: line := by
  unfold code
  induction line with
  | nil => exact .inl rfl
  | cons c line ih =>
    unfold before
    split
    · rename_i hmark
      exact .inr (List.isPrefixOf_iff_prefix.1 hmark)
    · exact ih.imp (congrArg (c :: ·)) (List.prefix_cons_inj c).2

end

/-- A function is tracked just if some line has a reference to it in its code. -/
theorem mem_functions_iff {spec f : String} : f ∈ functions spec ↔ ∃ line ∈ lines spec.toList,
    ∃ front blanks blanks', ReferenceAt (code line) front blanks f.toList blanks' := by
  simp only [functions, List.mem_map, List.mem_eraseDups, List.mem_flatMap, mem_references_iff]
  constructor
  · rintro ⟨name, hname, rfl⟩
    rwa [String.toList_ofList]
  · intro h
    exact ⟨f.toList, h, String.ofList_toList⟩

theorem nameText_of_mem_functions {spec f : String} (hf : f ∈ functions spec) :
    NameText f.toList := by
  obtain ⟨line, -, front, blanks, blanks', href⟩ := mem_functions_iff.1 hf
  exact href.identifier

end TraceWorkbench.Tracked
