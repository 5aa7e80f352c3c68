import Mathlib.Tactic.ByContra
import TraceWorkbench.Text.Blank
import TraceWorkbench.Text.Lines

set_option autoImplicit false

/-!
# Lines of a text put together

A text that begins with a line and its end has this line first, and where a text ends with a line,
the lines of what follows come behind its own.
-/
namespace TraceWorkbench.Text

/-- Blanks that end no line. -/
def Gap (s : List Char) : Prop := ∀ c ∈ s, isBlank c = true ∧ c ≠ '\n'

instance (s : List Char) : Decidable (Gap s) :=
  List.decidableBAll (fun c => isBlank c = true ∧ c ≠ '\n') s

def withoutReturn : List Char → List Char
  | [] => []
  | ['\r'] => []
  | c :: s => c :: withoutReturn s

theorem eq_withoutReturn (s : List Char) : s = withoutReturn s ∨ s = withoutReturn s ++ ['\r'] := by
  fun_induction withoutReturn s with
  | case1 => exact .inl rfl
  | case2 => exact .inr rfl
  | case3 c s _ ih => exact ih.imp (congrArg (c :: ·)) (congrArg (c :: ·))

theorem lines_cons {c : Char} {s : List Char} (hc : c ≠ '\n')
    (hs : c = '\r' → s.head? ≠ some '\n') :
    lines (c :: s) = match lines s with
      | [] => [[c]]
      | line :: more => (c :: line) :: more := by
  rw [lines.eq_def]
  split
  · contradiction
  · obtain ⟨rfl, rfl⟩ := List.cons.inj ‹c :: s = _›
    exact absurd rfl (hs rfl)
  · obtain ⟨rfl, rfl⟩ := List.cons.inj ‹c :: s = _›
    exact absurd rfl hc
  · obtain ⟨rfl, rfl⟩ := List.cons.inj ‹c :: s = _›
    rfl

theorem lines_line {line : List Char} (hline : '\n' ∉ line) (rest : List Char) :
    lines (line ++ '\n' :: rest) = withoutReturn line :: lines rest := by
  fun_induction withoutReturn line with
  | case1 => rfl
  | case2 => rfl
  | case3 c s hreturn ih =>
    rw [List.mem_cons, not_or] at hline
    rw [List.cons_append, lines_cons (Ne.symm hline.1) ?_, ih hline.2]
    rintro rfl
    cases s with
    | nil => exact absurd rfl (hreturn rfl)
    | cons d s =>
      have hd : d ≠ '\n' := fun h => hline.2 (by simp [h])
      simpa using hd

theorem lines_last {line : List Char} (hline : '\n' ∉ line) (hne : line ≠ []) :
    lines line = [line] := by
  induction line with
  | nil => exact absurd rfl hne
  | cons c s ih =>
    rw [List.mem_cons, not_or] at hline
    have hhead : s.head? ≠ some '\n' := fun h => hline.2 (List.mem_of_head? h)
    rw [lines_cons (Ne.symm hline.1) fun _ => hhead]
    by_cases hs : s = []
    · rw [hs]
      rfl
    · rw [ih hline.2 hs]

theorem mem_getLast?_cons {α : Type} {a b : α} {s : List α} (h : b ∈ s.getLast?) :
    b ∈ (a :: s).getLast? := by
  rw [List.getLast?_cons, Option.mem_def.1 h]
  rfl

theorem lines_append {s : List Char} (hs : ∀ c ∈ s.getLast?, c = '\n') (rest : List Char) :
    lines (s ++ rest) = lines s ++ lines rest := by
  fun_induction lines s with
  | case1 => rfl
  | case2 s ih =>
    rw [List.cons_append, List.cons_append, lines, ih, List.cons_append]
    exact fun c hc => hs c (mem_getLast?_cons (mem_getLast?_cons hc))
  | case3 s ih =>
    rw [List.cons_append, lines, ih, List.cons_append]
    exact fun c hc => hs c (mem_getLast?_cons hc)
  | case4 c s hreturn hc hnone ih =>
    have hempty : s = [] := by
      by_contra hne
      exact lines_ne_nil hne hnone
    subst hempty
    exact absurd (hs c rfl) hc
  | case5 c s hreturn hc line more hsome ih =>
    have hs' : ∀ c ∈ s.getLast?, c = '\n' := fun d hd => hs d (mem_getLast?_cons hd)
    have hhead : c = '\r' → (s ++ rest).head? ≠ some '\n' := by
      intro hr hhead
      cases s with
      | nil => simp [lines] at hsome
      | cons d s => exact hreturn s hr (by simpa using hhead)
    rw [List.cons_append, lines_cons hc hhead, ih hs', hsome]
    rfl

end TraceWorkbench.Text
