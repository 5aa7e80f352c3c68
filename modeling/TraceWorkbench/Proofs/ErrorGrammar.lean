import TraceWorkbench.Spec.LocatedError

set_option autoImplicit false

/-!
# The grammar of located errors

What counts as an error with a place is said here without a scanner. At an opening of a line stands
an error just if the text around it has the form

    kind "((" number "," number "-" number "," number "):" blank message ")"

with any blanks around each number. The leftmost such opening of the first line that has one is
what the library finds.
-/
namespace TraceWorkbench.SpecError

open Text

def Blanks (s : List Char) : Prop := ∀ c ∈ s, isBlank c = true

/-- A run of digits that stands for `n`. -/
structure Numeral (ds : List Char) (n : UInt32) : Prop where
  ne_nil : ds ≠ []
  digits : ∀ d ∈ ds, d.isDigit = true
  value : n.toNat = decimal ds

def NumberText (s : List Char) (n : UInt32) : Prop :=
  ∃ before ds after, s = before ++ (ds ++ after) ∧ Blanks before ∧ Numeral ds n ∧ Blanks after

def PointText (s : List Char) (line column : UInt32) : Prop :=
  ∃ a b, s = a ++ ',' :: b ∧ NumberText a line ∧ NumberText b column

/-- An identifier that cannot be made longer to the left. -/
structure KindText (before kind : List Char) : Prop where
  ne_nil : kind ≠ []
  word : ∀ c ∈ kind, isAsciiWord c = true
  start : ∀ c ∈ kind.head?, c.isDigit = false
  maximal : ∀ c ∈ before.getLast?, isAsciiWord c = false

/-- The error at an opening between `front` and `rest`. Its message runs to the last closing
parenthesis. -/
structure ErrorAt (front rest : List Char) (e : SpecError) : Prop where
  kind : ∃ before kind, front = before ++ kind ∧ KindText before kind ∧ e.kind = String.ofList kind
  place : ∃ start stop blank message tail line column line' column',
    rest = start ++ '-' :: (stop ++ ')' :: ':' :: blank :: (message ++ ')' :: tail)) ∧
      PointText start line column ∧ PointText stop line' column' ∧ isBlank blank = true ∧
      ')' ∉ tail ∧ e.message = String.ofList message ∧
      e.start.line.toNat = line.toNat - 1 ∧ e.start.column.toNat = column.toNat - 1 ∧
      e.stop.line.toNat = line'.toNat - 1 ∧ e.stop.column.toNat = column'.toNat - 1

/-! The parts of a place -/

section

variable {s rest : List Char}

theorem isDigit_bounds {c : Char} (hc : c.isDigit = true) : 48 ≤ c.toNat ∧ c.toNat ≤ 57 := by
  simpa [Char.isDigit, UInt32.le_iff_toNat_le] using hc

theorem isBlank_of_isDigit {c : Char} (hc : c.isDigit = true) : isBlank c = false := by
  have hbounds := isDigit_bounds hc
  have hall : ∀ n ≤ 57, 48 ≤ n → isBlank (Char.ofNat n) = false := by decide
  have hblank := hall c.toNat hbounds.2 hbounds.1
  rwa [Char.ofNat_toNat] at hblank

theorem isDigit_of_isBlank {c : Char} (hc : isBlank c = true) : c.isDigit = false := by
  cases hdigit : c.isDigit with
  | false => rfl
  | true =>
    rw [isBlank_of_isDigit hdigit] at hc
    simp at hc

theorem trimStart_append {blanks : List Char} (hb : Blanks blanks)
    (hs : ∀ c ∈ s.head?, isBlank c = false) : trimStart (blanks ++ s) = s := by
  unfold trimStart
  rw [List.dropWhile_append_of_pos hb]
  cases s with
  | nil => rfl
  | cons c s => rw [List.dropWhile_cons_of_neg (by simp [hs c rfl])]

theorem exists_blanks (s : List Char) : ∃ blanks, Blanks blanks ∧ s = blanks ++ trimStart s :=
  ⟨s.takeWhile isBlank, List.all_eq_true.1 List.all_takeWhile,
    List.takeWhile_append_dropWhile.symm⟩

theorem symbol?_eq_some_iff {x : Char} : symbol? x s = some rest ↔ s = x :: rest := by
  cases s with
  | nil => simp [symbol?]
  | cons d s => by_cases h : d = x <;> simp [symbol?, h]

theorem symbol?_self (x : Char) : symbol? x (x :: s) = some s :=
  symbol?_eq_some_iff.2 rfl

theorem number?_eq_some {n : UInt32} (h : number? s = some (n, rest)) :
    ∃ blanks ds, s = blanks ++ (ds ++ rest) ∧ Blanks blanks ∧ Numeral ds n := by
  obtain ⟨blanks, hblanks, hs⟩ := exists_blanks s
  simp only [number?] at h
  split at h
  · simp at h
  · rename_i hnum
    rw [not_or, Nat.not_le] at hnum
    obtain ⟨rfl, rfl⟩ := Prod.mk.inj (Option.some.inj h)
    refine ⟨blanks, (trimStart s).takeWhile Char.isDigit, ?_, hblanks, ?_, ?_, ?_⟩
    · rw [List.takeWhile_append_dropWhile]
      exact hs
    · simpa using hnum.1
    · exact List.all_eq_true.1 List.all_takeWhile
    · exact UInt32.toNat_ofNat_of_lt hnum.2

theorem number?_append {blanks ds : List Char} {n : UInt32} (hblanks : Blanks blanks)
    (hn : Numeral ds n) (hrest : ∀ c ∈ rest.head?, c.isDigit = false) :
    number? (blanks ++ (ds ++ rest)) = some (n, rest) := by
  have hdigits : ∀ c ∈ (ds ++ rest).head?, isBlank c = false := by
    cases ds with
    | nil => exact absurd rfl hn.ne_nil
    | cons d ds =>
      intro c hc
      rw [← Option.some.inj hc]
      exact isBlank_of_isDigit (hn.digits d List.mem_cons_self)
  have htake : rest.takeWhile Char.isDigit = [] ∧ rest.dropWhile Char.isDigit = rest := by
    cases rest with
    | nil => exact ⟨rfl, rfl⟩
    | cons c rest => simp [hrest c rfl]
  have hlt : decimal ds < UInt32.size := hn.value ▸ n.toNat_lt
  simp only [number?, trimStart_append hblanks hdigits, List.takeWhile_append_of_pos hn.digits,
    List.dropWhile_append_of_pos hn.digits, htake, List.append_nil]
  rw [if_neg (by simp [hn.ne_nil]; omega), ← hn.value, UInt32.ofNat_toNat]

/-- What follows a number or a place: no sign of the grammar is a digit or blank. -/
structure IsSign (x : Char) : Prop where
  not_digit : x.isDigit = false
  not_blank : isBlank x = false

theorem number_sign_iff {x : Char} (hx : IsSign x) {n : UInt32} :
    (∃ s', number? s = some (n, s') ∧ symbol? x (trimStart s') = some rest) ↔
      ∃ a, s = a ++ x :: rest ∧ NumberText a n := by
  constructor
  · rintro ⟨s', hnum, hsym⟩
    obtain ⟨blanks, ds, rfl, hblanks, hn⟩ := number?_eq_some hnum
    obtain ⟨after, hafter, hs'⟩ := exists_blanks s'
    rw [symbol?_eq_some_iff.1 hsym] at hs'
    exact ⟨blanks ++ (ds ++ after), by simp [hs'], blanks, ds, after, rfl, hblanks, hn, hafter⟩
  · rintro ⟨a, rfl, blanks, ds, after, rfl, hblanks, hn, hafter⟩
    have hend : ∀ c ∈ (after ++ x :: rest).head?, c.isDigit = false := by
      cases after with
      | nil =>
        intro c hc
        rw [← Option.some.inj hc]
        exact hx.not_digit
      | cons b after =>
        intro c hc
        rw [← Option.some.inj hc]
        exact isDigit_of_isBlank (hafter b List.mem_cons_self)
    have hsign : ∀ c ∈ (x :: rest).head?, isBlank c = false := by
      intro c hc
      rw [← Option.some.inj hc]
      exact hx.not_blank
    refine ⟨after ++ x :: rest, ?_, ?_⟩
    · rw [List.append_assoc, List.append_assoc]
      exact number?_append hblanks hn hend
    · rw [trimStart_append hafter hsign]
      exact symbol?_eq_some_iff.2 rfl

theorem isSign_comma : IsSign ',' := ⟨rfl, rfl⟩

theorem point_sign_iff {x : Char} (hx : IsSign x) {line column : UInt32} :
    (∃ s', point? s = some ((line, column), s') ∧ symbol? x (trimStart s') = some rest) ↔
      ∃ a, s = a ++ x :: rest ∧ PointText a line column := by
  have hpoint : ∀ s', point? s = some ((line, column), s') ↔ ∃ s₁ s₂, number? s = some (line, s₁) ∧
      symbol? ',' (trimStart s₁) = some s₂ ∧ number? s₂ = some (column, s') := by
    intro s'
    simp only [point?, Option.bind_eq_bind, Option.bind_eq_some_iff, Option.pure_def,
      Option.some.injEq, Prod.mk.injEq, Prod.exists]
    constructor
    · rintro ⟨l, s₁, h₁, s₂, h₂, c, s₃, h₃, ⟨rfl, rfl⟩, rfl⟩
      exact ⟨s₁, s₂, h₁, h₂, h₃⟩
    · rintro ⟨s₁, s₂, h₁, h₂, h₃⟩
      exact ⟨line, s₁, h₁, s₂, h₂, column, s', h₃, ⟨rfl, rfl⟩, rfl⟩
  constructor
  · rintro ⟨s', hp, hsym⟩
    obtain ⟨s₁, s₂, h₁, h₂, h₃⟩ := (hpoint s').1 hp
    obtain ⟨a, rfl, ha⟩ := (number_sign_iff isSign_comma).1 ⟨s₁, h₁, h₂⟩
    obtain ⟨b, rfl, hb⟩ := (number_sign_iff hx).1 ⟨s', h₃, hsym⟩
    exact ⟨a ++ ',' :: b, by simp, a, b, rfl, ha, hb⟩
  · rintro ⟨-, rfl, a, b, rfl, ha, hb⟩
    rw [List.append_assoc, List.cons_append] at hpoint ⊢
    obtain ⟨s₁, h₁, h₂⟩ := (number_sign_iff isSign_comma).2 ⟨a, rfl, ha⟩
    obtain ⟨s', h₃, hsym⟩ := (number_sign_iff hx).2 ⟨b, rfl, hb⟩
    exact ⟨s', (hpoint s').2 ⟨s₁, _, h₁, h₂, h₃⟩, hsym⟩

/-- Read from the end, a list is split where its longest last run of `p` begins. -/
theorem takeWhile_reverse {α : Type} {p : α → Bool} {before run : List α}
    (hrun : ∀ c ∈ run, p c = true) (hbefore : ∀ c ∈ before.getLast?, p c = false) :
    (before ++ run).reverse.takeWhile p = run.reverse ∧
      (before ++ run).reverse.dropWhile p = before.reverse := by
  have hrun' : ∀ c ∈ run.reverse, p c = true := fun c hc => hrun c (List.mem_reverse.1 hc)
  rw [List.reverse_append, List.takeWhile_append_of_pos hrun', List.dropWhile_append_of_pos hrun']
  cases h : before.reverse with
  | nil => simp
  | cons c more =>
    have hc : p c = false := by
      apply hbefore
      rw [← List.head?_reverse, h]
      rfl
    simp [hc]

theorem exists_last_run {α : Type} (p : α → Bool) (s : List α) : ∃ before run, s = before ++ run ∧
    (∀ c ∈ run, p c = true) ∧ (∀ c ∈ before.getLast?, p c = false) ∧
    (s.reverse.takeWhile p).reverse = run := by
  refine ⟨(s.reverse.dropWhile p).reverse, (s.reverse.takeWhile p).reverse, ?_, ?_, ?_, rfl⟩
  · rw [← List.reverse_append, List.takeWhile_append_dropWhile, List.reverse_reverse]
  · intro c hc
    exact List.all_eq_true.1 List.all_takeWhile c (List.mem_reverse.1 hc)
  · intro c hc
    rw [List.getLast?_reverse] at hc
    have hhead := List.head?_dropWhile_not p s.reverse
    rw [Option.mem_def.1 hc] at hhead
    simpa using hhead

theorem beforeLast?_eq_some_iff {x : Char} {m : List Char} :
    beforeLast? x s = some m ↔ ∃ tail, s = m ++ x :: tail ∧ x ∉ tail := by
  constructor
  · intro h
    unfold beforeLast? at h
    split at h
    · rename_i y before hdrop
      have hy : y = x := by
        have hhead := List.head?_dropWhile_not (· != x) s.reverse
        rw [hdrop] at hhead
        simpa using hhead
      have hs := List.takeWhile_append_dropWhile (p := (· != x)) (l := s.reverse)
      rw [hdrop, hy] at hs
      refine ⟨(s.reverse.takeWhile (· != x)).reverse, ?_, ?_⟩
      · rw [← Option.some.inj h]
        have hs' := congrArg List.reverse hs
        simpa using hs'.symm
      · intro hmem
        have hne := List.all_eq_true.1 List.all_takeWhile x (List.mem_reverse.1 hmem)
        simp at hne
    · simp at h
  · rintro ⟨tail, rfl, htail⟩
    have hrun : ∀ c ∈ tail, (c != x) = true := by
      intro c hc
      have hne : c ≠ x := fun h => htail (h ▸ hc)
      simpa using hne
    have hlast : ∀ c ∈ (m ++ [x]).getLast?, (c != x) = false := by simp
    have hdrop := (takeWhile_reverse hrun hlast).2
    rw [← List.append_cons] at hdrop
    rw [beforeLast?, hdrop]
    simp

theorem kindBefore?_eq_some_iff {reversed kind : List Char} : kindBefore? reversed = some kind ↔
    ∃ before, reversed.reverse = before ++ kind ∧ KindText before kind := by
  constructor
  · intro h
    obtain ⟨before, word, hsplit, hword, hbefore, hrun⟩ :=
      exists_last_run isAsciiWord reversed.reverse
    rw [List.reverse_reverse] at hrun
    rw [kindBefore?, hrun] at h
    split at h
    · rename_i c more
      split at h
      · simp at h
      · rename_i hdigit
        obtain rfl := Option.some.inj h
        exact ⟨before, hsplit, by simp, hword, by simpa using hdigit, hbefore⟩
    · simp at h
  · rintro ⟨before, hsplit, hkind⟩
    have hrun := (takeWhile_reverse hkind.word hkind.maximal).1
    rw [← hsplit, List.reverse_reverse] at hrun
    unfold kindBefore?
    rw [hrun, List.reverse_reverse]
    cases kind with
    | nil => exact absurd rfl hkind.ne_nil
    | cons c more => simp [hkind.start c rfl]

end

theorem ofOneBased_eq_iff {line column : UInt32} {p : Position} :
    Position.ofOneBased line column = p ↔
      p.line.toNat = line.toNat - 1 ∧ p.column.toNat = column.toNat - 1 := by
  have hdown : ∀ n m : UInt32, (if n = 0 then 0 else n - 1) = m ↔ m.toNat = n.toNat - 1 := by
    intro n m
    rw [← UInt32.toNat_inj]
    split
    · rename_i h
      rw [h]
      exact eq_comm
    · rename_i h
      have hpos : (1 : UInt32) ≤ n := by
        have hne : n.toNat ≠ 0 := fun h0 => h (UInt32.toNat_inj.1 h0)
        rw [UInt32.le_iff_toNat_le]
        exact Nat.one_le_iff_ne_zero.2 hne
      rw [UInt32.toNat_sub_of_le _ _ hpos]
      exact eq_comm
  rw [← hdown, ← hdown]
  cases p
  simp [Position.ofOneBased]

theorem isSign_dash : IsSign '-' := ⟨rfl, rfl⟩

theorem isSign_close : IsSign ')' := ⟨rfl, rfl⟩

theorem atOpening?_eq_some_iff {reversed rest : List Char} {e : SpecError} :
    atOpening? reversed rest = some e ↔ ErrorAt reversed.reverse rest e := by
  constructor
  · intro h
    simp only [atOpening?, Option.bind_eq_bind, Option.bind_eq_some_iff, Option.pure_def,
      Prod.exists] at h
    obtain ⟨kind, hkind, line, column, s₁, h₁, s₂, h₂, line', column', s₃, h₃, s₄, h₄, s₅, h₅,
      h⟩ := h
    obtain ⟨start, rfl, hstart⟩ := (point_sign_iff isSign_dash).1 ⟨s₁, h₁, h₂⟩
    obtain ⟨stop, rfl, hstop⟩ := (point_sign_iff isSign_close).1 ⟨s₃, h₃, h₄⟩
    obtain rfl := symbol?_eq_some_iff.1 h₅
    have hmessage : ∃ blank message tail, s₅ = blank :: (message ++ ')' :: tail) ∧
        isBlank blank = true ∧ ')' ∉ tail ∧ e = ⟨String.ofList kind, .ofOneBased line column,
          .ofOneBased line' column', String.ofList message⟩ := by
      cases s₅ with
      | nil => simp at h
      | cons c s =>
        by_cases hc : isBlank c = true
        · simp only [hc, if_true, Option.bind_eq_some_iff, Option.some.injEq] at h
          obtain ⟨message, hm, he⟩ := h
          obtain ⟨tail, rfl, htail⟩ := beforeLast?_eq_some_iff.1 hm
          exact ⟨c, message, tail, rfl, hc, htail, he.symm⟩
        · simp [hc] at h
    obtain ⟨blank, message, tail, rfl, hblank, htail, rfl⟩ := hmessage
    obtain ⟨before, hfront, hkind⟩ := kindBefore?_eq_some_iff.1 hkind
    have hplace := ofOneBased_eq_iff.1 (rfl : Position.ofOneBased line column = _)
    have hplace' := ofOneBased_eq_iff.1 (rfl : Position.ofOneBased line' column' = _)
    exact ⟨⟨before, kind, hfront, hkind, rfl⟩, start, stop, blank, message, tail, line, column,
      line', column', rfl, hstart, hstop, hblank, htail, rfl, hplace.1, hplace.2, hplace'.1,
      hplace'.2⟩
  · rintro ⟨⟨before, kind, hfront, hkind, hk⟩, start, stop, blank, message, tail, line, column,
      line', column', hrest, hstart, hstop, hblank, htail, hm, hl, hc, hl', hc'⟩
    have hkind := kindBefore?_eq_some_iff.2 ⟨before, hfront, hkind⟩
    have hmessage : beforeLast? ')' (message ++ ')' :: tail) = some message :=
      beforeLast?_eq_some_iff.2 ⟨tail, rfl, htail⟩
    obtain ⟨s₁, h₁, h₂⟩ := (point_sign_iff isSign_dash).2 ⟨start, hrest, hstart⟩
    generalize hs : stop ++ ')' :: _ = s₂ at h₂
    obtain ⟨s₃, h₃, h₄⟩ := (point_sign_iff isSign_close).2 ⟨stop, hs.symm, hstop⟩
    have hbegin := ofOneBased_eq_iff.2 ⟨hl, hc⟩
    have hend := ofOneBased_eq_iff.2 ⟨hl', hc'⟩
    simp only [atOpening?, hkind, h₁, h₂, h₃, h₄, symbol?_self, hblank, hmessage, hbegin, hend,
      ← hk, ← hm, Option.bind_eq_bind, Option.bind_some, Option.pure_def, if_true]

/-! The leftmost error of a line -/

def OpensAt (line front rest : List Char) : Prop := line = front ++ '(' :: '(' :: rest

def HasError (line : List Char) : Prop :=
  ∃ front rest e, OpensAt line front rest ∧ ErrorAt front rest e

/-- `e` is the error at the leftmost opening of the line that has one. -/
def FirstError (line : List Char) (e : SpecError) : Prop :=
  ∃ front rest, OpensAt line front rest ∧ ErrorAt front rest e ∧
    ∀ front' rest' e', OpensAt line front' rest' → front'.length < front.length →
      ¬ ErrorAt front' rest' e'

section

variable {reversed rest : List Char} {c : Char} {e : SpecError}

def atCons? (reversed : List Char) (c : Char) (rest : List Char) : Option SpecError :=
  match c, rest with
  | '(', '(' :: after => atOpening? reversed after
  | _, _ => none

theorem atCons?_eq_some_iff : atCons? reversed c rest = some e ↔
    ∃ after, OpensAt (c :: rest) [] after ∧ ErrorAt reversed.reverse after e := by
  unfold atCons? OpensAt
  split
  · rename_i after
    constructor
    · intro h
      exact ⟨after, rfl, atOpening?_eq_some_iff.1 h⟩
    · rintro ⟨after', h, herr⟩
      obtain rfl : after = after' := by simpa using h
      exact atOpening?_eq_some_iff.2 herr
  · rename_i hno
    constructor
    · simp
    · rintro ⟨after, h, -⟩
      obtain ⟨rfl, rfl⟩ : c = '(' ∧ rest = '(' :: after := by simpa using h
      exact absurd rfl (hno after rfl)

theorem no_error_of_atCons?_eq_none {after : List Char} (h : atCons? reversed c rest = none)
    (hopen : OpensAt (c :: rest) [] after) : ¬ ErrorAt (reversed.reverse ++ []) after e := by
  intro herr
  rw [List.append_nil] at herr
  have hsome := atCons?_eq_some_iff.2 ⟨after, hopen, herr⟩
  rw [h] at hsome
  simp at hsome

theorem inLine?_cons : inLine? reversed (c :: rest) =
    match atCons? reversed c rest with
    | some e => some e
    | none => inLine? (c :: reversed) rest := rfl

theorem opensAt_cons_iff {front after : List Char} : OpensAt (c :: rest) front after ↔
    front = [] ∧ OpensAt (c :: rest) [] after ∨
      ∃ front', front = c :: front' ∧ OpensAt rest front' after := by
  cases front with
  | nil => simp
  | cons d front =>
    simp only [OpensAt, List.cons_append, List.cons.injEq, reduceCtorEq, false_and, false_or]
    constructor
    · rintro ⟨rfl, h⟩
      exact ⟨front, ⟨rfl, rfl⟩, h⟩
    · rintro ⟨front', ⟨rfl, rfl⟩, h⟩
      exact ⟨rfl, h⟩

/-- The search from a place in the line on finds the leftmost error right of it. -/
theorem inLine?_eq_some_iff {s : List Char} : inLine? reversed s = some e ↔
    ∃ front rest, OpensAt s front rest ∧ ErrorAt (reversed.reverse ++ front) rest e ∧
      ∀ front' rest' e', OpensAt s front' rest' → front'.length < front.length →
        ¬ ErrorAt (reversed.reverse ++ front') rest' e' := by
  induction s generalizing reversed with
  | nil => simp [inLine?, OpensAt]
  | cons c s ih =>
    have hstep : ∀ t, reversed.reverse ++ c :: t = (c :: reversed).reverse ++ t := by simp
    rw [inLine?_cons]
    -- An error here is the leftmost one; else that of the rest is, one character further on.
    cases hhere : atCons? reversed c s with
    | some e₀ =>
      obtain ⟨after, hopen, herr⟩ := atCons?_eq_some_iff.1 hhere
      constructor
      · intro h
        obtain rfl := Option.some.inj h
        exact ⟨[], after, hopen, by simpa using herr, by simp⟩
      · rintro ⟨front, rest, hopen', herr', hleft⟩
        cases front with
        | nil =>
          obtain rfl : after = rest := by simpa [OpensAt] using hopen.symm.trans hopen'
          rw [List.append_nil, ← atOpening?_eq_some_iff] at herr'
          rw [← atOpening?_eq_some_iff, herr'] at herr
          exact herr.symm
        | cons d front =>
          exact absurd (by simpa using herr) (hleft [] after e₀ hopen (by simp))
    | none =>
      simp only [ih]
      constructor
      · rintro ⟨front, rest, hopen, herr, hleft⟩
        refine ⟨c :: front, rest, opensAt_cons_iff.2 (.inr ⟨front, rfl, hopen⟩), ?_, ?_⟩
        · rwa [hstep]
        · intro front' rest' e' hopen' hlt
          rcases opensAt_cons_iff.1 hopen' with ⟨rfl, hnow⟩ | ⟨front₁, rfl, hlater⟩
          · exact no_error_of_atCons?_eq_none hhere hnow
          · rw [hstep]
            exact hleft front₁ rest' e' hlater (by simpa using hlt)
      · rintro ⟨front, rest, hopen, herr, hleft⟩
        rcases opensAt_cons_iff.1 hopen with ⟨rfl, hnow⟩ | ⟨front₁, rfl, hlater⟩
        · exact absurd herr (no_error_of_atCons?_eq_none hhere hnow)
        · refine ⟨front₁, rest, hlater, by rwa [← hstep], ?_⟩
          intro front' rest' e' hopen' hlt
          rw [← hstep]
          exact hleft (c :: front') rest' e' (opensAt_cons_iff.2 (.inr ⟨front', rfl, hopen'⟩))
            (by simpa using hlt)

theorem no_error_of_inLine?_eq_none {s front : List Char} (h : inLine? reversed s = none)
    (hopen : OpensAt s front rest) : ¬ ErrorAt (reversed.reverse ++ front) rest e := by
  induction s generalizing reversed front with
  | nil => simp [OpensAt] at hopen
  | cons c s ih =>
    rw [inLine?_cons] at h
    cases hhere : atCons? reversed c s with
    | some e₀ => simp [hhere] at h
    | none =>
      rw [hhere] at h
      rcases opensAt_cons_iff.1 hopen with ⟨rfl, hnow⟩ | ⟨front₁, rfl, hlater⟩
      · exact no_error_of_atCons?_eq_none hhere hnow
      · simpa using ih h hlater

end

theorem inLine?_nil_eq_some_iff {line : List Char} {e : SpecError} :
    inLine? [] line = some e ↔ FirstError line e :=
  inLine?_eq_some_iff

theorem inLine?_nil_eq_none_iff {line : List Char} : inLine? [] line = none ↔ ¬ HasError line := by
  constructor
  · rintro h ⟨front, rest, e, hopen, herr⟩
    exact no_error_of_inLine?_eq_none h hopen herr
  · intro h
    cases hfound : inLine? [] line with
    | none => rfl
    | some e =>
      obtain ⟨front, rest, hopen, herr, -⟩ := inLine?_nil_eq_some_iff.1 hfound
      exact absurd ⟨front, rest, e, hopen, herr⟩ h

/-! The first line with an error -/

theorem locate_eq_some_iff {text : String} {e : SpecError} : locate text = some e ↔
    ∃ before line after, lines text.toList = before ++ line :: after ∧ FirstError line e ∧
      ∀ other ∈ before, ¬ HasError other := by
  simp only [locate, List.findSome?_eq_some_iff, inLine?_nil_eq_some_iff, inLine?_nil_eq_none_iff]

theorem locate_isSome_iff {text : String} :
    (locate text).isSome ↔ ∃ line ∈ lines text.toList, HasError line := by
  rw [locate, List.findSome?_isSome_iff]
  simp only [Option.isSome_iff_ne_none, ne_eq, inLine?_nil_eq_none_iff, Classical.not_not]

end TraceWorkbench.SpecError
