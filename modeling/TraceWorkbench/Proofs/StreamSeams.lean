import TraceWorkbench.Proofs.CompiledOutput
import TraceWorkbench.Proofs.ErrorGrammar
import TraceWorkbench.Proofs.LineEnds

set_option autoImplicit false

/-!
# Errors behind other text

What the specification compiler complains of is searched for an error in one text: the error stream
and then the output. Between the two stands no line end, so a last line without one is joined with
the first line of the output. Only on this joined line can the search find something else than in
the output alone.
-/
namespace TraceWorkbench

namespace Text

/-- What stands behind the last line feed. -/
def unfinished (s : List Char) : List Char := (s.reverse.takeWhile (· != '\n')).reverse

/-- What stands before the first line feed. -/
def firstLine (s : List Char) : List Char := s.takeWhile (· != '\n')

end Text

namespace SpecError

open Text

/-! The place of an error in its line -/

def OpensError (line front : List Char) (e : SpecError) : Prop :=
  ∃ rest, OpensAt line front rest ∧ ErrorAt front rest e

/-- The line has an error whose kind begins behind `before`. -/
def BeginsError (line before : List Char) : Prop :=
  ∃ kind e, KindText before kind ∧ OpensError line (before ++ kind) e

section

variable {line front left right : List Char} {e : SpecError}

theorem BeginsError.hasError {before : List Char} (h : BeginsError line before) :
    HasError line := by
  obtain ⟨kind, e, -, rest, hopen, herr⟩ := h
  exact ⟨before ++ kind, rest, e, hopen, herr⟩

theorem OpensError.starts_line (h : OpensError line front e) : front <+: line := by
  obtain ⟨rest, hopen, -⟩ := h
  exact ⟨'(' :: '(' :: rest, hopen.symm⟩

theorem firstError_iff : FirstError line e ↔ ∃ front, OpensError line front e ∧
    ∀ front' e', OpensError line front' e' → front.length ≤ front'.length := by
  constructor
  · rintro ⟨front, rest, hopen, herr, hleft⟩
    refine ⟨front, ⟨rest, hopen, herr⟩, ?_⟩
    rintro front' e' ⟨rest', hopen', herr'⟩
    by_contra hlt
    exact hleft front' rest' e' hopen' (Nat.lt_of_not_le hlt) herr'
  · rintro ⟨front, ⟨rest, hopen, herr⟩, hleft⟩
    refine ⟨front, rest, hopen, herr, ?_⟩
    intro front' rest' e' hopen' hlt herr'
    exact absurd (hleft front' e' ⟨rest', hopen', herr'⟩) (Nat.not_le_of_lt hlt)

theorem inLine?_eq_of_shift {p a b : List Char} (h : ∀ front e, OpensError a front e ↔
    ∃ front₀, front = p ++ front₀ ∧ OpensError b front₀ e) : inLine? [] a = inLine? [] b := by
  refine Option.ext fun e => ?_
  rw [inLine?_nil_eq_some_iff, inLine?_nil_eq_some_iff, firstError_iff, firstError_iff]
  constructor
  · rintro ⟨front, hfront, hleft⟩
    obtain ⟨front₀, rfl, hfront₀⟩ := (h front e).1 hfront
    refine ⟨front₀, hfront₀, fun front' e' hfront' => ?_⟩
    have hle := hleft _ e' ((h _ e').2 ⟨front', rfl, hfront'⟩)
    rw [List.length_append, List.length_append] at hle
    omega
  · rintro ⟨front₀, hfront₀, hleft⟩
    refine ⟨p ++ front₀, (h _ e).2 ⟨front₀, rfl, hfront₀⟩, fun front e' hfront => ?_⟩
    obtain ⟨front', rfl, hfront'⟩ := (h front e').1 hfront
    have hle := hleft front' e' hfront'
    rw [List.length_append, List.length_append]
    omega

/-! A carriage return at the end of a line -/

theorem opensAt_concat_iff {c : Char} (hc : c ≠ '(') {rest : List Char} :
    OpensAt (line ++ [c]) front rest ↔ ∃ rest', rest = rest' ++ [c] ∧ OpensAt line front rest' := by
  unfold OpensAt
  constructor
  · intro h
    rcases List.eq_nil_or_concat rest with rfl | ⟨rest, d, rfl⟩
    · have hsplit : line ++ [c] = front ++ ['('] ++ ['('] := by simpa using h
      obtain ⟨-, hlast⟩ := List.append_inj' hsplit rfl
      exact absurd (List.singleton_inj.1 hlast) hc
    · have hsplit : line ++ [c] = front ++ '(' :: '(' :: rest ++ [d] := by simpa using h
      obtain ⟨rfl, hlast⟩ := List.append_inj' hsplit rfl
      rw [← List.singleton_inj.1 hlast]
      exact ⟨rest, by simp, rfl⟩
  · rintro ⟨rest', rfl, rfl⟩
    simp

theorem errorAt_concat_iff {c : Char} (hc : c ≠ ')') {rest : List Char} :
    ErrorAt front (rest ++ [c]) e ↔ ErrorAt front rest e := by
  constructor
  · rintro ⟨hkind, start, stop, blank, message, tail, line, column, line', column', hrest, hplace⟩
    rcases List.eq_nil_or_concat tail with rfl | ⟨tail, d, rfl⟩
    · have hsplit : rest ++ [c] =
          start ++ '-' :: (stop ++ ')' :: ':' :: blank :: message) ++ [')'] := by simpa using hrest
      obtain ⟨-, hlast⟩ := List.append_inj' hsplit rfl
      exact absurd (List.singleton_inj.1 hlast) hc
    · have hsplit : rest ++ [c] = start ++ '-' ::
          (stop ++ ')' :: ':' :: blank :: (message ++ ')' :: tail)) ++ [d] := by simpa using hrest
      obtain ⟨rfl, -⟩ := List.append_inj' hsplit rfl
      obtain ⟨hstart, hstop, hblank, htail, hvalues⟩ := hplace
      exact ⟨hkind, start, stop, blank, message, tail, line, column, line', column', rfl, hstart,
        hstop, hblank, fun h => htail (by simp [h]), hvalues⟩
  · rintro ⟨hkind, start, stop, blank, message, tail, line, column, line', column', rfl, hstart,
      hstop, hblank, htail, hvalues⟩
    refine ⟨hkind, start, stop, blank, message, tail ++ [c], line, column, line', column', by simp,
      hstart, hstop, hblank, ?_, hvalues⟩
    simp [htail, Ne.symm hc]

theorem inLine?_withoutReturn (line : List Char) :
    inLine? [] (withoutReturn line) = inLine? [] line := by
  rcases eq_withoutReturn line with h | h
  · rw [← h]
  · generalize withoutReturn line = s at h
    subst h
    refine (inLine?_eq_of_shift (p := []) fun front e => ?_).symm
    simp only [List.nil_append, exists_eq_left']
    constructor
    · rintro ⟨rest, hopen, herr⟩
      obtain ⟨rest', rfl, hopen'⟩ := (opensAt_concat_iff (by decide)).1 hopen
      exact ⟨rest', hopen', (errorAt_concat_iff (by decide)).1 herr⟩
    · rintro ⟨rest, hopen, herr⟩
      exact ⟨rest ++ ['\r'], (opensAt_concat_iff (by decide)).2 ⟨rest, rfl, hopen⟩,
        (errorAt_concat_iff (by decide)).2 herr⟩

/-! Two parts of a line -/

/-- What stands on the left does not get mixed up with the errors on the right. -/
structure Clear (left right : List Char) : Prop where
  /-- No error of the joined line begins in its left part. -/
  begun : ∀ before, BeginsError (left ++ right) before → left.length ≤ before.length
  /-- The left part does not go on into the kind of an error. -/
  apart : BeginsError right [] → ∀ c ∈ left.getLast?, isAsciiWord c = false

theorem KindText.behind {before kind : List Char} (h : KindText before kind)
    (hleft : before = [] → ∀ c ∈ left.getLast?, isAsciiWord c = false) :
    KindText (left ++ before) kind := by
  refine { h with maximal := fun c hc => ?_ }
  cases before with
  | nil => exact hleft rfl c (by simpa using hc)
  | cons d before =>
    rw [List.getLast?_append_of_ne_nil _ (List.cons_ne_nil d before)] at hc
    exact h.maximal c hc

theorem KindText.of_behind {before kind : List Char} (h : KindText (left ++ before) kind) :
    KindText before kind := by
  refine { h with maximal := fun c hc => h.maximal c ?_ }
  rw [List.getLast?_append, Option.mem_def.1 hc]
  rfl

theorem Clear.opensError_iff (h : Clear left right) : OpensError (left ++ right) front e ↔
    ∃ front₀, front = left ++ front₀ ∧ OpensError right front₀ e := by
  constructor
  · rintro ⟨rest, hopen, herr⟩
    obtain ⟨before, kind, rfl, hkind, hname⟩ := herr.kind
    have hlength := h.begun before ⟨kind, e, hkind, rest, hopen, herr⟩
    have hprefix : before <+: left ++ right := ⟨kind ++ '(' :: '(' :: rest, by
      rw [hopen, List.append_assoc]⟩
    obtain ⟨before₀, rfl⟩ :=
      List.prefix_of_prefix_length_le (List.prefix_append left right) hprefix hlength
    refine ⟨before₀ ++ kind, List.append_assoc .., rest, ?_, ?_⟩
    · exact List.append_cancel_left (hopen.trans (by simp))
    · exact { herr with kind := ⟨before₀, kind, rfl, hkind.of_behind, hname⟩ }
  · rintro ⟨front₀, rfl, rest, hopen, herr⟩
    obtain ⟨before, kind, rfl, hkind, hname⟩ := herr.kind
    have hbehind : KindText (left ++ before) kind := by
      refine hkind.behind fun hnil => h.apart ?_
      subst hnil
      exact ⟨kind, e, hkind, rest, hopen, herr⟩
    refine ⟨rest, ?_, ?_⟩
    · rw [OpensAt, List.append_assoc, ← hopen]
    · have hsplit := (List.append_assoc left before kind).symm
      exact { herr with kind := ⟨left ++ before, kind, hsplit, hbehind, hname⟩ }

theorem Clear.inLine?_eq (h : Clear left right) : inLine? [] (left ++ right) = inLine? [] right :=
  inLine?_eq_of_shift fun _ _ => h.opensError_iff

theorem KindText.unique {before kind before' kind' : List Char} (h : KindText before kind)
    (h' : KindText before' kind') (hsame : before ++ kind = before' ++ kind') :
    before = before' ∧ kind = kind' := by
  have hrun := (takeWhile_reverse h.word h.maximal).1
  rw [hsame, (takeWhile_reverse h'.word h'.maximal).1] at hrun
  obtain rfl := List.reverse_inj.1 hrun
  exact ⟨List.append_cancel_right hsame, rfl⟩

theorem OpensAt.not_in_kind {before kind rest : List Char} (hopen : OpensAt line front rest)
    (hkind : KindText before kind) (hline : before ++ kind <+: line)
    (hbefore : before.length ≤ front.length) : (before ++ kind).length ≤ front.length := by
  by_contra hlt
  have hopening : front ++ ['('] <+: line := ⟨'(' :: rest, by rw [hopen]; simp⟩
  have hwithin : front ++ ['('] <+: before ++ kind :=
    List.prefix_of_prefix_length_le hopening hline (by simpa [Nat.succ_le_iff] using hlt)
  obtain ⟨inner, hfront⟩ := List.prefix_of_prefix_length_le (List.prefix_append before kind)
    ((List.prefix_append front ['(']).trans hwithin) hbefore
  subst hfront
  rw [List.append_assoc, List.prefix_append_right_inj] at hwithin
  have hword := hkind.word '(' (hwithin.subset (by simp))
  simp [isAsciiWord] at hword

/-- The first kind that ends at an opening or behind it ends there. -/
theorem OpensAt.same_kind {before kind before' kind' rest : List Char}
    (hopen : OpensAt line (before ++ kind) rest) (hkind : KindText before kind)
    (hkind' : KindText before' kind') (hline : before' ++ kind' <+: line)
    (hbegin : before'.length ≤ (before ++ kind).length)
    (hend : (before ++ kind).length ≤ (before' ++ kind').length) : before' = before := by
  have hfront : before ++ kind <+: line := ⟨'(' :: '(' :: rest, hopen.symm⟩
  have hsame := (List.prefix_of_prefix_length_le hfront hline hend).eq_of_length
    (Nat.le_antisymm hend (hopen.not_in_kind hkind' hline hbegin))
  exact (hkind'.unique hkind hsame.symm).1

theorem NumberText.no_opening {s : List Char} {n : UInt32} (h : NumberText s n) : '(' ∉ s := by
  obtain ⟨before, ds, after, rfl, hbefore, hds, hafter⟩ := h
  simp only [List.mem_append, not_or]
  exact ⟨fun hc => absurd (hbefore _ hc) (by decide),
    fun hc => absurd (hds.digits _ hc) (by decide), fun hc => absurd (hafter _ hc) (by decide)⟩

theorem PointText.no_opening {s : List Char} {l c : UInt32} (h : PointText s l c) : '(' ∉ s := by
  obtain ⟨a, b, rfl, ha, hb⟩ := h
  simp [ha.no_opening, hb.no_opening]

/-- The place of an error holds no opening parenthesis, and what is behind it no closing one. -/
theorem ErrorAt.text {rest : List Char} (h : ErrorAt front rest e) : ∃ place message tail,
    rest = place ++ (message ++ ')' :: tail) ∧ '(' ∉ place ∧ ')' ∉ tail ∧
      e.message = String.ofList message := by
  obtain ⟨start, stop, blank, message, tail, line, column, line', column', hrest, hstart, hstop,
    hblank, htail, hmessage, -⟩ := h.place
  refine ⟨start ++ '-' :: (stop ++ [')', ':', blank]), message, tail, by simp [hrest], ?_, htail,
    hmessage⟩
  have hne : '(' ≠ blank := by
    rintro rfl
    exact absurd hblank (by decide)
  simp [hstart.no_opening, hstop.no_opening, hne]

theorem ErrorAt.same_opening {front₁ front₂ rest₁ rest₂ behind₁ behind₂ : List Char}
    (h₁ : ErrorAt behind₁ rest₁ e) (h₂ : ErrorAt behind₂ rest₂ e)
    (hline : front₁ ++ '(' :: '(' :: rest₁ = front₂ ++ '(' :: '(' :: rest₂) : front₁ = front₂ := by
  obtain ⟨place₁, message, tail₁, rfl, hplace₁, htail₁, hmessage₁⟩ := h₁.text
  obtain ⟨place₂, message₂, tail₂, rfl, hplace₂, htail₂, hmessage₂⟩ := h₂.text
  obtain rfl : message = message₂ := by
    rw [hmessage₁] at hmessage₂
    exact String.ofList_injective hmessage₂
  have hends : (front₁ ++ '(' :: '(' :: (place₁ ++ message)) ++ ')' :: tail₁ =
      (front₂ ++ '(' :: '(' :: (place₂ ++ message)) ++ ')' :: tail₂ := by simpa using hline
  obtain ⟨hfronts, -⟩ := split_at_last htail₁ htail₂ hends
  have hopens : (front₁ ++ ['('] ++ '(' :: place₁) ++ message =
      (front₂ ++ ['('] ++ '(' :: place₂) ++ message := by simpa using hfronts
  obtain ⟨hsame, -⟩ := split_at_last hplace₁ hplace₂ (List.append_cancel_right hopens)
  exact List.append_cancel_right hsame

/-- The parts of a line are clear of each other just if joining them shows nothing new. -/
theorem clear_iff : Clear left right ↔ inLine? [] (left ++ right) = inLine? [] right := by
  refine ⟨Clear.inLine?_eq, fun h => ?_⟩
  cases hfound : inLine? [] right with
  | none =>
    rw [hfound, inLine?_nil_eq_none_iff] at h
    rw [inLine?_nil_eq_none_iff] at hfound
    exact ⟨fun before hbegins => absurd hbegins.hasError h,
      fun hbegins => absurd hbegins.hasError hfound⟩
  | some e =>
    rw [hfound, inLine?_nil_eq_some_iff, firstError_iff] at h
    rw [inLine?_nil_eq_some_iff, firstError_iff] at hfound
    obtain ⟨front, ⟨rest, hopen, herr⟩, hleft⟩ := h
    obtain ⟨front₀, ⟨rest₀, hopen₀, herr₀⟩, hleft₀⟩ := hfound
    obtain rfl : front = left ++ front₀ := herr.same_opening herr₀ (by
      rw [← hopen, hopen₀, List.append_assoc])
    obtain ⟨before, kind, hfront, hkind, hname⟩ := herr.kind
    obtain ⟨before₀, kind₀, rfl, hkind₀, hname₀⟩ := herr₀.kind
    obtain rfl : kind = kind₀ := String.ofList_injective (hname.symm.trans hname₀)
    obtain rfl : before = left ++ before₀ := by
      rw [← List.append_assoc] at hfront
      exact (List.append_cancel_right hfront).symm
    rw [← List.append_assoc] at hopen hleft
    constructor
    · rintro before' ⟨kind', e', hkind', herror'⟩
      by_contra hlt
      have hsame := hopen.same_kind hkind hkind' herror'.starts_line (by
        simp only [List.length_append]
        omega) (hleft _ e' herror')
      rw [hsame, List.length_append] at hlt
      omega
    · rintro ⟨kind', e', hkind', herror'⟩
      obtain rfl := hopen₀.same_kind hkind₀ hkind' herror'.starts_line (Nat.zero_le _)
        (hleft₀ _ e' herror')
      rw [List.append_nil] at hkind
      exact hkind.maximal

/-- Text without an opening parenthesis, and without a word at its end, is clear of all errors. -/
theorem clear_of_quiet (hopen : '(' ∉ left) (hword : ∀ c ∈ left.getLast?, isAsciiWord c = false)
    (right : List Char) : Clear left right := by
  refine ⟨?_, fun _ => hword⟩
  rintro before ⟨kind, e, hkind, rest, hline, -⟩
  by_contra hlt
  have hprefix : before <+: left ++ right := ⟨kind ++ '(' :: '(' :: rest, by
    rw [hline, List.append_assoc]⟩
  obtain ⟨inner, rfl⟩ := List.prefix_of_prefix_length_le hprefix (List.prefix_append left right)
    (Nat.le_of_not_le hlt)
  have hrest : inner ++ right = kind ++ '(' :: '(' :: rest := by
    simpa [OpensAt, List.append_assoc] using hline
  cases hlast : inner.getLast? with
  | none =>
    rw [List.getLast?_eq_none_iff.1 hlast, List.append_nil] at hlt
    exact hlt (Nat.le_refl _)
  | some c =>
    have hinner := List.mem_of_getLast? hlast
    have hmem : c ∈ kind := by
      rcases List.append_eq_append_iff.1 hrest with ⟨more, hsplit, -⟩ | ⟨more, hsplit, hafter⟩
      · rw [hsplit]
        exact List.mem_append_left _ hinner
      · cases more with
        | nil => rwa [hsplit, List.append_nil] at hinner
        | cons d more =>
          obtain rfl : '(' = d := (List.cons.inj hafter).1
          exact absurd (List.mem_append_right before (by simp [hsplit])) hopen
    have hno := hword c (by rw [List.getLast?_append, hlast]; rfl)
    rw [hkind.word c hmem] at hno
    simp at hno

end

/-! The search through lines -/

section

variable {s rest line : List Char}

def search (s : List Char) : Option SpecError := (lines s).findSome? (inLine? [])

theorem search_append (hs : ∀ c ∈ s.getLast?, c = '\n') :
    search (s ++ rest) = (search s).or (search rest) := by
  rw [search, lines_append hs, List.findSome?_append]
  rfl

theorem search_line (hline : '\n' ∉ line) :
    search (line ++ '\n' :: rest) = (inLine? [] line).or (search rest) := by
  rw [search, lines_line hline, List.findSome?_cons, inLine?_withoutReturn]
  cases inLine? [] line <;> rfl

theorem search_last (hline : '\n' ∉ line) : search line = inLine? [] line := by
  cases line with
  | nil => rfl
  | cons c line =>
    rw [search, lines_last hline (List.cons_ne_nil c line), List.findSome?_singleton]

theorem exists_search_line (s : List Char) : ∃ further, ∀ line, '\n' ∉ line →
    search (line ++ s) = (inLine? [] (line ++ firstLine s)).or further := by
  have hsplit := List.takeWhile_append_dropWhile (p := (· != '\n')) (l := s)
  have hfirst : '\n' ∉ firstLine s := by
    intro hmem
    have hne := List.all_eq_true.1 List.all_takeWhile _ hmem
    simp at hne
  have hjoined : ∀ line, '\n' ∉ line → '\n' ∉ line ++ firstLine s := by
    intro line hline hmem
    exact (List.mem_append.1 hmem).elim hline hfirst
  cases hdrop : s.dropWhile (· != '\n') with
  | nil =>
    rw [hdrop, List.append_nil] at hsplit
    refine ⟨none, fun line hline => ?_⟩
    have hs : firstLine s = s := hsplit
    have hlast := search_last (hjoined line hline)
    rw [hs] at hlast ⊢
    rw [hlast, Option.or_none]
  | cons c rest =>
    have hc : c = '\n' := by
      have hhead := List.head?_dropWhile_not (· != '\n') s
      rw [hdrop] at hhead
      simpa using hhead
    subst hc
    have hs : firstLine s ++ '\n' :: rest = s := by rwa [hdrop] at hsplit
    refine ⟨search rest, fun line hline => ?_⟩
    rw [← search_line (hjoined line hline), List.append_assoc, hs]

end

/-- Behind a text without an error, only the joined line can show another error than the second text
does. -/
theorem locate_append {before after : String} (hbefore : locate before = none)
    (h : Clear (unfinished before.toList) (firstLine after.toList)) :
    locate (before ++ after) = locate after := by
  obtain ⟨ended, line, hsplit, hline, hended, hrun⟩ :=
    exists_last_run (· != '\n') before.toList
  change unfinished before.toList = line at hrun
  rw [hrun] at h
  have hline' : '\n' ∉ line := fun hmem => by simpa using hline _ hmem
  have hended' : ∀ c ∈ ended.getLast?, c = '\n' := fun c hc => by simpa using hended c hc
  have hnone : search ended = none := by
    have hsearch : search before.toList = none := hbefore
    rw [hsplit, search_append hended', Option.or_eq_none_iff] at hsearch
    exact hsearch.1
  obtain ⟨further, hfurther⟩ := exists_search_line after.toList
  calc
    locate (before ++ after) = search (ended ++ (line ++ after.toList)) := by
      rw [← List.append_assoc, ← hsplit, ← String.toList_append]
      rfl
    _ = search (line ++ after.toList) := by rw [search_append hended', hnone, Option.none_or]
    _ = search after.toList := by
      rw [hfurther line hline', h.inLine?_eq]
      exact (hfurther [] (by simp)).symm

end SpecError

namespace Stage

variable {S : Setting} {plan : Plan} {o : Outcome} {t : FileTree}

theorem compileSpecification_complains (hsignal : o.signal = none)
    (hbrace : o.stdout.toList.head? ≠ some '\x7b') :
    compileSpecification.interpret S plan o t =
      .error ⟨o.stderr ++ o.stdout, SpecError.locate (o.stderr ++ o.stdout)⟩ := by
  have hne : (o.stdout.toList.head? != some '\x7b') = true := by simpa using hbrace
  rw [interpret_eq_error_iff]
  simp only [compileSpecification, compiledDocument, hsignal, hne, if_true]

end Stage

/-- An error that the output alone would show is found behind an error stream without one, whatever
else this holds and in whatever chunks both come, as long as its unfinished line is clear of the
first line of the output: they are clear of each other just if their joined line shows what the
first line of the output shows. Text without an opening parenthesis, and without a word at its end,
is clear of all lines, and so is an error stream that ends with a line. -/
theorem stderr_noise_keeps_location {S : Setting} {plan : Plan} {o : Outcome} {t : FileTree}
    {e : SpecError} (hsignal : o.signal = none) (hbrace : o.stdout.toList.head? ≠ some '\x7b')
    (hstdout : SpecError.locate o.stdout = some e) (hstderr : SpecError.locate o.stderr = none) :
    (SpecError.Clear (Text.unfinished o.stderr.toList) (Text.firstLine o.stdout.toList) →
      Stage.compileSpecification.interpret S plan o t =
        .error ⟨o.stderr ++ o.stdout, some e⟩) ∧
    ∀ left right, (SpecError.Clear left right ↔
        SpecError.inLine? [] (left ++ right) = SpecError.inLine? [] right) ∧
      ('(' ∉ left → (∀ c ∈ left.getLast?, Text.isAsciiWord c = false) →
        SpecError.Clear left right) := by
  refine ⟨fun hclear => ?_, fun left right => ⟨SpecError.clear_iff,
    fun hopen hword => SpecError.clear_of_quiet hopen hword right⟩⟩
  rw [Stage.compileSpecification_complains hsignal hbrace,
    SpecError.locate_append hstderr hclear, hstdout]

namespace Demo

def complaint (stderr : String) : Outcome := {
  exitCode := some 1
  signal := none
  stdoutChunks := ["ParserError((3,5", " - 3,10): unexpected token)\n"]
  stderrChunks := [stderr]
  startedAt := "" }

def complained : SpecError := ⟨"ParserError", ⟨2, 4⟩, ⟨2, 9⟩, "unexpected token"⟩

theorem complaint_located (stderr : String) :
    SpecError.locate (complaint stderr).stdout = some complained := by
  change SpecError.locate (String.join ["ParserError((3,5", " - 3,10): unexpected token)\n"]) = _
  decide +kernel

theorem complaint_opens (stderr : String) :
    (complaint stderr).stdout.toList.head? ≠ some '\x7b' := by
  have htext : (complaint stderr).stdout.toList =
      "ParserError((3,5".toList ++ " - 3,10): unexpected token)\n".toList := by
    simp [Outcome.stdout, complaint, String.join]
  rw [htext]
  decide

end Demo

theorem stderr_noise_keeps_location_of_complaint :
    SpecError.locate (Demo.complaint "Picked up (f((1,2\nwarning: ").stdout =
      some Demo.complained ∧
    SpecError.locate (Demo.complaint "Picked up (f((1,2\nwarning: ").stderr = none ∧
    Stage.compileSpecification.interpret Demo.inDocker default
        (Demo.complaint "Picked up (f((1,2\nwarning: ") (Demo.tree []) =
      .error ⟨"Picked up (f((1,2\nwarning: ParserError((3,5 - 3,10): unexpected token)\n",
        some Demo.complained⟩ := by
  have hstdout := Demo.complaint_located "Picked up (f((1,2\nwarning: "
  have hstderr : SpecError.locate (Demo.complaint "Picked up (f((1,2\nwarning: ").stderr =
      none := by decide +kernel
  obtain ⟨hkept, hclear⟩ := @stderr_noise_keeps_location Demo.inDocker default
    (Demo.complaint "Picked up (f((1,2\nwarning: ") (Demo.tree []) _ rfl (Demo.complaint_opens _)
    hstdout hstderr
  have hlast : (Text.unfinished
      (Demo.complaint "Picked up (f((1,2\nwarning: ").stderr.toList).getLast? = some ' ' := by
    decide +kernel
  have hword : ∀ c ∈ some ' ', Text.isAsciiWord c = false := by simp [Text.isAsciiWord]
  exact ⟨hstdout, hstderr, hkept ((hclear _ _).2 (by decide +kernel) (hlast ▸ hword))⟩

/-- A digit at the end of the error stream goes on into the kind of the error, and no kind starts
with one: the error is lost. -/
theorem unfinished_stderr_hides_error :
    (Demo.complaint "warnings: 2").signal = none ∧
    (Demo.complaint "warnings: 2").stdout.toList.head? ≠ some '\x7b' ∧
    SpecError.locate (Demo.complaint "warnings: 2").stdout = some Demo.complained ∧
    SpecError.locate (Demo.complaint "warnings: 2").stderr = none ∧
    Stage.compileSpecification.interpret Demo.inDocker default
        (Demo.complaint "warnings: 2") (Demo.tree []) =
      .error ⟨"warnings: 2ParserError((3,5 - 3,10): unexpected token)\n", none⟩ := by
  refine ⟨rfl, Demo.complaint_opens _, Demo.complaint_located _, by decide +kernel, ?_⟩
  rw [Stage.compileSpecification_complains rfl (Demo.complaint_opens _)]
  exact congrArg Except.error (by decide +kernel)

end TraceWorkbench
