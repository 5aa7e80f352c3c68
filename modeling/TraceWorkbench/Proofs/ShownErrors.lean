import TraceWorkbench.CommandLine.Console
import TraceWorkbench.Proofs.StreamSeams

set_option autoImplicit false

/-!
# Errors shown where they were reported

The specification compiler counts lines and columns from 1, this library from 0, and the terminal
from 1 again. The place that the terminal shows is the one that the compiler printed, for all
numbers of 32 bits but 0.
-/
namespace TraceWorkbench

namespace SpecError

open Text

theorem numeral_toString (n : UInt32) : Numeral (toString n).toList n := by
  have htext : (toString n).toList = Nat.toDigits 10 n.toNat := Nat.toList_repr
  rw [htext]
  refine ⟨Nat.toDigits_ne_nil, fun d => Nat.isDigit_of_mem_toDigits (by decide) (by decide), ?_⟩
  exact (Nat.ofDigitChars_toDigits (by decide) (by decide)).symm

/-- A number as the compiler prints it, with blanks around it. -/
structure PrintedNumber where
  number : UInt32
  before : List Char := []
  after : List Char := []
  deriving DecidableEq, Repr

namespace PrintedNumber

def text (n : PrintedNumber) : List Char := n.before ++ ((toString n.number).toList ++ n.after)

structure Sound (n : PrintedNumber) : Prop where
  positive : n.number ≠ 0
  before : Gap n.before
  after : Gap n.after

theorem Sound.numberText {n : PrintedNumber} (h : n.Sound) : NumberText n.text n.number :=
  ⟨n.before, (toString n.number).toList, n.after, rfl, fun c hc => (h.before c hc).1,
    numeral_toString n.number, fun c hc => (h.after c hc).1⟩

theorem Sound.no_feed {n : PrintedNumber} (h : n.Sound) : '\n' ∉ n.text := by
  simp only [text, List.mem_append, not_or]
  exact ⟨fun hc => (h.before _ hc).2 rfl,
    fun hc => absurd ((numeral_toString n.number).digits _ hc) (by decide),
    fun hc => (h.after _ hc).2 rfl⟩

end PrintedNumber

/-- An error with its place, as the compiler prints it. -/
structure Complaint where
  kind : String
  line : PrintedNumber
  column : PrintedNumber
  stopLine : PrintedNumber
  stopColumn : PrintedNumber
  message : String
  deriving DecidableEq, Repr

namespace Complaint

/-- What stands behind the opening parentheses, with `back` behind the error. -/
def opened (c : Complaint) (back : List Char) : List Char :=
  c.line.text ++ ',' :: c.column.text ++ '-' ::
    (c.stopLine.text ++ ',' :: c.stopColumn.text ++ ')' :: ':' :: ' ' ::
      (c.message.toList ++ ')' :: back))

/-- The text `kind((line,column - line,column): message)`. -/
def text (c : Complaint) : List Char := c.kind.toList ++ '(' :: '(' :: c.opened []

/-- The error stands behind `front`, whose end does not go on into its kind. -/
structure Sound (c : Complaint) (front : List Char) : Prop where
  kind : KindText front c.kind.toList
  line : c.line.Sound
  column : c.column.Sound
  stopLine : c.stopLine.Sound
  stopColumn : c.stopColumn.Sound
  message : '\n' ∉ c.message.toList

/-- What is found: the same error, counted from 0. -/
def found (c : Complaint) : SpecError where
  kind := c.kind
  start := .ofOneBased c.line.number c.column.number
  stop := .ofOneBased c.stopLine.number c.stopColumn.number
  message := c.message

section

variable {c : Complaint} {front back : List Char}

theorem Sound.errorAt (h : c.Sound front) (hback : ')' ∉ back) :
    ErrorAt (front ++ c.kind.toList) (c.opened back) c.found := by
  obtain ⟨hline, hcolumn⟩ := ofOneBased_eq_iff.1 (rfl : c.found.start = _)
  obtain ⟨hline', hcolumn'⟩ := ofOneBased_eq_iff.1 (rfl : c.found.stop = _)
  refine ⟨⟨front, c.kind.toList, rfl, h.kind, String.ofList_toList.symm⟩, _, _, ' ',
    c.message.toList, back, c.line.number, c.column.number, c.stopLine.number, c.stopColumn.number,
    rfl, ?_, ?_, rfl, hback, String.ofList_toList.symm, hline, hcolumn, hline', hcolumn'⟩
  · exact ⟨_, _, rfl, h.line.numberText, h.column.numberText⟩
  · exact ⟨_, _, rfl, h.stopLine.numberText, h.stopColumn.numberText⟩

theorem opensAt_text (c : Complaint) (front back : List Char) :
    OpensAt (front ++ (c.text ++ back)) (front ++ c.kind.toList) (c.opened back) := by
  simp [OpensAt, text, opened]

theorem Sound.no_feed (h : c.Sound front) : '\n' ∉ c.text := by
  have hkind : '\n' ∉ c.kind.toList := fun hc => absurd (h.kind.word _ hc) (by decide)
  simp [text, opened, hkind, h.line.no_feed, h.column.no_feed, h.stopLine.no_feed,
    h.stopColumn.no_feed, h.message]

/-- No opening stands further to the left: neither in front of the kind nor across its start. -/
theorem Sound.leftmost (h : c.Sound front) (hfront : ∀ a b, ¬ OpensAt front a b)
    {front' rest : List Char} (hopen : OpensAt (front ++ (c.text ++ back)) front' rest) :
    (front ++ c.kind.toList).length ≤ front'.length := by
  have hline : front ++ c.kind.toList <+: front ++ (c.text ++ back) :=
    ⟨'(' :: '(' :: c.opened back, (c.opensAt_text front back).symm⟩
  refine hopen.not_in_kind h.kind hline ?_
  by_contra hlt
  have hopening : front' ++ ['(', '('] <+: front ++ c.kind.toList := by
    refine List.prefix_of_prefix_length_le ⟨rest, ?_⟩ hline ?_
    · rw [hopen]
      simp
    · have hpos := List.length_pos_of_ne_nil h.kind.ne_nil
      simp only [List.length_append, List.length_cons, List.length_nil]
      omega
  by_cases hwithin : (front' ++ ['(', '(']).length ≤ front.length
  · obtain ⟨b, hb⟩ := List.prefix_of_prefix_length_le hopening (List.prefix_append _ _) hwithin
    exact hfront front' b (by rw [OpensAt, ← hb]; simp)
  · have hfirst : front' ++ ['('] <+: front ++ c.kind.toList :=
      (show front' ++ ['('] <+: front' ++ ['(', '('] from ⟨['('], by simp⟩).trans hopening
    have hlength : (front' ++ ['(']).length = front.length := by
      simp only [List.length_append, List.length_cons, List.length_nil] at hwithin hlt ⊢
      omega
    have hsame : front' ++ ['('] = front :=
      (List.prefix_of_prefix_length_le hfirst (List.prefix_append _ _) hlength.le).eq_of_length
        hlength
    have hkind : ['('] <+: c.kind.toList := by
      rw [← List.prefix_append_right_inj front, ← hsame, List.append_assoc]
      rwa [← hsame] at hopening
    have hword := h.kind.word '(' (hkind.subset (by simp))
    simp [isAsciiWord] at hword

/-- What may stand around an error without hiding it: lines without an error, and on its own line no
other opening in front of it and no closing parenthesis behind it. -/
structure Surrounded (before front back after : List Char) : Prop where
  before_ended : ∀ c ∈ before.getLast?, c = '\n'
  before_quiet : locate (String.ofList before) = none
  front_feed : '\n' ∉ front
  front_quiet : ∀ a b, ¬ OpensAt front a b
  back_feed : '\n' ∉ back
  back_close : ')' ∉ back
  after_apart : ∀ c ∈ after.head?, c = '\n'

theorem Sound.inLine?_eq (h : c.Sound front) (hfront : ∀ a b, ¬ OpensAt front a b)
    (hback : ')' ∉ back) : inLine? [] (front ++ (c.text ++ back)) = some c.found :=
  inLine?_nil_eq_some_iff.2 ⟨_, _, c.opensAt_text front back, h.errorAt hback,
    fun _ _ _ hopen hlt => absurd (h.leftmost hfront hopen) (Nat.not_le_of_lt hlt)⟩

theorem Sound.locate_eq (h : c.Sound front) {before after : List Char}
    (hs : Surrounded before front back after) :
    locate (String.ofList (before ++ (front ++ (c.text ++ back) ++ after))) = some c.found := by
  have hline := h.inLine?_eq hs.front_quiet hs.back_close
  have hfeed : '\n' ∉ front ++ (c.text ++ back) := by
    simp [hs.front_feed, h.no_feed, hs.back_feed]
  have hquiet : search before = none := by
    have hnone := hs.before_quiet
    rwa [locate, String.toList_ofList] at hnone
  rw [locate, String.toList_ofList]
  change search _ = _
  rw [search_append hs.before_ended, hquiet, Option.none_or]
  cases after with
  | nil => rw [List.append_nil, search_last hfeed, hline]
  | cons d after =>
    obtain rfl : d = '\n' := hs.after_apart d rfl
    rw [search_line hfeed, hline, Option.some_or]

end

end Complaint

theorem add_one_of_toNat {n m : UInt32} (hn : n ≠ 0) (hm : m.toNat = n.toNat - 1) :
    m.toNat + 1 < UInt32.size ∧ m + 1 = n := by
  have hpos : n.toNat ≠ 0 := fun h0 => hn (UInt32.toNat_inj.1 h0)
  have hlt := n.toNat_lt
  have hsize : m.toNat + 1 < UInt32.size := by
    rw [hm]
    change n.toNat - 1 + 1 < 2 ^ 32
    omega
  have hsum : (m.toNat + 1) % 2 ^ 32 = m.toNat + 1 := Nat.mod_eq_of_lt hsize
  refine ⟨hsize, UInt32.toNat_inj.1 ?_⟩
  rw [UInt32.toNat_add, UInt32.toNat_one, hsum]
  omega

end SpecError

open SpecError in
/-- An error with its place is found on its line, whatever stands around it there and on other
lines, as long as no line in front has an error, its kind is no part of a longer word, no opening
stands to the left and no closing parenthesis to the right. The terminal then shows it with the
numbers, the kind and the message that the compiler printed. -/
theorem error_shown_where_printed {c : Complaint} {before front back after : List Char}
    (hc : c.Sound front) (hs : Complaint.Surrounded before front back after) (file : Path) :
    ∃ e, locate (String.ofList (before ++ (front ++ (c.text ++ back) ++ after))) = some e ∧
      e.start.line.toNat + 1 < UInt32.size ∧ e.start.column.toNat + 1 < UInt32.size ∧
      (Event.specError file e).render = some (.stderr, file.text ++ ":" ++
        toString c.line.number ++ ":" ++ toString c.column.number ++ ": " ++ c.kind ++ ": " ++
        c.message ++ "\n") := by
  obtain ⟨hline, hcolumn⟩ := ofOneBased_eq_iff.1 (rfl : c.found.start = _)
  obtain ⟨hsize, hshown⟩ := add_one_of_toNat hc.line.positive hline
  obtain ⟨hsize', hshown'⟩ := add_one_of_toNat hc.column.positive hcolumn
  refine ⟨c.found, hc.locate_eq hs, hsize, hsize', ?_⟩
  rw [Event.render, hshown, hshown']
  rfl

namespace Demo

/-- The last line there can be, and a message with parentheses of its own. -/
def lateComplaint : SpecError.Complaint where
  kind := "TypeError"
  line := { number := 4294967295 }
  column := { number := 1, before := [' '], after := [' ', '\t'] }
  stopLine := { number := 4294967295, before := [' '] }
  stopColumn := { number := 22 }
  message := "got f((1,2 - 3,4): x), not (Int)"

theorem lateComplaint_sound : lateComplaint.Sound "Error: (".toList where
  kind := by
    refine ⟨by decide, List.all_eq_true.1 (by decide +kernel), ?_, ?_⟩
    all_goals
      rintro _ ⟨⟩
      decide
  line := by constructor <;> decide +kernel
  column := by constructor <;> decide +kernel
  stopLine := by constructor <;> decide +kernel
  stopColumn := by constructor <;> decide +kernel
  message := by decide +kernel

theorem lateComplaint_surrounded : SpecError.Complaint.Surrounded "Compiling ((1,1\n".toList
    "Error: (".toList " in line 7\r".toList "\nf((1,1 - 1,2): second)".toList where
  before_ended := by
    rintro _ ⟨⟩
    rfl
  before_quiet := by decide +kernel
  front_feed := by decide +kernel
  front_quiet a b hopen := by
    have hcount := congrArg (List.count '(') hopen
    simp at hcount
    omega
  back_feed := by decide +kernel
  back_close := by decide +kernel
  after_apart := by
    rintro _ ⟨⟩
    rfl

end Demo

theorem error_shown_where_printed_of_late :
    Demo.lateComplaint.Sound "Error: (".toList ∧
    SpecError.Complaint.Surrounded "Compiling ((1,1\n".toList "Error: (".toList
      " in line 7\r".toList "\nf((1,1 - 1,2): second)".toList ∧
    ∃ e, SpecError.locate ("Compiling ((1,1\nError: (TypeError((4294967295, 1 \t- " ++
        "4294967295,22): got f((1,2 - 3,4): x), not (Int)) in line 7\r\n" ++
        "f((1,1 - 1,2): second)") = some e ∧
      (Event.specError ⟨"spec.tessla"⟩ e).render = some (.stderr,
        "spec.tessla:4294967295:1: TypeError: got f((1,2 - 3,4): x), not (Int)\n") := by
  have hsound := Demo.lateComplaint_sound
  have hsurrounded := Demo.lateComplaint_surrounded
  obtain ⟨e, hfound, -, -, hshown⟩ := error_shown_where_printed hsound hsurrounded ⟨"spec.tessla"⟩
  refine ⟨hsound, hsurrounded, e, ?_, ?_⟩
  · rw [← hfound]
    exact congrArg SpecError.locate (by decide +kernel)
  · rw [hshown]
    decide +kernel

end TraceWorkbench
