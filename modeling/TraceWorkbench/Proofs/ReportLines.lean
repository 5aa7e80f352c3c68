import Mathlib.Data.List.TakeWhile
import TraceWorkbench.Proofs.ErrorGrammar
import TraceWorkbench.Proofs.LineEnds
import TraceWorkbench.Report

set_option autoImplicit false

/-!
# Reports read back

The server prints each value on a line of its own, with lines of other text between. What is read
from a report are just the values that were printed, whatever stands around their fields and in
whatever chunks the text comes.
-/
namespace TraceWorkbench

namespace Text

open SpecError (Blanks)

section

variable {sep c : Char} {s a after : List Char}

theorem splitOnce_eq_none_iff : splitOnce sep s = none ↔ sep ∉ s := by
  induction s with
  | nil => simp [splitOnce]
  | cons c s ih =>
    by_cases hc : c = sep
    · simp [splitOnce, hc]
    · simp [splitOnce, hc, Ne.symm hc, ih]

theorem splitOnce_concat (hc : c ≠ sep) (s : List Char) :
    splitOnce sep (s ++ [c]) = (splitOnce sep s).map fun (a, b) => (a, b ++ [c]) := by
  induction s with
  | nil => simp [splitOnce, hc]
  | cons d s ih => by_cases hd : d = sep <;> simp [splitOnce, hd, ih, Function.comp_def]

theorem Gap.blanks (h : Gap s) : Blanks s := fun c hc => (h c hc).1

theorem Gap.not_mem (h : Gap s) (hc : isBlank c = false) : c ∉ s := by
  intro hmem
  rw [h.blanks c hmem] at hc
  simp at hc

theorem trimStart_eq_nil_iff : trimStart s = [] ↔ Blanks s := List.dropWhile_eq_nil_iff

theorem trimEnd_eq_nil_iff : trimEnd s = [] ↔ Blanks s := by
  rw [trimEnd, List.reverse_eq_nil_iff, List.dropWhile_eq_nil_iff]
  exact ⟨fun h c hc => h c (List.mem_reverse.2 hc), fun h c hc => h c (List.mem_reverse.1 hc)⟩

theorem trimEnd_append_blanks (hb : Blanks after) (s : List Char) :
    trimEnd (s ++ after) = trimEnd s := by
  have hreversed : ∀ c ∈ after.reverse, isBlank c = true :=
    fun c hc => hb c (List.mem_reverse.1 hc)
  rw [trimEnd, List.reverse_append, List.dropWhile_append_of_pos hreversed, trimEnd]

theorem trim_blanks_append {before : List Char} (hb : Blanks before) (s : List Char) :
    trim (before ++ s) = trim s := by
  rw [trim, trimStart, List.dropWhile_append_of_pos hb, trim, trimStart]

theorem trim_append_blanks (hb : Blanks after) (s : List Char) : trim (s ++ after) = trim s := by
  by_cases hs : trimStart s = []
  · have hall : trimStart (s ++ after) = [] := by
      rw [trimStart_eq_nil_iff] at hs ⊢
      exact List.forall_mem_append.2 ⟨hs, hb⟩
    rw [trim, hall, trim, hs]
  · have hstart : trimStart (s ++ after) = trimStart s ++ after := by
      rw [trimStart, List.dropWhile_append, if_neg (by simpa [trimStart] using hs), trimStart]
    rw [trim, hstart, trimEnd_append_blanks hb, trim]

theorem trim_eq_nil_iff : trim s = [] ↔ Blanks s := by
  constructor
  · intro h
    have hblank := trimEnd_eq_nil_iff.1 h
    cases hstart : trimStart s with
    | nil => exact trimStart_eq_nil_iff.1 hstart
    | cons c rest =>
      have hhead := List.head?_dropWhile_not isBlank s
      rw [trimStart] at hstart
      rw [hstart] at hhead
      have hc : isBlank c = true := hblank c (by simp [trimStart, hstart])
      simp [hc] at hhead
  · intro h
    rw [trim, trimStart_eq_nil_iff.2 h]
    rfl

theorem exists_trim (s : List Char) :
    ∃ before after, s = before ++ (trim s ++ after) ∧ Blanks before ∧ Blanks after := by
  have hfront : s.takeWhile isBlank ++ trimStart s = s := List.takeWhile_append_dropWhile
  have hback : (trimStart s).reverse.takeWhile isBlank ++
      (trimStart s).reverse.dropWhile isBlank = (trimStart s).reverse :=
    List.takeWhile_append_dropWhile
  refine ⟨s.takeWhile isBlank, ((trimStart s).reverse.takeWhile isBlank).reverse, ?_,
    List.all_eq_true.1 List.all_takeWhile, ?_⟩
  · rw [trim, trimEnd, ← List.reverse_append, hback, List.reverse_reverse, hfront]
  · intro c hc
    exact List.all_eq_true.1 List.all_takeWhile c (List.mem_reverse.1 hc)

theorem mem_of_mem_trim (h : c ∈ trim s) : c ∈ s := by
  obtain ⟨before, after, hs, -, -⟩ := exists_trim s
  rw [hs]
  exact List.mem_append_right _ (List.mem_append_left _ h)

theorem exists_gaps (hs : '\n' ∉ s) :
    ∃ before after, s = before ++ (trim s ++ after) ∧ Gap before ∧ Gap after := by
  obtain ⟨before, after, hsplit, hbefore, hafter⟩ := exists_trim s
  rw [hsplit, List.mem_append, List.mem_append, not_or, not_or] at hs
  refine ⟨before, after, hsplit, fun c hc => ⟨hbefore c hc, ?_⟩, fun c hc => ⟨hafter c hc, ?_⟩⟩
  · rintro rfl
    exact hs.1 hc
  · rintro rfl
    exact hs.2.2 hc

theorem trimmed_trim (s : List Char) : Trimmed (trim s) := by
  obtain ⟨before, after, hs, hbefore, hafter⟩ := exists_trim s
  have hsame : trim s = trim (trim s) := by
    conv => lhs; rw [hs, trim_blanks_append hbefore, trim_append_blanks hafter]
  exact hsame.symm

instance (s : List Char) : Decidable (Trimmed s) := inferInstanceAs (Decidable (trim s = s))

theorem trim_padded {before : List Char} (hs : Trimmed s) (hbefore : Blanks before)
    (hafter : Blanks after) : trim (before ++ (s ++ after)) = s := by
  rw [trim_blanks_append hbefore, trim_append_blanks hafter, hs]

end

end Text

open Text
open SpecError (Blanks)

/-! Lines of a report -/

/-- A value whose fields can be told apart when it is printed. -/
structure TraceValue.Printable (v : TraceValue) : Prop where
  time_ne_nil : v.time.toList ≠ []
  time_trimmed : Trimmed v.time.toList
  time_colon : ':' ∉ v.time.toList
  stream_ne_nil : v.stream.toList ≠ []
  stream_trimmed : Trimmed v.stream.toList
  stream_equals : '=' ∉ v.stream.toList
  value_trimmed : Trimmed v.value.toList
  no_feed : '\n' ∉ v.time.toList ∧ '\n' ∉ v.stream.toList ∧ '\n' ∉ v.value.toList

/-- The blanks around the fields of a value, those of `time: stream = value` if nothing else is
said. -/
structure Layout where
  beforeTime : List Char := []
  afterTime : List Char := []
  beforeStream : List Char := [' ']
  afterStream : List Char := [' ']
  beforeValue : List Char := [' ']
  afterValue : List Char := []
  deriving DecidableEq, Repr

structure Layout.Inline (l : Layout) : Prop where
  beforeTime : Gap l.beforeTime
  afterTime : Gap l.afterTime
  beforeStream : Gap l.beforeStream
  afterStream : Gap l.afterStream
  beforeValue : Gap l.beforeValue
  afterValue : Gap l.afterValue

def TraceValue.printed (v : TraceValue) (l : Layout) : List Char :=
  l.beforeTime ++ (v.time.toList ++ l.afterTime) ++ ':' ::
    (l.beforeStream ++ (v.stream.toList ++ l.afterStream) ++ '=' ::
      (l.beforeValue ++ (v.value.toList ++ l.afterValue)))

/-- A line that shows no value: a sign is missing in it, or what should stand before the sign. -/
inductive Noise : List Char → Prop where
  | noColon {s} : ':' ∉ s → Noise s
  | noEquals {time rest} : ':' ∉ time → '=' ∉ rest → Noise (time ++ ':' :: rest)
  | blankField {time stream value} : ':' ∉ time → '=' ∉ stream → Blanks time ∨ Blanks stream →
      Noise (time ++ ':' :: (stream ++ '=' :: value))

namespace TraceValue

section

variable {s time stream value : List Char} {v : TraceValue}

theorem ofLine?_eq (htime : ':' ∉ time) (hstream : '=' ∉ stream) :
    ofLine? (time ++ ':' :: (stream ++ '=' :: value)) =
      if trim time = [] ∨ trim stream = [] then none
      else some ⟨String.ofList (trim time), String.ofList (trim stream),
        String.ofList (trim value)⟩ := by
  simp [ofLine?, splitOnce_append htime, splitOnce_append hstream]

theorem ofLine?_eq_none_iff : ofLine? s = none ↔ Noise s := by
  constructor
  · intro h
    cases hcolon : splitOnce ':' s with
    | none => exact .noColon (splitOnce_eq_none_iff.1 hcolon)
    | some p =>
      obtain ⟨time, rest⟩ := p
      obtain ⟨rfl, htime⟩ := splitOnce_eq_some hcolon
      cases hequals : splitOnce '=' rest with
      | none => exact .noEquals htime (splitOnce_eq_none_iff.1 hequals)
      | some q =>
        obtain ⟨stream, value⟩ := q
        obtain ⟨rfl, hstream⟩ := splitOnce_eq_some hequals
        rw [ofLine?_eq htime hstream, ite_eq_left_iff] at h
        have hblank : trim time = [] ∨ trim stream = [] := by
          by_contra hne
          simpa using h hne
        rw [trim_eq_nil_iff, trim_eq_nil_iff] at hblank
        exact .blankField htime hstream hblank
  · intro h
    cases h with
    | noColon hs => simp [ofLine?, splitOnce_eq_none_iff.2 hs]
    | noEquals htime hrest =>
      simp [ofLine?, splitOnce_append htime, splitOnce_eq_none_iff.2 hrest]
    | blankField htime hstream hblank =>
      rw [← trim_eq_nil_iff, ← trim_eq_nil_iff] at hblank
      rw [ofLine?_eq htime hstream, if_pos hblank]

theorem ofLine?_printed {l : Layout} (hv : v.Printable) (hl : l.Inline) :
    ofLine? (v.printed l) = some v := by
  have hcolon : ':' ∉ l.beforeTime ++ (v.time.toList ++ l.afterTime) := by
    simp only [List.mem_append, not_or]
    exact ⟨hl.beforeTime.not_mem rfl, hv.time_colon, hl.afterTime.not_mem rfl⟩
  have hequals : '=' ∉ l.beforeStream ++ (v.stream.toList ++ l.afterStream) := by
    simp only [List.mem_append, not_or]
    exact ⟨hl.beforeStream.not_mem rfl, hv.stream_equals, hl.afterStream.not_mem rfl⟩
  rw [printed, ofLine?_eq hcolon hequals,
    trim_padded hv.time_trimmed hl.beforeTime.blanks hl.afterTime.blanks,
    trim_padded hv.stream_trimmed hl.beforeStream.blanks hl.afterStream.blanks,
    trim_padded hv.value_trimmed hl.beforeValue.blanks hl.afterValue.blanks,
    if_neg (not_or.2 ⟨hv.time_ne_nil, hv.stream_ne_nil⟩)]
  simp

theorem printed_no_feed {l : Layout} (hv : v.Printable) (hl : l.Inline) : '\n' ∉ v.printed l := by
  obtain ⟨htime, hstream, hvalue⟩ := hv.no_feed
  have hgap : ∀ {g : List Char}, Gap g → '\n' ∉ g := fun hg hmem => (hg _ hmem).2 rfl
  simp [printed, htime, hstream, hvalue, hgap hl.beforeTime, hgap hl.afterTime,
    hgap hl.beforeStream, hgap hl.afterStream, hgap hl.beforeValue, hgap hl.afterValue]

theorem ofLine?_concat_return (s : List Char) : ofLine? (s ++ ['\r']) = ofLine? s := by
  have htrim : ∀ value, trim (value ++ ['\r']) = trim value :=
    fun value => trim_append_blanks (by simp [Blanks, isBlank]) value
  simp only [ofLine?, splitOnce_concat (show '\r' ≠ ':' by decide)]
  cases splitOnce ':' s with
  | none => rfl
  | some p =>
    obtain ⟨time, rest⟩ := p
    simp only [Option.map_some, Option.bind_eq_bind, Option.bind_some,
      splitOnce_concat (show '\r' ≠ '=' by decide)]
    cases splitOnce '=' rest with
    | none => rfl
    | some q => simp [htrim]

theorem ofLine?_withoutReturn (s : List Char) : ofLine? (withoutReturn s) = ofLine? s := by
  rcases eq_withoutReturn s with hs | hs
  · rw [← hs]
  · conv => rhs; rw [hs, ofLine?_concat_return]

theorem exists_printed (hs : '\n' ∉ s) (h : ofLine? s = some v) :
    v.Printable ∧ ∃ l : Layout, l.Inline ∧ v.printed l = s := by
  cases hcolon : splitOnce ':' s with
  | none => simp [ofLine?, hcolon] at h
  | some p =>
    obtain ⟨time, rest⟩ := p
    obtain ⟨rfl, htime⟩ := splitOnce_eq_some hcolon
    cases hequals : splitOnce '=' rest with
    | none => simp [ofLine?, hcolon, hequals] at h
    | some q =>
      obtain ⟨stream, value⟩ := q
      obtain ⟨rfl, hstream⟩ := splitOnce_eq_some hequals
      rw [ofLine?_eq htime hstream, Option.ite_none_left_eq_some, not_or] at h
      obtain ⟨⟨htime_ne, hstream_ne⟩, hv⟩ := h
      obtain rfl := Option.some.inj hv
      simp only [List.mem_append, List.mem_cons, not_or] at hs
      obtain ⟨hfeed, -, hfeed', -, hfeed''⟩ := hs
      obtain ⟨a, b, ha, hgap_a, hgap_b⟩ := exists_gaps hfeed
      obtain ⟨c, d, hc, hgap_c, hgap_d⟩ := exists_gaps hfeed'
      obtain ⟨e, f, he, hgap_e, hgap_f⟩ := exists_gaps hfeed''
      refine ⟨⟨?_, ?_, ?_, ?_, ?_, ?_, ?_, ?_⟩, ⟨a, b, c, d, e, f⟩,
        ⟨hgap_a, hgap_b, hgap_c, hgap_d, hgap_e, hgap_f⟩, ?_⟩
      · simpa using htime_ne
      · simpa using trimmed_trim time
      · simpa using fun h => htime (mem_of_mem_trim h)
      · simpa using hstream_ne
      · simpa using trimmed_trim stream
      · simpa using fun h => hstream (mem_of_mem_trim h)
      · simpa using trimmed_trim value
      · simp only [String.toList_ofList]
        exact ⟨fun h => hfeed (mem_of_mem_trim h), fun h => hfeed' (mem_of_mem_trim h),
          fun h => hfeed'' (mem_of_mem_trim h)⟩
      · simp only [printed, String.toList_ofList]
        rw [← ha, ← hc, ← he]

end

end TraceValue

/-- A line of a report as it was printed. -/
inductive ReportLine where
  | value (v : TraceValue) (layout : Layout)
  | noise (text : List Char)

namespace ReportLine

def text : ReportLine → List Char
  | value v layout => v.printed layout
  | noise text => text

def value? : ReportLine → Option TraceValue
  | value v _ => some v
  | noise _ => none

inductive Sound : ReportLine → Prop where
  | value {v layout} : v.Printable → layout.Inline → Sound (.value v layout)
  | noise {text} : Noise text → '\n' ∉ text → Sound (.noise text)

theorem Sound.no_feed {line : ReportLine} (h : line.Sound) : '\n' ∉ line.text := by
  cases h with
  | value hv hlayout => exact TraceValue.printed_no_feed hv hlayout
  | noise _ hfeed => exact hfeed

theorem Sound.read {line : ReportLine} (h : line.Sound) :
    TraceValue.ofLine? line.text = line.value? := by
  cases h with
  | value hv hlayout => exact TraceValue.ofLine?_printed hv hlayout
  | noise hnoise _ => exact TraceValue.ofLine?_eq_none_iff.2 hnoise

/-- There are no other lines than those that print a value and those that print none. -/
theorem exists_sound {s : List Char} (hs : '\n' ∉ s) :
    ∃ line : ReportLine, line.Sound ∧ line.text = s := by
  cases h : TraceValue.ofLine? s with
  | none => exact ⟨.noise s, .noise (TraceValue.ofLine?_eq_none_iff.1 h) hs, rfl⟩
  | some v =>
    obtain ⟨hv, layout, hlayout, hprinted⟩ := TraceValue.exists_printed hs h
    exact ⟨.value v layout, .value hv hlayout, hprinted⟩

end ReportLine

/-! The text of a report -/

inductive LineEnd where
  | feed
  | returnFeed
  deriving DecidableEq, Repr

def LineEnd.text : LineEnd → List Char
  | feed => ['\n']
  | returnFeed => ['\r', '\n']

/-- A report of lines with their ends, and a last one without. -/
def reportText (ended : List (ReportLine × LineEnd)) (last : Option ReportLine) : List Char :=
  ended.flatMap (fun p => p.1.text ++ p.2.text) ++ (last.map ReportLine.text).getD []

namespace VerificationReport

def valuesIn (s : List Char) : List TraceValue := (lines s).filterMap TraceValue.ofLine?

theorem valuesIn_line {line : List Char} (hline : '\n' ∉ line) (rest : List Char) :
    valuesIn (line ++ '\n' :: rest) = (TraceValue.ofLine? line).toList ++ valuesIn rest := by
  rw [valuesIn, lines_line hline, List.filterMap_cons, TraceValue.ofLine?_withoutReturn]
  cases TraceValue.ofLine? line <;> rfl

theorem valuesIn_ended {line : ReportLine} (hline : line.Sound) (stop : LineEnd)
    (rest : List Char) :
    valuesIn (line.text ++ stop.text ++ rest) = line.value?.toList ++ valuesIn rest := by
  cases stop with
  | feed =>
    rw [LineEnd.text, List.append_assoc, List.singleton_append, valuesIn_line hline.no_feed,
      hline.read]
  | returnFeed =>
    have hfeed : '\n' ∉ line.text ++ ['\r'] := by simp [hline.no_feed]
    have hsplit : line.text ++ LineEnd.returnFeed.text ++ rest =
        (line.text ++ ['\r']) ++ '\n' :: rest := by simp [LineEnd.text]
    rw [hsplit, valuesIn_line hfeed, TraceValue.ofLine?_concat_return, hline.read]

theorem valuesIn_last {line : ReportLine} (hline : line.Sound) :
    valuesIn line.text = line.value?.toList := by
  have hread := hline.read
  by_cases hne : line.text = []
  · -- An empty text has no line, and an empty line no value.
    rw [hne] at hread ⊢
    rw [← hread]
    rfl
  · rw [valuesIn, lines_last hline.no_feed hne, List.filterMap_cons, hread]
    cases line.value? <;> rfl

theorem valuesIn_reportText {ended : List (ReportLine × LineEnd)} {last : Option ReportLine}
    (hended : ∀ p ∈ ended, p.1.Sound) (hlast : ∀ line ∈ last, line.Sound) :
    valuesIn (reportText ended last) =
      (ended.map Prod.fst ++ last.toList).filterMap ReportLine.value? := by
  induction ended with
  | nil =>
    cases last with
    | none => rfl
    | some line =>
      refine (valuesIn_last (hlast line rfl)).trans ?_
      rw [List.map_nil, List.nil_append, Option.toList_some, List.filterMap_cons]
      cases line.value? <;> rfl
  | cons p ended ih =>
    obtain ⟨line, stop⟩ := p
    obtain ⟨hline, hmore⟩ := List.forall_mem_cons.1 hended
    have hsplit : reportText ((line, stop) :: ended) last =
        line.text ++ stop.text ++ reportText ended last := by simp [reportText]
    rw [hsplit, valuesIn_ended hline, ih hmore, List.map_cons, List.cons_append,
      List.filterMap_cons]
    cases line.value? <;> rfl

end VerificationReport

/-- Values that are printed on lines of their own are read back in their order, with any blanks
around their fields, any lines of noise between them and either line end, which the last line may
lack, and in whatever chunks the text comes. Every line is one of these or those. -/
theorem report_reads_back :
    (∀ (ended : List (ReportLine × LineEnd)) (last : Option ReportLine) (r : VerificationReport),
      (∀ line ∈ ended.map Prod.fst ++ last.toList, line.Sound) →
      r.text.toList = reportText ended last →
      r.values = (ended.map Prod.fst ++ last.toList).filterMap ReportLine.value?) ∧
    ∀ s : List Char, '\n' ∉ s → ∃ line : ReportLine, line.Sound ∧ line.text = s := by
  refine ⟨?_, fun s hs => ReportLine.exists_sound hs⟩
  intro ended last r hsound htext
  have hended : ∀ p ∈ ended, p.1.Sound :=
    fun p hp => hsound p.1 (List.mem_append_left _ (List.mem_map_of_mem hp))
  have hlast : ∀ line ∈ last, line.Sound :=
    fun line hline => hsound line (List.mem_append_right _ (by simpa using hline))
  rw [← VerificationReport.valuesIn_reportText hended hlast, ← htext]
  rfl

namespace Demo

def reportedCall : TraceValue := ⟨"1", "calls", "3"⟩

/-- Its fields hold the signs that they may hold. -/
def reportedPair : TraceValue := ⟨"t=2", "a:b", "x=y:z"⟩

def reportedLines : List (ReportLine × LineEnd) := [
  (.value reportedCall {}, .returnFeed),
  (.noise "started at 12:00".toList, .feed),
  (.noise " :a = 1".toList, .feed)]

def wideLayout : Layout := ⟨['\t'], [' '], [], ['\u2003'], [], [' ', '\r']⟩

theorem reportedLines_sound :
    ∀ line ∈ reportedLines.map Prod.fst ++ (some (ReportLine.value reportedPair wideLayout)).toList,
      line.Sound := by
  have hcall : reportedCall.Printable := by constructor <;> decide
  have hpair : reportedPair.Printable := by constructor <;> decide
  have hplain : ({} : Layout).Inline := by constructor <;> decide +kernel
  have hwide : wideLayout.Inline := by constructor <;> decide +kernel
  have htime : Noise ("started at 12".toList ++ ':' :: "00".toList) :=
    .noEquals (by decide) (by decide)
  have hblank : Noise ([' '] ++ ':' :: ("a ".toList ++ '=' :: " 1".toList)) :=
    .blankField (by decide) (by decide) (.inl (by simp [Blanks, isBlank]))
  simp only [reportedLines, List.map_cons, List.map_nil, Option.toList_some, List.cons_append,
    List.nil_append, List.forall_mem_cons]
  exact ⟨.value hcall hplain, .noise htime (by decide), .noise hblank (by decide),
    .value hpair hwide, by simp⟩

def noisyReport : VerificationReport :=
  ⟨["1: ca", "lls = 3\r\nstarted at 12:00\n :a", " = 1\n\tt=2 :a:b\u2003=x=y:z \r"], ""⟩

end Demo

theorem report_reads_back_of_noisy :
    (∀ line ∈ Demo.reportedLines.map Prod.fst ++
      (some (ReportLine.value Demo.reportedPair Demo.wideLayout)).toList, line.Sound) ∧
    Demo.noisyReport.text.toList =
      reportText Demo.reportedLines (some (.value Demo.reportedPair Demo.wideLayout)) ∧
    Demo.noisyReport.values = [Demo.reportedCall, Demo.reportedPair] ∧
    '\n' ∉ "3: =".toList ∧ ∃ line : ReportLine, line.Sound ∧ line.text = "3: =".toList := by
  have hsound := Demo.reportedLines_sound
  have htext : Demo.noisyReport.text.toList =
      reportText Demo.reportedLines (some (.value Demo.reportedPair Demo.wideLayout)) := by
    decide +kernel
  have hfeed : '\n' ∉ "3: =".toList := by decide
  obtain ⟨hread, hlines⟩ := report_reads_back
  exact ⟨hsound, htext, hread _ _ _ hsound htext, hfeed, hlines _ hfeed⟩

end TraceWorkbench
