import Mathlib.Data.List.Infix
import TraceWorkbench.Project.TraceConfig
import TraceWorkbench.Proofs.ProductPaths
import TraceWorkbench.Text.Lines

set_option autoImplicit false

/-!
# Settings in a trace configuration

The formats and the target stand in the trace configuration as they are, each between quotes on a
line of its own. As long as they stay on their lines, the text tells what they are, quotes and all.
A format with a line feed can say what belongs to the configuration itself: then one text stands for
several settings.
-/
namespace TraceWorkbench

namespace TraceFormatting

/-- What stands in a trace configuration between the two formats: the end of the first definition
and the start of the second. -/
def seam : List Char := "\"\n".toList ++ "function_calls = \"".toList

/-- The text of the two formats, from behind the first quote to before the last. -/
def joined (f : TraceFormatting) : List Char :=
  f.variableValues.toList ++ (seam ++ f.functionCalls.toList)

/-- No format goes on to another line. -/
def OnOneLine (f : TraceFormatting) : Prop :=
  '\n' ∉ f.variableValues.toList ∧ '\n' ∉ f.functionCalls.toList

/-- A format holds what stands between the two, with the quote that is put behind it or before
it. -/
def Respells (f : TraceFormatting) : Prop :=
  seam <:+: f.variableValues.toList ++ ['"'] ∨ seam <:+: '"' :: f.functionCalls.toList

variable {f g : TraceFormatting}

theorem eq_of_toList (hvalues : f.variableValues.toList = g.variableValues.toList)
    (hcalls : f.functionCalls.toList = g.functionCalls.toList) : f = g := by
  obtain ⟨values, calls⟩ := f
  obtain ⟨values', calls'⟩ := g
  rw [String.toList_inj] at hvalues hcalls
  simp_all

theorem seam_quoted : ∃ inner, seam = '"' :: (inner ++ ['"']) :=
  ⟨"\nfunction_calls = ".toList, rfl⟩

/-- The seam overlaps with itself in one quote only. -/
theorem seam_overlap : ∀ n < seam.length, 0 < n → seam.drop n <+: seam → seam.drop n = ['"'] := by
  decide +kernel

/-- Where two pairs of formats are joined to one text, each of them holds the seam of the other. -/
theorem seam_of_joined {a a' b b' : List Char} (h : a ++ (seam ++ b) = a' ++ (seam ++ b'))
    (hlt : a.length < a'.length) : seam <:+: a' ++ ['"'] ∧ seam <:+: '"' :: b := by
  obtain ⟨d, rfl⟩ : a <+: a' :=
    List.prefix_of_prefix_length_le ⟨_, h⟩ (List.prefix_append a' _) (Nat.le_of_lt hlt)
  rw [List.append_assoc, List.append_cancel_left_eq] at h
  by_cases hlong : seam.length ≤ d.length
  · obtain ⟨more, rfl⟩ : seam <+: d :=
      List.prefix_of_prefix_length_le ⟨_, h⟩ (List.prefix_append d _) hlong
    rw [List.append_assoc, List.append_cancel_left_eq] at h
    subst h
    exact ⟨⟨a, more ++ ['"'], by simp⟩, ⟨'"' :: more, b', by simp⟩⟩
  · -- the two seams overlap, so they do in one quote
    obtain ⟨e, hseam⟩ : d <+: seam :=
      List.prefix_of_prefix_length_le (List.prefix_append d _) ⟨_, h⟩ (Nat.le_of_not_le hlong)
    have hrest : e ++ b = seam ++ b' := by
      rw [← List.append_cancel_left_eq d, ← List.append_assoc, hseam, h]
    have hd : 0 < d.length := by simpa using hlt
    have he : e = seam.drop d.length := by rw [← hseam, List.drop_left]
    have hstart : e <+: seam := by
      refine List.prefix_of_prefix_length_le ⟨_, hrest⟩ (List.prefix_append seam _) ?_
      rw [← hseam, List.length_append]
      omega
    obtain rfl : e = ['"'] := by
      rw [he] at hstart ⊢
      exact seam_overlap _ (Nat.lt_of_not_le hlong) hd hstart
    exact ⟨⟨a, [], by simp [← hseam]⟩, ⟨[], b', by simp [← hrest]⟩⟩

theorem respells_of_joined (h : f.joined = g.joined) : f = g ∨ f.Respells ∧ g.Respells := by
  rcases Nat.lt_trichotomy f.variableValues.toList.length g.variableValues.toList.length with
    hlt | heq | hgt
  · obtain ⟨hvalues, hcalls⟩ := seam_of_joined h hlt
    exact .inr ⟨.inr hcalls, .inl hvalues⟩
  · obtain ⟨hvalues, hrest⟩ := List.append_inj h heq
    exact .inl (eq_of_toList hvalues (List.append_cancel_left hrest))
  · obtain ⟨hvalues, hcalls⟩ := seam_of_joined h.symm hgt
    exact .inr ⟨.inl hvalues, .inr hcalls⟩

theorem Respells.exists_joined (h : f.Respells) : ∃ g, g ≠ f ∧ g.joined = f.joined := by
  have hother : ∀ a b : List Char, a.length ≠ f.variableValues.toList.length →
      a ++ (seam ++ b) = f.joined → ∃ g, g ≠ f ∧ g.joined = f.joined := by
    intro a b hlength hjoined
    refine ⟨⟨.ofList a, .ofList b⟩, ?_, by simpa [joined] using hjoined⟩
    rintro rfl
    simp at hlength
  obtain ⟨inner, hseam⟩ := seam_quoted
  rcases h with ⟨a, b, hvalues⟩ | ⟨a, b, hcalls⟩
  · refine hother a (b ++ (inner ++ '"' :: f.functionCalls.toList)) ?_ ?_
    · have hlength := congrArg List.length hvalues
      simp only [hseam, List.length_append, List.length_cons, List.length_nil] at hlength
      omega
    · calc a ++ (seam ++ (b ++ (inner ++ '"' :: f.functionCalls.toList)))
          = (a ++ seam ++ b) ++ (inner ++ '"' :: f.functionCalls.toList) := by simp
        _ = f.joined := by
            rw [hvalues]
            simp [joined, hseam]
  · refine hother (f.variableValues.toList ++ '"' :: (inner ++ a)) b ?_ ?_
    · simp
    · calc f.variableValues.toList ++ '"' :: (inner ++ a) ++ (seam ++ b)
          = f.variableValues.toList ++ '"' :: (inner ++ (a ++ seam ++ b)) := by simp
        _ = f.joined := by
            rw [hcalls]
            simp [joined, hseam]

end TraceFormatting

namespace Project

open Text

def rulesText (target : String) : List Char :=
  "\"\n".toList ++ ("[rules]\n".toList ++ ("variable_values_cat.DEBUG \"".toList ++
    (target.toList ++ ("\"; variable_values\n".toList ++ ("function_calls_cat.DEBUG \"".toList ++
      (target.toList ++ "\"; function_calls\n".toList))))))

theorem toList_traceConfigText (p : Project) (f : TraceFormatting) (mode : ExecutionMode) :
    (p.traceConfigText f mode).toList = "[formats]\n".toList ++ ("variable_values = \"".toList ++
      (f.joined ++ rulesText (p.traceTarget mode))) := by
  unfold traceConfigText rulesText TraceFormatting.joined TraceFormatting.seam
  simp only [String.toList_append]
  simp only [List.append_assoc]

theorem eq_of_twice {a b c s s' : List Char}
    (h : s ++ (a ++ (b ++ (s ++ c))) = s' ++ (a ++ (b ++ (s' ++ c)))) : s = s' := by
  have hlength := congrArg List.length h
  simp only [List.length_append] at hlength
  exact (List.append_inj h (by omega)).1

theorem rulesText_inj {target target' : String} (h : rulesText target = rulesText target') :
    target = target' := by
  simp only [rulesText, List.append_cancel_left_eq] at h
  exact String.toList_inj.1 (eq_of_twice h)

variable {p p' : Project} {f f' : TraceFormatting} {mode mode' : ExecutionMode}
  {target target' : String}

theorem joined_of_same_text (h : p.traceConfigText f mode = p'.traceConfigText f' mode') :
    f.joined ++ rulesText (p.traceTarget mode) =
      f'.joined ++ rulesText (p'.traceTarget mode') := by
  have hall := congrArg String.toList h
  simpa only [toList_traceConfigText, List.append_cancel_left_eq] using hall

/-- A format that stays on its line ends with the last quote of this line. -/
theorem format_of_line {a a' b b' : List Char} (ha : '\n' ∉ a) (ha' : '\n' ∉ a')
    (h : a ++ ("\"\n".toList ++ b) = a' ++ ("\"\n".toList ++ b')) : a = a' ∧ b = b' := by
  have hquote : ∀ s t : List Char, s ++ ("\"\n".toList ++ t) = (s ++ ['"']) ++ '\n' :: t := by
    intro s t
    simp
  rw [hquote, hquote] at h
  obtain ⟨hline, hrest⟩ := split_at_first (by simpa using ha) (by simpa using ha') h
  exact ⟨List.append_cancel_right hline, hrest⟩

theorem settings_of_lines (hf : f.OnOneLine) (hf' : f'.OnOneLine)
    (h : f.joined ++ rulesText target = f'.joined ++ rulesText target') :
    f = f' ∧ target = target' := by
  simp only [TraceFormatting.joined, TraceFormatting.seam, List.append_assoc] at h
  obtain ⟨hvalues, hrest⟩ := format_of_line hf.1 hf'.1 h
  obtain ⟨hcalls, hrules⟩ := format_of_line hf.2 hf'.2 (List.append_cancel_left hrest)
  exact ⟨TraceFormatting.eq_of_toList hvalues hcalls, rulesText_inj (congrArg (_ ++ ·) hrules)⟩

def lastRule (target : String) : List Char :=
  "function_calls_cat.DEBUG \"".toList ++ (target.toList ++ "\"; function_calls".toList)

theorem rulesText_eq_lastRule (target : String) :
    ∃ front, rulesText target = front ++ '\n' :: lastRule target ++ ['\n'] := by
  have hvalues : "\"; variable_values\n".toList = "\"; variable_values".toList ++ ['\n'] := rfl
  have hcalls : "\"; function_calls\n".toList = "\"; function_calls".toList ++ ['\n'] := rfl
  refine ⟨"\"\n".toList ++ ("[rules]\n".toList ++ ("variable_values_cat.DEBUG \"".toList ++
    (target.toList ++ "\"; variable_values".toList))), ?_⟩
  unfold rulesText lastRule
  rw [hvalues, hcalls]
  simp only [List.append_assoc, List.cons_append, List.nil_append]

theorem newline_notMem_lastRule (ht : '\n' ∉ target.toList) : '\n' ∉ lastRule target := by
  have hbefore : '\n' ∉ "function_calls_cat.DEBUG \"".toList := by simp
  have hafter : '\n' ∉ "\"; function_calls".toList := by simp
  unfold lastRule
  simp only [List.mem_append, not_or]
  exact ⟨hbefore, ht, hafter⟩

theorem target_of_line {a a' : List Char} (ht : '\n' ∉ target.toList)
    (ht' : '\n' ∉ target'.toList) (h : a ++ rulesText target = a' ++ rulesText target') :
    target = target' := by
  obtain ⟨front, hfront⟩ := rulesText_eq_lastRule target
  obtain ⟨front', hfront'⟩ := rulesText_eq_lastRule target'
  rw [hfront, hfront', ← List.append_assoc, ← List.append_assoc, ← List.append_assoc,
    ← List.append_assoc] at h
  have hlast := (split_at_last (newline_notMem_lastRule ht) (newline_notMem_lastRule ht')
    (List.append_cancel_right h)).2
  unfold lastRule at hlast
  exact String.toList_inj.1 (List.append_cancel_right (List.append_cancel_left hlast))

/-- A configuration in which each setting stays on its line has the text of no other one in which a
format does not. -/
theorem oneLine_of_same_text (hf : f.OnOneLine) (ht : '\n' ∉ target.toList)
    (h : f.joined ++ rulesText target = f'.joined ++ rulesText target') : f'.OnOneLine := by
  have hcount : ∀ (g : TraceFormatting) (t : String), (g.joined ++ rulesText t).count '\n' =
      g.variableValues.toList.count '\n' + g.functionCalls.toList.count '\n' +
        2 * t.toList.count '\n' + (TraceFormatting.seam ++ rulesText "").count '\n' := by
    intro g t
    simp only [TraceFormatting.joined, rulesText, List.count_append, String.toList_empty,
      List.count_nil]
    omega
  have hbreaks := congrArg (List.count '\n') h
  rw [hcount, hcount, List.count_eq_zero.2 hf.1, List.count_eq_zero.2 hf.2,
    List.count_eq_zero.2 ht] at hbreaks
  exact ⟨List.count_eq_zero.1 (by omega), List.count_eq_zero.1 (by omega)⟩

end Project

/-- Two trace configurations with the same text have the same settings, if no format goes on to
another line; it is enough that no setting of one of them does. Whatever the formats are, the target
is the same if no target goes on to another line. Then the formats are the same as well, unless both
pairs hold what stands between two formats, and every pair that does can be mistaken for another. -/
theorem trace_config_determines_settings {p p' : Project} {f f' : TraceFormatting}
    {mode mode' : ExecutionMode}
    (hsame : p.traceConfigText f mode = p'.traceConfigText f' mode') :
    (f.OnOneLine → (f'.OnOneLine ∨ '\n' ∉ (p.traceTarget mode).toList) →
      f = f' ∧ p.traceTarget mode = p'.traceTarget mode') ∧
    ('\n' ∉ (p.traceTarget mode).toList → '\n' ∉ (p'.traceTarget mode').toList →
      p.traceTarget mode = p'.traceTarget mode') ∧
    (p.traceTarget mode = p'.traceTarget mode' → f = f' ∨ f.Respells ∧ f'.Respells) ∧
    (f.Respells → ∃ g, g ≠ f ∧ p.traceConfigText g mode = p.traceConfigText f mode) := by
  have hjoined := Project.joined_of_same_text hsame
  refine ⟨fun hf hother => ?_, fun ht ht' => Project.target_of_line ht ht' hjoined, ?_, ?_⟩
  · rcases hother with hf' | ht
    · exact Project.settings_of_lines hf hf' hjoined
    · exact Project.settings_of_lines hf (Project.oneLine_of_same_text hf ht hjoined) hjoined
  · intro htarget
    rw [htarget] at hjoined
    exact TraceFormatting.respells_of_joined (List.append_cancel_right hjoined)
  · intro hrespells
    obtain ⟨g, hne, hg⟩ := hrespells.exists_joined
    refine ⟨g, hne, String.toList_inj.1 ?_⟩
    rw [Project.toList_traceConfigText, Project.toList_traceConfigText, hg]

namespace Demo

/-- The second format ends its line and defines itself anew. -/
def redefining : TraceFormatting := ⟨"%m", "%d\"\nfunction_calls = \"%s"⟩

/-- The first format ends its line and defines the second. -/
def predefining : TraceFormatting := ⟨"%m\"\nfunction_calls = \"%d", "%s"⟩

def ruleOf (target : String) : String :=
  "\"\n[rules]\nvariable_values_cat.DEBUG \"" ++ target

def secondRuleOf (target : String) : String :=
  "\"; variable_values\nfunction_calls_cat.DEBUG \"" ++ target

def plainTarget : String := "/demo/build/instrumented_demo.trace"

/-- A directory whose name holds the rules of another project. -/
def ruling : Path := ⟨"/x" ++ ruleOf plainTarget ++ secondRuleOf "/demo"⟩

/-- A format that holds the rules of a project in this directory. -/
def ruled : TraceFormatting :=
  ⟨"%m", "%d" ++ ruleOf "/x" ++ ruleOf plainTarget ++ secondRuleOf plainTarget ++
    secondRuleOf "/x"⟩

theorem traceTarget_below (front : String) (hfront : front ≠ "") :
    (Project.ofRoot ⟨front ++ "/demo"⟩).traceTarget .onHost =
      front ++ "/demo" ++ "/build" ++ "/instrumented_demo.trace" := by
  have hparts : (⟨front ++ "/demo"⟩ : Path).parts =
      Path.partsOf front.toList ++ [.name "demo".toList] := by
    simp only [Path.parts, String.toList_append]
    exact Path.partsOf_slash (by simpa using hfront) "demo".toList
  have hname : (⟨front ++ "/demo"⟩ : Path).fileName = some "demo" := by
    simp [Path.fileName, hparts]
  have hbinary : (Project.ofRoot ⟨front ++ "/demo"⟩).binaryName = "demo" := by
    simp only [Project.ofRoot, hname]
    rw [← String.toList_inj, String.toList_map]
    rfl
  have hdir : (Project.ofRoot ⟨front ++ "/demo"⟩).outputDir.text =
      front ++ "/demo" ++ "/" ++ "build" := by
    refine Path.text_join (c := 'o') ?_ (by decide) (by decide)
    simp [List.getLast?_append]
  have htrace : (Project.ofRoot ⟨front ++ "/demo"⟩).traceFileName = "instrumented_demo.trace" := by
    simp only [Project.traceFileName, Project.instrumentedBinaryName, hbinary]
    decide
  rw [Project.traceTarget, Project.traceFile, htrace, Project.product_text _ (by decide), hdir]
  simp only [String.append_assoc]
  rfl

end Demo

theorem trace_config_determines_settings_of_demo :
    ((Project.ofRoot ⟨"/a\"/demo"⟩).traceConfigText {} .inContainer =
        (Project.ofRoot ⟨"/b/demo"⟩).traceConfigText {} .inContainer ∧
      ({} : TraceFormatting).OnOneLine ∧
      (Project.ofRoot ⟨"/a\"/demo"⟩).traceTarget .inContainer =
        (Project.ofRoot ⟨"/b/demo"⟩).traceTarget .inContainer) ∧
    (Project.ofRoot ⟨"/demo"⟩).traceConfigText Demo.redefining .onHost =
        (Project.ofRoot ⟨"/demo"⟩).traceConfigText Demo.predefining .onHost ∧
      Demo.redefining.Respells ∧ Demo.predefining.Respells := by
  have htwins : (Project.ofRoot ⟨"/a\"/demo"⟩).traceConfigText {} .inContainer =
      (Project.ofRoot ⟨"/b/demo"⟩).traceConfigText {} .inContainer := by decide +kernel
  have hplain : ({} : TraceFormatting).OnOneLine := by
    unfold TraceFormatting.OnOneLine
    decide +kernel
  have hmistaken : (Project.ofRoot ⟨"/demo"⟩).traceConfigText Demo.redefining .onHost =
      (Project.ofRoot ⟨"/demo"⟩).traceConfigText Demo.predefining .onHost := by decide +kernel
  have hne : Demo.redefining ≠ Demo.predefining := by decide +kernel
  obtain ⟨hlines, -⟩ := trace_config_determines_settings htwins
  obtain ⟨-, -, hformats, -⟩ := trace_config_determines_settings hmistaken
  exact ⟨⟨htwins, hplain, (hlines hplain (.inl hplain)).2⟩, hmistaken,
    (hformats rfl).resolve_left hne⟩

/-- The text of one configuration stands for formats that are not its own, and for a target that is
not. -/
theorem trace_config_of_other_settings :
    ((Project.ofRoot ⟨"/demo"⟩).traceConfigText Demo.redefining .onHost =
        (Project.ofRoot ⟨"/demo"⟩).traceConfigText Demo.predefining .onHost ∧
      Demo.redefining.variableValues ≠ Demo.predefining.variableValues ∧
      Demo.redefining.functionCalls ≠ Demo.predefining.functionCalls) ∧
    (Project.ofRoot ⟨"/demo"⟩).traceConfigText Demo.ruled .onHost =
        (Project.ofRoot Demo.ruling).traceConfigText ⟨"%m", "%d"⟩ .onHost ∧
      (Project.ofRoot ⟨"/demo"⟩).traceTarget .onHost ≠
        (Project.ofRoot Demo.ruling).traceTarget .onHost := by
  have hplain : (Project.ofRoot ⟨"/demo"⟩).traceTarget .onHost = Demo.plainTarget := by
    decide +kernel
  have hruling : (Project.ofRoot Demo.ruling).traceTarget .onHost =
      Demo.ruling.text ++ "/build" ++ "/instrumented_demo.trace" :=
    Demo.traceTarget_below ("/x" ++ Demo.ruleOf Demo.plainTarget ++
      "\"; variable_values\nfunction_calls_cat.DEBUG \"") (by decide +kernel)
  refine ⟨by decide +kernel, ?_, ?_⟩
  · unfold Project.traceConfigText
    rw [hplain, hruling]
    decide +kernel
  · rw [hplain, hruling]
    decide +kernel

end TraceWorkbench
