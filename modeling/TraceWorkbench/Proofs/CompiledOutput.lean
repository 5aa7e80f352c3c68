import TraceWorkbench.Proofs.FreshTrace
import TraceWorkbench.Proofs.TextBytes

set_option autoImplicit false

/-!
# The compiled specification, written and read

Nothing is written before the document is accepted, and the text that is written is the one that was
accepted. So the server reads the same document, and shows the outputs that it lists.
-/
namespace TraceWorkbench

theorem FileTree.readText_of_readBytes {t : FileTree} {p : Path} {text : String}
    (h : t.readBytes p = .ok text.utf8Bytes) : t.readText p = .ok text := by
  simp [readText, h, String.ofBytes?_utf8Bytes]

namespace Stage

theorem compiledDocument_eq_ok_iff {o : Outcome} {text : String} {document : Json.Value} :
    compiledDocument o = .ok (text, document) ↔ o.signal = none ∧
      o.stdout.toList.head? = some '\x7b' ∧ text = normalizeCompiledSpec o.stdout ∧
      Json.parse text = .ok document := by
  unfold compiledDocument
  cases hsignal : o.signal with
  | some signal => simp
  | none =>
    by_cases hbrace : o.stdout.toList.head? = some '\x7b'
    · simp only [hbrace, bne_self_eq_false, Bool.false_eq_true, if_false, true_and]
      cases hparse : Json.parse (normalizeCompiledSpec o.stdout) with
      | error e =>
        constructor
        · intro h
          simp at h
        · rintro ⟨rfl, hdocument⟩
          simp [hparse] at hdocument
      | ok value =>
        constructor
        · intro h
          obtain ⟨rfl, rfl⟩ := Prod.mk.inj (Except.ok.inj h)
          exact ⟨rfl, hparse⟩
        · rintro ⟨rfl, hdocument⟩
          rw [hparse] at hdocument
          rw [Except.ok.inj hdocument]
    · have hne : (o.stdout.toList.head? != some '\x7b') = true := by simpa using hbrace
      simp [hne, hbrace]

variable {S : Setting} {plan : Plan} {o : Outcome} {t t' : FileTree}

theorem compileSpecification_eq_ok_iff {a : CompiledSpecification} :
    compileSpecification.interpret S plan o t = .ok (a, t') ↔
      ∃ text, compiledDocument o = .ok (text, a.document) ∧ a.path = S.project.compiledSpec ∧
        a.source = plan.input ∧ t.writeText S.project.compiledSpec text = .ok t' := by
  constructor
  · intro h
    obtain ⟨text, hdocument, hwrite⟩ := compileSpecification_written h
    refine ⟨text, hdocument, ?_, ?_, hwrite⟩
    all_goals
      rw [interpret_eq_ok_iff] at h
      simp only [compileSpecification, hdocument, hwrite] at h
      rw [← Except.ok.inj (Prod.mk.inj h).1]
  · rintro ⟨text, hdocument, hpath, hsource, hwrite⟩
    rw [interpret_eq_ok_iff]
    simp only [compileSpecification, hdocument, hwrite]
    rw [← hpath, ← hsource]

theorem judge_of_rejected {fault : StageFault} (hrejected : compiledDocument o = .error fault) :
    compileSpecification.judge S plan o t = (.error fault, t) := by
  simp only [compileSpecification, hrejected]

theorem rejected_keeps_files {σ : Type} {h : Host σ} {w : World σ} {fault : StageFault}
    (hrejected : compiledDocument o = .error fault) :
    ((conclude S compileSpecification plan o).run h w).1 =
        .failure (failureOf compileSpecification plan o fault) ∧
      ((conclude S compileSpecification plan o).run h w).2.files = w.files := by
  have hjudged : compileSpecification.judge S plan o w.files = (.error fault, w.files) :=
    judge_of_rejected hrejected
  rw [run_conclude_error (interpret_eq_error_iff.2 (congrArg Prod.fst hjudged)), hjudged]
  exact ⟨rfl, rfl⟩

theorem readOutputs_of_written {p : Path} {text : String} {document : Json.Value}
    (hread : t.readText p = .ok text) (hparse : Json.parse text = .ok document) :
    readOutputs t p = .ok (TraceOutput.ofDocument document) := by
  simp only [readOutputs, hread, hparse]

theorem serverPlan_of_only {json : Path} {outputs : List TraceOutput}
    (hserver : S.mode = .onHost → t.exists? S.config.tesslaServer = true)
    (hfound : Scan.compiledSpecs t S.project.outputDir = [json])
    (hread : readOutputs t json = .ok outputs) :
    runVerificationServer.plan S t =
      .ok { command := serverCommand S json outputs, input := some json } := by
  have hrequire : requireOnHost S t S.config.tesslaServer .serverNotFound = .ok () := by
    unfold requireOnHost
    cases hm : S.mode with
    | onHost => simp [hserver hm]
    | inContainer => rfl
  simp only [runVerificationServer, hrequire, hfound, bind, Except.bind, List.head?_cons, hread]
  rfl

theorem selectors_of_serverCommand {json : Path} {outputs : List TraceOutput}
    (hc : S.mode = .inContainer → (serverCommand S json outputs).NulFree) :
    ∃ i, (serverCommand S json outputs).call? S.mode = some i ∧
      i.words.drop 3 = outputs.flatMap fun out => ["-o", out.selector] := by
  obtain ⟨honHost, hinContainer⟩ := call_serverCommand (s := S) json outputs
  cases hm : S.mode with
  | onHost => exact ⟨_, honHost hm, rfl⟩
  | inContainer => exact ⟨_, hinContainer hm (hc hm), rfl⟩

end Stage

/-- The result of the specification compiler is accepted just if it was not killed, printed
something that starts like a document, this can be parsed, and it can be written. Then the file that
was written is the only change and reads back as the text; and where it is the only compiled
specification, the server is planned for it and shows the outputs of the document. A result that is
not accepted changes no file. -/
theorem compiled_specification_all_or_nothing (S : Setting) (plan : Plan) (o : Outcome)
    (t : FileTree) :
    let text := normalizeCompiledSpec o.stdout
    ((∃ r, Stage.compileSpecification.interpret S plan o t = .ok r) ↔
      o.signal = none ∧ o.stdout.toList.head? = some '\x7b' ∧
        (∃ document, Json.parse text = .ok document) ∧
        ∃ t', t.writeText S.project.compiledSpec text = .ok t') ∧
    (∀ a t', Stage.compileSpecification.interpret S plan o t = .ok (a, t') →
      a.path = S.project.compiledSpec ∧ a.source = plan.input ∧
      Json.parse text = .ok a.document ∧
      (∃ q executable, t.resolve S.project.compiledSpec true = .ok q ∧ t.ChangesOnly t' q ∧
        t'.root.at? q = some (.file text.utf8Bytes executable)) ∧
      t'.readText S.project.compiledSpec = .ok text ∧
      (Scan.compiledSpecs t' S.project.outputDir = [S.project.compiledSpec] →
        (S.mode = .onHost → t'.exists? S.config.tesslaServer = true) →
        ∃ plan', Stage.runVerificationServer.plan S t' = .ok plan' ∧
          plan'.input = some S.project.compiledSpec ∧ plan'.warnings = [] ∧
          ((S.mode = .inContainer → plan'.command.NulFree) →
            ∃ i, plan'.command.call? S.mode = some i ∧ i.words.drop 3 =
              (TraceOutput.ofDocument a.document).flatMap fun out => ["-o", out.selector]))) ∧
    (¬ (o.signal = none ∧ o.stdout.toList.head? = some '\x7b' ∧
        ∃ document, Json.parse text = .ok document) →
      ∀ (σ : Type) (h : Host σ) (w : World σ), w.files = t →
        (∃ f, ((conclude S Stage.compileSpecification plan o).run h w).1 = .failure f) ∧
        ((conclude S Stage.compileSpecification plan o).run h w).2.files = t) := by
  intro text
  refine ⟨⟨?_, ?_⟩, ?_, ?_⟩
  · rintro ⟨⟨a, t'⟩, h⟩
    obtain ⟨_, hdocument, -, -, hwrite⟩ := Stage.compileSpecification_eq_ok_iff.1 h
    obtain ⟨hsignal, hbrace, rfl, hparse⟩ := Stage.compiledDocument_eq_ok_iff.1 hdocument
    exact ⟨hsignal, hbrace, ⟨_, hparse⟩, _, hwrite⟩
  · rintro ⟨hsignal, hbrace, ⟨document, hparse⟩, t', hwrite⟩
    have hdocument := Stage.compiledDocument_eq_ok_iff.2 ⟨hsignal, hbrace, rfl, hparse⟩
    exact ⟨(⟨S.project.compiledSpec, plan.input, document⟩, t'),
      Stage.compileSpecification_eq_ok_iff.2 ⟨_, hdocument, rfl, rfl, hwrite⟩⟩
  · intro a t' h
    obtain ⟨_, hdocument, hpath, hsource, hwrite⟩ := Stage.compileSpecification_eq_ok_iff.1 h
    obtain ⟨-, -, rfl, hparse⟩ := Stage.compiledDocument_eq_ok_iff.1 hdocument
    obtain ⟨front, name, hparts⟩ := Project.compiledSpec_named S.project
    obtain ⟨q, executable, hq, hchanges, hfile, hbytes⟩ := FileTree.write_changes hparts hwrite
    have hread := FileTree.readText_of_readBytes hbytes
    refine ⟨hpath, hsource, hparse, ⟨q, executable, hq, hchanges, hfile⟩, hread, ?_⟩
    intro hfound hserver
    exact ⟨_, Stage.serverPlan_of_only hserver hfound (Stage.readOutputs_of_written hread hparse),
      rfl, rfl, Stage.selectors_of_serverCommand⟩
  · intro hnot σ h w hw
    cases hdocument : Stage.compiledDocument o with
    | ok r =>
      obtain ⟨hsignal, hbrace, htext, hparse⟩ := Stage.compiledDocument_eq_ok_iff.1 hdocument
      rw [htext] at hparse
      exact absurd ⟨hsignal, hbrace, _, hparse⟩ hnot
    | error fault =>
      obtain ⟨hfailure, hfiles⟩ := Stage.rejected_keeps_files (h := h) (w := w) (S := S) hdocument
      exact ⟨⟨_, hfailure⟩, hfiles.trans hw⟩

namespace Demo

def inDocker : Setting := .inMode ⟨"/demo"⟩ {} .inContainer

/-- A document with a stray comma, in two chunks. -/
def printed : Outcome := {
  exitCode := some 0
  signal := none
  stdoutChunks := ["\x7b\"items\":[\x7b\"id\":1,\"name\":\"calls\",\"out\":true\x7d]", ",\x7d"]
  stderrChunks := ["warning"]
  startedAt := "" }

def compiled : Option (CompiledSpecification × FileTree) :=
  (Stage.compileSpecification.interpret inDocker default printed (tree [])).toOption

def served : Plan :=
  (compiled.bind fun r => (Stage.runVerificationServer.plan inDocker r.2).toOption).getD default

theorem served_nulFree : served.command.NulFree := by
  constructor <;> decide +kernel

theorem compiled_facts : compiled.map (fun r =>
    (Scan.compiledSpecs r.2 inDocker.project.outputDir,
      (TraceOutput.ofDocument r.1.document).flatMap fun out => ["-o", out.selector])) =
    some ([inDocker.project.compiledSpec], ["-o", "1:calls"]) := by
  decide +kernel

end Demo

theorem compiled_specification_of_demo : ∃ a t,
    Stage.compileSpecification.interpret Demo.inDocker default Demo.printed (Demo.tree []) =
      .ok (a, t) ∧
    t.readText Demo.inDocker.project.compiledSpec =
      .ok (normalizeCompiledSpec Demo.printed.stdout) ∧
    ∃ plan i, Stage.runVerificationServer.plan Demo.inDocker t = .ok plan ∧
      plan.command.call? .inContainer = some i ∧ i.words.drop 3 = ["-o", "1:calls"] := by
  obtain ⟨-, hwritten, -⟩ := compiled_specification_all_or_nothing Demo.inDocker default
    Demo.printed (Demo.tree [])
  have hfacts := Demo.compiled_facts
  have hnulFree := Demo.served_nulFree
  rw [Demo.served] at hnulFree
  rw [Demo.compiled] at hfacts hnulFree
  cases hr : Stage.compileSpecification.interpret Demo.inDocker default Demo.printed
      (Demo.tree []) with
  | error fault => simp [hr, Except.toOption] at hfacts
  | ok r =>
    obtain ⟨a, t⟩ := r
    rw [hr] at hfacts hnulFree
    obtain ⟨hfound, hlisted⟩ := Prod.mk.inj (Option.some.inj hfacts)
    obtain ⟨-, -, -, -, hread, hserved⟩ := hwritten a t hr
    obtain ⟨plan, hplan, -, -, hselectors⟩ := hserved hfound fun honHost =>
      absurd honHost (by decide)
    obtain ⟨i, hcall, hwords⟩ := hselectors fun _ => by
      simpa [hplan, Except.toOption] using hnulFree
    exact ⟨a, t, rfl, hread, plan, i, hplan, hcall, hwords.trans hlisted⟩

end TraceWorkbench
