import TraceWorkbench.Proofs.ProductPaths
import TraceWorkbench.Proofs.Scanning
import TraceWorkbench.Proofs.WorkflowOrder

set_option autoImplicit false

/-!
# The specification that is verified

The compiler writes its document to a file with a fixed name, and the server takes the first
compiled specification that a scan of the products finds. They are the same file unless a scan meets
another one before.
-/
namespace TraceWorkbench

namespace Stage

theorem compileSpecification_written {S : Setting} {plan : Plan} {o : Outcome} {t t' : FileTree}
    {a : CompiledSpecification} (h : compileSpecification.interpret S plan o t = .ok (a, t')) :
    ∃ text, compiledDocument o = .ok (text, a.document) ∧
      t.writeText S.project.compiledSpec text = .ok t' := by
  rw [interpret_eq_ok_iff] at h
  simp only [compileSpecification] at h
  split at h
  · simp at h
  · rename_i text document hdoc
    split at h
    · simp at h
    · rename_i t₁ hwrite
      obtain ⟨ha, rfl⟩ := Prod.mk.inj h
      obtain rfl := Except.ok.inj ha
      exact ⟨text, hdoc, hwrite⟩

/-- A plan hands a file to the server: the first compiled specification that is found, which also
tells the streams to show. -/
structure Serves (S : Setting) (t : FileTree) (plan : Plan) (json : Path) : Prop where
  first : (Scan.compiledSpecs t S.project.outputDir).head? = some json
  input : plan.input = some json
  command : ∃ outputs, readOutputs t json = .ok outputs ∧
    plan.command = serverCommand S json outputs
  warnings : plan.warnings = choiceWarning "Found more than one TeSSLa JSON file"
    "compiled TeSSLa files" "used" S.project S.project.outputDir
    (Scan.compiledSpecs t S.project.outputDir) json

theorem serverPlan_serves {S : Setting} {t : FileTree} {plan : Plan}
    (h : runVerificationServer.plan S t = .ok plan) : ∃ json, Serves S t plan json := by
  simp only [runVerificationServer] at h
  cases hserver : requireOnHost S t S.config.tesslaServer .serverNotFound with
  | error e => simp [hserver, bind, Except.bind] at h
  | ok u =>
    simp only [hserver, bind, Except.bind] at h
    split at h
    · simp [throw, throwThe, MonadExceptOf.throw] at h
    · rename_i json hjson
      split at h
      · simp at h
      · rename_i outputs houtputs
        obtain rfl := Except.ok.inj h
        exact ⟨json, hjson, rfl, ⟨outputs, houtputs, rfl⟩, rfl⟩

end Stage

variable {σ : Type}

theorem AllPass.events {h : Host σ} (hh : h.Faithful) {S : Setting} {ss : List SomeStage}
    {w w' : World σ} (hpass : AllPass h S ss w w') : ∃ es, w'.events = w.events ++ es := by
  induction hpass with
  | nil w => exact ⟨[], by simp⟩
  | cons pass tail ih =>
    obtain ⟨plan, o, v, files, hran, -, rfl⟩ := pass
    obtain ⟨fs, hv, -⟩ := hran.events hh
    obtain ⟨es, hes⟩ := ih
    exact ⟨_, by rw [hes, hv, List.append_assoc, List.append_assoc, List.append_assoc]⟩

section

variable {h : Host σ} {b : Bench} {w w₀ w₂ : World σ} {p : Project}

end

namespace Demo

def run (products : Entries) : Result VerificationReport × World Unit :=
  bench.compileAndRunProject.runFrom host (world (tree products))

end Demo

end TraceWorkbench
