import TraceWorkbench.Proofs.OverlappingJobs

set_option autoImplicit false

/-!
# What the last sign says

A stage gives the slot back before it says that no process runs. Somebody else may take the slot in
between and start a process, and then the late sign comes last. This is the only way in which the
last sign can be wrong while a process runs.
-/
namespace TraceWorkbench

namespace History

variable {hist : History} {i j : Nat} {d : Deed} {stage : StageKind}

def signs (hist : History) : List Bool := hist.filterMap fun x => x.2.sign?

theorem signs_concat (hist : History) (i : Nat) (d : Deed) :
    (hist ++ [(i, d)]).signs = hist.signs ++ d.sign?.toList := by
  rw [signs, List.filterMap_append]
  rfl

/-- The party took the slot after `front` and has it still; `back` is what has happened since.
While it says that a process runs, the last sign says so too, or another party was late with a sign
that it owed before. -/
structure HeldSince (hist : History) (i : Nat) (stage : StageKind) (front back : History) :
    Prop where
  split : hist = front ++ (i, .took stage) :: back
  kept : (i, .gaveBack) ∉ back
  owed : ∀ j, j ≠ i → hist.standing j = some .owing → front.standing j = some .owing
  sign : hist.standing i = some (.busy stage) → hist.signs.getLast? = some true ∨
    ∃ j, j ≠ i ∧ front.standing j = some .owing ∧ (j, .told (.controlsChanged false)) ∈ back

theorem HeldSince.goOn {front back : History} (hsince : hist.HeldSince i stage front back)
    {st st' : Standing} (hst : hist.standing j = some st) (hnext : st.next? d = some st')
    (hkept : d ≠ .gaveBack)
    (hsign : (hist ++ [(j, d)]).standing i = some (.busy stage) →
      (hist ++ [(j, d)]).signs.getLast? = some true ∨ ∃ k, k ≠ i ∧
        front.standing k = some .owing ∧ (k, .told (.controlsChanged false)) ∈ back ++ [(j, d)]) :
    (hist ++ [(j, d)]).HeldSince i stage front (back ++ [(j, d)]) where
  split := by simp [hsince.split]
  kept hmem := by
    rcases List.mem_append.1 hmem with hmem | hmem
    · exact hsince.kept hmem
    · obtain ⟨-, hd⟩ := Prod.mk.inj (List.mem_singleton.1 hmem)
      exact hkept hd.symm
  owed k hki hk := by
    refine hsince.owed k hki ?_
    by_cases hjk : j = k
    · subst hjk
      rw [standing_concat_self, hst, Option.bind_some, hnext] at hk
      obtain rfl := Option.some.inj hk
      cases Standing.next_of_next? hnext with
      | giveBack => exact absurd rfl hkept
      | tell => exact hst
    · rwa [standing_concat_other hist hjk] at hk
  sign := hsign

/-- While the sign of a running process is out, a deed without a sign changes nothing. -/
theorem HeldSince.sign_of_silent {front back : History} (hsince : hist.HeldSince i stage front back)
    (hd : d.sign? = none) (hbusy : hist.standing i = some (.busy stage)) :
    (hist ++ [(j, d)]).signs.getLast? = some true ∨ ∃ k, k ≠ i ∧
      front.standing k = some .owing ∧ (k, .told (.controlsChanged false)) ∈ back ++ [(j, d)] := by
  rw [signs_concat, hd, Option.toList_none, List.append_nil]
  rcases hsince.sign hbusy with hlast | ⟨k, hki, howing, hlate⟩
  · exact .inl hlast
  · exact .inr ⟨k, hki, howing, List.mem_append_left _ hlate⟩

theorem last_sign_concat {b : Bool} (hd : d.sign? = some b) :
    (hist ++ [(j, d)]).signs.getLast? = some b := by
  simp [signs_concat, hd]

theorem sign_of_plain {e : Event} (he : e.isPlain = true) : (Deed.told e).sign? = none :=
  (Event.isPlain_iff.1 he).2

theorem Lawful.heldSince (h : Lawful hist) {i : Nat} {stage : StageKind}
    (hholder : hist.holder? = some (i, stage)) :
    ∃ front back, hist.HeldSince i stage front back := by
  induction h with
  | nil => simp [holder?] at hholder
  | @concat hist j d st st' lawful stood stands free ih =>
    rw [holder?_concat] at hholder
    have hstands : (hist ++ [(j, d)]).standing j = some st' := by
      rw [standing_concat_self, stood]
      exact stands
    by_cases hji : j = i
    · subst hji
      cases Standing.next_of_next? stands with
      | take mine =>
        obtain rfl : mine = stage := by simpa [handOver] using hholder
        refine ⟨hist, [], rfl, by simp, fun k hk howing => ?_, fun hbusy => ?_⟩
        · rwa [standing_concat_other hist (Ne.symm hk)] at howing
        · simp [hstands] at hbusy
      | giveUp | giveBack => simp [handOver] at hholder
      | sign =>
        obtain ⟨front, back, hsince⟩ := ih hholder
        exact ⟨front, _, hsince.goOn stood stands (by simp) fun _ => .inl (last_sign_concat rfl)⟩
      | announce | settle =>
        obtain ⟨front, back, hsince⟩ := ih hholder
        refine ⟨front, _, hsince.goOn stood stands (by simp) fun hbusy => ?_⟩
        simp [hstands] at hbusy
      | launch =>
        obtain ⟨front, back, hsince⟩ := ih hholder
        refine ⟨front, _, hsince.goOn stood stands (by simp) fun hbusy => ?_⟩
        exact hsince.sign_of_silent rfl (stood.trans (hstands.symm.trans hbusy))
      | tell st plain =>
        obtain ⟨front, back, hsince⟩ := ih hholder
        refine ⟨front, _, hsince.goOn stood stands (by simp) fun hbusy => ?_⟩
        exact hsince.sign_of_silent (sign_of_plain plain)
          (stood.trans (hstands.symm.trans hbusy))
    · have hsame := standing_concat_other hist hji d
      cases Standing.next_of_next? stands with
      | take => simp [handOver, hji] at hholder
      | giveUp | giveBack => simp [handOver] at hholder
      | sign =>
        obtain ⟨front, back, hsince⟩ := ih hholder
        exact ⟨front, _, hsince.goOn stood stands (by simp) fun _ => .inl (last_sign_concat rfl)⟩
      | settle =>
        obtain ⟨front, back, hsince⟩ := ih hholder
        refine ⟨front, _, hsince.goOn stood stands (by simp) fun _ => .inr ⟨j, hji, ?_, ?_⟩⟩
        · exact hsince.owed j hji stood
        · exact List.mem_append_right _ (List.mem_singleton_self _)
      | announce | launch =>
        obtain ⟨front, back, hsince⟩ := ih hholder
        refine ⟨front, _, hsince.goOn stood stands (by simp) fun hbusy => ?_⟩
        exact hsince.sign_of_silent rfl (hsame.symm.trans hbusy)
      | tell st plain =>
        obtain ⟨front, back, hsince⟩ := ih hholder
        refine ⟨front, _, hsince.goOn stood stands (by simp) fun hbusy => ?_⟩
        exact hsince.sign_of_silent (sign_of_plain plain) (hsame.symm.trans hbusy)

end History

/-- For any number of jobs on one session and any order of their steps: while a job has said that a
process runs and has not given the slot back, which holds for every process there is, the last sign
says so too; or else another job had given the slot back before this one took it, owed its sign
still, and has given it since. -/
theorem last_sign_wrong_only_if_late {σ : Type} {h : Host σ} (hh : h.Faithful) {w : World σ}
    (hw : w.slot.holder = none) (jobs : List (Bench × Job)) (turns : List (Turn σ)) :
    let start := Pool.start w (jobs.map fun (b, j) => j.party b)
    let hist := start.history h turns
    let p := start.after h turns
    (∀ r ∈ p.running, ∃ stage, hist.standing r.party = some (.busy stage)) ∧
    ∀ i stage, hist.standing i = some (.busy stage) → ∃ front back : History,
      hist = front ++ (i, .took stage) :: back ∧ (i, .gaveBack) ∉ back ∧
      ((p.world.events.filterMap Event.busySign?).getLast? = some true ∨
        ∃ j, j ≠ i ∧ front.standing j = some .owing ∧
          (j, .told (.controlsChanged false)) ∈ back) := by
  intro start hist p
  have hp : p.Records _ _ hist := Pool.records_of_jobs hh hw jobs turns
  refine ⟨hp.running, fun i stage hbusy => ?_⟩
  obtain ⟨front, back, hsince⟩ := hp.lawful.heldSince (hp.lawful.holder?_of_standing hbusy rfl)
  refine ⟨front, back, hsince.split, hsince.kept, ?_⟩
  refine (hsince.sign hbusy).imp_left fun hlast => ?_
  change (hist.filterMap fun x => x.2.sign?).getLast? = some true at hlast
  rw [hp.signs, List.getLast?_append, hlast]
  rfl

namespace Demo

/-- Two users compile and run. The first compiler is gone and the slot is free again; the second
user takes it and starts a compiler before the first one hears that none runs. -/
def late : List (Turn Unit) := rounds 0 13 ++ List.replicate 10 (.act 1) ++ [.act 0]

def lateStart : Pool Unit :=
  .start (world (tree [])) ([(bench, .compileAndRunC), (bench, .compileAndRunC)].map
    fun (b, j) => Job.party b j)

end Demo

theorem sign_of_late_user :
    Demo.host.Faithful ∧ (Demo.world (Demo.tree [])).slot.holder = none ∧
    (Demo.lateStart.history Demo.host Demo.late).standing 1 = some (.busy .compileC) ∧
    ∃ front back : History,
      Demo.lateStart.history Demo.host Demo.late = front ++ (1, .took .compileC) :: back ∧
      ∃ j, j ≠ 1 ∧ front.standing j = some .owing ∧
        (j, .told (.controlsChanged false)) ∈ back := by
  have hh : Demo.host.Faithful := Host.scripted_faithful _
  have hfree : (Demo.world (Demo.tree [])).slot.holder = none := rfl
  have hbusy : (Demo.lateStart.history Demo.host Demo.late).standing 1 =
      some (.busy .compileC) := by decide +kernel
  obtain ⟨-, hsigns⟩ := last_sign_wrong_only_if_late hh hfree
    [(Demo.bench, .compileAndRunC), (Demo.bench, .compileAndRunC)] Demo.late
  obtain ⟨front, back, hsplit, -, htrue | hlate⟩ := hsigns 1 .compileC hbusy
  · exact absurd htrue (by decide +kernel)
  · exact ⟨hh, hfree, hbusy, front, back, hsplit, hlate⟩

/-- A compiler runs, and the last sign says that none does. -/
theorem late_sign_comes_last :
    (Demo.lateStart.after Demo.host Demo.late).running = [⟨1, 1, some .compileC⟩] ∧
    (Demo.lateStart.history Demo.host Demo.late).standing 1 = some (.busy .compileC) ∧
    (Demo.lateStart.after Demo.host Demo.late).world.slot.activeStage = some .compileC ∧
    ((Demo.lateStart.after Demo.host Demo.late).world.events.filterMap
      Event.busySign?).getLast? = some false := by
  decide +kernel

end TraceWorkbench
