import TraceWorkbench.Proofs.StageDeeds

set_option autoImplicit false

/-!
# The order of deeds of many jobs

The deeds of all parties, in the order in which their turns came. The slot belongs to who took it
last, and each deed stands where the order of deeds has a place for it. So whatever must not happen
can be ruled out by looking at histories alone.
-/
namespace TraceWorkbench

/-- The deeds of parties, who are known by their numbers. -/
abbrev History := List (Nat × Deed)

namespace History

def of (hist : History) (i : Nat) : List Deed :=
  hist.filterMap fun (j, d) => if j = i then some d else none

/-- Where a party stands after its deeds. -/
def standing (hist : History) (i : Nat) : Option Standing := Standing.idle.after? (hist.of i)

def started (hist : History) (i : Nat) : List StageKind := (hist.of i).filterMap Deed.startedStage?

/-- Who has the slot after a deed. -/
def handOver (who : Option (Nat × StageKind)) : Nat × Deed → Option (Nat × StageKind)
  | (i, .took stage) => some (i, stage)
  | (_, .gaveBack) => none
  | _ => who

/-- Who took the slot last, and for which stage, unless it was given back since. -/
def holder? (hist : History) : Option (Nat × StageKind) := hist.foldl handOver none

variable {hist : History} {i j : Nat} {d : Deed}

theorem of_append (hist more : History) (i : Nat) :
    (hist ++ more).of i = hist.of i ++ more.of i := by
  simp [of]

theorem of_concat_self (hist : History) (i : Nat) (d : Deed) :
    (hist ++ [(i, d)]).of i = hist.of i ++ [d] := by
  simp [of]

theorem of_concat_other (hist : History) (hij : i ≠ j) (d : Deed) :
    (hist ++ [(i, d)]).of j = hist.of j := by
  simp [of, hij]

theorem standing_concat_self (hist : History) (i : Nat) (d : Deed) :
    (hist ++ [(i, d)]).standing i = (hist.standing i).bind fun st => st.next? d := by
  rw [standing, of_concat_self, Standing.after?_concat]
  rfl

theorem standing_concat_other (hist : History) (hij : i ≠ j) (d : Deed) :
    (hist ++ [(i, d)]).standing j = hist.standing j := by
  rw [standing, of_concat_other hist hij, standing]

theorem holder?_concat (hist : History) (x : Nat × Deed) :
    (hist ++ [x]).holder? = handOver hist.holder? x := by
  simp [holder?]

/-- Each deed has its place after the earlier ones of its party, and nobody takes the slot from
somebody else. -/
inductive Lawful : History → Prop where
  | nil : Lawful []
  | concat {hist : History} {i : Nat} {d : Deed} {st st' : Standing} (lawful : Lawful hist)
    (stood : hist.standing i = some st) (stands : st.next? d = some st')
    (free : ∀ stage, d = .took stage → hist.holder? = none) : Lawful (hist ++ [(i, d)])

theorem Lawful.of_concat {x : Nat × Deed} (h : Lawful (hist ++ [x])) :
    Lawful hist ∧ (∃ st st', hist.standing x.1 = some st ∧ st.next? x.2 = some st') ∧
      ∀ stage, x.2 = .took stage → hist.holder? = none := by
  generalize hall : hist ++ [x] = all at h
  cases h with
  | nil => simp at hall
  | concat lawful stood stands free =>
    obtain ⟨rfl, hx⟩ := List.append_inj' hall rfl
    obtain rfl := List.singleton_inj.1 hx
    exact ⟨lawful, ⟨_, _, stood, stands⟩, free⟩

theorem Lawful.of_append {front back : History} (h : Lawful (front ++ back)) : Lawful front := by
  induction back using List.reverseRecOn with
  | nil => simpa using h
  | append_singleton back x ih =>
    rw [← List.append_assoc] at h
    exact ih h.of_concat.1

end History

theorem Event.isPlain_iff {e : Event} :
    e.isPlain = true ↔ e.startedStage? = none ∧ e.busySign? = none := by
  simp [isPlain]

namespace History

variable {hist : History} {i j : Nat} {d : Deed} {stage : StageKind}

theorem Lawful.holds_iff (h : Lawful hist) : ∀ i, ∃ st, hist.standing i = some st ∧
    ∀ stage, st.holds? = some stage ↔ hist.holder? = some (i, stage) := by
  induction h with
  | nil => exact fun i => ⟨.idle, rfl, fun stage => by simp [Standing.holds?, holder?]⟩
  | @concat hist j d st st' lawful stood stands free ih =>
    intro i
    obtain ⟨stood', hstood, hown⟩ := ih j
    obtain rfl : stood' = st := Option.some.inj (hstood.symm.trans stood)
    rw [holder?_concat]
    by_cases hji : j = i
    · subst hji
      refine ⟨st', by rw [standing_concat_self, stood]; exact stands, fun stage => ?_⟩
      cases Standing.next_of_next? stands with
      | take => simp [Standing.holds?, handOver]
      | giveUp | giveBack => simp [Standing.holds?, handOver]
      | announce | sign | launch | settle | tell => exact hown stage
    · obtain ⟨other, hother, hholds⟩ := ih i
      refine ⟨other, by rw [standing_concat_other hist hji, hother], fun stage => ?_⟩
      rw [hholds stage]
      cases Standing.next_of_next? stands with
      | take => simp [free _ rfl, handOver, hji]
      | giveUp mine | giveBack mine =>
        have hmine : hist.holder? = some (j, mine) := (hown mine).1 rfl
        simp [hmine, handOver, hji]
      | announce | sign | launch | settle | tell => rfl

theorem Lawful.holder?_of_standing (h : Lawful hist) {st : Standing}
    (hst : hist.standing i = some st) (hholds : st.holds? = some stage) :
    hist.holder? = some (i, stage) := by
  obtain ⟨st', hst', hiff⟩ := h.holds_iff i
  obtain rfl : st' = st := Option.some.inj (hst'.symm.trans hst)
  exact (hiff stage).1 hholds

theorem Lawful.holder?_of_started {front back : History} {command : String}
    (h : Lawful (front ++ (i, .told (.stageStarted stage command)) :: back)) :
    front.holder? = some (i, stage) := by
  rw [List.append_cons] at h
  obtain ⟨hfront, ⟨st, st', hst, hnext⟩, -⟩ := h.of_append.of_concat
  cases Standing.next_of_next? hnext with
  | announce => exact hfront.holder?_of_standing hst rfl
  | tell st plain => simp [Event.isPlain_iff, Event.startedStage?] at plain

end History

end TraceWorkbench
