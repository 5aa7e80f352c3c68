import TraceWorkbench.Proofs.DeedHistory
import TraceWorkbench.Proofs.MutualExclusion

set_option autoImplicit false

/-!
# What turns do to a party

Only its own turns move a party, and each moves it by one effect or one move of its watch. So what a
party has done in a pool is what its text does.
-/
namespace TraceWorkbench

namespace Party

variable {σ : Type}

/-- What is left of its text. Who watches a process has still to say what it collected. -/
def rest (q : Party) : Activity (Result q.Answer) :=
  match q.doing with
  | .acting x => x
  | .watching t pid echo _ next => .step (.supervise t pid echo) next

def deed? (h : Host σ) (w : World σ) (q : Party) : Option Deed :=
  match q.doing with
  | .acting (.step e _) => e.deed? (w.answer h e).1
  | _ => none

/-- The text with which it started, and these deeds, have led to what is left. -/
def CameBy (first : Party) (ds : List Deed) (q : Party) : Prop :=
  ∃ x : Workflow q.Answer, first = .of x ∧ x.toActivity.Does ds q.rest

/-- What a turn of anybody does to the `i`-th party, and its deed. -/
inductive Goes (h : Host σ) (w : World σ) (i : Nat) :
    Turn σ → Party → Option Deed → Party → Prop where
  | rests {τ : Turn σ} {q : Party} : Goes h w i τ q none q
  | acts {Answer β : Type} {e : Effect β} {next : β → Activity (Result Answer)}
    {heard : Option StageKind} : Goes h w i (.act i) ⟨Answer, .acting (.step e next), heard⟩
      (e.deed? (w.answer h e).1)
      ⟨Answer, .acting (next (w.answer h e).1), e.announced?.or heard⟩
  | begins {Answer : Type} {t : Ticket} {pid : UInt32} {echo : Bool}
    {next : Collected → Activity (Result Answer)} {heard : Option StageKind} :
    Goes h w i (.act i) ⟨Answer, .acting (.step (.supervise t pid echo) next), heard⟩ none
      ⟨Answer, .watching t pid echo {} next, heard⟩
  | watches {Answer : Type} {t : Ticket} {pid : UInt32} {echo : Bool} {vigil : Vigil}
    {next : Collected → Activity (Result Answer)} {heard : Option StageKind} (m : Move σ) :
    Goes h w i (.watch i m) ⟨Answer, .watching t pid echo vigil next, heard⟩ none
      ⟨Answer, .watching t pid echo ((vigil.watch w).move t echo m).vigil next, heard⟩
  | collects {Answer : Type} {t : Ticket} {pid : UInt32} {echo : Bool} {vigil : Vigil}
    {next : Collected → Activity (Result Answer)} {heard : Option StageKind} {c : Collected}
    (collected : (vigil.watch w).collected? = some c) :
    Goes h w i (.act i) ⟨Answer, .watching t pid echo vigil next, heard⟩ none
      ⟨Answer, .acting (next c), heard⟩

theorem CameBy.goes {h : Host σ} {w : World σ} {i : Nat} {τ : Turn σ} {first q q' : Party}
    {ds : List Deed} {d : Option Deed} (hcame : first.CameBy ds q) (hgoes : q.Goes h w i τ d q') :
    first.CameBy (ds ++ d.toList) q' := by
  obtain ⟨x, hfirst, hdoes⟩ := hcame
  have hsilent : ds ++ (none : Option Deed).toList = ds := List.append_nil ds
  cases hgoes with
  | rests => exact ⟨x, hfirst, hsilent.symm ▸ hdoes⟩
  | @acts Answer β e next heard => exact ⟨x, hfirst, hdoes.concat (World.canAnswer h w e)⟩
  | begins | watches => exact ⟨x, hfirst, hsilent.symm ▸ hdoes⟩
  | @collects Answer t pid echo vigil next heard c =>
    exact ⟨x, hfirst, hdoes.concat (e := .supervise t pid echo) (b := c) trivial⟩

end Party

namespace Pool

section

variable {σ : Type}

def deed? (h : Host σ) (p : Pool σ) : Turn σ → Option (Nat × Deed)
  | .act i => (p.parties[i]?).bind fun q => (q.deed? h p.world).map fun d => (i, d)
  | _ => none

def history (h : Host σ) : Pool σ → List (Turn σ) → History
  | _, [] => []
  | p, t :: ts => (p.deed? h t).toList ++ history h (p.turn h t) ts

/-- All parties have come from where they started by their deeds of the history. -/
def Traced (firsts : List Party) (hist : History) (p : Pool σ) : Prop :=
  ∀ i q, p.parties[i]? = some q → ∃ first : Party,
    firsts[i]? = some first ∧ first.CameBy (hist.of i) q

end

variable {σ : Type} {h : Host σ} {p : Pool σ} {hist : History} {firsts : List Party} {i j : Nat}
  {q q' : Party} {τ : Turn σ}

theorem history_append (h : Host σ) (p : Pool σ) (ts us : List (Turn σ)) :
    p.history h (ts ++ us) = p.history h ts ++ (p.after h ts).history h us := by
  induction ts generalizing p with
  | nil => rfl
  | cons τ ts ih => rw [List.cons_append, history, history, ih, after_cons, List.append_assoc]

theorem history_concat (h : Host σ) (p : Pool σ) (ts : List (Turn σ)) (τ : Turn σ) :
    p.history h (ts ++ [τ]) = p.history h ts ++ ((p.after h ts).deed? h τ).toList := by
  rw [history_append]
  simp [history]

theorem deed?_act {d : Deed} (hd : p.deed? h (.act i) = some (j, d)) : j = i := by
  simp only [deed?, Option.bind_eq_some_iff, Option.map_eq_some_iff, Prod.mk.injEq] at hd
  obtain ⟨q, -, d', -, hi, -⟩ := hd
  exact hi.symm

theorem act_other (hji : j ≠ i) : (p.act h j q).parties[i]? = p.parties[i]? := by
  obtain ⟨Answer, doing, heard⟩ := q
  cases doing with
  | watching t pid echo vigil next =>
    simp only [act]
    split
    · exact List.getElem?_set_ne hji
    · rfl
  | acting x =>
    cases x with
    | done a => rfl
    | step e next => cases e <;> exact List.getElem?_set_ne hji

theorem watch_other (hji : j ≠ i) (m : Move σ) :
    (p.watch j q m).parties[i]? = p.parties[i]? := by
  obtain ⟨Answer, doing, heard⟩ := q
  cases doing with
  | acting x => rfl
  | watching t pid echo vigil next => exact List.getElem?_set_ne hji

theorem turn_act_other (h : Host σ) (hji : j ≠ i) :
    (p.turn h (.act j)).parties[i]? = p.parties[i]? := by
  cases hj : p.parties[j]? with
  | none => simp only [turn, hj]
  | some o => rw [turn_act h hj, act_other hji]

theorem turn_watch_other (h : Host σ) (hji : j ≠ i) (m : Move σ) :
    (p.turn h (.watch j m)).parties[i]? = p.parties[i]? := by
  cases hj : p.parties[j]? with
  | none => simp only [turn, hj]
  | some o => rw [turn_watch h hj, watch_other hji]

theorem act_goes (h : Host σ) (hq : p.parties[i]? = some q) :
    ∃ q', (p.act h i q).parties[i]? = some q' ∧
      q.Goes h p.world i (.act i) (q.deed? h p.world) q' := by
  have hset (q' : Party) : (p.parties.set i q')[i]? = some q' :=
    List.getElem?_set_self (List.getElem?_eq_some_iff.1 hq).1
  obtain ⟨Answer, doing, heard⟩ := q
  cases doing with
  | watching t pid echo vigil next =>
    cases hc : (vigil.watch p.world).collected? with
    | none => exact ⟨_, by simpa only [act, hc] using hq, .rests⟩
    | some c => exact ⟨_, by simpa only [act, hc, put] using hset _, .collects hc⟩
  | acting x =>
    cases x with
    | done a => exact ⟨_, hq, .rests⟩
    | step e next =>
      cases e with
      | supervise t pid echo => exact ⟨_, hset _, .begins⟩
      | _ => exact ⟨_, hset _, .acts⟩

theorem watch_goes (h : Host σ) (hq : p.parties[i]? = some q) (m : Move σ) :
    ∃ q', (p.watch i q m).parties[i]? = some q' ∧
      q.Goes h p.world i (.watch i m) none q' := by
  obtain ⟨Answer, doing, heard⟩ := q
  cases doing with
  | acting x => exact ⟨_, hq, .rests⟩
  | watching t pid echo vigil next =>
    exact ⟨_, List.getElem?_set_self (List.getElem?_eq_some_iff.1 hq).1, .watches m⟩

theorem turn_none (h : Host σ) (hq : p.parties[i]? = none) (τ : Turn σ) :
    (p.turn h τ).parties[i]? = none := by
  cases τ with
  | cancel | outside => exact hq
  | act j =>
    by_cases hji : j = i
    · subst hji
      simp only [turn, hq]
    · rw [turn_act_other h hji, hq]
  | watch j m =>
    by_cases hji : j = i
    · subst hji
      simp only [turn, hq]
    · rw [turn_watch_other h hji, hq]

theorem turn_goes (h : Host σ) (hq : p.parties[i]? = some q) (τ : Turn σ) :
    ∃ q' d, (p.turn h τ).parties[i]? = some q' ∧ q.Goes h p.world i τ d q' ∧
      History.of (p.deed? h τ).toList i = d.toList := by
  cases τ with
  | cancel | outside => exact ⟨q, none, hq, .rests, rfl⟩
  | act j =>
    by_cases hji : j = i
    · subst hji
      obtain ⟨q', hq', hgoes⟩ := act_goes h hq
      rw [turn_act h hq]
      refine ⟨q', _, hq', hgoes, ?_⟩
      cases hd : q.deed? h p.world <;> simp [deed?, hq, hd, History.of]
    · have hnone : History.of (p.deed? h (.act j)).toList i = [] := by
        cases hd : p.deed? h (.act j) with
        | none => rfl
        | some x =>
          obtain ⟨k, d⟩ := x
          simp [deed?_act hd, History.of, hji]
      exact ⟨q, none, by rw [turn_act_other h hji, hq], .rests, hnone⟩
  | watch j m =>
    by_cases hji : j = i
    · subst hji
      obtain ⟨q', hq', hgoes⟩ := watch_goes h hq m
      rw [turn_watch h hq]
      exact ⟨q', none, hq', hgoes, rfl⟩
    · exact ⟨q, none, by rw [turn_watch_other h hji, hq], .rests, rfl⟩

theorem exists_goes_of_turn (h : Host σ) (τ : Turn σ) (hq' : (p.turn h τ).parties[i]? = some q') :
    ∃ q d, p.parties[i]? = some q ∧ q.Goes h p.world i τ d q' ∧
      History.of (p.deed? h τ).toList i = d.toList := by
  cases hq : p.parties[i]? with
  | none => simp [turn_none h hq τ] at hq'
  | some q =>
    obtain ⟨q'', d, hq'', hgoes, hdeed⟩ := turn_goes h hq τ
    obtain rfl : q'' = q' := Option.some.inj (hq''.symm.trans hq')
    exact ⟨q, d, rfl, hgoes, hdeed⟩

theorem Traced.turn (h : Host σ) (hp : p.Traced firsts hist) (τ : Turn σ) :
    (p.turn h τ).Traced firsts (hist ++ (p.deed? h τ).toList) := by
  intro i q' hq'
  obtain ⟨q, d, hq, hgoes, hdeed⟩ := exists_goes_of_turn h τ hq'
  obtain ⟨first, hfirst, hcame⟩ := hp i q hq
  refine ⟨first, hfirst, ?_⟩
  rw [History.of_append, hdeed]
  exact hcame.goes hgoes

theorem Traced.start (w : World σ) {firsts : List Party}
    (hfirsts : ∀ first ∈ firsts, ∃ (α : Type) (x : Workflow α), first = .of x) :
    (Pool.start w firsts).Traced firsts [] := by
  intro i q hq
  obtain ⟨α, x, rfl⟩ := hfirsts q (List.mem_of_getElem? hq)
  exact ⟨_, hq, x, rfl, .start _⟩

end Pool

end TraceWorkbench
