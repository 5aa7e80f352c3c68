import TraceWorkbench.Proofs.Protocol
import TraceWorkbench.Proofs.WorkflowOrder

set_option autoImplicit false

/-!
# One process at a time

However the steps of workflows fall between each other, nobody has a ticket or exactly one party
has, and that ticket holds the slot. Only this party can have a process, and it keeps the ticket as
long as the process runs.
-/
namespace TraceWorkbench

namespace Party

def Ticketless (q : Party) : Prop :=
  ∃ x ph, q.doing = .acting x ∧ ph.hasTicket = false ∧ x.Obeys Phase.Ends ph

/-- What is left to do is to tell why, and to end with that. -/
def turnedAway (q : Party) (r : Refusal) : Party :=
  { q with doing := .acting <|
      .step (.publish (.warning "A process is already running" r.message)) fun _ =>
        .done (.refused r) }

/-- A party, the `i`-th of its pool, has the ticket and these processes. It can hear of a request to
cancel until its wait is over. -/
inductive Holds (t : Ticket) (i : Nat) (switch : KillSwitch) (q : Party) : List Process → Prop where
  | prepared {x : Activity (Result q.Answer)} {announced : Bool} (doing : q.doing = .acting x)
      (obeys : x.Obeys Phase.Ends (.holding t announced))
      (heard : announced = true → q.announced = some t.stage) (listens : switch ≠ .unheard) :
      Holds t i switch q []
  | launched {x : Activity (Result q.Answer)} {pid : UInt32} (doing : q.doing = .acting x)
      (obeys : x.Obeys Phase.Ends (.launched t pid)) (heard : q.announced = some t.stage)
      (listens : switch ≠ .unheard) : Holds t i switch q [⟨i, pid, some t.stage⟩]
  | watched {pid : UInt32} {echo : Bool} {vigil : Vigil}
      {next : Collected → Activity (Result q.Answer)}
      (doing : q.doing = .watching t pid echo vigil next)
      (obeys : ∀ c, (next c).Obeys Phase.Ends (.waited t (Outcome.signalOf c)))
      (heard : q.announced = some t.stage) (fits : vigil.wait.Fits switch)
      (gone : vigil.wait.isOver = true → vigil.ended.isSome = true) :
      Holds t i switch q (if vigil.ended.isSome then [] else [⟨i, pid, some t.stage⟩])
  | waited {x : Activity (Result q.Answer)} {signal : Option String} (doing : q.doing = .acting x)
      (obeys : x.Obeys Phase.Ends (.waited t signal)) : Holds t i switch q []

theorem Holds.cancel {t : Ticket} {i : Nat} {switch : KillSwitch} {q : Party}
    {running : List Process} (hq : q.Holds t i switch running) :
    q.Holds t i (if switch = .armed then .fired else switch) running := by
  have hlistens (h : switch ≠ .unheard) :
      (if switch = .armed then .fired else switch) ≠ .unheard := by
    split
    · decide
    · exact h
  cases hq with
  | prepared doing obeys heard listens => exact .prepared doing obeys heard (hlistens listens)
  | launched doing obeys heard listens => exact .launched doing obeys heard (hlistens listens)
  | watched doing obeys heard fits gone => exact .watched doing obeys heard fits.cancel gone
  | waited doing obeys => exact .waited doing obeys

end Party

structure Pool.Free {σ : Type} (p : Pool σ) : Prop where
  slot : p.world.slot.holder = none
  idle : p.running = []
  parties : ∀ (i : Nat) (q : Party), p.parties[i]? = some q → q.Ticketless

/-- The `i`-th party alone has a ticket, and this holds the slot. -/
structure Pool.Taken {σ : Type} (p : Pool σ) (i : Nat) (t : Ticket) (switch : KillSwitch) :
    Prop where
  slot : p.world.slot.HeldBy t switch
  party : ∃ q, p.parties[i]? = some q ∧ q.Holds t i switch p.running
  others : ∀ (j : Nat) (q : Party), j ≠ i → p.parties[j]? = some q → q.Ticketless

/-- The party has its ticket still, and a request to cancel that was made stands. -/
def Pool.TakenStill {σ : Type} (p : Pool σ) (i : Nat) (t : Ticket) (switch : KillSwitch) : Prop :=
  ∃ switch', p.Taken i t switch' ∧ (switch = .fired → switch' = .fired)

inductive Pool.Ordered {σ : Type} (p : Pool σ) : Prop where
  | free (free : p.Free)
  | taken {i : Nat} {t : Ticket} {switch : KillSwitch} (taken : p.Taken i t switch)

section

variable {σ : Type} {h : Host σ} {p : Pool σ} {i : Nat} {q : Party}

theorem World.answer_of_busy (h : Host σ) {w : World σ} {holder : Slot.Holder}
    (hw : w.slot.holder = some holder) (stage : StageKind) :
    w.answer h (.acquire stage) = (.error (.busy stage holder.stage), w) := by
  simp [answer, Slot.acquire_of_busy hw stage]

theorem World.answer_of_free (h : Host σ) {w : World σ} (hw : w.slot.holder = none)
    (stage : StageKind) : w.answer h (.acquire stage) = (.ok ⟨w.slot.nextId, stage⟩, { w with
      slot := ⟨some ⟨w.slot.nextId, stage, none, .armed⟩, w.slot.nextId + 1⟩ }) := by
  simp [answer, Slot.acquire_of_free hw stage]

theorem World.canAnswer {β : Type} (h : Host σ) (w : World σ) (e : Effect β) :
    e.CanAnswer (w.answer h e).1 := by
  cases e with
  | acquire stage =>
    cases hslot : w.slot.holder with
    | none =>
      rw [World.answer_of_free h hslot]
      rfl
    | some holder =>
      rw [World.answer_of_busy h hslot]
      trivial
  | files f => exact ⟨w.files, rfl⟩
  | _ => trivial

/-- One party has gone on; no other has. -/
def Pool.Moves (p p' : Pool σ) (i : Nat) (P : Party → Prop) : Prop :=
  ∃ q', p'.parties = p.parties.set i q' ∧ P q'

theorem Pool.Moves.spec {p' : Pool σ} {P : Party → Prop} (hm : p.Moves p' i P)
    (hq : p.parties[i]? = some q) : (∃ q', p'.parties[i]? = some q' ∧ P q') ∧
      ∀ j, j ≠ i → p'.parties[j]? = p.parties[j]? := by
  obtain ⟨q', hset, hP⟩ := hm
  obtain ⟨hi, -⟩ := List.getElem?_eq_some_iff.1 hq
  refine ⟨⟨q', by simp [hset, hi], hP⟩, fun j hj => ?_⟩
  rw [hset, List.getElem?_set_ne (Ne.symm hj)]

/-- What may come of a step of a party without a ticket. -/
inductive Pool.OtherStep (p p' : Pool σ) (i : Nat) : Prop where
  | idle (same : p' = p)
  | apart (slot : p'.world.slot = p.world.slot) (running : p'.running = p.running)
      (moves : p.Moves p' i Party.Ticketless)
  | took (t : Ticket) (free : p.world.slot.holder = none) (slot : p'.world.slot.HeldBy t .armed)
      (running : p'.running = p.running) (moves : p.Moves p' i fun q' => q'.Holds t i .armed [])

/-- A step of the party with the ticket after which it has both the ticket and the slot. -/
inductive Pool.KeptStep (p p' : Pool σ) (t : Ticket) (i : Nat) (switch : KillSwitch) : Prop where
  | idle (same : p' = p)
  | moved (switch' : KillSwitch) (slot : p'.world.slot.HeldBy t switch')
      (stands : switch = .fired → switch' = .fired)
      (moves : p.Moves p' i fun q' => q'.Holds t i switch' p'.running)

/-- What may come of a step of the party with the ticket: it keeps the slot as well, or gives up
both when no process is left. -/
inductive Pool.HolderStep (p p' : Pool σ) (t : Ticket) (i : Nat) (switch : KillSwitch) : Prop where
  | kept (step : p.KeptStep p' t i switch)
  | gaveUp (slot : p'.world.slot.holder = none) (none : p'.running = [])
      (moves : p.Moves p' i Party.Ticketless)

theorem Party.Ticketless.act (hq : q.Ticketless) : p.OtherStep (p.act h i q) i := by
  obtain ⟨Answer, doing, announced⟩ := q
  obtain ⟨x, ph, hdoing, hph, hobeys⟩ := hq
  simp only at x hdoing
  subst hdoing
  cases x with
  | done a => exact .idle rfl
  | step e next =>
    obtain ⟨hallows, hnext⟩ := hobeys
    cases ph with
    | holding | launched | waited => simp [Phase.hasTicket] at hph
    | stopped r => exact hallows.elim
    | turnedAway r =>
      cases e with
      | publish e =>
        exact .apart rfl (List.append_nil _) ⟨_, rfl, _, _, rfl, rfl, hnext () trivial⟩
      | _ => exact hallows.elim
    | killed stage signal =>
      cases e with
      | publish | files =>
        exact .apart rfl (List.append_nil _)
          ⟨_, rfl, _, _, rfl, rfl, hnext _ (World.canAnswer h p.world _)⟩
      | _ => exact hallows.elim
    | outside =>
      cases e with
      | publish | files | project | save | time =>
        exact .apart rfl (List.append_nil _)
          ⟨_, rfl, _, _, rfl, rfl, hnext _ (World.canAnswer h p.world _)⟩
      | acquire stage =>
        cases hholder : p.world.slot.holder with
        | some holder =>
          simp only [Pool.act, Pool.perform, World.answer_of_busy h hholder]
          exact .apart rfl (List.append_nil _)
            ⟨_, rfl, _, _, rfl, rfl, hnext (.error _) trivial⟩
        | none =>
          simp only [Pool.act, Pool.perform, World.answer_of_free h hholder]
          exact .took ⟨p.world.slot.nextId, stage⟩ hholder ⟨_, rfl, rfl, rfl, rfl⟩
            (List.append_nil _) ⟨_, rfl, .prepared rfl (hnext (.ok _) rfl)
              (fun hs => absurd hs Bool.false_ne_true) (by decide)⟩
      | _ => exact hallows.elim

section

variable {t : Ticket} {switch : KillSwitch} {Answer : Type} {heard : Option StageKind}

theorem Pool.act_prepared (hh : h.Faithful) (hslot : p.world.slot.HeldBy t switch)
    (hidle : p.running = []) {announced : Bool} {x : Activity (Result Answer)}
    (hobeys : x.Obeys Phase.Ends (.holding t announced))
    (hheard : announced = true → heard = some t.stage) (hlistens : switch ≠ .unheard) :
    p.HolderStep (p.act h i ⟨Answer, .acting x, heard⟩) t i switch := by
  cases x with
  | done a => exact hobeys.elim
  | step e next =>
    obtain ⟨hallows, hnext⟩ := hobeys
    have hnone : p.running ++ [] = [] := by simp [hidle]
    have hstays : ∀ q' : Party, q'.Holds t i switch [] →
        q'.Holds t i switch (p.running ++ []) := by
      intro q' hq'
      rwa [hnone]
    cases e with
    | publish e =>
      refine .kept <| .moved switch hslot id
        ⟨_, rfl, hstays _ (.prepared rfl (hnext () trivial) (fun hnow => ?_) hlistens)⟩
      simp only [Effect.announced?]
      cases hstage : e.startedStage? with
      | none => simpa using hheard (by simpa [hstage] using hnow)
      | some stage => simp [hallows stage hstage]
    | files | time =>
      exact .kept <| .moved switch hslot id ⟨_, rfl, hstays _
        (.prepared rfl (hnext _ (World.canAnswer h p.world _)) hheard hlistens)⟩
    | release t' =>
      obtain rfl : t' = t := hallows
      exact .gaveUp hslot.release hnone ⟨_, rfl, _, _, rfl, rfl, hnext () trivial⟩
    | launch c =>
      obtain ⟨files, host, hworld⟩ := hh.launch c p.world
      have hslot' : (h.launch c p.world).2.slot.HeldBy t switch := by
        rw [hworld]
        exact hslot
      refine .kept <| .moved switch hslot' id
        ⟨⟨Answer, .acting (next (h.launch c p.world).1), heard⟩, rfl, ?_⟩
      simp only [Pool.act, Pool.perform, World.answer, hidle, List.nil_append]
      cases (h.launch c p.world).1 with
      | error e => exact .prepared rfl (hnext (.error e) trivial) hheard hlistens
      | ok pid =>
        have hnow := hheard hallows
        subst hnow
        exact .launched rfl (hnext (.ok pid) trivial) rfl hlistens
    | _ => exact hallows.elim

theorem Pool.act_launched (hslot : p.world.slot.HeldBy t switch) {pid : UInt32}
    (hrunning : p.running = [⟨i, pid, some t.stage⟩]) {x : Activity (Result Answer)}
    (hobeys : x.Obeys Phase.Ends (.launched t pid)) (hlistens : switch ≠ .unheard) :
    p.HolderStep (p.act h i ⟨Answer, .acting x, some t.stage⟩) t i switch := by
  cases x with
  | done a => exact hobeys.elim
  | step e next =>
    obtain ⟨hallows, hnext⟩ := hobeys
    cases e with
    | recordPid t' pid' =>
      obtain ⟨rfl, -⟩ := hallows
      have hsame : p.running ++ [] = [⟨i, pid, some t'.stage⟩] := by simp [hrunning]
      have hholds : Party.Holds t' i switch ⟨Answer, .acting (next ()), some t'.stage⟩
          (p.running ++ []) := by
        rw [hsame]
        exact .launched rfl (hnext () trivial) rfl hlistens
      exact .kept <| .moved switch (hslot.recordPid pid') id ⟨_, rfl, hholds⟩
    | supervise t' pid' echo =>
      obtain ⟨rfl, rfl⟩ := hallows
      have hholds : Party.Holds t' i switch
          ⟨Answer, .watching t' pid' echo {} next, some t'.stage⟩
          (if ({} : Vigil).ended.isSome then [] else [⟨i, pid', some t'.stage⟩]) :=
        .watched rfl (fun c => hnext c trivial) rfl hlistens fun hover => absurd hover (by decide)
      exact .kept <| .moved switch hslot id ⟨_, rfl, hrunning ▸ hholds⟩
    | _ => exact hallows.elim

theorem Watch.isOver_of_collected {v : Watch σ} {c : Collected} (hc : v.collected? = some c) :
    v.wait.isOver = true := by
  unfold Watch.collected? at hc
  split at hc
  · rename_i hwait
    rw [hwait]
    rfl
  · simp at hc

theorem Pool.act_watching (hslot : p.world.slot.HeldBy t switch) {pid : UInt32} {echo : Bool}
    {vigil : Vigil} {next : Collected → Activity (Result Answer)}
    (hrunning : p.running = if vigil.ended.isSome then [] else [⟨i, pid, some t.stage⟩])
    (hobeys : ∀ c, (next c).Obeys Phase.Ends (.waited t (Outcome.signalOf c)))
    (hgone : vigil.wait.isOver = true → vigil.ended.isSome = true) :
    p.HolderStep (p.act h i ⟨Answer, .watching t pid echo vigil next, heard⟩) t i switch := by
  cases hc : (vigil.watch p.world).collected? with
  | none =>
    refine .kept <| .idle ?_
    simp only [act, hc]
  | some c =>
    have hended : vigil.ended.isSome = true := hgone (Watch.isOver_of_collected hc)
    rw [if_pos hended] at hrunning
    simp only [act, hc, put, hrunning]
    exact .kept <| .moved switch hslot id ⟨_, rfl, .waited rfl (hobeys c)⟩

theorem Pool.act_waited (hslot : p.world.slot.HeldBy t switch) (hidle : p.running = [])
    {signal : Option String} {x : Activity (Result Answer)}
    (hobeys : x.Obeys Phase.Ends (.waited t signal)) :
    p.HolderStep (p.act h i ⟨Answer, .acting x, heard⟩) t i switch := by
  cases x with
  | done a => exact hobeys.elim
  | step e next =>
    obtain ⟨hallows, hnext⟩ := hobeys
    cases e with
    | release t' =>
      obtain rfl : t' = t := hallows
      refine .gaveUp hslot.release ((List.append_nil _).trans hidle)
        ⟨_, rfl, next (), .released t'.stage signal, rfl, ?_, hnext () trivial⟩
      cases signal <;> rfl
    | _ => exact hallows.elim

end

theorem Party.Holds.act (hh : h.Faithful) {t : Ticket} {switch : KillSwitch}
    (hslot : p.world.slot.HeldBy t switch) (hq : q.Holds t i switch p.running) :
    p.HolderStep (p.act h i q) t i switch := by
  obtain ⟨Answer, doing, heard⟩ := q
  generalize hrunning : p.running = running at hq
  cases hq with
  | @prepared x announced hdoing hobeys hheard hlistens =>
    simp only at x hdoing hheard
    subst hdoing
    exact Pool.act_prepared hh hslot hrunning hobeys hheard hlistens
  | @launched x pid hdoing hobeys hheard hlistens =>
    simp only at x hdoing hheard
    subst hdoing hheard
    exact Pool.act_launched hslot hrunning hobeys hlistens
  | @watched pid echo vigil next hdoing hobeys hheard hfits hgone =>
    simp only at next hdoing hheard
    subst hdoing
    exact Pool.act_watching hslot hrunning hobeys hgone
  | @waited x signal hdoing hobeys =>
    simp only at x hdoing
    subst hdoing
    exact Pool.act_waited hslot hrunning hobeys

theorem Watch.ended_of_move {t : Ticket} {echo : Bool} {v : Watch σ} {m : Move σ}
    (h : v.ended.isSome = true) : (v.move t echo m).ended.isSome = true := by
  cases m with
  | exit e => simp [Watch.move]
  | work | print | cancel | poll => exact h

theorem Wait.isOver_poll {first : Branch} {ended : Option Waited} {asked : Bool} {wait : Wait}
    (h : (wait.poll first ended asked).isOver = true) :
    wait.isOver = true ∨ ended.isSome = true := by
  cases wait with
  | gone => exact .inl rfl
  | listening | killing => cases ended <;> cases asked <;> simp_all [Wait.poll, Wait.isOver]

theorem Watch.ended_of_isOver_move {t : Ticket} {echo : Bool} {v : Watch σ}
    (hv : v.wait.isOver = true → v.ended.isSome = true) (m : Move σ)
    (h : (v.move t echo m).wait.isOver = true) : (v.move t echo m).ended.isSome = true := by
  cases m with
  | poll first =>
    rcases Wait.isOver_poll h with hover | hended
    · exact hv hover
    · exact hended
  | exit e => exact Watch.ended_of_move (hv h)
  | work | print | cancel => exact hv h

theorem Pool.watch_watching {t : Ticket} {switch : KillSwitch} {Answer : Type}
    (hslot : p.world.slot.HeldBy t switch) {pid : UInt32} {echo : Bool} {vigil : Vigil}
    {next : Collected → Activity (Result Answer)}
    (hrunning : p.running = if vigil.ended.isSome then [] else [⟨i, pid, some t.stage⟩])
    (hobeys : ∀ c, (next c).Obeys Phase.Ends (.waited t (Outcome.signalOf c)))
    (hfits : vigil.wait.Fits switch)
    (hgone : vigil.wait.isOver = true → vigil.ended.isSome = true) (m : Move σ) :
    p.KeptStep (p.watch i ⟨Answer, .watching t pid echo vigil next, some t.stage⟩ m) t i
      switch := by
  have hgone' : ((vigil.watch p.world).move t echo m).wait.isOver = true →
      ((vigil.watch p.world).move t echo m).ended.isSome = true :=
    Watch.ended_of_isOver_move hgone m
  have hnow : (p.watch i ⟨Answer, .watching t pid echo vigil next, some t.stage⟩ m).running =
      if ((vigil.watch p.world).move t echo m).ended.isSome then []
      else [⟨i, pid, some t.stage⟩] := by
    simp only [watch, hrunning]
    cases hended : vigil.ended.isSome with
    | true =>
      have hstill : ((vigil.watch p.world).move t echo m).ended.isSome = true :=
        Watch.ended_of_move hended
      simp [hstill]
    | false => simp
  have hheld : (vigil.watch p.world).Held t switch := ⟨hslot, hfits⟩
  obtain ⟨switch', hheld', hstands⟩ := hheld.move echo m
  have hholds : Party.Holds t i switch'
      ⟨Answer, .watching t pid echo ((vigil.watch p.world).move t echo m).vigil next,
        some t.stage⟩
      (if ((vigil.watch p.world).move t echo m).vigil.ended.isSome then []
      else [⟨i, pid, some t.stage⟩]) := .watched rfl hobeys rfl hheld'.fits hgone'
  exact .moved switch' hheld'.slot hstands ⟨_, rfl, hnow ▸ hholds⟩

theorem Party.Holds.watch {t : Ticket} {switch : KillSwitch}
    (hslot : p.world.slot.HeldBy t switch) (hq : q.Holds t i switch p.running) (m : Move σ) :
    p.KeptStep (p.watch i q m) t i switch := by
  obtain ⟨Answer, doing, heard⟩ := q
  generalize hrunning : p.running = running at hq
  cases hq with
  | @prepared x announced hdoing | @launched x pid hdoing | @waited x signal hdoing =>
    simp only at x hdoing
    subst hdoing
    exact .idle rfl
  | @watched pid echo vigil next hdoing hobeys hheard hfits hgone =>
    simp only at next hdoing hheard
    subst hdoing hheard
    exact Pool.watch_watching hslot hrunning hobeys hfits hgone m

end

namespace Pool

variable {σ : Type} {h : Host σ} {p p' : Pool σ} {i k : Nat} {q : Party} {t : Ticket}
  {switch : KillSwitch}

theorem Taken.holds (hp : p.Taken i t switch) (hq : p.parties[i]? = some q) :
    q.Holds t i switch p.running := by
  obtain ⟨o, ho, hholds⟩ := hp.party
  rwa [Option.some.inj (ho.symm.trans hq)] at hholds

theorem Taken.still (hp : p.Taken i t switch) : p.TakenStill i t switch := ⟨switch, hp, id⟩

theorem Free.of_moves (slot : p'.world.slot.holder = none) (idle : p'.running = [])
    (hq : p.parties[i]? = some q) (hm : p.Moves p' i Party.Ticketless)
    (hothers : ∀ (j : Nat) (q' : Party), j ≠ i → p.parties[j]? = some q' → q'.Ticketless) :
    p'.Free := by
  obtain ⟨⟨q₁, hq₁, hless⟩, hsame⟩ := hm.spec hq
  refine ⟨slot, idle, fun j q' hj => ?_⟩
  by_cases hji : j = i
  · rw [hji, hq₁] at hj
    exact Option.some.inj hj ▸ hless
  · rw [hsame j hji] at hj
    exact hothers j q' hji hj

theorem Taken.of_moves (slot : p'.world.slot.HeldBy t switch) (hq : p.parties[i]? = some q)
    (hm : p.Moves p' i fun q' => q'.Holds t i switch p'.running)
    (hothers : ∀ (j : Nat) (q' : Party), j ≠ i → p.parties[j]? = some q' → q'.Ticketless) :
    p'.Taken i t switch := by
  obtain ⟨hparty, hsame⟩ := hm.spec hq
  refine ⟨slot, hparty, fun j q' hji hj => ?_⟩
  rw [hsame j hji] at hj
  exact hothers j q' hji hj

theorem Taken.of_other (hp : p.Taken k t switch) (hslot : p'.world.slot = p.world.slot)
    (hrunning : p'.running = p.running) (hik : i ≠ k) (hq : p.parties[i]? = some q)
    (hm : p.Moves p' i Party.Ticketless) : p'.Taken k t switch := by
  obtain ⟨⟨q₁, hq₁, hless⟩, hsame⟩ := hm.spec hq
  obtain ⟨o, ho, hholds⟩ := hp.party
  refine ⟨hslot ▸ hp.slot, ⟨o, (hsame k (Ne.symm hik)).trans ho, hrunning ▸ hholds⟩,
    fun j q' hjk hj => ?_⟩
  by_cases hji : j = i
  · rw [hji, hq₁] at hj
    exact Option.some.inj hj ▸ hless
  · rw [hsame j hji] at hj
    exact hp.others j q' hjk hj

theorem Taken.of_kept (hp : p.Taken i t switch) (hstep : p.KeptStep p' t i switch) :
    p'.TakenStill i t switch := by
  cases hstep with
  | idle hsame =>
    rw [hsame]
    exact hp.still
  | moved switch' hslot hstands hm =>
    obtain ⟨q, hq, -⟩ := hp.party
    exact ⟨switch', .of_moves hslot hq hm hp.others, hstands⟩

theorem Free.act (hp : p.Free) (hq : p.parties[i]? = some q) :
    (p.act h i q).Free ∨ ∃ t, (p.act h i q).Taken i t .armed := by
  have hothers : ∀ (j : Nat) (q' : Party), j ≠ i → p.parties[j]? = some q' → q'.Ticketless :=
    fun j q' _ => hp.parties j q'
  cases (hp.parties i q hq).act (h := h) (p := p) (i := i) with
  | idle hsame =>
    rw [hsame]
    exact .inl hp
  | apart hslot hrunning hm =>
    exact .inl (.of_moves (hslot ▸ hp.slot) (hrunning.trans hp.idle) hq hm hothers)
  | took t _ hslot hrunning hm =>
    rw [← hrunning.trans hp.idle] at hm
    exact .inr ⟨t, .of_moves hslot hq hm hothers⟩

theorem Taken.act (hh : h.Faithful) (hp : p.Taken k t switch) (hq : p.parties[i]? = some q) :
    (p.act h i q).TakenStill k t switch ∨ (p.act h i q).Free ∧ i = k := by
  by_cases hik : i = k
  · subst hik
    cases (hp.holds hq).act hh hp.slot with
    | kept hstep => exact .inl (hp.of_kept hstep)
    | gaveUp hslot hidle hm => exact .inr ⟨.of_moves hslot hidle hq hm hp.others, rfl⟩
  · cases (hp.others i q hik hq).act (h := h) (p := p) (i := i) with
    | idle hsame =>
      rw [hsame]
      exact .inl hp.still
    | apart hslot hrunning hm => exact .inl (hp.of_other hslot hrunning hik hq hm).still
    | took _ hfree => exact absurd hfree hp.slot.not_free

theorem watch_of_ticketless (hq : q.Ticketless) (m : Move σ) : p.watch i q m = p := by
  obtain ⟨x, ph, hdoing, -⟩ := hq
  simp only [Pool.watch, hdoing]

theorem Taken.watch (hp : p.Taken k t switch) (hq : p.parties[i]? = some q) (m : Move σ) :
    (p.watch i q m).TakenStill k t switch := by
  by_cases hik : i = k
  · subst hik
    exact hp.of_kept ((hp.holds hq).watch hp.slot m)
  · rw [watch_of_ticketless (hp.others i q hik hq)]
    exact hp.still

theorem Taken.turn_cancel (h : Host σ) (hp : p.Taken i t switch) :
    (p.turn h .cancel).Taken i t (if switch = .armed then .fired else switch) := by
  obtain ⟨q, hq, hholds⟩ := hp.party
  exact ⟨hp.slot.cancel, ⟨q, hq, hholds.cancel⟩, hp.others⟩

theorem Free.start {w : World σ} (hw : w.slot.holder = none) {parties : List Party}
    (hparties : ∀ q ∈ parties, q.Ticketless) : (Pool.start w parties).Free :=
  ⟨hw, rfl, fun _ _ hq => hparties _ (List.mem_of_getElem? hq)⟩

/-- A free slot stays free, but for a party that takes it. -/
theorem Free.turn (h : Host σ) (hp : p.Free) (τ : Turn σ) :
    (p.turn h τ).Free ∨ ∃ i t, τ = .act i ∧ (p.turn h τ).Taken i t .armed := by
  cases τ with
  | cancel =>
    refine .inl ⟨?_, hp.idle, hp.parties⟩
    simpa [Pool.turn, Slot.cancel_of_free hp.slot] using hp.slot
  | outside files host => exact .inl ⟨hp.slot, hp.idle, hp.parties⟩
  | act i =>
    cases hq : p.parties[i]? with
    | none => exact .inl (by simpa only [Pool.turn, hq] using hp)
    | some q =>
      rw [turn_act h hq]
      rcases hp.act hq with hfree | ⟨t, htaken⟩
      · exact .inl hfree
      · exact .inr ⟨i, t, rfl, htaken⟩
  | watch i m =>
    cases hq : p.parties[i]? with
    | none => exact .inl (by simpa only [Pool.turn, hq] using hp)
    | some q =>
      rw [turn_watch h hq, watch_of_ticketless (hp.parties i q hq)]
      exact .inl hp

/-- A ticket is given up by its own party only. -/
theorem Taken.turn (hh : h.Faithful) (hp : p.Taken i t switch) (τ : Turn σ) :
    (p.turn h τ).TakenStill i t switch ∨ (p.turn h τ).Free ∧ τ = .act i := by
  cases τ with
  | cancel => exact .inl ⟨_, hp.turn_cancel h, fun hfired => by simp [hfired]⟩
  | outside files host => exact .inl ⟨switch, ⟨hp.slot, hp.party, hp.others⟩, id⟩
  | act k =>
    cases hq : p.parties[k]? with
    | none => exact .inl (by simpa only [Pool.turn, hq] using hp.still)
    | some q =>
      rw [turn_act h hq]
      rcases hp.act hh hq with hstill | ⟨hfree, rfl⟩
      · exact .inl hstill
      · exact .inr ⟨hfree, rfl⟩
  | watch k m =>
    cases hq : p.parties[k]? with
    | none => exact .inl (by simpa only [Pool.turn, hq] using hp.still)
    | some q =>
      rw [turn_watch h hq]
      exact .inl (hp.watch hq m)

namespace Ordered

theorem turn (hh : h.Faithful) (hp : p.Ordered) (τ : Turn σ) : (p.turn h τ).Ordered := by
  cases hp with
  | free hp =>
    rcases hp.turn h τ with hfree | ⟨i, t, -, htaken⟩
    · exact .free hfree
    · exact .taken htaken
  | taken hp =>
    rcases hp.turn hh τ with ⟨switch', htaken, -⟩ | ⟨hfree, -⟩
    · exact .taken htaken
    · exact .free hfree

theorem after (hh : h.Faithful) (hp : p.Ordered) (ts : List (Turn σ)) :
    (p.after h ts).Ordered := by
  induction ts generalizing p with
  | nil => exact hp
  | cons τ ts ih => exact ih (hp.turn hh τ)

theorem running_le (hp : p.Ordered) : p.running.length ≤ 1 := by
  cases hp with
  | free hp => simp [hp.idle]
  | taken hp =>
    obtain ⟨q, -, holds⟩ := hp.party
    generalize p.running = running at holds
    cases holds with
    | prepared | launched | waited => simp
    | watched => split <;> simp

theorem stage_of_running (hp : p.Ordered) {r : Process} (hr : r ∈ p.running) :
    ∃ stage, r.stage = some stage ∧ p.world.slot.activeStage = some stage := by
  cases hp with
  | free hp => simp [hp.idle] at hr
  | @taken i t switch hp =>
    refine ⟨t.stage, ?_, hp.slot.activeStage⟩
    obtain ⟨q, -, holds⟩ := hp.party
    generalize p.running = running at holds hr
    cases holds with
    | prepared | waited => simp at hr
    | launched => simp [List.mem_singleton.1 hr]
    | watched =>
      split at hr
      · simp at hr
      · simp [List.mem_singleton.1 hr]

end Ordered

end Pool

theorem Activity.Obeys.eq_of_turnedAway {α : Type} {x : Activity (Result α)} {r : Refusal}
    (hx : x.Obeys Phase.Ends (.turnedAway r)) :
    x = .step (.publish (.warning "A process is already running" r.message)) fun _ =>
      .done (.refused r) := by
  cases x with
  | done a => exact hx.elim
  | step e next =>
    obtain ⟨hallows, hnext⟩ := hx
    cases e with
    | publish e =>
      obtain rfl : e = _ := hallows
      have hrest : next = fun _ => .done (.refused r) := by
        funext u
        have hend := hnext u trivial
        cases hu : next u with
        | done a =>
          rw [hu] at hend
          exact congrArg Activity.done hend
        | step e' next' =>
          rw [hu] at hend
          exact hend.1.elim
      rw [hrest]
    | _ => exact hallows.elim

section

variable {σ : Type} {h : Host σ} {p : Pool σ} {i : Nat} {q : Party} {stage active : StageKind}
  {next : Except Refusal Ticket → Activity (Result q.Answer)}

theorem Party.Holds.not_acquiring {t : Ticket} {switch : KillSwitch} {running : List Process}
    (hq : q.Holds t i switch running) : q.doing ≠ .acting (.step (.acquire stage) next) := by
  intro hacquiring
  cases hq with
  | prepared hdoing hobeys | launched hdoing hobeys | waited hdoing hobeys =>
    rw [hacquiring] at hdoing
    cases hdoing
    exact hobeys.1.elim
  | watched hdoing =>
    rw [hacquiring] at hdoing
    cases hdoing

theorem Party.Ticketless.next_of_busy (hq : q.Ticketless)
    (hdoing : q.doing = .acting (.step (.acquire stage) next)) (r : Refusal) :
    next (.error r) =
      .step (.publish (.warning "A process is already running" r.message)) fun _ =>
        .done (.refused r) := by
  obtain ⟨x, ph, hacting, hph, hobeys⟩ := hq
  rw [hdoing] at hacting
  cases hacting
  cases ph with
  | outside => exact (hobeys.2 (.error r) trivial).eq_of_turnedAway
  | _ => exact hobeys.1.elim

/-- A party that asks for the slot while it is held is told by which stage, and does nothing but
pass this on. -/
theorem Pool.Ordered.turns_away (hp : p.Ordered) (hq : p.parties[i]? = some q)
    (hdoing : q.doing = .acting (.step (.acquire stage) next))
    (hactive : p.world.slot.activeStage = some active) :
    p.turn h (.act i) = p.put i (q.turnedAway (.busy stage active)) := by
  cases hp with
  | free hp => simp [Slot.activeStage, hp.slot] at hactive
  | @taken k t switch hp =>
    have hik : i ≠ k := by
      rintro rfl
      exact (hp.holds hq).not_acquiring hdoing
    have hnext := (hp.others i q hik hq).next_of_busy hdoing (.busy stage active)
    obtain ⟨holder, hholder, -⟩ := hp.slot
    obtain rfl : holder.stage = active := by simpa [Slot.activeStage, hholder] using hactive
    rw [turn_act h hq]
    obtain ⟨Answer, doing, announced⟩ := q
    simp only at next hdoing hnext
    subst hdoing
    simp only [Pool.act, Pool.perform, World.answer_of_busy h hholder, hnext]
    simp [Pool.put, Party.turnedAway, Effect.launched?, Effect.announced?]

end

theorem Job.party_ticketless (b : Bench) (j : Job) : (j.party b).Ticketless := by
  obtain ⟨α, x, hparty, hx⟩ := j.party_orderly b
  rw [hparty]
  exact ⟨x.toActivity, .outside, rfl, rfl, hx⟩

/-- For any number of jobs on one session, and any order of their steps and of requests to cancel:
at most one process runs, the slot shows its stage, and whoever asks for the slot meanwhile is told
this stage and stops, with the world as it was. -/
theorem one_process_at_a_time {σ : Type} {h : Host σ} (hh : h.Faithful) {w : World σ}
    (hw : w.slot.holder = none) (jobs : List (Bench × Job)) (turns : List (Turn σ)) :
    let p := (Pool.start w (jobs.map fun (b, j) => j.party b)).after h turns
    p.running.length ≤ 1 ∧
    (∀ r ∈ p.running, ∃ stage, r.stage = some stage ∧ p.world.slot.activeStage = some stage) ∧
    ∀ active, p.world.slot.activeStage = some active → ∀ (i : Nat) (q : Party) (stage : StageKind)
      (next : Except Refusal Ticket → Activity (Result q.Answer)), p.parties[i]? = some q →
      q.doing = .acting (.step (.acquire stage) next) →
      p.turn h (.act i) = p.put i (q.turnedAway (.busy stage active)) := by
  have hparties : ∀ q ∈ jobs.map (fun (b, j) => Job.party b j), q.Ticketless := by
    intro q hq
    obtain ⟨⟨b, j⟩, -, rfl⟩ := List.mem_map.1 hq
    exact j.party_ticketless b
  have hp := (Pool.Ordered.free (.start hw hparties)).after hh turns
  exact ⟨hp.running_le, fun _ => hp.stage_of_running,
    fun _ hactive _ _ _ _ hq hdoing => hp.turns_away hq hdoing hactive⟩

namespace Demo

/-- Two users press the same button; the compiler of the first one runs when the second one gets as
far as the slot. -/
def rivals : Pool Unit :=
  (Pool.start (world (tree [])) ([(bench, .compileAndRunC), (bench, .compileAndRunC)].map
    fun (b, j) => Job.party b j)).after host
      (List.replicate 10 (.act 0) ++ List.replicate 3 (.act 1))

end Demo

theorem one_process_of_rivals :
    Demo.host.Faithful ∧ (Demo.world (Demo.tree [])).slot.holder = none ∧
    Demo.rivals.running = [⟨0, 1, some .compileC⟩] ∧ Demo.rivals.running.length ≤ 1 ∧
    Demo.rivals.world.slot.activeStage = some .compileC ∧
    ∃ (q : Party) (next : Except Refusal Ticket → Activity (Result q.Answer)),
      Demo.rivals.parties[1]? = some q ∧ q.doing = .acting (.step (.acquire .compileC) next) ∧
      Demo.rivals.turn Demo.host (.act 1) =
        Demo.rivals.put 1 (q.turnedAway (.busy .compileC .compileC)) := by
  have hh : Demo.host.Faithful := Host.scripted_faithful _
  have hfree : (Demo.world (Demo.tree [])).slot.holder = none := rfl
  obtain ⟨hone, -, hrefused⟩ := one_process_at_a_time hh hfree
    [(Demo.bench, .compileAndRunC), (Demo.bench, .compileAndRunC)]
    (List.replicate 10 (.act 0) ++ List.replicate 3 (.act 1))
  have hrunning : Demo.rivals.running = [⟨0, 1, some .compileC⟩] := rfl
  have hactive : Demo.rivals.world.slot.activeStage = some .compileC := rfl
  have hasks : ∃ (q : Party) (next : Except Refusal Ticket → Activity (Result q.Answer)),
      Demo.rivals.parties[1]? = some q ∧ q.doing = .acting (.step (.acquire .compileC) next) :=
    ⟨_, _, rfl, rfl⟩
  obtain ⟨q, next, hq, hdoing⟩ := hasks
  exact ⟨hh, hfree, hrunning, hone, hactive, q, next, hq, hdoing,
    hrefused _ hactive 1 q _ next hq hdoing⟩

end TraceWorkbench
