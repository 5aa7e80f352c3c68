import TraceWorkbench.Proofs.PartyTurns

set_option autoImplicit false

/-!
# The history of a pool

The slot belongs to the party that took it last, and the signs that were given and the processes
that run are as the deeds say. Each deed stands where the order of deeds has a place for it.
-/
namespace TraceWorkbench

def Phase.ticket? : Phase → Option Ticket
  | holding t _ | launched t _ | waited t _ => some t
  | _ => none

theorem Pool.Ordered.exists_phase {σ : Type} {p : Pool σ} {i : Nat} {q : Party} {β : Type}
    {e : Effect β} {next : β → Activity (Result q.Answer)} (hp : p.Ordered)
    (hq : p.parties[i]? = some q) (hdoing : q.doing = .acting (.step e next)) :
    ∃ ph : Phase, ph.Allows e ∧
      ∀ t, ph.ticket? = some t → ∃ switch, p.world.slot.HeldBy t switch := by
  have hticketless (hless : q.Ticketless) : ∃ ph : Phase, ph.Allows e ∧
      ∀ t, ph.ticket? = some t → ∃ switch, p.world.slot.HeldBy t switch := by
    obtain ⟨x, ph, hacting, hph, hobeys⟩ := hless
    rw [hdoing] at hacting
    obtain rfl := Doing.acting.inj hacting
    refine ⟨ph, hobeys.1, fun t ht => ?_⟩
    cases ph <;> simp [Phase.hasTicket, Phase.ticket?] at hph ht
  cases hp with
  | free hp => exact hticketless (hp.parties i q hq)
  | @taken k t switch hp =>
    by_cases hik : i = k
    · subst hik
      have holds := hp.holds hq
      generalize p.running = running at holds
      cases holds with
      | prepared doing obeys | launched doing obeys | waited doing obeys =>
        rw [hdoing] at doing
        obtain rfl := Doing.acting.inj doing
        refine ⟨_, obeys.1, fun t' ht => ?_⟩
        obtain rfl := Option.some.inj ht
        exact ⟨switch, hp.slot⟩
      | watched doing =>
        rw [hdoing] at doing
        simp at doing
    · exact hticketless (hp.others i q hik hq)

/-- The stage that the slot shows after a deed. -/
def Deed.shows (shown : Option StageKind) : Deed → Option StageKind
  | took stage => some stage
  | gaveBack => none
  | _ => shown

namespace Slot

theorem activeStage_modify (s : Slot) (t : Ticket) {f : Holder → Holder}
    (hf : ∀ h, (f h).stage = h.stage) :
    (s.modify t fun h => some (f h)).activeStage = s.activeStage := by
  unfold modify
  cases hs : s.holder with
  | none => simp [activeStage, hs]
  | some holder =>
    by_cases hid : holder.id = t.id
    · simp [activeStage, hs, hid, hf]
    · simp [activeStage, hs, hid]

theorem activeStage_cancel (s : Slot) : s.cancel.2.activeStage = s.activeStage := by
  cases hs : s.holder with
  | none => rw [cancel_of_free hs]
  | some holder => simp [cancel_of_held hs, activeStage, hs]

end Slot

/-- To watch a process is the one effect that takes more than one turn. -/
def Effect.isWatch : {β : Type} → Effect β → Bool
  | _, .supervise .. => true
  | _, _ => false

section

variable {σ β : Type} {h : Host σ} {w : World σ} {e : Effect β} {ph : Phase}

theorem World.activeStage_answer (hh : h.Faithful) (he : e.isWatch = false) (hallows : ph.Allows e)
    (hheld : ∀ t, ph.ticket? = some t → ∃ switch, w.slot.HeldBy t switch) :
    (w.answer h e).2.slot.activeStage = (e.deed? (w.answer h e).1).elim w.slot.activeStage
      (Deed.shows w.slot.activeStage) := by
  cases e with
  | publish | files | project | save | time => rfl
  | acquire stage =>
    cases hslot : w.slot.holder with
    | some holder =>
      rw [World.answer_of_busy h hslot]
      rfl
    | none =>
      rw [World.answer_of_free h hslot]
      rfl
  | release t =>
    have ht : ∃ switch, w.slot.HeldBy t switch := by
      cases ph with
      | holding t' _ | waited t' _ =>
        obtain rfl : t = t' := hallows
        exact hheld t rfl
      | _ => exact hallows.elim
    obtain ⟨switch, ht⟩ := ht
    simp [World.answer, Effect.deed?, Deed.shows, Slot.activeStage, ht.release]
  | launch c =>
    obtain ⟨files, host, hworld⟩ := hh.launch c w
    simp only [World.answer, hworld]
    cases (h.launch c w).1 <;> rfl
  | recordPid t pid => exact Slot.activeStage_modify w.slot t fun _ => rfl
  | supervise t pid echo => simp [Effect.isWatch] at he
  | runAside c => cases ph <;> exact hallows.elim

theorem World.signs_answer (hh : h.Faithful) (he : e.isWatch = false) (hallows : ph.Allows e) :
    (w.answer h e).2.events.filterMap Event.busySign? =
      w.events.filterMap Event.busySign? ++
        ((e.deed? (w.answer h e).1).bind Deed.sign?).toList := by
  cases e with
  | publish e =>
    change (w.events ++ [e]).filterMap Event.busySign? = _
    rw [List.filterMap_append]
    cases hsign : e.busySign? <;> simp [Effect.deed?, Deed.sign?, hsign]
  | files | project | save | time | release | recordPid =>
    simp [World.answer, Effect.deed?, Deed.sign?]
  | acquire stage =>
    cases hslot : w.slot.holder with
    | some holder => simp [World.answer_of_busy h hslot, Effect.deed?]
    | none => simp [World.answer_of_free h hslot, Effect.deed?, Deed.sign?]
  | launch c =>
    obtain ⟨files, host, hworld⟩ := hh.launch c w
    simp only [World.answer, hworld]
    cases (h.launch c w).1 <;> simp [Effect.deed?, Deed.sign?]
  | supervise t pid echo => simp [Effect.isWatch] at he
  | runAside c => cases ph <;> exact hallows.elim

theorem Effect.deed?_of_launched {b : β} {pid : UInt32} (hb : e.launched? b = some pid) :
    e.deed? b = some (.launched pid) := by
  unfold launched? at hb
  split at hb
  · rw [← Option.some.inj hb]
    rfl
  · simp at hb

theorem World.activeStage_of_took {stage : StageKind}
    (hd : e.deed? (w.answer h e).1 = some (.took stage)) : w.slot.activeStage = none := by
  cases hslot : w.slot.holder with
  | none => simp [Slot.activeStage, hslot]
  | some holder =>
    cases e with
    | acquire stage => simp [World.answer_of_busy h hslot, Effect.deed?] at hd
    | launch c =>
      simp only [World.answer] at hd
      cases hl : (h.launch c w).1 <;> simp [hl, Effect.deed?] at hd
    | _ => simp [Effect.deed?] at hd

end

/-- What everybody sees of a turn: the stage that the slot shows, the signs that were given, and the
processes. -/
structure Pool.SeenToGo {σ : Type} (p p' : Pool σ) (d : Option (Nat × Deed)) : Prop where
  slot : p'.world.slot.activeStage =
    d.elim p.world.slot.activeStage fun x => x.2.shows p.world.slot.activeStage
  free : ∀ i stage, d = some (i, .took stage) → p.world.slot.activeStage = none
  signs : p'.world.events.filterMap Event.busySign? =
    p.world.events.filterMap Event.busySign? ++ (d.bind fun x => x.2.sign?).toList
  running : ∀ r ∈ p'.running, r ∈ p.running ∨ ∃ pid, d = some (r.party, .launched pid)

namespace Pool

variable {σ : Type} {h : Host σ} {p : Pool σ} {i : Nat} {q : Party}

theorem SeenToGo.unseen {p' : Pool σ} (hslot : p'.world.slot.activeStage = p.world.slot.activeStage)
    (hsigns : p'.world.events.filterMap Event.busySign? =
      p.world.events.filterMap Event.busySign?)
    (hrunning : ∀ r ∈ p'.running, r ∈ p.running) : p.SeenToGo p' none where
  slot := hslot
  free _ _ h := by simp at h
  signs := by simpa using hsigns
  running r hr := .inl (hrunning r hr)

theorem perform_seen (hh : h.Faithful) {β : Type} {e : Effect β}
    {next : β → Activity (Result q.Answer)} (he : e.isWatch = false) {ph : Phase}
    (hallows : ph.Allows e)
    (hheld : ∀ t, ph.ticket? = some t → ∃ switch, p.world.slot.HeldBy t switch) :
    p.SeenToGo (p.perform h i q e next)
      ((e.deed? (p.world.answer h e).1).map fun d => (i, d)) where
  slot := by
    rw [Option.elim_map]
    exact World.activeStage_answer hh he hallows hheld
  free j stage hd := by
    obtain ⟨d, hd, hj⟩ := Option.map_eq_some_iff.1 hd
    obtain ⟨-, rfl⟩ := Prod.mk.inj hj
    exact World.activeStage_of_took hd
  signs := by
    rw [Option.bind_map]
    exact World.signs_answer hh he hallows
  running r hr := by
    rcases List.mem_append.1 hr with hr | hr
    · exact .inl hr
    · obtain ⟨pid, hpid, rfl⟩ := Option.map_eq_some_iff.1 (Option.mem_toList.1 hr)
      exact .inr ⟨pid, by rw [Effect.deed?_of_launched hpid]; rfl⟩

theorem act_seen (hh : h.Faithful) (hp : p.Ordered) (hq : p.parties[i]? = some q) :
    p.SeenToGo (p.act h i q) ((q.deed? h p.world).map fun d => (i, d)) := by
  obtain ⟨Answer, doing, heard⟩ := q
  have hunseen : p.SeenToGo p none := .unseen rfl rfl fun r hr => hr
  cases doing with
  | watching t pid echo vigil next =>
    cases hc : (vigil.watch p.world).collected? with
    | none =>
      simp only [act, hc]
      exact hunseen
    | some c =>
      simp only [act, hc]
      exact .unseen rfl rfl fun r hr => hr
  | acting x =>
    cases x with
    | done a => exact hunseen
    | step e next =>
      obtain ⟨ph, hallows, hheld⟩ := hp.exists_phase hq rfl
      cases hwatch : e.isWatch with
      | true =>
        cases e with
        | supervise t pid echo => exact .unseen rfl rfl fun r hr => hr
        | _ => simp [Effect.isWatch] at hwatch
      | false =>
        have hact : p.act h i ⟨Answer, .acting (.step e next), heard⟩ =
            p.perform h i ⟨Answer, .acting (.step e next), heard⟩ e next := by
          cases e with
          | supervise t pid echo => simp [Effect.isWatch] at hwatch
          | _ => rfl
        rw [hact]
        exact perform_seen hh hwatch hallows hheld

theorem move_activeStage (t : Ticket) (echo : Bool) (v : Watch σ) (m : Move σ) :
    (v.move t echo m).world.slot.activeStage = v.world.slot.activeStage := by
  cases m with
  | cancel => exact Slot.activeStage_cancel _
  | poll first =>
    simp only [Watch.move]
    split
    · exact Slot.activeStage_modify _ t fun _ => rfl
    · rfl
  | work | print | exit => rfl

theorem move_signs (t : Ticket) (echo : Bool) (v : Watch σ) (m : Move σ) :
    (v.move t echo m).world.events.filterMap Event.busySign? =
      v.world.events.filterMap Event.busySign? := by
  cases m with
  | print c =>
    have hchunk : ∀ e ∈ (Event.ofChunk t.stage echo c).toList, e.busySign? = none := by
      intro e he
      unfold Event.ofChunk at he
      split at he
      · obtain rfl := List.mem_singleton.1 he
        rfl
      · split at he
        · obtain rfl := List.mem_singleton.1 he
          rfl
        · simp at he
    simp only [Watch.move, World.publishAll, List.filterMap_append,
      List.filterMap_eq_nil_iff.2 hchunk, List.append_nil]
  | work | cancel | poll | exit => rfl

theorem watch_seen (q : Party) (m : Move σ) : p.SeenToGo (p.watch i q m) none := by
  obtain ⟨Answer, doing, heard⟩ := q
  cases doing with
  | acting x => exact .unseen rfl rfl fun r hr => hr
  | watching t pid echo vigil next =>
    refine .unseen (move_activeStage t echo (vigil.watch p.world) m)
      (move_signs t echo (vigil.watch p.world) m) fun r hr => ?_
    simp only [watch] at hr
    split at hr
    · exact (List.mem_filter.1 hr).1
    · exact hr

theorem Ordered.turn_seen (hh : h.Faithful) (hp : p.Ordered) (τ : Turn σ) :
    p.SeenToGo (p.turn h τ) (p.deed? h τ) := by
  have hunseen : p.SeenToGo p none := .unseen rfl rfl fun r hr => hr
  cases τ with
  | cancel => exact .unseen (Slot.activeStage_cancel _) rfl fun r hr => hr
  | outside files host => exact .unseen rfl rfl fun r hr => hr
  | act i =>
    cases hq : p.parties[i]? with
    | none => simpa [deed?, Pool.turn, hq] using hunseen
    | some q =>
      rw [turn_act h hq]
      simpa [deed?, hq] using act_seen hh hp hq
  | watch i m =>
    cases hq : p.parties[i]? with
    | none => simpa [deed?, Pool.turn, hq] using hunseen
    | some q =>
      rw [turn_watch h hq]
      exact watch_seen q m

/-- The party that has the ticket, if any has, and its stage. -/
inductive Owned (p : Pool σ) : Option (Nat × StageKind) → Prop where
  | free (free : p.Free) : p.Owned none
  | taken {i : Nat} {t : Ticket} {switch : KillSwitch} (taken : p.Taken i t switch) :
    p.Owned (some (i, t.stage))

variable {who : Option (Nat × StageKind)}

theorem Owned.ordered (hp : p.Owned who) : p.Ordered := by
  cases hp with
  | free hp => exact .free hp
  | taken hp => exact .taken hp

theorem Owned.activeStage (hp : p.Owned who) :
    p.world.slot.activeStage = who.map Prod.snd := by
  cases hp with
  | free hp => simp [Slot.activeStage, hp.slot]
  | taken hp => exact hp.slot.activeStage

theorem Free.owned (hp : p.Free) (hshown : p.world.slot.activeStage = who.map Prod.snd) :
    p.Owned who := by
  rw [(Owned.free hp).activeStage, Option.map_none, eq_comm, Option.map_eq_none_iff] at hshown
  rw [hshown]
  exact .free hp

theorem Taken.owned {t : Ticket} {switch : KillSwitch} (hp : p.Taken i t switch)
    (hshown : p.world.slot.activeStage = who.map Prod.snd) (hi : ∀ x ∈ who, x.1 = i) :
    p.Owned who := by
  rw [hp.slot.activeStage, eq_comm, Option.map_eq_some_iff] at hshown
  obtain ⟨⟨j, stage⟩, hwho, hstage⟩ := hshown
  obtain rfl : j = i := hi _ hwho
  obtain rfl : stage = t.stage := hstage
  rw [hwho]
  exact .taken hp

theorem shows_handOver (who : Option (Nat × StageKind)) (x : Nat × Deed) :
    (History.handOver who x).map Prod.snd = x.2.shows (who.map Prod.snd) := by
  obtain ⟨i, d⟩ := x
  cases d <;> rfl

theorem SeenToGo.shown {p' : Pool σ} {d : Option (Nat × Deed)} (hseen : p.SeenToGo p' d)
    (hshown : p.world.slot.activeStage = who.map Prod.snd) :
    p'.world.slot.activeStage = (d.elim who (History.handOver who)).map Prod.snd := by
  rw [hseen.slot, hshown]
  cases d with
  | none => rfl
  | some x => exact (shows_handOver who x).symm

/-- After a deed the slot is with whom it was before, or with the party that has just taken it. -/
theorem owner_of_handedOver {d : Option (Nat × Deed)} {x : Nat × StageKind}
    (hx : d.elim who (History.handOver who) = some x) :
    who = some x ∨ d = some (x.1, .took x.2) := by
  cases d with
  | none => exact .inl hx
  | some y =>
    obtain ⟨j, d⟩ := y
    cases d with
    | took stage =>
      obtain rfl := Option.some.inj hx
      exact .inr rfl
    | gaveBack => cases hx
    | launched | told => exact .inl hx

theorem Owned.turn (hh : h.Faithful) (hp : p.Owned who) (τ : Turn σ) :
    (p.turn h τ).Owned ((p.deed? h τ).elim who (History.handOver who)) := by
  have hseen := hp.ordered.turn_seen hh τ
  have hshown := hseen.shown hp.activeStage
  cases hp with
  | free hp =>
    rcases hp.turn h τ with hfree | ⟨i, t, rfl, htaken⟩
    · exact hfree.owned hshown
    · refine htaken.owned hshown fun x hx => ?_
      rcases owner_of_handedOver hx with hnone | htook
      · cases hnone
      · exact deed?_act htook
  | @taken i t switch hp =>
    rcases hp.turn hh τ with ⟨switch', htaken, -⟩ | ⟨hfree, -⟩
    · refine htaken.owned hshown fun x hx => ?_
      rcases owner_of_handedOver hx with hsame | htook
      · rw [← Option.some.inj hsame]
      · have hnone := hseen.free _ _ htook
        rw [hp.slot.activeStage] at hnone
        cases hnone
    · exact hfree.owned hshown

end Pool

namespace Party

variable {stages : List StageKind} {first q : Party} {ds : List Deed}

/-- The text of the party keeps to the order of deeds, and starts these stages if it succeeds. -/
def Starts (stages : List StageKind) (first : Party) : Prop :=
  ∃ (α : Type) (x : Workflow α), first = .of x ∧ x.Starts stages

theorem Starts.text {α : Type} {x : Workflow α} (h : (Party.of x).Starts stages) :
    x.Starts stages := by
  obtain ⟨β, y, hy, hstarts⟩ := h
  injection hy with hanswer hdoing
  subst hanswer
  obtain rfl : x = y := Doing.acting.inj (eq_of_heq hdoing)
  exact hstarts

/-- Its deeds lead to a standing, and at its end, if it succeeded, all its stages were started. -/
theorem CameBy.stands (hcame : first.CameBy ds q) (hfirst : first.Starts stages) :
    (∃ st, Standing.idle.after? ds = some st) ∧
      ∀ a, q.doing = .acting (.done (.success a)) → ds.filterMap Deed.startedStage? = stages := by
  obtain ⟨x, rfl, hdoes⟩ := hcame
  obtain ⟨st, hst, hrest⟩ := (hfirst.text []).of_does hdoes
  refine ⟨⟨st, hst⟩, fun a ha => ?_⟩
  have hdone : q.rest = .done (.success a) := by
    simp only [rest, ha]
  rw [hdone, List.nil_append] at hrest
  simpa using hrest.2 rfl

end Party

namespace Pool

variable {σ : Type} {h : Host σ} {p : Pool σ} {hist : History} {firsts : List Party}
  {signs : List Bool}

theorem Traced.deed_stands (hp : p.Traced firsts hist)
    (hfirsts : ∀ first ∈ firsts, ∃ stages, first.Starts stages) {τ : Turn σ} {i : Nat} {d : Deed}
    (hd : p.deed? h τ = some (i, d)) :
    ∃ st st', hist.standing i = some st ∧ st.next? d = some st' := by
  cases τ with
  | cancel | outside | watch => simp [deed?] at hd
  | act j =>
    simp only [deed?, Option.bind_eq_some_iff, Option.map_eq_some_iff, Prod.mk.injEq] at hd
    obtain ⟨q, hq, d', hdeed, rfl, rfl⟩ := hd
    obtain ⟨first, hfirst, hcame⟩ := hp j q hq
    obtain ⟨stages, hstarts⟩ := hfirsts first (List.mem_of_getElem? hfirst)
    obtain ⟨q', -, hgoes⟩ := act_goes h hq
    rw [hdeed] at hgoes
    obtain ⟨⟨st', hst'⟩, -⟩ := (hcame.goes hgoes).stands hstarts
    rw [Option.toList_some, Standing.after?_concat, Option.bind_eq_some_iff] at hst'
    obtain ⟨st, hst, hnext⟩ := hst'
    exact ⟨st, st', hst, hnext⟩

/-- A pool with its history: who has the slot, the signs that were given and the processes that run
are as the deeds say. -/
structure Records (firsts : List Party) (signs : List Bool) (hist : History) (p : Pool σ) :
    Prop where
  owned : p.Owned hist.holder?
  traced : p.Traced firsts hist
  lawful : hist.Lawful
  signs : p.world.events.filterMap Event.busySign? = signs ++ hist.filterMap fun x => x.2.sign?
  running : ∀ r ∈ p.running, ∃ stage, hist.standing r.party = some (.busy stage)

theorem Records.running_of_deed (hp : p.Records firsts signs hist) {p' : Pool σ}
    (hp' : p'.Ordered) {i : Nat} {d : Deed} (hseen : p.SeenToGo p' (some (i, d)))
    {st st' : Standing} (hst : hist.standing i = some st) (hnext : st.next? d = some st') :
    ∀ r ∈ p'.running, ∃ stage, (hist ++ [(i, d)]).standing r.party = some (.busy stage) := by
  intro r hr
  have hstands : (hist ++ [(i, d)]).standing i = some st' := by
    rw [History.standing_concat_self, hst]
    exact hnext
  rcases hseen.running r hr with hold | ⟨pid, hlaunched⟩
  · obtain ⟨stage, hbusy⟩ := hp.running r hold
    by_cases hi : i = r.party
    · subst hi
      obtain rfl : st = .busy stage := Option.some.inj (hst.symm.trans hbusy)
      cases Standing.next_of_next? hnext with
      | launch | tell => exact ⟨stage, hstands⟩
      | giveBack =>
        obtain ⟨shown, -, hshown⟩ := hp'.stage_of_running hr
        rw [hseen.slot] at hshown
        simp [Deed.shows] at hshown
    · rw [History.standing_concat_other hist hi]
      exact ⟨stage, hbusy⟩
  · obtain ⟨rfl, rfl⟩ := Prod.mk.inj (Option.some.inj hlaunched)
    cases Standing.next_of_next? hnext with
    | launch stage => exact ⟨stage, hstands⟩

theorem Records.turn (hh : h.Faithful) (hp : p.Records firsts signs hist)
    (hfirsts : ∀ first ∈ firsts, ∃ stages, first.Starts stages) (τ : Turn σ) :
    (p.turn h τ).Records firsts signs (hist ++ (p.deed? h τ).toList) := by
  have howned := hp.owned.turn hh τ
  have htraced := hp.traced.turn h τ
  have hseen := hp.owned.ordered.turn_seen hh τ
  cases hd : p.deed? h τ with
  | none =>
    rw [hd] at howned htraced hseen
    rw [Option.toList_none, List.append_nil] at htraced ⊢
    refine ⟨howned, htraced, hp.lawful, ?_, fun r hr => ?_⟩
    · rw [hseen.signs, hp.signs]
      simp
    · rcases hseen.running r hr with hold | ⟨pid, hnone⟩
      · exact hp.running r hold
      · simp at hnone
  | some x =>
    obtain ⟨i, d⟩ := x
    rw [hd] at howned htraced hseen
    obtain ⟨st, st', hst, hnext⟩ := hp.traced.deed_stands hfirsts hd
    have hfree : ∀ stage, d = .took stage → hist.holder? = none := by
      rintro stage rfl
      have hnone := hp.owned.activeStage.symm.trans (hseen.free i stage rfl)
      exact Option.map_eq_none_iff.1 hnone
    refine ⟨?_, htraced, hp.lawful.concat hst hnext hfree, ?_,
      hp.running_of_deed howned.ordered hseen hst hnext⟩
    · rw [Option.toList_some, History.holder?_concat]
      exact howned
    · rw [hseen.signs, hp.signs, List.append_assoc, Option.toList_some, List.filterMap_append]
      rfl

theorem Records.after (hh : h.Faithful) (hp : p.Records firsts signs hist)
    (hfirsts : ∀ first ∈ firsts, ∃ stages, first.Starts stages) (ts : List (Turn σ)) :
    (p.after h ts).Records firsts signs (hist ++ p.history h ts) := by
  induction ts using List.reverseRecOn with
  | nil => simpa [history, Pool.after] using hp
  | append_singleton ts τ ih =>
    rw [after_concat, history_concat, ← List.append_assoc]
    exact ih.turn hh hfirsts τ

theorem records_of_jobs (hh : h.Faithful) {w : World σ} (hw : w.slot.holder = none)
    (jobs : List (Bench × Job)) (ts : List (Turn σ)) :
    ((Pool.start w (jobs.map fun (b, j) => j.party b)).after h ts).Records
      (jobs.map fun (b, j) => j.party b) (w.events.filterMap Event.busySign?)
      ((Pool.start w (jobs.map fun (b, j) => j.party b)).history h ts) := by
  have hparties : ∀ first ∈ jobs.map (fun (b, j) => Job.party b j),
      first.Ticketless ∧ ∃ stages, first.Starts stages := by
    intro first hfirst
    obtain ⟨⟨b, j⟩, -, rfl⟩ := List.mem_map.1 hfirst
    exact ⟨j.party_ticketless b, j.stages, j.party_starts b⟩
  have hstart : (Pool.start w (jobs.map fun (b, j) => j.party b)).Records
      (jobs.map fun (b, j) => j.party b) (w.events.filterMap Event.busySign?) [] := by
    refine ⟨.free (.start hw fun q hq => (hparties q hq).1), .start w fun first hfirst => ?_, .nil,
      ?_, ?_⟩
    · obtain ⟨-, stages, α, x, hx, -⟩ := hparties first hfirst
      exact ⟨α, x, hx⟩
    · simp [Pool.start]
    · simp [Pool.start]
  exact hstart.after hh (fun first hfirst => (hparties first hfirst).2) ts

end Pool

end TraceWorkbench
