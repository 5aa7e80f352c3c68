import Mathlib.Data.List.Induction
import Mathlib.Data.List.ReduceOption
import TraceWorkbench.Slot

set_option autoImplicit false

/-!
# Histories of the slot

One slot under any sequence of actions. A ticket belongs to whoever took the slot and is dropped at
most once, so tickets go by the order in which they were handed out, and an action through a ticket
that is gone cannot happen. The number inside a ticket plays no part in that: it comes back after
2^64 tickets.
-/
namespace TraceWorkbench

inductive SlotAction where
  | acquire (stage : StageKind)
  | drop (n : Nat)
  | setPid (n : Nat) (pid : UInt32)
  /-- The receiver of requests to cancel, which belongs to a ticket, is given up. -/
  | dropReceiver (n : Nat)
  | cancel
  deriving DecidableEq, Repr

/-- A slot with the tickets that were handed out, the first one first; a dropped one is gone. -/
structure SlotDesk where
  slot : Slot
  tickets : List (Option Ticket)

namespace SlotDesk

def fresh (first : UInt64) : SlotDesk := ⟨⟨none, first⟩, []⟩

def ticket? (d : SlotDesk) (n : Nat) : Option Ticket := d.tickets[n]?.join

def live (d : SlotDesk) : List Ticket := d.tickets.reduceOption

def perform (d : SlotDesk) : SlotAction → SlotDesk
  | .acquire stage =>
    match d.slot.acquire stage with
    | (.ok t, slot) => ⟨slot, d.tickets ++ [some t]⟩
    | (.error _, slot) => ⟨slot, d.tickets⟩
  | .drop n =>
    match d.ticket? n with
    | some t => ⟨d.slot.release t, d.tickets.set n none⟩
    | none => d
  | .setPid n pid =>
    match d.ticket? n with
    | some t => { d with slot := d.slot.recordPid t pid }
    | none => d
  | .dropReceiver n =>
    match d.ticket? n with
    | some t => { d with slot := d.slot.stopListening t }
    | none => d
  | .cancel => { d with slot := d.slot.cancel.2 }

def after (d : SlotDesk) (xs : List SlotAction) : SlotDesk := xs.foldl perform d

theorem after_concat (d : SlotDesk) (xs : List SlotAction) (a : SlotAction) :
    d.after (xs ++ [a]) = (d.after xs).perform a := by simp [after]

end SlotDesk

def SlotAction.lastPid (n : Nat) (xs : List SlotAction) : Option UInt32 :=
  (xs.filterMap fun
    | .setPid m pid => if m = n then some pid else none
    | _ => none).getLast?

/-- What has become of a ticket's receiver: the first request or the loss of it decides. -/
def SlotAction.switchOf (n : Nat) (xs : List SlotAction) : KillSwitch :=
  match xs.find? fun a => a = .cancel ∨ a = .dropReceiver n with
  | none => .armed
  | some .cancel => .fired
  | some _ => .unheard

namespace SlotAction

theorem lastPid_setPid (n : Nat) (pid : UInt32) (xs : List SlotAction) :
    lastPid n (xs ++ [.setPid n pid]) = some pid := by
  simp [lastPid]

theorem lastPid_other (n : Nat) (a : SlotAction) (xs : List SlotAction)
    (h : ∀ pid, a ≠ .setPid n pid) : lastPid n (xs ++ [a]) = lastPid n xs := by
  cases a with
  | setPid m pid =>
    have hm : m ≠ n := fun e => h pid (by rw [e])
    simp [lastPid, hm]
  | _ => simp [lastPid]

theorem switchOf_eq_armed_iff (n : Nat) (xs : List SlotAction) :
    switchOf n xs = .armed ↔ .cancel ∉ xs ∧ .dropReceiver n ∉ xs := by
  unfold switchOf
  split
  · rename_i h
    simp only [List.find?_eq_none, decide_eq_true_eq, not_or] at h
    simp only [true_iff]
    exact ⟨fun hm => (h _ hm).1 rfl, fun hm => (h _ hm).2 rfl⟩
  · rename_i h
    have hm := List.mem_of_find?_eq_some h
    simp [hm]
  · rename_i a hne h
    have hm := List.mem_of_find?_eq_some h
    have ha := List.find?_some h
    simp only [decide_eq_true_eq] at ha
    rcases ha with ha | ha
    · exact absurd ha hne
    · subst ha
      simp [hm]

theorem switchOf_concat (n : Nat) (a : SlotAction) (xs : List SlotAction) :
    switchOf n (xs ++ [a]) =
      if switchOf n xs = .armed then switchOf n [a] else switchOf n xs := by
  unfold switchOf
  rw [List.find?_append]
  cases h : xs.find? fun a => a = .cancel ∨ a = .dropReceiver n with
  | none => simp
  | some b => cases b <;> simp

theorem switchOf_other (n : Nat) (a : SlotAction) (xs : List SlotAction) (hc : a ≠ .cancel)
    (hr : a ≠ .dropReceiver n) : switchOf n (xs ++ [a]) = switchOf n xs := by
  have ha : switchOf n [a] = .armed := by simp [switchOf, hc, hr]
  rw [switchOf_concat, ha]
  split
  · rename_i h
    exact h.symm
  · rfl

end SlotAction

namespace SlotDesk

open SlotAction

structure Free (d : SlotDesk) : Prop where
  holder : d.slot.holder = none
  gone : ∀ m, d.ticket? m = none

/-- The slot is held by the stage that got ticket `n`, and `post` is what has happened since. -/
structure HeldSince (d : SlotDesk) (n : Nat) (stage : StageKind) (post : List SlotAction) :
    Prop where
  holder : ∃ id, d.slot.holder = some ⟨id, stage, lastPid n post, switchOf n post⟩ ∧
    d.ticket? n = some ⟨id, stage⟩
  alone : ∀ m, m ≠ n → d.ticket? m = none

theorem fresh_free (first : UInt64) : (fresh first).Free := ⟨rfl, fun _ => rfl⟩

theorem Free.perform_other {d : SlotDesk} (hd : d.Free) {a : SlotAction}
    (ha : ∀ stage, a ≠ .acquire stage) : d.perform a = d := by
  cases a with
  | acquire stage => exact absurd rfl (ha stage)
  | drop n => simp [perform, hd.gone n]
  | setPid n pid => simp [perform, hd.gone n]
  | dropReceiver n => simp [perform, hd.gone n]
  | cancel => simp [perform, Slot.cancel_of_free hd.holder]

theorem Free.perform_acquire {d : SlotDesk} (hd : d.Free) (stage : StageKind) :
    (d.perform (.acquire stage)).HeldSince d.tickets.length stage [] := by
  have hp : d.perform (.acquire stage) =
      ⟨⟨some ⟨d.slot.nextId, stage, none, .armed⟩, d.slot.nextId + 1⟩,
        d.tickets ++ [some ⟨d.slot.nextId, stage⟩]⟩ := by
    simp [perform, Slot.acquire_of_free hd.holder]
  rw [hp]
  refine ⟨⟨d.slot.nextId, rfl, by simp [ticket?]⟩, ?_⟩
  intro m hm
  rcases Nat.lt_or_gt_of_ne hm with hlt | hgt
  · have h := hd.gone m
    simpa [ticket?, List.getElem?_append_left hlt] using h
  · have h : (d.tickets ++ [some (⟨d.slot.nextId, stage⟩ : Ticket)])[m]? = none :=
      List.getElem?_eq_none (by simp; omega)
    simp [ticket?, h]

theorem HeldSince.perform_drop {d : SlotDesk} {n : Nat} {stage : StageKind}
    {post : List SlotAction} (hd : d.HeldSince n stage post) : (d.perform (.drop n)).Free := by
  obtain ⟨id, hs, ht⟩ := hd.holder
  have hp : d.perform (.drop n) = ⟨{ d.slot with holder := none }, d.tickets.set n none⟩ := by
    simp [perform, ht, Slot.release, Slot.modify_of_held (t := ⟨id, stage⟩) hs rfl]
  rw [hp]
  refine ⟨rfl, fun m => ?_⟩
  by_cases hm : m = n
  · subst m
    by_cases hn : n < d.tickets.length <;> simp [ticket?, hn]
  · have h := hd.alone m hm
    simpa [ticket?, List.getElem?_set_ne (Ne.symm hm)] using h

theorem HeldSince.perform_other {d : SlotDesk} {n : Nat} {stage : StageKind}
    {post : List SlotAction} (hd : d.HeldSince n stage post) {a : SlotAction} (ha : a ≠ .drop n) :
    (d.perform a).HeldSince n stage (post ++ [a]) := by
  obtain ⟨id, hs, ht⟩ := hd.holder
  have hgone : ∀ {m}, m ≠ n → d.ticket? m = none := fun {m} => hd.alone m
  cases a with
  | acquire k =>
    have hp : d.perform (.acquire k) = d := by simp [perform, Slot.acquire_of_busy hs]
    rw [hp]
    refine ⟨⟨id, ?_, ht⟩, hd.alone⟩
    rw [lastPid_other _ _ _ (by simp), switchOf_other _ _ _ (by simp) (by simp), hs]
  | drop m =>
    have hm : m ≠ n := fun e => ha (by rw [e])
    have hp : d.perform (.drop m) = d := by simp [perform, hgone hm]
    rw [hp]
    refine ⟨⟨id, ?_, ht⟩, hd.alone⟩
    rw [lastPid_other _ _ _ (by simp), switchOf_other _ _ _ (by simp) (by simp), hs]
  | setPid m pid =>
    have hw : switchOf n (post ++ [.setPid m pid]) = switchOf n post :=
      switchOf_other _ _ _ (by simp) (by simp)
    by_cases hm : m = n
    · subst m
      have hp : d.perform (.setPid n pid) = { d with
          slot := { d.slot with holder := some ⟨id, stage, some pid, switchOf n post⟩ } } := by
        simp [perform, ht, Slot.recordPid, Slot.modify_of_held (t := ⟨id, stage⟩) hs rfl]
      rw [hp]
      exact ⟨⟨id, by rw [lastPid_setPid, hw], ht⟩, hd.alone⟩
    · have hp : d.perform (.setPid m pid) = d := by simp [perform, hgone hm]
      rw [hp]
      refine ⟨⟨id, ?_, ht⟩, hd.alone⟩
      rw [lastPid_other _ _ _ (fun p e => hm (by cases e; rfl)), hw, hs]
  | dropReceiver m =>
    have hl : lastPid n (post ++ [.dropReceiver m]) = lastPid n post :=
      lastPid_other _ _ _ (by simp)
    by_cases hm : m = n
    · subst m
      have hp : d.perform (.dropReceiver n) = { d with slot := { d.slot with
          holder := some ⟨id, stage, lastPid n post,
            if switchOf n post = .armed then .unheard else switchOf n post⟩ } } := by
        simp [perform, ht, Slot.stopListening, Slot.modify_of_held (t := ⟨id, stage⟩) hs rfl]
      rw [hp]
      refine ⟨⟨id, ?_, ht⟩, hd.alone⟩
      rw [hl, switchOf_concat]
      simp [switchOf]
    · have hp : d.perform (.dropReceiver m) = d := by simp [perform, hgone hm]
      rw [hp]
      refine ⟨⟨id, ?_, ht⟩, hd.alone⟩
      rw [hl, switchOf_other _ _ _ (by simp) (by simp [hm]), hs]
  | cancel =>
    have hp : d.perform .cancel = { d with slot := { d.slot with
        holder := some ⟨id, stage, lastPid n post,
          if switchOf n post = .armed then .fired else switchOf n post⟩ } } := by
      simp [perform, Slot.cancel_of_held hs]
    rw [hp]
    refine ⟨⟨id, ?_, ht⟩, hd.alone⟩
    rw [lastPid_other _ _ _ (by simp), switchOf_concat]
    simp [switchOf]

/-- After any history the slot is free, or one acquire of the history holds it still. -/
theorem after_cases (first : UInt64) (xs : List SlotAction) :
    ((fresh first).after xs).Free ∨
      ∃ pre stage post, xs = pre ++ .acquire stage :: post ∧ ((fresh first).after pre).Free ∧
        .drop ((fresh first).after pre).tickets.length ∉ post ∧
        ((fresh first).after xs).HeldSince ((fresh first).after pre).tickets.length stage post := by
  -- a history grows at its end, and a slot that is held remembers the acquire that took it
  induction xs using List.reverseRecOn with
  | nil => exact .inl (fresh_free first)
  | append_singleton xs a ih =>
    rw [after_concat]
    rcases ih with hfree | ⟨pre, stage, post, hxs, hpre, hdrop, hheld⟩
    · by_cases ha : ∃ stage, a = .acquire stage
      · obtain ⟨stage, rfl⟩ := ha
        exact .inr ⟨xs, stage, [], rfl, hfree, by simp, hfree.perform_acquire stage⟩
      · left
        rw [hfree.perform_other (fun stage e => ha ⟨stage, e⟩)]
        exact hfree
    · -- only the drop of the ticket that holds the slot frees it; stale drops are other actions
      by_cases ha : a = .drop ((fresh first).after pre).tickets.length
      · subst a
        exact .inl hheld.perform_drop
      · refine .inr ⟨pre, stage, post ++ [a], by simp [hxs], hpre, ?_, hheld.perform_other ha⟩
        simp only [List.mem_append, List.mem_singleton, not_or]
        exact ⟨hdrop, Ne.symm ha⟩

theorem Free.live_eq {d : SlotDesk} (hd : d.Free) : d.live = [] := by
  rw [List.eq_nil_iff_forall_not_mem]
  intro t ht
  obtain ⟨n, hn⟩ := List.mem_iff_getElem?.1 (List.reduceOption_mem_iff.1 ht)
  have h := hd.gone n
  simp [ticket?, hn] at h

theorem reduceOption_eq_singleton {α : Type} (l : List (Option α)) (n : Nat) (a : α)
    (hn : l[n]?.join = some a) (ho : ∀ m, m ≠ n → l[m]?.join = none) : l.reduceOption = [a] := by
  induction l generalizing n with
  | nil => simp at hn
  | cons x l ih =>
    cases n with
    | zero =>
      have hx : x = some a := by simpa using hn
      have hl : l.reduceOption = [] := by
        rw [List.eq_nil_iff_forall_not_mem]
        intro b hb
        obtain ⟨m, hm⟩ := List.mem_iff_getElem?.1 (List.reduceOption_mem_iff.1 hb)
        have h := ho (m + 1) (by omega)
        simp [hm] at h
      rw [hx, List.reduceOption_cons_of_some, hl]
    | succ n =>
      have hx : x = none := by simpa using ho 0 (by omega)
      rw [hx, List.reduceOption_cons_of_none]
      exact ih n (by simpa using hn) fun m hm => by simpa using ho (m + 1) (by omega)

theorem HeldSince.live_eq {d : SlotDesk} {n : Nat} {stage : StageKind} {post : List SlotAction}
    (hd : d.HeldSince n stage post) : ∃ id, d.live = [⟨id, stage⟩] := by
  obtain ⟨id, -, ht⟩ := hd.holder
  exact ⟨id, reduceOption_eq_singleton _ n _ ht hd.alone⟩

theorem HeldSince.activeStage {d : SlotDesk} {n : Nat} {stage : StageKind}
    {post : List SlotAction} (hd : d.HeldSince n stage post) :
    d.slot.activeStage = some stage := by
  obtain ⟨id, hs, -⟩ := hd.holder
  simp [Slot.activeStage, hs]

theorem isBusy_iff_live (first : UInt64) (xs : List SlotAction) :
    ((fresh first).after xs).slot.isBusy = true ↔ ((fresh first).after xs).live.length = 1 := by
  rcases after_cases first xs with hfree | ⟨pre, stage, post, -, -, -, hheld⟩
  · simp [Slot.isBusy, hfree.holder, hfree.live_eq]
  · obtain ⟨id, hs, -⟩ := hheld.holder
    obtain ⟨id', hl⟩ := hheld.live_eq
    simp [Slot.isBusy, hs, hl]

theorem activeStage_perform (first : UInt64) (xs : List SlotAction) {a : SlotAction}
    (ha : (∃ n pid, a = .setPid n pid) ∨ a = .cancel) :
    (((fresh first).after xs).perform a).slot.activeStage =
      ((fresh first).after xs).slot.activeStage := by
  rcases after_cases first xs with hfree | ⟨pre, stage, post, -, -, -, hheld⟩
  · rw [hfree.perform_other]
    rintro stage rfl
    simp at ha
  · rw [hheld.activeStage]
    refine (hheld.perform_other ?_).activeStage
    rintro rfl
    simp at ha

/-- After every history, with the numbers of tickets starting anywhere, the slot says what its
tickets say. It is taken just if a ticket is live, and there is never a second one. A free slot is
given to whoever asks, and nothing can be cancelled. A taken one belongs to an acquire of the
history whose ticket was not dropped since: it shows that stage and the last pid that was set
through that ticket, refuses everybody in the name of that stage without a change, and a request to
cancel is heard only if it is the first one since and the receiver was not given up. -/
theorem slot_follows_live_ticket (first : UInt64) (xs : List SlotAction) :
    let d := (fresh first).after xs
    d.live.length ≤ 1 ∧ (d.slot.isBusy = true ↔ d.live.length = 1) ∧
    ((d.live = [] ∧ d.slot.activeStage = none ∧ d.slot.activePid = none ∧
        (∀ stage, ∃ t, (d.slot.acquire stage).1 = .ok t ∧ t.stage = stage) ∧
        d.slot.cancel = (false, d.slot)) ∨
      ∃ pre stage post, xs = pre ++ .acquire stage :: post ∧
        ((fresh first).after pre).live = [] ∧
        let n := ((fresh first).after pre).tickets.length
        .drop n ∉ post ∧ (∃ id, d.ticket? n = some ⟨id, stage⟩) ∧
        (∀ m, m ≠ n → d.ticket? m = none) ∧
        d.slot.activeStage = some stage ∧ d.slot.activePid = lastPid n post ∧
        (∀ other, d.slot.acquire other = (.error (.busy other stage), d.slot)) ∧
        (d.slot.cancel.1 = true ↔ .cancel ∉ post ∧ .dropReceiver n ∉ post)) ∧
    (∀ n pid, (d.perform (.setPid n pid)).slot.activeStage = d.slot.activeStage) ∧
    (d.perform .cancel).slot.activeStage = d.slot.activeStage := by
  intro d
  have hone : d.live.length ≤ 1 := by
    rcases after_cases first xs with hfree | ⟨pre, stage, post, -, -, -, hheld⟩
    · simp [d, hfree.live_eq]
    · obtain ⟨id, hl⟩ := hheld.live_eq
      simp [d, hl]
  refine ⟨hone, isBusy_iff_live first xs, ?_,
    fun n pid => activeStage_perform first xs (.inl ⟨n, pid, rfl⟩),
    activeStage_perform first xs (.inr rfl)⟩
  rcases after_cases first xs with hfree | ⟨pre, stage, post, hxs, hpre, hdrop, hheld⟩
  · left
    have hs : d.slot.holder = none := hfree.holder
    refine ⟨hfree.live_eq, by simp [Slot.activeStage, hs], by simp [Slot.activePid, hs], ?_,
      Slot.cancel_of_free hs⟩
    intro stage
    rw [Slot.acquire_of_free hs]
    exact ⟨⟨d.slot.nextId, stage⟩, rfl, rfl⟩
  · right
    obtain ⟨id, hs, ht⟩ := hheld.holder
    refine ⟨pre, stage, post, hxs, hpre.live_eq, hdrop, ⟨id, ht⟩, hheld.alone,
      hheld.activeStage, by simp [d, Slot.activePid, hs], fun other => ?_, ?_⟩
    · exact Slot.acquire_of_busy hs other
    · rw [← switchOf_eq_armed_iff]
      simp [d, Slot.cancel_of_held hs]

end SlotDesk

end TraceWorkbench
