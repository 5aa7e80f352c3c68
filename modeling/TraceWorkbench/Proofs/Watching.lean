import Mathlib.Data.List.Induction
import TraceWorkbench.Watch

set_option autoImplicit false

/-!
# What holds while a process is watched

Whatever the order of the moves, the published events are the chunks that were printed, the slot
stays with the holder of the ticket, and the wait, once it is over, stays so. A request to cancel
that was heard stands until the end; only a poll that looks at the end of the process first can
leave it unanswered.
-/
namespace TraceWorkbench

/-- The ticket holds the slot, whose switch stands so. -/
def Slot.HeldBy (t : Ticket) (switch : KillSwitch) (s : Slot) : Prop :=
  ∃ h, s.holder = some h ∧ h.id = t.id ∧ h.stage = t.stage ∧ h.killSwitch = switch

namespace Slot.HeldBy

variable {t : Ticket} {switch : KillSwitch} {s : Slot}

theorem recordPid (hs : s.HeldBy t switch) (pid : UInt32) :
    (s.recordPid t pid).HeldBy t switch := by
  obtain ⟨h, hh, ht, hstage, hk⟩ := hs
  rw [Slot.recordPid, Slot.modify_of_held hh ht]
  exact ⟨_, rfl, ht, hstage, hk⟩

theorem stopListening (hs : s.HeldBy t switch) :
    (s.stopListening t).HeldBy t (if switch = .armed then .unheard else switch) := by
  obtain ⟨h, hh, ht, hstage, rfl⟩ := hs
  rw [Slot.stopListening_of_held hh ht]
  exact ⟨_, rfl, ht, hstage, rfl⟩

theorem cancel (hs : s.HeldBy t switch) :
    s.cancel.2.HeldBy t (if switch = .armed then .fired else switch) := by
  obtain ⟨h, hh, ht, hstage, rfl⟩ := hs
  rw [Slot.cancel_of_held hh]
  exact ⟨_, rfl, ht, hstage, rfl⟩

theorem release (hs : s.HeldBy t switch) : (s.release t).holder = none := by
  obtain ⟨h, hh, ht, -⟩ := hs
  rw [Slot.release, Slot.modify_of_held hh ht]

theorem activeStage (hs : s.HeldBy t switch) : s.activeStage = some t.stage := by
  obtain ⟨h, hh, -, hstage, -⟩ := hs
  simp [Slot.activeStage, hh, hstage]

theorem requested_iff (hs : s.HeldBy t switch) : s.killRequested t = true ↔ switch = .fired := by
  obtain ⟨h, hh, ht, -, rfl⟩ := hs
  simp [Slot.killRequested_of_held hh ht]

theorem not_free (hs : s.HeldBy t switch) : s.holder ≠ none := by
  obtain ⟨h, hh, -⟩ := hs
  simp [hh]

end Slot.HeldBy

/-- Where the switch of the slot can stand while a stage waits: it can be asked as long as it
listens, and not once the wait is over. -/
def Wait.Fits (switch : KillSwitch) : Wait → Prop
  | .listening => switch ≠ .unheard
  | .killing => switch = .fired
  | .gone _ true => switch = .fired
  | .gone _ false => switch ≠ .armed

/-- Where the switch stands after a poll: one that nobody has used is given up with the wait. -/
def KillSwitch.afterPoll (wait : Wait) (switch : KillSwitch) : KillSwitch :=
  if wait.isOver ∧ switch = .armed then .unheard else switch

theorem Wait.Fits.cancel {wait : Wait} {switch : KillSwitch} (hw : wait.Fits switch) :
    wait.Fits (if switch = .armed then .fired else switch) := by
  cases wait with
  | listening => cases switch <;> simp_all [Wait.Fits]
  | killing => simp_all [Wait.Fits]
  | gone e k => cases k <;> cases switch <;> simp_all [Wait.Fits]

theorem Wait.Fits.poll {wait : Wait} {switch : KillSwitch} (hw : wait.Fits switch) (first : Branch)
    (ended : Option Waited) :
    (wait.poll first ended (decide (switch = .fired))).Fits
      (switch.afterPoll (wait.poll first ended (decide (switch = .fired)))) := by
  cases wait with
  | listening =>
    cases ended <;> cases switch <;> cases first <;>
      simp_all [Wait.Fits, Wait.poll, Wait.isOver, KillSwitch.afterPoll]
  | killing =>
    cases ended <;> simp_all [Wait.Fits, Wait.poll, KillSwitch.afterPoll]
  | gone e k =>
    cases k <;> cases switch <;> simp_all [Wait.Fits, Wait.poll, KillSwitch.afterPoll]

namespace Watch

variable {σ : Type} {t : Ticket} {echo : Bool}

def ShowsChunks (t : Ticket) (echo : Bool) (w : World σ) (v : Watch σ) : Prop :=
  v.world.events = w.events ++ v.chunks.reverse.filterMap (Event.ofChunk t.stage echo)

theorem ShowsChunks.move {w : World σ} {v : Watch σ} (hv : v.ShowsChunks t echo w) (m : Move σ) :
    (v.move t echo m).ShowsChunks t echo w := by
  cases m with
  | print c =>
    have he : (v.move t echo (.print c)).world.events =
        v.world.events ++ (Event.ofChunk t.stage echo c).toList := rfl
    have hc : (v.move t echo (.print c)).chunks.reverse = v.chunks.reverse ++ [c] := by
      simp [Watch.move]
    unfold ShowsChunks
    rw [he, hc, hv, List.filterMap_append, List.append_assoc]
    cases h : Event.ofChunk t.stage echo c <;> simp [h]
  | work files host => exact hv
  | exit e => exact hv
  | cancel => exact hv
  | poll first => exact hv

theorem after_showsChunks (w : World σ) (ms : List (Move σ)) :
    ((start w).after t echo ms).ShowsChunks t echo w := by
  induction ms using List.reverseRecOn with
  | nil => simp [ShowsChunks, after_nil, start]
  | append_singleton ms m ih =>
    rw [after_concat]
    exact ih.move m

theorem chunks_of_collected {v : Watch σ} {c : Collected} (hc : v.collected? = some c) :
    c.chunks = v.chunks.reverse := by
  unfold collected? at hc
  split at hc
  · rw [← Option.some.inj hc]
  · simp at hc

theorem move_gone {v : Watch σ} {e : Waited} {k : Bool} (hv : v.wait = .gone e k) (m : Move σ) :
    (v.move t echo m).wait = .gone e k := by
  cases m with
  | poll first => simp [move, hv, Wait.poll]
  | _ => exact hv

theorem gone_of_exit (t : Ticket) (echo : Bool) (v : Watch σ) (e : Waited) (first : Branch) :
    ∃ e' k, (v.after t echo [.exit e, .poll first]).wait = .gone e' k := by
  simp only [after_cons, after_nil, move]
  cases v.wait <;> cases v.ended <;> cases v.world.slot.killRequested t <;> simp [Wait.poll]

/-- The ticket holds the slot, and its switch stands as the wait says. -/
structure Held (t : Ticket) (switch : KillSwitch) (v : Watch σ) : Prop where
  slot : v.world.slot.HeldBy t switch
  fits : v.wait.Fits switch

namespace Held

variable {v : Watch σ} {switch : KillSwitch}

theorem poll_eq (echo : Bool) (hv : v.Held t switch) (first : Branch) :
    (v.move t echo (.poll first)).wait = v.wait.poll first v.ended (decide (switch = .fired)) := by
  have hr : v.world.slot.killRequested t = decide (switch = .fired) := by
    rw [Bool.eq_iff_iff, hv.slot.requested_iff, decide_eq_true_iff]
  rw [← hr]
  rfl

theorem move_cancel (echo : Bool) (hv : v.Held t switch) :
    (v.move t echo .cancel).Held t (if switch = .armed then .fired else switch) :=
  ⟨hv.slot.cancel, hv.fits.cancel⟩

theorem move_poll (echo : Bool) (hv : v.Held t switch) (first : Branch) :
    (v.move t echo (.poll first)).Held t
      (switch.afterPoll (v.move t echo (.poll first)).wait) := by
  refine ⟨?_, ?_⟩
  · have hslot : (v.move t echo (.poll first)).world.slot =
        if (v.move t echo (.poll first)).wait.isOver then v.world.slot.stopListening t
        else v.world.slot := rfl
    rw [hslot, KillSwitch.afterPoll]
    cases (v.move t echo (.poll first)).wait.isOver with
    | true => simpa using hv.slot.stopListening
    | false => simpa using hv.slot
  · rw [hv.poll_eq echo]
    exact hv.fits.poll first v.ended

theorem move (echo : Bool) (hv : v.Held t switch) (m : Move σ) :
    ∃ switch', (v.move t echo m).Held t switch' ∧ (switch = .fired → switch' = .fired) := by
  cases m with
  | work files host => exact ⟨switch, ⟨hv.slot, hv.fits⟩, id⟩
  | print c => exact ⟨switch, ⟨hv.slot, hv.fits⟩, id⟩
  | exit e => exact ⟨switch, ⟨hv.slot, hv.fits⟩, id⟩
  | cancel => exact ⟨_, hv.move_cancel echo, fun h => by simp [h]⟩
  | poll first =>
    exact ⟨_, hv.move_poll echo first, fun h => by simp [h, KillSwitch.afterPoll]⟩

theorem after (echo : Bool) (hv : v.Held t switch) (ms : List (Move σ)) :
    ∃ switch', (v.after t echo ms).Held t switch' := by
  induction ms using List.reverseRecOn with
  | nil => exact ⟨switch, hv⟩
  | append_singleton ms m ih =>
    obtain ⟨s₁, h₁⟩ := ih
    obtain ⟨s₂, h₂, -⟩ := h₁.move echo m
    rw [after_concat]
    exact ⟨s₂, h₂⟩

end Held

end Watch

theorem Host.scripted_explained (script : StageKind → List (Move Unit)) (t : Ticket) (pid : UInt32)
    (echo : Bool) (w : World Unit) :
    Watch.Explains t echo w (movesOf script t) ((scripted script).supervise t pid echo w) := by
  obtain ⟨e, k, hgone⟩ := Watch.gone_of_exit t echo
    ((Watch.start w).after t echo (script t.stage)) (.ended (.exited 0)) .exit
  rw [← Watch.after_append] at hgone
  have hc : ((Watch.start w).after t echo (movesOf script t)).collected? =
      some ⟨((Watch.start w).after t echo (movesOf script t)).chunks.reverse, e, k⟩ := by
    simp [Watch.collected?, movesOf, hgone]
  refine ⟨?_, rfl⟩
  change _ = some (Option.getD _ _)
  rw [hc]
  rfl

theorem Host.scripted_faithful (script : StageKind → List (Move Unit)) :
    (scripted script).Faithful where
  launch _ w := ⟨w.files, w.host, rfl⟩
  supervise t pid echo w := ⟨movesOf script t, scripted_explained script t pid echo w⟩

end TraceWorkbench
