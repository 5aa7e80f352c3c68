import TraceWorkbench.Failure

set_option autoImplicit false

/-!
# The slot for the running process

At most one process runs at a time. A stage takes the slot before it starts its process and gets a
ticket for it; while the slot is taken others are refused, never queued. Giving the ticket back
frees the slot. Whoever wants to cancel asks the slot; the process is killed by its own stage, and
the slot stays taken until that is done.
-/
namespace TraceWorkbench

/-- The way a request to cancel takes from the slot to the stage. -/
inductive KillSwitch where
  | armed
  | fired
  /-- The stage stopped listening before anybody asked. -/
  | unheard
  deriving DecidableEq, Repr, Inhabited

structure Slot.Holder where
  id : UInt64
  stage : StageKind
  pid : Option UInt32
  killSwitch : KillSwitch
  deriving DecidableEq, Repr, Inhabited

structure Slot where
  holder : Option Slot.Holder
  nextId : UInt64
  deriving DecidableEq, Repr, Inhabited

structure Ticket where
  id : UInt64
  stage : StageKind
  deriving DecidableEq, Repr, Inhabited

namespace Slot

def empty : Slot := ⟨none, 0⟩

def activeStage (s : Slot) : Option StageKind := s.holder.map Holder.stage

def activePid (s : Slot) : Option UInt32 := s.holder.bind Holder.pid

def isBusy (s : Slot) : Bool := s.holder.isSome

def acquire (s : Slot) (stage : StageKind) : Except Refusal Ticket × Slot :=
  match s.holder with
  | some h => (.error (.busy stage h.stage), s)
  | none =>
    (.ok ⟨s.nextId, stage⟩, ⟨some ⟨s.nextId, stage, none, .armed⟩, s.nextId + 1⟩)

/-- Changes the holder, if the ticket is the one that holds the slot. -/
def modify (s : Slot) (t : Ticket) (f : Holder → Option Holder) : Slot :=
  match s.holder with
  | some h => if h.id = t.id then { s with holder := f h } else s
  | none => s

def release (s : Slot) (t : Ticket) : Slot := s.modify t fun _ => none

def recordPid (s : Slot) (t : Ticket) (pid : UInt32) : Slot :=
  s.modify t fun h => some { h with pid := some pid }

def stopListening (s : Slot) (t : Ticket) : Slot :=
  s.modify t fun h =>
    some { h with killSwitch := if h.killSwitch = .armed then .unheard else h.killSwitch }

/-- Asks the running process to die; says whether the request will be heard. -/
def cancel (s : Slot) : Bool × Slot :=
  match s.holder with
  | some h =>
    match h.killSwitch with
    | .armed => (true, { s with holder := some { h with killSwitch := .fired } })
    | .fired | .unheard => (false, s)
  | none => (false, s)

def killRequested (s : Slot) (t : Ticket) : Bool :=
  match s.holder with
  | some h => h.id == t.id && h.killSwitch == .fired
  | none => false

theorem modify_of_held {s : Slot} {h : Holder} {t : Ticket} (hs : s.holder = some h)
    (ht : h.id = t.id) (f : Holder → Option Holder) : s.modify t f = { s with holder := f h } := by
  simp [modify, hs, ht]

theorem cancel_of_free {s : Slot} (hs : s.holder = none) : s.cancel = (false, s) := by
  simp [cancel, hs]

theorem cancel_of_held {s : Slot} {h : Holder} (hs : s.holder = some h) :
    s.cancel = (h.killSwitch == .armed, { s with holder := some { h with
      killSwitch := if h.killSwitch = .armed then .fired else h.killSwitch } }) := by
  obtain ⟨holder, nextId⟩ := s
  simp only at hs
  subst hs
  cases hk : h.killSwitch <;> simp [cancel, hk] <;> rw [← hk]

theorem stopListening_of_held {s : Slot} {h : Holder} {t : Ticket} (hs : s.holder = some h)
    (ht : h.id = t.id) : s.stopListening t = { s with holder := some { h with
      killSwitch := if h.killSwitch = .armed then .unheard else h.killSwitch } } :=
  modify_of_held hs ht _

theorem killRequested_of_held {s : Slot} {h : Holder} {t : Ticket} (hs : s.holder = some h)
    (ht : h.id = t.id) : s.killRequested t = (h.killSwitch == .fired) := by
  simp [killRequested, hs, ht]

theorem acquire_of_busy {s : Slot} {h : Holder} (hs : s.holder = some h) (stage : StageKind) :
    s.acquire stage = (.error (.busy stage h.stage), s) := by simp [acquire, hs]

theorem acquire_of_free {s : Slot} (hs : s.holder = none) (stage : StageKind) :
    s.acquire stage =
      (.ok ⟨s.nextId, stage⟩, ⟨some ⟨s.nextId, stage, none, .armed⟩, s.nextId + 1⟩) := by
  simp [acquire, hs]

end Slot

end TraceWorkbench
