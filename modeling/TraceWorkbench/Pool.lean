import TraceWorkbench.Watch
import TraceWorkbench.Workflow.Result

set_option autoImplicit false

/-!
# Several workflows at once

Any number of parties share one world. Each goes on by one effect at a time, and it is anybody's
turn in between. To watch a process is more than one effect here: it goes on move by move. A process
runs from its start until it has exited, whether or not its party has noticed. Anybody may cancel,
and the files may change at any time.
-/
namespace TraceWorkbench

/-- What a party that watches a process has found so far. -/
structure Vigil where
  chunks : List Chunk := []
  ended : Option Waited := none
  wait : Wait := .listening
  deriving DecidableEq, Repr, Inhabited

def Vigil.watch {σ : Type} (v : Vigil) (w : World σ) : Watch σ := ⟨w, v.chunks, v.ended, v.wait⟩

def Watch.vigil {σ : Type} (v : Watch σ) : Vigil := ⟨v.chunks, v.ended, v.wait⟩

inductive Doing (α : Type) : Type 1 where
  | acting (rest : Activity α)
  | watching (t : Ticket) (pid : UInt32) (echo : Bool) (vigil : Vigil)
    (next : Collected → Activity α)

structure Party where
  Answer : Type
  doing : Doing (Result Answer)
  /-- The stage that it was last heard to start. -/
  announced : Option StageKind := none

def Party.of {α : Type} (x : Workflow α) : Party := ⟨α, .acting x.toActivity, none⟩

structure Process where
  /-- The party that started it. -/
  party : Nat
  pid : UInt32
  /-- The stage that its party had announced. -/
  stage : Option StageKind
  deriving DecidableEq, Repr, Inhabited

structure Pool (σ : Type) where
  world : World σ
  parties : List Party
  running : List Process := []

inductive Turn (σ : Type) where
  | act (i : Nat)
  | watch (i : Nat) (m : Move σ)
  | cancel
  /-- Other programs work on the files. -/
  | outside (files : FileTree) (host : σ)

def Effect.announced? {β : Type} : Effect β → Option StageKind
  | .publish e => e.startedStage?
  | _ => none

def Effect.launched? {β : Type} : Effect β → β → Option UInt32
  | .launch _, .ok pid => some pid
  | _, _ => none

namespace Pool

variable {σ : Type}

def start (w : World σ) (parties : List Party) : Pool σ := { world := w, parties }

def put (p : Pool σ) (i : Nat) (q : Party) : Pool σ := { p with parties := p.parties.set i q }

def perform (h : Host σ) (p : Pool σ) (i : Nat) (q : Party) {β : Type} (e : Effect β)
    (next : β → Activity (Result q.Answer)) : Pool σ :=
  let r := p.world.answer h e
  { world := r.2
    parties := p.parties.set i
      { q with doing := .acting (next r.1), announced := e.announced?.or q.announced }
    running := p.running ++ ((e.launched? r.1).map fun pid => ⟨i, pid, q.announced⟩).toList }

/-- A party that watches goes on when its process is gone. -/
def act (h : Host σ) (p : Pool σ) (i : Nat) (q : Party) : Pool σ :=
  match q.doing with
  | .acting (.done _) => p
  | .acting (.step (.supervise t pid echo) next) =>
    p.put i { q with doing := .watching t pid echo {} next }
  | .acting (.step e next) => p.perform h i q e next
  | .watching _ _ _ vigil next =>
    match (vigil.watch p.world).collected? with
    | some c => p.put i { q with doing := .acting (next c) }
    | none => p

def watch (p : Pool σ) (i : Nat) (q : Party) (m : Move σ) : Pool σ :=
  match q.doing with
  | .watching t pid echo vigil next =>
    let v := (vigil.watch p.world).move t echo m
    { world := v.world
      parties := p.parties.set i { q with doing := .watching t pid echo v.vigil next }
      running :=
        if v.ended.isSome then p.running.filter fun r => !(r.party == i && r.pid == pid)
        else p.running }
  | _ => p

def turn (h : Host σ) (p : Pool σ) : Turn σ → Pool σ
  | .act i =>
    match p.parties[i]? with
    | some q => p.act h i q
    | none => p
  | .watch i m =>
    match p.parties[i]? with
    | some q => p.watch i q m
    | none => p
  | .cancel => { p with world := { p.world with slot := p.world.slot.cancel.2 } }
  | .outside files host => { p with world := { p.world with files, host } }

def after (h : Host σ) (p : Pool σ) (ts : List (Turn σ)) : Pool σ := ts.foldl (turn h) p

theorem after_nil (h : Host σ) (p : Pool σ) : p.after h [] = p := rfl

theorem after_cons (h : Host σ) (p : Pool σ) (t : Turn σ) (ts : List (Turn σ)) :
    p.after h (t :: ts) = (p.turn h t).after h ts := rfl

theorem after_append (h : Host σ) (p : Pool σ) (ts us : List (Turn σ)) :
    p.after h (ts ++ us) = (p.after h ts).after h us := by
  simp [after, List.foldl_append]

theorem after_concat (h : Host σ) (p : Pool σ) (ts : List (Turn σ)) (t : Turn σ) :
    p.after h (ts ++ [t]) = (p.after h ts).turn h t := by
  simp [after]

theorem turn_act (h : Host σ) {p : Pool σ} {i : Nat} {q : Party} (hq : p.parties[i]? = some q) :
    p.turn h (.act i) = p.act h i q := by
  simp only [turn, hq]

theorem turn_watch (h : Host σ) {p : Pool σ} {i : Nat} {q : Party} (hq : p.parties[i]? = some q)
    (m : Move σ) : p.turn h (.watch i m) = p.watch i q m := by
  simp only [turn, hq]

theorem turn_act_of_alone (h : Host σ) {p : Pool σ} {q : Party} (hp : p.parties = [q]) :
    p.turn h (.act 0) = p.act h 0 q :=
  turn_act h (by rw [hp]; rfl)

/-- While one party watches alone, its moves are those of a watch. -/
theorem after_watch (h : Host σ) {α : Type} {announced : Option StageKind} {t : Ticket}
    {pid : UInt32} {echo : Bool} {next : Collected → Activity (Result α)} (ms : List (Move σ))
    (v : Watch σ) {p : Pool σ} (hw : p.world = v.world)
    (hp : p.parties = [⟨α, .watching t pid echo v.vigil next, announced⟩]) :
    (p.after h (ms.map (.watch 0))).world = (v.after t echo ms).world ∧
      (p.after h (ms.map (.watch 0))).parties =
        [⟨α, .watching t pid echo (v.after t echo ms).vigil next, announced⟩] := by
  induction ms generalizing v p with
  | nil => exact ⟨hw, hp⟩
  | cons m ms ih =>
    have hq : p.parties[0]? = some ⟨α, .watching t pid echo v.vigil next, announced⟩ := by
      rw [hp]
      rfl
    have hv : v.vigil.watch p.world = v := by
      rw [hw]
      rfl
    rw [List.map_cons, after_cons, Watch.after_cons, turn_watch h hq]
    refine ih (v.move t echo m) ?_ ?_
    · simp only [watch, hv]
    · simp only [watch, hv, hp, List.set_cons_zero]

theorem exists_turns_of_supervise {h : Host σ} (hh : h.Faithful) {α : Type} {t : Ticket}
    {pid : UInt32} {echo : Bool} {next : Collected → Activity (Result α)} {p : Pool σ}
    {announced : Option StageKind}
    (hp : p.parties = [⟨α, .acting (.step (.supervise t pid echo) next), announced⟩]) :
    ∃ ts, (p.after h ts).world = (h.supervise t pid echo p.world).2 ∧ (p.after h ts).parties =
      [⟨α, .acting (next (h.supervise t pid echo p.world).1), announced⟩] := by
  obtain ⟨ms, hcollected, hworld⟩ := hh.supervise t pid echo p.world
  have hturn : p.turn h (.act 0) =
      p.put 0 ⟨α, .watching t pid echo (Watch.start p.world).vigil next, announced⟩ :=
    turn_act_of_alone h hp
  obtain ⟨hw, hwatching⟩ := after_watch h ms (Watch.start p.world) (p := p.turn h (.act 0))
    (by rw [hturn]; rfl) (by rw [hturn, put, hp]; rfl)
  generalize hp₁ : (p.turn h (.act 0)).after h (ms.map (.watch 0)) = p₁ at hw hwatching
  have hgone : (((Watch.start p.world).after t echo ms).vigil.watch p₁.world).collected? =
      some (h.supervise t pid echo p.world).1 := by
    rw [← hcollected, hw]
    rfl
  have hleave := turn_act_of_alone h hwatching
  simp only [act, hgone] at hleave
  refine ⟨.act 0 :: (ms.map (.watch 0) ++ [.act 0]), ?_⟩
  rw [after_cons, after_concat, hp₁, hleave, put, hw, hworld, hwatching]
  exact ⟨rfl, rfl⟩

theorem exists_turns_of_step {h : Host σ} (hh : h.Faithful) {α β : Type} (e : Effect β)
    {next : β → Activity (Result α)} {p : Pool σ} {announced : Option StageKind}
    (hp : p.parties = [⟨α, .acting (.step e next), announced⟩]) :
    ∃ ts announced', (p.after h ts).world = (p.world.answer h e).2 ∧
      (p.after h ts).parties = [⟨α, .acting (next (p.world.answer h e).1), announced'⟩] := by
  have hperform (hact : p.act h 0 ⟨α, .acting (.step e next), announced⟩ =
      p.perform h 0 ⟨α, .acting (.step e next), announced⟩ e next) :
      ∃ ts announced', (p.after h ts).world = (p.world.answer h e).2 ∧
        (p.after h ts).parties = [⟨α, .acting (next (p.world.answer h e).1), announced'⟩] := by
    refine ⟨[.act 0], e.announced?.or announced, ?_⟩
    rw [after_cons, after_nil, turn_act_of_alone h hp, hact, perform, hp]
    exact ⟨rfl, rfl⟩
  cases e with
  | supervise t pid echo =>
    obtain ⟨ts, hrest⟩ := exists_turns_of_supervise hh hp
    exact ⟨ts, announced, hrest⟩
  | _ => exact hperform rfl

/-- To run from start to end, with nobody else, is one of the ways in which turns can be taken. -/
theorem exists_turns_of_run {h : Host σ} (hh : h.Faithful) {α : Type} (x : Activity (Result α))
    {p : Pool σ} {announced : Option StageKind}
    (hp : p.parties = [⟨α, .acting x, announced⟩]) :
    ∃ ts announced', (p.after h ts).world = (x.run h p.world).2 ∧
      (p.after h ts).parties = [⟨α, .acting (.done (x.run h p.world).1), announced'⟩] := by
  induction x generalizing p announced with
  | done a => exact ⟨[], announced, rfl, hp⟩
  | step e next ih =>
    obtain ⟨ts, announced₁, hworld, hparties⟩ := exists_turns_of_step hh e hp
    obtain ⟨more, announced₂, hrest⟩ := ih _ hparties
    rw [hworld] at hrest
    refine ⟨ts ++ more, announced₂, ?_⟩
    rw [after_append]
    exact hrest

end Pool

end TraceWorkbench
