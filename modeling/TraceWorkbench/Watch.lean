import TraceWorkbench.Activity

set_option autoImplicit false

/-!
# Watching a process

While its process runs, a stage waits for two things at once: the end of the process and a request
to kill it. Nothing comes of either before it is polled. When a poll finds both, the one that it
looks at first counts, and any of them may be the first. Meanwhile the process prints and works on
the files, it may end, and anybody may ask the slot to cancel it.
-/
namespace TraceWorkbench

inductive Branch where
  | exit
  | kill
  deriving DecidableEq, Repr, Inhabited

inductive Wait where
  /-- For the end of the process or a request to kill it. -/
  | listening
  /-- The kill was sent; only the end is waited for. -/
  | killing
  | gone (waited : Waited) (killSent : Bool)
  deriving DecidableEq, Repr, Inhabited

namespace Wait

def isOver : Wait → Bool
  | gone .. => true
  | _ => false

/-- Goes on with what a poll finds: whether the process is gone, and whether a kill was asked
for. -/
def poll (first : Branch) (ended : Option Waited) (asked : Bool) : Wait → Wait
  | listening =>
    match ended, asked with
    | none, false => listening
    | none, true => killing
    | some e, false => gone e false
    | some e, true => gone e (decide (first = .kill))
  | killing =>
    match ended with
    | some e => gone e true
    | none => killing
  | gone e killSent => gone e killSent

end Wait

inductive Move (σ : Type) where
  | work (files : FileTree) (host : σ)
  | print (c : Chunk)
  | exit (e : Waited)
  | cancel
  | poll (first : Branch)

structure Watch (σ : Type) where
  world : World σ
  /-- What was printed; the latest chunk comes first. -/
  chunks : List Chunk
  ended : Option Waited
  wait : Wait

namespace Watch

variable {σ : Type}

def start (w : World σ) : Watch σ := ⟨w, [], none, .listening⟩

/-- The holder of the ticket makes known what is printed, and no longer listens to the slot when
the wait is over. -/
def move (t : Ticket) (echo : Bool) (v : Watch σ) : Move σ → Watch σ
  | .work files host => { v with world := { v.world with files, host } }
  | .print c => { v with
      world := v.world.publishAll (Event.ofChunk t.stage echo c).toList
      chunks := c :: v.chunks }
  | .exit e => { v with ended := v.ended.or (some e) }
  | .cancel => { v with world := { v.world with slot := v.world.slot.cancel.2 } }
  | .poll first =>
    let wait := v.wait.poll first v.ended (v.world.slot.killRequested t)
    let slot := if wait.isOver then v.world.slot.stopListening t else v.world.slot
    { v with wait, world := { v.world with slot } }

def after (t : Ticket) (echo : Bool) (v : Watch σ) (ms : List (Move σ)) : Watch σ :=
  ms.foldl (move t echo) v

def collected? (v : Watch σ) : Option Collected :=
  match v.wait with
  | .gone waited killSent => some ⟨v.chunks.reverse, waited, killSent⟩
  | _ => none

theorem after_nil (t : Ticket) (echo : Bool) (v : Watch σ) : v.after t echo [] = v := rfl

theorem after_cons (t : Ticket) (echo : Bool) (v : Watch σ) (m : Move σ) (ms : List (Move σ)) :
    v.after t echo (m :: ms) = (v.move t echo m).after t echo ms := rfl

theorem after_concat (t : Ticket) (echo : Bool) (v : Watch σ) (ms : List (Move σ)) (m : Move σ) :
    v.after t echo (ms ++ [m]) = (v.after t echo ms).move t echo m := by
  simp [after]

theorem after_append (t : Ticket) (echo : Bool) (v : Watch σ) (ms ns : List (Move σ)) :
    v.after t echo (ms ++ ns) = (v.after t echo ms).after t echo ns := by
  simp [after, List.foldl_append]

end Watch

/-- Some moves from the start of the watch lead to the answer. -/
def Watch.Explains {σ : Type} (t : Ticket) (echo : Bool) (w : World σ) (ms : List (Move σ))
    (r : Collected × World σ) : Prop :=
  ((start w).after t echo ms).collected? = some r.1 ∧ ((start w).after t echo ms).world = r.2

/-- A host that only does what processes can do: to start one changes nothing but files, and to
watch one is a sequence of moves, in any order. -/
structure Host.Faithful {σ : Type} (h : Host σ) : Prop where
  launch : ∀ c w, ∃ files host, (h.launch c w).2 = { w with files, host }
  supervise : ∀ t pid echo w, ∃ ms, Watch.Explains t echo w ms (h.supervise t pid echo w)

/-- The moves of a script. A process that does not end by itself exits at the end of it. -/
def Host.movesOf (script : StageKind → List (Move Unit)) (t : Ticket) : List (Move Unit) :=
  script t.stage ++ [.exit (.ended (.exited 0)), .poll .exit]

/-- A host on which every command can be started, and goes by a script for its stage. -/
def Host.scripted (script : StageKind → List (Move Unit)) : Host Unit where
  time _ := ""
  save _ w := (.ok (), w.files, w.host)
  launch _ w := (.ok 1, w)
  supervise t _ echo w :=
    let v := (Watch.start w).after t echo (movesOf script t)
    (v.collected?.getD default, v.world)
  runAside _ w := (.error .denied, w)

end TraceWorkbench
