import TraceWorkbench.Command
import TraceWorkbench.Event
import TraceWorkbench.Files.Access
import TraceWorkbench.Project.Active
import TraceWorkbench.Slot

set_option autoImplicit false

/-!
# Activities

What the workbench does, as a tree: an activity is done, or it asks for one effect on the world and
goes on with the answer. Activities do not say when others may act in between; running one from
start to end on a world is one way to read them.
-/
namespace TraceWorkbench

structure AsideRun where
  ending : Ending
  stderr : Bytes
  deriving DecidableEq, Repr, Inhabited

/-- One indivisible effect on the world, with its answer. -/
inductive Effect : Type → Type 1 where
  | publish (e : Event) : Effect Unit
  | files {α : Type} (f : FileTree → α × FileTree) : Effect α
  | project {α : Type} (f : ActiveProject → α × ActiveProject) : Effect α
  | save (p : Path) : Effect (Except OsError Unit)
  | acquire (stage : StageKind) : Effect (Except Refusal Ticket)
  | release (t : Ticket) : Effect Unit
  | time : Effect String
  | launch (c : CommandSpec) : Effect (Except OsError UInt32)
  | recordPid (t : Ticket) (pid : UInt32) : Effect Unit
  /-- Publishes what a process prints until it is gone; it is killed if the slot is asked to. -/
  | supervise (t : Ticket) (pid : UInt32) (echo : Bool) : Effect Collected
  | runAside (c : CommandSpec) : Effect (Except OsError AsideRun)

inductive Activity (α : Type) : Type 1 where
  | done (a : α)
  | step {β : Type} (e : Effect β) (next : β → Activity α)

namespace Activity

def bind {α β : Type} : Activity α → (α → Activity β) → Activity β
  | done a, f => f a
  | step e next, f => step e fun b => bind (next b) f

instance : Monad Activity where
  pure := done
  bind := bind

def perform {α : Type} (e : Effect α) : Activity α := step e done

def publish (e : Event) : Activity Unit := perform (.publish e)

def publishAll : List Event → Activity Unit
  | [] => done ()
  | e :: es => step (.publish e) fun _ => publishAll es

def files (f : FileTree → Except OsError FileTree) : Activity (Except OsError Unit) :=
  perform <| .files fun t =>
    match f t with
    | .ok t => (.ok (), t)
    | .error e => (.error e, t)

def look {α : Type} (f : FileTree → α) : Activity α := perform (.files fun t => (f t, t))

theorem bind_done {α β : Type} (a : α) (f : α → Activity β) : bind (done a) f = f a := rfl

theorem bind_pure {α : Type} (x : Activity α) : bind x done = x := by
  induction x with
  | done a => rfl
  | step e next ih => simp only [bind, ih]

end Activity

/-- All that activities work on. The rest belongs to the host that runs processes and editors. -/
structure World (σ : Type) where
  files : FileTree
  events : List Event
  slot : Slot
  active : ActiveProject
  saved : List Path
  host : σ

structure Host (σ : Type) where
  time : World σ → String
  /-- What the editor of a file does when it is asked to save it. It may write any file, or fail. -/
  save : Path → World σ → Except OsError Unit × FileTree × σ
  launch : CommandSpec → World σ → Except OsError UInt32 × World σ
  supervise : Ticket → UInt32 → Bool → World σ → Collected × World σ
  runAside : CommandSpec → World σ → Except OsError AsideRun × World σ

namespace World

variable {σ : Type}

def publish (w : World σ) (e : Event) : World σ := { w with events := w.events ++ [e] }

def publishAll (w : World σ) (es : List Event) : World σ := { w with events := w.events ++ es }

def answer (h : Host σ) (w : World σ) {α : Type} : Effect α → α × World σ
  | .publish e => ((), w.publish e)
  | .files f =>
    let (a, files) := f w.files
    (a, { w with files })
  | .project f =>
    let (a, active) := f w.active
    (a, { w with active })
  | .save p =>
    let (a, files, host) := h.save p w
    (a, { w with files, host, saved := w.saved ++ [p] })
  | .acquire stage =>
    let (ticket, slot) := w.slot.acquire stage
    (ticket, { w with slot })
  | .release t => ((), { w with slot := w.slot.release t })
  | .time => (h.time w, w)
  | .launch c => h.launch c w
  | .recordPid t pid => ((), { w with slot := w.slot.recordPid t pid })
  | .supervise t pid echo => h.supervise t pid echo w
  | .runAside c => h.runAside c w

end World

/-- Runs an activity from start to end; nobody else acts in between but the host. -/
def Activity.run {σ α : Type} (h : Host σ) : Activity α → World σ → α × World σ
  | .done a, w => (a, w)
  | .step e next, w => run h (next (w.answer h e).1) (w.answer h e).2

namespace Activity

variable {σ α β : Type}

theorem run_bind (h : Host σ) (x : Activity α) (f : α → Activity β)
    (w : World σ) : (x.bind f).run h w = (f (x.run h w).1).run h (x.run h w).2 := by
  induction x generalizing w with
  | done a => rfl
  | step e next ih => exact ih _ _

theorem run_andThen (h : Host σ) (x : Activity α) (f : α → Activity β) (w : World σ) :
    (x >>= f).run h w = (f (x.run h w).1).run h (x.run h w).2 := run_bind h x f w

theorem run_pure (h : Host σ) (a : α) (w : World σ) : (pure a : Activity α).run h w = (a, w) := rfl

theorem run_perform (h : Host σ) (e : Effect α) (w : World σ) :
    (perform e).run h w = w.answer h e := rfl

theorem run_publish (h : Host σ) (e : Event) (w : World σ) :
    (publish e).run h w = ((), w.publish e) := rfl

theorem run_publishAll (h : Host σ) (es : List Event) (w : World σ) :
    (publishAll es).run h w = ((), w.publishAll es) := by
  induction es generalizing w with
  | nil => simp [publishAll, run, World.publishAll]
  | cons e es ih =>
    refine (ih (w.publish e)).trans ?_
    simp [World.publishAll, World.publish]

theorem run_files (h : Host σ) (f : FileTree → Except OsError FileTree) (w : World σ) :
    (files f).run h w =
      match f w.files with
      | .ok t => (.ok (), { w with files := t })
      | .error e => (.error e, w) := by
  unfold files
  rw [run_perform]
  simp only [World.answer]
  cases f w.files <;> rfl

theorem run_look (h : Host σ) (f : FileTree → α) (w : World σ) :
    (look f).run h w = (f w.files, w) := rfl

end Activity

end TraceWorkbench
