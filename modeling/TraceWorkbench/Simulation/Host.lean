import TraceWorkbench.Simulation.Pump
import TraceWorkbench.Simulation.Step
import TraceWorkbench.Watch

set_option autoImplicit false

/-!
# The simulated host

Runs the commands of the workbench on the simulated machine. While a process runs, somebody may
watch the world and act on it; this is how a run can be cancelled.
-/
namespace TraceWorkbench.Simulation

structure Simulated (τ : Type) where
  machine : Machine
  environment : List (String × String)
  notes : τ

/-- Acts on the world while a process runs, if it is time to. -/
abbrev Watcher (τ : Type) := World (Simulated τ) → Option (World (Simulated τ))

def Watcher.none (τ : Type) : Watcher τ := fun _ => Option.none

section

variable {τ : Type}

def onMachine {α : Type} (w : World (Simulated τ)) (f : Machine → Machine × α) :
    World (Simulated τ) × α :=
  let (m, a) := f { w.host.machine with files := w.files }
  ({ w with files := m.files, host := { w.host with machine := m } }, a)

def startPlace (t : FileTree) (dir : Option Path) : Except OsError Place :=
  match dir with
  | none => .ok t.cwd
  | some dir =>
    match t.resolve dir true with
    | .error e => .error e
    | .ok place =>
      match t.root.at? place with
      | some (.dir _) => .ok place
      | some _ => .error .notDirectory
      | none => .error .noEntry

def holdsNul (s : String) : Bool := s.toList.contains '\x00'

def startProcess (environment : List (String × String)) (c : CommandSpec) (handles : Handles)
    (m : Machine) : Machine × Except OsError Nat :=
  if (c.program.text :: c.args).any holdsNul then (m, .error .nulInArgument)
  else if (c.workingDir.map fun d => holdsNul d.text).getD false then (m, .error .nulInArgument)
  else
    match startPlace m.files c.workingDir with
    | .error e => (m, .error e)
    | .ok cwd =>
      let path := (Shell.lookUp "PATH" environment).getD ""
      match findProgram { m.files with cwd } path (octets c.program.text) (c.args.map octets) with
      | .error e => (m, .error e)
      | .ok program =>
        let (id, m) := m.fresh
        let shell := Shell.start program.name [] environment id 0 cwd []
        let shell := { shell with exported := environment.map Prod.fst }
        let (m, j) := become m ⟨id, 0, shell, handles, [], 1, [], none⟩ program
        (m.addJob j, .ok id)

def outputHandle (t : FileTree) (c : CommandSpec) : Option Handle :=
  c.stdoutFile.map fun file =>
    if file.text == nullDevice then .nowhere
    else
      match t.resolve file true with
      | .ok place => .file place
      | .error _ => .nowhere

structure Watched (τ : Type) where
  ticket : Ticket
  id : Nat
  echo : Bool
  pumps : List Pump
  watch : Watch (Simulated τ)
  /-- When reading the first open pump is given up; set once the process has ended. -/
  limit : Option Nat

def drainTime : Nat := 250000

def readPumps (m : Machine) : List Pump → Machine × List Pump × List Chunk
  | [] => (m, [], [])
  | p :: rest =>
    let (m, p, now) := p.read m
    let (m, ps, later) := readPumps m rest
    (m, p :: ps, now ++ later)

/-- After the process has ended, the streams are waited for one after another: each until it ends
or its time is over. Says which pumps are done with. -/
def settle (clock : Nat) : Nat → List Pump → Nat × List Pump × List Pump
  | limit, [] => (limit, [], [])
  | limit, p :: rest =>
    if p.isOpen && clock < limit then (limit, p :: rest, [])
    else
      let (limit, left, gone) := settle clock (clock + drainTime) rest
      (limit, left, p :: gone)

namespace Watched

def machine (p : Watched τ) : Machine := p.watch.world.host.machine

def make (p : Watched τ) (ms : List (Move (Simulated τ))) : Watched τ :=
  { p with watch := p.watch.after p.ticket p.echo ms }

def work {α : Type} (p : Watched τ) (f : Machine → Machine × α) : Watched τ × α :=
  let (w, a) := onMachine p.watch.world f
  (p.make [.work w.files w.host], a)

def change (p : Watched τ) (f : Machine → Machine) : Watched τ := (p.work fun m => (f m, ())).1

def takeOutput (p : Watched τ) : Watched τ :=
  let read := p.work fun m => readPumps m p.pumps
  { read.1.make (read.2.2.map .print) with pumps := read.2.1 }

def killIfAsked (p : Watched τ) : Watched τ :=
  if p.watch.wait = .listening ∧ p.watch.world.slot.killRequested p.ticket then
    (p.make [.poll .kill]).change fun m =>
      match m.job? p.id with
      | some j => m.putJob (j.receive 9)
      | none => m
  else p

/-- Notices that the process has ended, even if it was asked to be killed since the last look; from
then on it cannot be cancelled. -/
def noticeEnd (p : Watched τ) : Watched τ :=
  match p.limit, (p.machine.job? p.id).bind Job.ended with
  | none, some ending =>
    { p.make [.exit (.ended ending), .poll .exit] with limit := some (p.machine.clock + drainTime) }
  | _, _ => p

def giveUpPumps (p : Watched τ) : Watched τ :=
  match p.limit with
  | some limit =>
    let settled := settle p.machine.clock limit p.pumps
    { p.change fun m => settled.2.2.foldl (fun m q => m.hangUp q.pipe) m with
      pumps := settled.2.1, limit := some settled.1 }
  | none => p

def isOver (p : Watched τ) : Bool := p.limit.isSome && p.pumps.isEmpty

/-- Forgets the process. One that does not end counts as killed. -/
def close (p : Watched τ) : Watched τ :=
  (p.make [.exit (.ended (.signalled 9)), .poll .kill]).change fun m =>
    p.pumps.foldl (fun m q => m.hangUp q.pipe) (m.dropJob p.id)

def finish (p : Watched τ) : Collected × World (Simulated τ) :=
  let p := p.close
  (p.watch.collected?.getD ⟨p.watch.chunks.reverse, .ended (.signalled 9), false⟩, p.watch.world)

end Watched

/-- Watches a process: the machine works and output is taken. Now and then, and whenever the machine
has nothing to do, the watcher acts; the machine goes on before a kill that it asked for is sent.
Only when nothing else can happen does the clock go on. -/
def watch (act : Watcher τ) : Nat → Watched τ → Collected × World (Simulated τ)
  | 0, p => p.finish
  | fuel + 1, p =>
    let (p, went) := p.work Machine.round
    let p := p.takeOutput.noticeEnd.giveUpPumps
    if p.isOver then p.finish
    else if went && fuel % 64 != 0 then watch act fuel p
    else
      match act p.watch.world with
      | some w => watch act fuel { p with watch := { p.watch with world := w } }
      | none =>
        let p := p.killIfAsked
        if went then watch act fuel p
        else if p.machine.nextWake = none ∧ p.limit = none ∧ p.watch.wait ≠ .killing then p.finish
        else watch act fuel (p.change fun m => m.sleepUntilNext p.limit)

def watchLimit : Nat := 1000000

/-- The pipes of a process that was started last are kept with its number. -/
def pumpsOf (m : Machine) (id : Nat) : List Pump :=
  match m.job? id with
  | none => []
  | some j =>
    [(1, Stream.stdout), (2, Stream.stderr)].filterMap fun (fd, stream) =>
      match j.handle fd with
      | some (.writing pipe) => some ⟨stream, pipe, [], true⟩
      | _ => none

def launch (c : CommandSpec) (w : World (Simulated τ)) :
    Except OsError UInt32 × World (Simulated τ) :=
  let environment := w.host.environment
  let (w, r) := onMachine w fun m =>
    let (err, m) := m.newPipe [] true
    let (out, m) :=
      match outputHandle m.files c with
      | some handle => (handle, m)
      | none =>
        let (out, m) := m.newPipe [] true
        (.writing out, m)
    startProcess environment c [(0, .nowhere), (1, out), (2, .writing err)] m
  (r.map fun id => UInt32.ofNat id, w)

def supervise (act : Watcher τ) (t : Ticket) (pid : UInt32) (echo : Bool)
    (w : World (Simulated τ)) : Collected × World (Simulated τ) :=
  let p : Watched τ :=
    ⟨t, pid.toNat, echo, pumpsOf w.host.machine pid.toNat, .start w, none⟩
  watch act watchLimit p.killIfAsked

/-- Runs the machine until a process has ended and nobody can write to its pipes any more. -/
def runToEnd (id : Nat) (pipes : List Nat) : Nat → Machine → Machine
  | 0, m => m
  | fuel + 1, m =>
    let (m, went) := m.round
    let ended := ((m.job? id).map fun j => !j.isLive).getD true && !pipes.any m.isWritten
    if ended || (!went && m.nextWake.isNone) then m
    else runToEnd id pipes fuel (if went then m else m.sleepUntilNext none)

def runAside (c : CommandSpec) (w : World (Simulated τ)) :
    Except OsError AsideRun × World (Simulated τ) :=
  let environment := w.host.environment
  let (w, r) := onMachine w fun m =>
    let (out, m) := m.newPipe [] true
    let (err, m) := m.newPipe [] true
    match startProcess environment c [(0, .nowhere), (1, .writing out), (2, .writing err)] m with
    | (m, .error e) => (m, .error e)
    | (m, .ok id) =>
      let m := runToEnd id [out, err] watchLimit m
      let ending := ((m.job? id).bind Job.ended).getD (.signalled 9)
      let run : AsideRun := ⟨ending, m.data err⟩
      (((m.dropJob id).hangUp out).hangUp err, .ok run)
  (r, w)

def host (time : String) (act : Watcher τ) : Host (Simulated τ) where
  time _ := time
  save _ w := (.ok (), w.files, w.host)
  launch := launch
  supervise := supervise act
  runAside := runAside

end

def Machine.idle (files : FileTree) : Machine := ⟨[], [], 0, 1000, files⟩

end TraceWorkbench.Simulation
