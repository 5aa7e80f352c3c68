import TraceWorkbench.Outcome
import TraceWorkbench.Simulation.Expansion
import TraceWorkbench.Simulation.Grammar
import TraceWorkbench.Simulation.Test

set_option autoImplicit false

/-!
# The simulated machine

Processes, pipes, a clock and a file tree. A process is a stack of frames: what it has still to do.
Time is counted in microseconds; every step takes one, and nothing else but sleep takes any.
-/
namespace TraceWorkbench.Simulation

inductive Handle where
  | nowhere
  | reading (pipe : Nat)
  | writing (pipe : Nat)
  | file (place : Place)
  deriving DecidableEq, Repr, Inhabited

abbrev Handles := List (Nat × Handle)

inductive Frame where
  /-- Runs a command; the results are outputs of its substitutions that are known. -/
  | run (c : Command) (results : List String)
  | gather (pipe child : Nat) (c : Command) (results : List String)
  | next (c : Command)
  | both (c : Command)
  | either (c : Command)
  | negate
  | cond (yes no : Command)
  /-- The condition of a loop was run; the body has left that status. -/
  | test (untilTrue : Bool) (condition body : Command) (last : Nat)
  | again (untilTrue : Bool) (condition body : Command)
  | eachNext (name : String) (words : List String) (body : Command)
  | restore (handles : Handles)
  | unassign (vars : List (String × Option String))
  | returnTo (args : List String) (optionPlace : Nat × Nat)
  | builtin (name : String) (args : List String)
  | execute (lead name : String) (args : List String)
  | await (child : Nat)
  | awaitAll (children : List Nat)
  | status (n : Nat)
  | leave
  | copy (names : List String) (failed : Bool)
  | copyInput (names : List String) (failed : Bool)
  | readScript (text : List Char)
  | sleepUntil (time : Nat)
  deriving Inhabited

structure Job where
  id : Nat
  parent : Nat
  shell : Shell
  handles : Handles
  frames : List Frame
  line : Nat := 1
  pending : List Nat := []
  ended : Option Ending := none
  deriving Inhabited

structure Pipe where
  id : Nat
  data : Bytes
  /-- Whether somebody outside the machine reads. -/
  outside : Bool
  deriving Repr, Inhabited

structure Machine where
  jobs : List Job
  pipes : List Pipe
  clock : Nat
  nextId : Nat
  files : FileTree
  deriving Inhabited

/-- What became of a step: it was done, or the job has to wait, perhaps until a time. -/
inductive Step where
  | went (m : Machine) (j : Job)
  | waits (wake : Option Nat)

def Job.isLive (j : Job) : Bool := j.ended.isNone

def Job.handle (j : Job) (fd : Nat) : Option Handle := Shell.lookUp fd j.handles

def Job.push (j : Job) (f : Frame) : Job := { j with frames := f :: j.frames }

def Job.setStatus (j : Job) (n : Nat) : Job := { j with shell := j.shell.withStatus n }

def Job.held (j : Job) : List Handle :=
  j.handles.map Prod.snd ++ j.frames.flatMap fun
    | .restore handles => handles.map Prod.snd
    | .gather pipe .. => [.reading pipe]
    | _ => []

namespace Machine

def job? (m : Machine) (id : Nat) : Option Job := m.jobs.find? fun j => j.id == id

def putJob (m : Machine) (j : Job) : Machine :=
  { m with jobs := m.jobs.map fun k => if k.id == j.id then j else k }

def addJob (m : Machine) (j : Job) : Machine := { m with jobs := m.jobs ++ [j] }

def dropJob (m : Machine) (id : Nat) : Machine :=
  { m with jobs := m.jobs.filter fun j => !(j.id == id) }

def fresh (m : Machine) : Nat × Machine := (m.nextId, { m with nextId := m.nextId + 1 })

def newPipe (m : Machine) (data : Bytes) (outside : Bool) : Nat × Machine :=
  let (id, m) := m.fresh
  (id, { m with pipes := ⟨id, data, outside⟩ :: m.pipes })

def pipe? (m : Machine) (id : Nat) : Option Pipe := m.pipes.find? fun p => p.id == id

def putPipe (m : Machine) (p : Pipe) : Machine :=
  { m with pipes := m.pipes.map fun q => if q.id == p.id then p else q }

def dropPipe (m : Machine) (id : Nat) : Machine :=
  { m with pipes := m.pipes.filter fun p => !(p.id == id) }

def data (m : Machine) (pipe : Nat) : Bytes := ((m.pipe? pipe).map Pipe.data).getD []

def setData (m : Machine) (pipe : Nat) (data : Bytes) : Machine :=
  match m.pipe? pipe with
  | some p => m.putPipe { p with data }
  | none => m

def isWritten (m : Machine) (pipe : Nat) : Bool :=
  m.jobs.any fun j => j.isLive && j.held.contains (.writing pipe)

/-- Forgets pipes that nobody holds, and ended jobs that nobody waits for. -/
def tidy (m : Machine) : Machine :=
  let live := m.jobs.filter Job.isLive
  let handles := live.flatMap Job.held
  { m with
    jobs := m.jobs.filter fun j => j.isLive || j.parent == 0 || live.any fun k => k.id == j.parent
    pipes := m.pipes.filter fun p =>
      p.outside || handles.contains (.reading p.id) || handles.contains (.writing p.id) }

def isRead (m : Machine) (pipe : Nat) : Bool :=
  ((m.pipe? pipe).map Pipe.outside).getD false ||
    m.jobs.any fun j => j.isLive && j.held.contains (.reading pipe)

end Machine

def signals : List (Nat × String × String) := [
  (1, "HUP", "Hangup"), (2, "INT", "Interrupt"), (3, "QUIT", "Quit"),
  (4, "ILL", "Illegal instruction"), (5, "TRAP", "Trace/breakpoint trap"), (6, "ABRT", "Aborted"),
  (7, "BUS", "Bus error"), (8, "FPE", "Floating point exception"), (9, "KILL", "Killed"),
  (10, "USR1", "User defined signal 1"), (11, "SEGV", "Segmentation fault"),
  (12, "USR2", "User defined signal 2"), (13, "PIPE", "Broken pipe"), (14, "ALRM", "Alarm clock"),
  (15, "TERM", "Terminated"), (16, "STKFLT", "Stack fault"), (17, "CHLD", "Child exited"),
  (18, "CONT", "Continued"), (19, "STOP", "Stopped (signal)"), (20, "TSTP", "Stopped"),
  (21, "TTIN", "Stopped (tty input)"), (22, "TTOU", "Stopped (tty output)"),
  (23, "URG", "Urgent I/O condition"), (24, "XCPU", "CPU time limit exceeded"),
  (25, "XFSZ", "File size limit exceeded"), (26, "VTALRM", "Virtual timer expired"),
  (27, "PROF", "Profiling timer expired"), (28, "WINCH", "Window changed"),
  (29, "IO", "I/O possible"), (30, "PWR", "Power failure"), (31, "SYS", "Bad system call")]

def signalNumber? (s : String) : Option Nat :=
  if s.toList.all Char.isDigit then s.toNat?
  else
    let s := s.toUpper
    let name := if s.startsWith "SIG" then (s.drop 3).toString else s
    if name == "EXIT" then some 0
    else ((signals.find? fun e => e.2.1 == name).map Prod.fst).orElse fun _ =>
      if name == "POLL" then some 29 else none

def signalMeaning (n : Nat) : String :=
  ((signals.find? fun e => e.1 == n).map fun e => e.2.2).getD ("Unknown signal " ++ toString n)

/-- Signals that do nothing unless a trap says otherwise, and those that would stop a process. -/
def harmlessSignals : List Nat := [17, 18, 19, 20, 21, 22, 23, 28]

def Job.receive (j : Job) (signal : Nat) : Job :=
  if !j.isLive || signal == 0 then j
  else if signal == 9 then { j with ended := some (.signalled 9) }
  else
    match Shell.lookUp signal j.shell.traps with
    | some "" => j
    | some _ => { j with pending := j.pending ++ [signal] }
    | none =>
      if harmlessSignals.contains signal then j else { j with ended := some (.signalled signal) }

def statusOf : Ending → Nat
  | .exited code => code
  | .signalled signal => 128 + signal

/-- Writes octets to a descriptor. Writing where nobody reads is answered by a signal. -/
def write (m : Machine) (j : Job) (fd : Nat) (s : String) : Machine × Job :=
  if s.isEmpty then (m, j)
  else
    match j.handle fd with
    | some (.writing p) =>
      if m.isRead p then (m.setData p (m.data p ++ toBytes s.toList), j) else (m, j.receive 13)
    | some (.file place) => ({ m with files := m.files.append place (toBytes s.toList) }, j)
    | _ => (m, j)

def complain (m : Machine) (j : Job) (s : String) : Machine × Job :=
  write m j 2 (j.shell.name ++ ": " ++ toString j.line ++ ": " ++ s ++ "\n")

def restoreVars (s : Shell) (saved : List (String × Option String)) : Shell :=
  saved.foldl (fun s e =>
    match e.2 with
    | some v => s.set e.1 v
    | none => { s with vars := s.vars.filter fun v => !(v.1 == e.1) }) s

/-- Leaves frames up to one, and undoes what they have changed for a while. -/
def Job.unwind (stop : Frame → Bool) : List Frame → Job → Job
  | [], j => { j with frames := [] }
  | f :: rest, j =>
    if stop f then { j with frames := f :: rest }
    else
      match f with
      | .restore handles => unwind stop rest { j with handles }
      | .returnTo args optionPlace =>
        unwind stop rest { j with shell := { j.shell with args, optionPlace } }
      | .unassign saved => unwind stop rest { j with shell := restoreVars j.shell saved }
      | _ => unwind stop rest j

def Job.exit (j : Job) (n : Nat) : Job :=
  let k := Job.unwind (fun _ => false) j.frames j
  { k.setStatus n with frames := [.leave] }

def Frame.isTest : Frame → Bool
  | .both _ | .either _ | .negate | .cond .. | .test .. => true
  | _ => false

/-- A command is done. Its failure may end the shell, unless the status is asked for. -/
def Job.finish (j : Job) (n : Nat) : Job :=
  if j.shell.stopOnFailure && n % 256 != 0 && !j.frames.any Frame.isTest then j.exit n
  else j.setStatus n

def Machine.fork (m : Machine) (j : Job) (handles : Handles) (frames : List Frame) :
    Nat × Machine :=
  let (id, m) := m.fresh
  let shell := { j.shell with traps := j.shell.traps.filter fun t => t.2.isEmpty }
  (id, m.addJob { j with id, parent := j.id, shell, handles, frames, pending := [], ended := none })

def nullDevice : String := "/dev/null"

def redirect (m : Machine) (j : Job) (fd : Nat) (kind : RedirectKind) (target : String) :
    Except String (Machine × Job) :=
  let lead (p : Handle) (m : Machine) : Except String (Machine × Job) :=
    .ok (m, { j with handles := Shell.put fd p j.handles })
  let files := j.shell.view m.files
  let openTo (truncate : Bool) : Except String (Machine × Job) :=
    if target == nullDevice then lead .nowhere m
    else
      match files.openForWriting (pathOf target) truncate with
      | .ok (place, t) => lead (.file place) { m with files := m.files.setRoot t.root }
      | .error .noEntry => .error ("cannot create " ++ target ++ ": Directory nonexistent")
      | .error e => .error ("cannot create " ++ target ++ ": " ++ e.meaning)
  match kind with
  | .write => openTo true
  | .append => openTo false
  | .here =>
    let (p, m) := m.newPipe (toBytes target.toList) false
    lead (.reading p) m
  | .read =>
    if target == nullDevice then lead .nowhere m
    else
      match files.stat (pathOf target) with
      | .ok (.file content _) =>
        let (p, m) := m.newPipe content false
        lead (.reading p) m
      | .ok _ => lead .nowhere m
      | .error .noEntry => .error ("cannot open " ++ target ++ ": No such file")
      | .error e => .error ("cannot open " ++ target ++ ": " ++ e.meaning)
  | .copy =>
    if target == "-" then .ok (m, { j with handles := j.handles.filter fun p => !(p.1 == fd) })
    else
      match target.toNat?.bind j.handle with
      | some p => lead p m
      | none => .error (target ++ ": Bad file descriptor")

def redirectAll (m : Machine) (j : Job) :
    List (Nat × RedirectKind × String) → Except String (Machine × Job)
  | [] => .ok (m, j)
  | (fd, kind, target) :: rest =>
    match redirect m j fd kind target with
    | .ok (m, j) => redirectAll m j rest
    | .error e => .error e

end TraceWorkbench.Simulation
