import TraceWorkbench.Simulation.Builtin

set_option autoImplicit false

/-!
# Steps of processes

What a process does next: it takes its top frame and puts others in its place. The machine runs
each process for a while, one after another.
-/
namespace TraceWorkbench.Simulation

/-- Puts the command back until the output of a script is known. -/
def awaitOutput (m : Machine) (j : Job) (script : List Char) (c : Command)
    (results : List String) : Step :=
  let (pipe, m) := m.newPipe [] false
  let (child, m) := m.fork j (Shell.put 1 (.writing pipe) j.handles)
    [.run (parseScript script) [], .leave]
  .went m (j.push (.gather pipe child c results))

def withExpansion {α : Type} (m : Machine) (j : Job) (c : Command) (results : List String)
    (work : Expand α) (go : Job → α → Step) : Step :=
  match work.run ⟨j.shell, results⟩ with
  | .error (.needs script) => awaitOutput m j script c results
  | .error (.fault message) => giveUp m j message
  | .ok (a, e) => go { j with shell := e.shell } a

def expandRedirects (rs : List Redirect) : Expand (List (Nat × RedirectKind × String)) :=
  rs.mapM fun r => return (r.fd, r.kind, ← expandText r.target)

def assignAll (s : Shell) (assigns : List (String × String)) : Shell :=
  assigns.foldl (fun s a => s.set a.1 a.2) s

def savedVars (s : Shell) (assigns : List (String × String)) : List (String × Option String) :=
  assigns.map fun a => (a.1, s.get? a.1)

/-- Runs a program as a child, or in place of a shell that has nothing else to do. -/
def runProgram (m : Machine) (j : Job) (handles : Handles) (assigns : List (String × String))
    (name : String) (args : List String) : Step :=
  let shell := assigns.foldl (fun s a => (s.set a.1 a.2).exporting a.1) j.shell
  match j.frames, j.shell.traps with
  | [.leave], [] => .went m { j with shell, handles, frames := [.execute "" name args, .leave] }
  | _, _ =>
    let (child, m) := m.fork { j with shell } handles [.execute "" name args, .leave]
    .went m (j.push (.await child))

def dispatch (m : Machine) (j : Job) (handles : Handles) (assigns : List (String × String))
    (functions : Bool) (name : String) (args : List String) : Step :=
  let body? := if functions then Shell.lookUp name j.shell.functions else none
  let set (j : Job) : Job := { j with handles, shell := assignAll j.shell assigns }
  let old := j.handles
  let saved := savedVars j.shell assigns
  match body? with
  | some body =>
    let k := (j.push (.restore old)).push (.unassign saved)
    let k := set (k.push (.returnTo j.shell.args j.shell.optionPlace))
    .went m ({ k with shell := { k.shell with args, optionPlace := (1, 0) } }.push (.run body []))
  | none =>
    if name == "exec" then .went m ((set j).push (.builtin name args))
    else if specialNames.contains name then
      .went m ((set (j.push (.restore old))).push (.builtin name args))
    else if builtinNames.contains name then
      .went m ((set ((j.push (.restore old)).push (.unassign saved))).push (.builtin name args))
    else runProgram m j handles assigns name args

def traceCommand (m : Machine) (j : Job) (values : List (String × String))
    (fields : List String) : Machine × Job :=
  let words := values.map (fun a => a.1 ++ "=" ++ a.2) ++ fields
  if words.isEmpty then (m, j)
  else write m j 2 ((j.shell.get? "PS4").getD "+ " ++ " ".intercalate words ++ "\n")

def runSimple (m : Machine) (j : Job) (c : Command) (line : Nat) (assigns : List (String × Word))
    (words : List Word) (redirects : List Redirect) (results : List String) : Step :=
  let j := { j with line }
  let before := j.shell
  let work :
      Expand (List String × List (Nat × RedirectKind × String) × List (String × String)) := do
    let fields ← expandFields m.files words
    let rs ← expandRedirects redirects
    let values ← assigns.mapM fun a => do
      let v ← expandText a.2
      if fields.isEmpty then Expand.assign a.1 v
      return (a.1, v)
    return (fields, rs, values)
  withExpansion m j c results work fun j (fields, rs, values) =>
    match redirectAll m j rs, before.fixedFault? (assigns.map (·.1)) with
    | .error e, _ =>
      if specialNames.contains (fields.headD "") then giveUp m j e else .done (complain m j e) 2
    | .ok _, some fault => giveUp m j fault
    | .ok (m, k), none =>
      let (m, j) := if j.shell.traced then traceCommand m j values fields else (m, j)
      match fields with
      | [] => .done (m, j) (if results.isEmpty then 0 else j.shell.status)
      | "command" :: name :: args =>
        if name == "-v" then dispatch m j k.handles values true "command" (name :: args)
        else dispatch m j k.handles values false name args
      | name :: args => dispatch m j k.handles values true name args

/-- Starts the parts of a pipeline, each reading from the one before. -/
def startParts (j : Job) : Machine → Option Nat → List Command → List Nat × Machine
  | m, _, [] => ([], m)
  | m, input, c :: rest =>
    let handles := match input with
      | some p => Shell.put 0 (.reading p) j.handles
      | none => j.handles
    if rest.isEmpty then
      let (id, m) := m.fork j handles [.run c [], .leave]
      ([id], m)
    else
      let (pipe, m) := m.newPipe [] false
      let (id, m) := m.fork j (Shell.put 1 (.writing pipe) handles) [.run c [], .leave]
      let (ids, m) := startParts j m (some pipe) rest
      (id :: ids, m)

def chooseArm (s : List Char) : List (List Word × Command) → Expand (Option Command)
  | [] => return none
  | (patterns, body) :: rest => do
    let ps ← patterns.mapM expandPattern
    if ps.any fun p => p.matches s then return some body else chooseArm s rest

def startBackground (m : Machine) (j : Job) (c : Command) : Step :=
  let quiet := { j with shell := { j.shell with traps := (2, "") :: (3, "") :: j.shell.traps } }
  let (id, m) := m.fork quiet (Shell.put 0 .nowhere j.handles) [.run c [], .leave]
  .went m ({ j with shell := { j.shell with background := some id } }.setStatus 0)

def runCommand (m : Machine) (j : Job) (c : Command) (results : List String) : Step :=
  match c with
  | .skip => .went m j
  | .malformed line complaint => giveUp m { j with line } complaint
  | .simple line assigns words redirects => runSimple m j c line assigns words redirects results
  | .seq a b => .went m ((j.push (.next b)).push (.run a []))
  | .background a => startBackground m j a
  | .both a b => .went m ((j.push (.both b)).push (.run a []))
  | .either a b => .went m ((j.push (.either b)).push (.run a []))
  | .not a => .went m ((j.push .negate).push (.run a []))
  | .pipeline parts =>
    let (ids, m) := startParts j m none parts
    .went m (j.push (.awaitAll ids))
  | .cond test yes no => .went m ((j.push (.cond yes no)).push (.run test []))
  | .loop u test body => .went m ((j.push (.test u test body 0)).push (.run test []))
  | .each name words body =>
    match words with
    | none => .went m ((j.setStatus 0).push (.eachNext name j.shell.args body))
    | some ws =>
      withExpansion m j c results (expandFields m.files ws) fun j fields =>
        .went m ((j.setStatus 0).push (.eachNext name fields body))
  | .select w arms =>
    let work : Expand (Option Command) := do
      let s ← expandText w
      chooseArm s.toList arms
    withExpansion m j c results work fun j body =>
      match body with
      | some body => .went m ((j.setStatus 0).push (.run body []))
      | none => .went m (j.setStatus 0)
  | .subshell a =>
    let (id, m) := m.fork j j.handles [.run a [], .leave]
    .went m (j.push (.await id))
  | .redirected a rs =>
    withExpansion m j c results (expandRedirects rs) fun j rs =>
      match redirectAll m j rs with
      | .error e => .done (complain m j e) 2
      | .ok (m, k) => .went m ((k.push (.restore j.handles)).push (.run a []))
  | .define name body =>
    .went m ({ j with
      shell := { j.shell with functions := Shell.put name body j.shell.functions } }.setStatus 0)

def finishChildren (m : Machine) (j : Job) (again : Frame) (ids : List Nat) : Step :=
  if m.jobs.any fun k => ids.contains k.id && k.isLive then .waits none
  else
    let ending := (ids.getLast?.bind fun id => (m.job? id).bind Job.ended).getD (.exited 0)
    let m := ids.foldl Machine.dropJob m
    match again with
    | .await _ => .done (announce m j ending) (statusOf ending)
    | _ => .done (m, j) (statusOf ending)

def leave (m : Machine) (j : Job) : Step :=
  match Shell.lookUp 0 j.shell.traps with
  | some action =>
    if action.isEmpty then .went m { j with ended := some (.exited j.shell.status) }
    else
      let traps := j.shell.traps.filter fun t => t.1 != 0
      .went m { j with
        shell := { j.shell with traps }
        frames := [.run (parseScript action.toList) [], .status j.shell.status, .leave] }
  | none => .went m { j with ended := some (.exited j.shell.status) }

def execute (m : Machine) (j : Job) (lead name : String) (args : List String) : Step :=
  match findProgram (j.shell.view m.files) ((j.shell.get? "PATH").getD "") name args with
  | .ok p =>
    let (m, j) := become m j p
    .went m j
  | .error .badProgram =>
    let (m, j) := startShell m j name (name :: args)
    .went m j
  | .error .denied => giveUp m j (lead ++ name ++ ": Permission denied") 126
  | .error _ => giveUp m j (lead ++ name ++ ": not found") 127

def copyNext (m : Machine) (j : Job) (names : List String) (failed : Bool) : Step :=
  match names with
  | [] => .went m (j.setStatus (if failed then 1 else 0))
  | "-" :: rest => .went m (j.push (.copyInput rest failed))
  | name :: rest =>
    let refuse (why : String) : Step :=
      let (m, j) := toolComplaint m j j.shell.name (name ++ ": " ++ why)
      .went m (j.push (.copy rest true))
    match (j.shell.view m.files).readBytes (pathOf name) with
    | .ok content =>
      let (m, j) := write m j 1 (String.ofList (ofBytes content))
      .went m (j.push (.copy rest failed))
    | .error e => refuse e.meaning

def takeInput (m : Machine) (j : Job) : Option (Machine × List Char × Bool) :=
  match j.handle 0 with
  | some (.reading p) =>
    let data := m.data p
    let open? := m.isWritten p
    if data.isEmpty && open? then none else some (m.setData p [], ofBytes data, open?)
  | _ => some (m, [], false)

def runFrame (m : Machine) (j : Job) (f : Frame) : Step :=
  match f with
  | .run c results => runCommand m j c results
  | .gather pipe child c results =>
    match m.job? child with
    | some k =>
      match k.ended, m.isWritten pipe with
      | some ending, false =>
        let text := (ofBytes (m.data pipe)).filter (· != '\x00')
        let text := (text.reverse.dropWhile (· == '\n')).reverse
        let m := (m.dropPipe pipe).dropJob child
        .went m ((j.setStatus (statusOf ending)).push (.run c (results ++ [String.ofList text])))
      | _, _ => .waits none
    | none => .went m (j.push (.run c (results ++ [""])))
  | .next c => .went m (j.push (.run c []))
  | .both c => .went m (if j.shell.status == 0 then j.push (.run c []) else j)
  | .either c => .went m (if j.shell.status == 0 then j else j.push (.run c []))
  | .negate => .went m (j.setStatus (if j.shell.status == 0 then 1 else 0))
  | .cond yes no =>
    if j.shell.status == 0 then .went m (j.push (.run yes []))
    else
      match no with
      | .skip => .went m (j.setStatus 0)
      | _ => .went m (j.push (.run no []))
  | .test u c b last =>
    if (j.shell.status == 0) != u then .went m ((j.push (.again u c b)).push (.run b []))
    else .went m (j.setStatus last)
  | .again u c b => .went m ((j.push (.test u c b j.shell.status)).push (.run c []))
  | .eachNext name words body =>
    match words with
    | [] => .went m j
    | w :: rest =>
      match j.shell.fixedFault? [name] with
      | some fault => giveUp m j fault
      | none =>
        .went m (({ j with shell := j.shell.set name w }.push (.eachNext name rest body)).push
          (.run body []))
  | .restore handles => .went m { j with handles }
  | .unassign saved => .went m { j with shell := restoreVars j.shell saved }
  | .returnTo args optionPlace => .went m { j with shell := { j.shell with args, optionPlace } }
  | .builtin name args => runBuiltin m j name args
  | .execute lead name args => execute m j lead name args
  | .await child => finishChildren m j f [child]
  | .awaitAll children => finishChildren m j f children
  | .status n => .went m (j.setStatus n)
  | .leave => leave m j
  | .copy names failed => copyNext m j names failed
  | .copyInput names failed =>
    match takeInput m j with
    | none => .waits none
    | some (m, text, more) =>
      let (m, j) := write m j 1 (String.ofList text)
      .went m (j.push (if more then .copyInput names failed else .copy names failed))
  | .readScript text =>
    match takeInput m j with
    | none => .waits none
    | some (m, more, open?) =>
      let text := text ++ more
      .went m (j.push (if open? then .readScript text else .run (parseScript text) []))
  | .sleepUntil time => if time ≤ m.clock then .went m j else .waits (some time)

/-- Whether traps have to wait for what the frame waits for. -/
def Frame.isWaiting : Frame → Bool
  | .await _ | .awaitAll _ | .gather .. => true
  | _ => false

def step (m : Machine) (j : Job) : Step :=
  match j.frames with
  | [] => leave m j
  | f :: rest =>
    match j.pending with
    | [] => runFrame m { j with frames := rest } f
    | n :: pending =>
      if f.isWaiting then runFrame m { j with frames := rest } f
      else
        let j := { j with pending }
        let j :=
          match f with
          | .builtin "wait" _ => { j.setStatus (128 + n) with frames := rest }
          | _ => j
        match Shell.lookUp n j.shell.traps with
        | some action =>
          .went m ((j.push (.status j.shell.status)).push (.run (parseScript action.toList) []))
        | none => .went m j

namespace Machine

/-- Runs a job until it waits, ends, or has taken so many steps. Says whether it took any. -/
def runJob : Nat → Nat → Machine → Bool → Machine × Bool
  | 0, _, m, went => (m, went)
  | n + 1, id, m, went =>
    match m.job? id with
    | none => (m, went)
    | some j =>
      if !j.isLive then (m, went)
      else
        match step m j with
        | .waits _ => (m, went)
        | .went m j => runJob n id { m.putJob j with clock := m.clock + 1 } true

def turn : Nat := 200

def round (m : Machine) : Machine × Bool :=
  let (m, went) := (m.jobs.map Job.id).foldl (fun (m, went) id => runJob turn id m went) (m, false)
  (m.tidy, went)

def nextWake (m : Machine) : Option Nat :=
  (m.jobs.filterMap fun j =>
    match j.isLive, j.frames with
    | true, .sleepUntil t :: _ => some t
    | _, _ => none).min?

/-- Lets the clock go on, but not beyond a time. -/
def sleepUntilNext (m : Machine) (limit : Option Nat) : Machine :=
  let wake := (m.nextWake.toList ++ limit.toList).min?
  { m with clock := max m.clock (wake.getD m.clock) }

end Machine

end TraceWorkbench.Simulation
