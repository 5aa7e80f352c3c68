import TraceWorkbench.Simulation.Program

set_option autoImplicit false

/-!
# Commands of the shell itself

What the shell does for its built-in commands. Each changes the machine and the job, or has to wait
for another job or for input.
-/
namespace TraceWorkbench.Simulation

def builtinNames : List String := [
  ":", ".", "[", "break", "cd", "command", "continue", "echo", "eval", "exec", "exit", "export",
  "false", "getopts", "kill", "local", "printf", "pwd", "read", "readonly", "return", "set",
  "shift", "test", "trap", "true", "type", "umask", "unset", "wait"]

/-- Built-in commands whose errors end the shell. -/
def specialNames : List String := [
  ":", ".", "break", "continue", "eval", "exec", "exit", "export", "readonly", "return", "set",
  "shift", "trap", "unset"]

def Step.done (mj : Machine × Job) (status : Nat) : Step := .went mj.1 (mj.2.finish status)

def giveUp (m : Machine) (j : Job) (message : String) (status : Nat := 2) : Step :=
  let (m, j) := complain m j message
  .went m (j.exit status)

def numberArg? (a : String) : Option Nat :=
  if !a.isEmpty && a.toList.all Char.isDigit then a.toNat? else none

def isLoop : Frame → Bool
  | .test .. | .again .. | .eachNext .. => true
  | _ => false

def isCall : Frame → Bool
  | .returnTo .. => true
  | _ => false

/-- Leaves the innermost `n` loops of the function at hand; the last of them goes on if `again`
says so. -/
def leaveLoops (again : Bool) : Nat → Job → Job
  | 0, j => j
  | n + 1, j =>
    let k := Job.unwind isLoop j.frames j
    if !(j.frames.takeWhile fun f => !isCall f).any isLoop then j
    else if n == 0 && again then
      match k.frames with
      | .test u c b _ :: rest => { k with frames := .again u c b :: rest }
      | _ => k
    else leaveLoops again n { k with frames := k.frames.drop 1 }

def returnFrom (j : Job) (status : Nat) : Job :=
  let k := Job.unwind isCall j.frames j
  if k.frames.isEmpty then j.exit status else k.setStatus status

def argName (a : String) : String := String.ofList (a.toList.takeWhile (· != '='))

def assignArgs (alsoExport : Bool) (s : Shell) (args : List String) : Shell :=
  args.foldl (fun s a =>
    let name := argName a
    let s := if name.length < a.length then
        s.set name (String.ofList (a.toList.drop (name.length + 1))) else s
    if alsoExport then s.exporting name else s) s

def optionNames : List String := [
  "errexit", "noglob", "ignoreeof", "interactive", "monitor", "noexec", "stdin", "xtrace",
  "verbose", "vi", "emacs", "noclobber", "allexport", "notify", "nounset", "privileged", "nolog",
  "debug"]

def Shell.setNamed (s : Shell) (on : Bool) (name : String) : Except String Shell :=
  if name = "errexit" then .ok { s with stopOnFailure := on }
  else if name = "nounset" then .ok { s with needSet := on }
  else if name = "xtrace" then .ok { s with traced := on }
  else if optionNames.contains name then .ok s
  else .error ("set: Illegal option " ++ (if on then "-o " else "+o ") ++ name)

def setArgs : Shell → List String → Except String Shell
  | s, [] => .ok s
  | s, "-o" :: name :: rest => (s.setNamed true name).bind fun s => setArgs s rest
  | s, "+o" :: name :: rest => (s.setNamed false name).bind fun s => setArgs s rest
  | s, a :: rest =>
    match a.toList with
    | ['-', '-'] => .ok { s with args := rest }
    | ['-'] => .ok { s with args := rest }
    | sign :: c :: letters =>
      if sign == '-' || sign == '+' then
        let on := sign == '-'
        match (c :: letters).find? fun c => !"aefhmnuvxbCI".toList.contains c with
        | some c => .error ("set: Illegal option " ++ String.ofList [sign, c])
        | none =>
          let s := if (c :: letters).contains 'e' then { s with stopOnFailure := on } else s
          let s := if (c :: letters).contains 'u' then { s with needSet := on } else s
          let s := if (c :: letters).contains 'x' then { s with traced := on } else s
          setArgs s rest
      else .ok { s with args := a :: rest }
    | _ => .ok { s with args := a :: rest }

def sendSignal (signal : Nat) : List String → Machine → Job → Bool → Machine × Job × Bool
  | [], m, j, failed => (m, j, failed)
  | target :: rest, m, j, failed =>
    let refuse : Machine × Job × Bool :=
      let (m, j) := complain m j "kill: No such process\n"
      sendSignal signal rest m j true
    match numberArg? target with
    | none =>
      let (m, j) := complain m j ("kill: Illegal number: " ++ target)
      sendSignal signal rest m j true
    | some id =>
      if id == j.id then sendSignal signal rest m (j.receive signal) failed
      else
        match m.job? id with
        | some k => sendSignal signal rest (m.putJob (k.receive signal)) j failed
        | none => refuse

def killArgs : List String → Except String (Nat × List String)
  | "-s" :: name :: rest =>
    match signalNumber? name with
    | some n => .ok (n, rest)
    | none => .error ("kill: invalid signal number or name: " ++ name)
  | a :: rest =>
    match a.toList with
    | ['-', '-'] => .ok (15, rest)
    | '-' :: name =>
      match signalNumber? (String.ofList name) with
      | some n => .ok (n, if rest.head? == some "--" then rest.drop 1 else rest)
      | none => .error ("kill: Illegal option -" ++ String.ofList (name.take 1))
    | _ => .ok (15, a :: rest)
  | [] => .error ("kill: Usage: kill [-s sigspec | -signum | -sigspec] [pid | job]... or\n" ++
      "kill -l [exitstatus]")

/-- Cuts a line into fields for variables; the last takes the rest. -/
def readFields (separators : List Char) : Nat → List Marked → List String
  | 0, _ => []
  | 1, cs =>
    let blank (c : Marked) : Bool := !c.2 && separators.contains c.1 && isBlankChar c.1
    [plainText ((cs.dropWhile blank).reverse.dropWhile blank).reverse]
  | n + 2, cs =>
    let blank (c : Marked) : Bool := !c.2 && separators.contains c.1 && isBlankChar c.1
    let separates (c : Marked) : Bool := !c.2 && separators.contains c.1
    let cs := cs.dropWhile blank
    let field := cs.takeWhile fun c => !separates c
    let rest := (cs.dropWhile fun c => !separates c).dropWhile blank
    let rest :=
      match rest with
      | c :: more => if separates c && !blank c then more else rest
      | [] => []
    plainText field :: readFields separators (n + 1) rest

def readMarked : List Char → List Marked
  | '\\' :: c :: rest => (c, true) :: readMarked rest
  | c :: rest => (c, false) :: readMarked rest
  | [] => []

/-- A line that is there to be read, and what follows it; a line may go on behind a backslash. -/
def takeLine (raw : Bool) : List Char → Option (List Char × List Char)
  | [] => none
  | '\\' :: c :: rest =>
    if raw then
      if c == '\n' then some (['\\'], rest)
      else (takeLine raw rest).map fun (line, rest) => ('\\' :: c :: line, rest)
    else if c == '\n' then takeLine raw rest
    else (takeLine raw rest).map fun (line, rest) => ('\\' :: c :: line, rest)
  | c :: rest =>
    if c == '\n' then some ([], rest)
    else (takeLine raw rest).map fun (line, rest) => (c :: line, rest)

def storeLine (raw : Bool) (names : List String) (line : List Char) (s : Shell) : Shell :=
  let marked := if raw then line.map fun c => (c, false) else readMarked line
  let values := readFields s.separators names.length marked
  (names.zip (values ++ List.replicate names.length "")).foldl (fun s e => s.set e.1 e.2) s

def readCommand (m : Machine) (j : Job) (args : List String) : Step :=
  let raw := args.contains "-r"
  let names := args.filter fun a => !(a.startsWith "-")
  let give (m : Machine) (line : List Char) (status : Nat) : Step :=
    .done (m, { j with shell := storeLine raw names line j.shell }) status
  match j.handle 0 with
  | some (.reading p) =>
    match takeLine raw (ofBytes (m.data p)) with
    | some (line, rest) => give (m.setData p (toBytes rest)) line 0
    | none =>
      if m.isWritten p then .waits none
      else give (m.setData p []) (ofBytes (m.data p)) 1
  | _ => give m [] 1

def announce (m : Machine) (j : Job) : Ending → Machine × Job
  | .signalled n => if n == 2 || n == 13 then (m, j) else write m j 2 (signalMeaning n ++ "\n")
  | .exited _ => (m, j)

def waitFor (m : Machine) (j : Job) (ids : List Nat) : Step :=
  let alive := m.jobs.any fun k => ids.contains k.id && k.isLive
  if alive then .waits none
  else
    let ending := ids.getLast?.bind fun id => (m.job? id).bind Job.ended
    let m := ids.foldl Machine.dropJob m
    match ending with
    | some e => .done (announce m j e) (statusOf e)
    | none => .done (m, j) 127

def waitCommand (m : Machine) (j : Job) (args : List String) : Step :=
  if args.isEmpty then
    let children := m.jobs.filter fun k => k.parent == j.id
    if children.any Job.isLive then .waits none
    else .done (children.foldl (fun m k => m.dropJob k.id) m, j) 0
  else waitFor m j (args.filterMap numberArg?)

def trapCommand (m : Machine) (j : Job) (args : List String) : Step :=
  let set (action : Option String) (names : List String) : Step :=
    match names.mapM signalNumber? with
    | none => giveUp m j "trap: bad trap"
    | some ns =>
      let traps := j.shell.traps.filter fun t => !ns.contains t.1
      let traps :=
        match action with
        | some a => ns.map (fun n => (n, a)) ++ traps
        | none => traps
      .done (m, { j with shell := { j.shell with traps } }) 0
  match args with
  | [] => .done (m, j) 0
  | "--" :: action :: names => set (if action == "-" then none else some action) names
  | [name] => set none [name]
  | "-" :: names => set none names
  | action :: names =>
    if action.toList.all Char.isDigit && !action.isEmpty then set none (action :: names)
    else set (some action) names

def changeDirectory (m : Machine) (j : Job) (args : List String) : Step :=
  let args := args.filter fun a => a != "-P" && a != "-L" && a != "--"
  let target? :=
    match args with
    | [] => j.shell.get? "HOME"
    | "-" :: _ => j.shell.get? "OLDPWD"
    | d :: _ => some d
  match target? with
  | none | some "" => .done (m, j) 0
  | some dir =>
    let files := j.shell.view m.files
    let fail : Step := .done (complain m j ("cd: can't cd to " ++ dir)) 2
    match files.resolve (pathOf dir) true with
    | .error _ => fail
    | .ok place =>
      match files.root.at? place with
      | some (.dir _) =>
        let old := (j.shell.get? "PWD").getD ""
        let now := octets (FileTree.placePath place).text
        let shell := ({ j.shell with cwd := place }.set "OLDPWD" old).set "PWD" now
        let j := { j with shell }
        .done (if args.head? == some "-" then write m j 1 (now ++ "\n") else (m, j)) 0
      | _ => fail

def declareLocal (j : Job) (args : List String) : Job :=
  let names := args.map argName
  let saved := names.map fun n => (n, j.shell.get? n)
  let inner := j.frames.takeWhile fun f => !isCall f
  let j := { j with shell := assignArgs false j.shell args }
  match j.frames.drop inner.length with
  | call :: rest => { j with frames := inner ++ call :: .unassign saved :: rest }
  | [] => j

def programPath? (m : Machine) (j : Job) (name : String) : Option String :=
  let dirs := searchPath ((j.shell.get? "PATH").getD "")
  let paths := if name.toList.contains '/' then [name] else dirs.map fun d => d ++ "/" ++ name
  paths.find? fun p =>
    match (j.shell.view m.files).stat (pathOf p) with
    | .ok (.file _ executable) => executable
    | _ => false

def describeNames : List String → Machine → Job → Bool → Machine × Job × Bool
  | [], m, j, found => (m, j, found)
  | name :: rest, m, j, found =>
    let say (what : String) (found : Bool) : Machine × Job × Bool :=
      let (m, j) := write m j 1 (name ++ what ++ "\n")
      describeNames rest m j found
    if reservedWords.contains name then say " is a shell keyword" found
    else if (Shell.lookUp name j.shell.functions).isSome then say " is a shell function" found
    else if specialNames.contains name then say " is a special shell builtin" found
    else if builtinNames.contains name then say " is a shell builtin" found
    else
      match programPath? m j name with
      | some p => say (" is " ++ p) found
      | none => say ": not found" false

/-- The option letter that comes next, what is left of its argument, and the number of the argument
behind; with no option left only that number. -/
def nextOption (s : Shell) (args : List String) : Option (Char × List Char) × Nat :=
  let (n, place) := s.optionPlace
  let current := if place = 0 then [] else ((args[n - 2]?).getD "").toList.drop place
  match current, (args[n - 1]?).map String.toList with
  | c :: rest, _ => (some (c, rest), n)
  | [], some ['-', '-'] => (none, n + 1)
  | [], some ('-' :: c :: rest) => (some (c, rest), n + 1)
  | [], _ => (none, n)

/-- Takes one option off the arguments; a letter with a colon behind it wants a value. -/
def getOption (m : Machine) (j : Job) (letters : List Char) (name : String) (args : List String) :
    Step :=
  let quiet := letters.head? == some ':'
  let finish (m : Machine) (j : Job) (value : Option String) (letter : Char)
      (n place status : Nat) : Step :=
    let s := match value with
      | some v => j.shell.set "OPTARG" v
      | none => j.shell.unset "OPTARG"
    let s := (s.set "OPTIND" (toString n)).set name (String.singleton letter)
    .done (m, { j with shell := { s with optionPlace := (n, place) } }) status
  let fault (what : String) (c letter : Char) (n place : Nat) : Step :=
    if quiet then finish m j (some (String.singleton c)) letter n place 0
    else
      let (m, j) := write m j 2 what
      finish m j none '?' n place 0
  match nextOption j.shell args with
  | (none, n) => finish m j (j.shell.get? "OPTARG") '?' n 0 1
  | (some (c, rest), n) =>
    let place := ((args[n - 2]?).getD "").length - rest.length
    match (letters.dropWhile (· == ':')).dropWhile (· != c), rest, args[n - 1]? with
    | [], _, _ => fault ("Illegal option -" ++ String.singleton c ++ "\n") c '?' n place
    | _ :: ':' :: _, [], none =>
      fault ("No arg for -" ++ String.singleton c ++ " option\n") c ':' n place
    | _ :: ':' :: _, [], some value => finish m j (some value) c (n + 1) 0 0
    | _ :: ':' :: _, _, _ => finish m j (some (String.ofList rest)) c n 0 0
    | _, _, _ => finish m j (some "") c n place 0

def runBuiltin (m : Machine) (j : Job) (name : String) (args : List String) : Step :=
  /- Goes on unless a variable that is to change may not. -/
  let changing (names : List String) (go : Step) : Step :=
    match j.shell.fixedFault? names with
    | some fault => giveUp m j (name ++ ": " ++ fault)
    | none => go
  let settings := args.filter (·.contains '=')
  let number (otherwise : Nat) (go : Nat → Step) : Step :=
    match args with
    | [] => go otherwise
    | a :: _ =>
      match numberArg? a with
      | some n => go n
      | none => giveUp m j (name ++ ": Illegal number: " ++ a)
  match name with
  | ":" | "true" => .done (m, j) 0
  | "false" => .done (m, j) 1
  | "echo" => .done (write m j 1 (echoText args)) 0
  | "printf" =>
    let (text, complaints, status) := printfText args
    let (m, j) := complaints.foldl (fun (m, j) c => complain m j c) (m, j)
    .done (write m j 1 text) status
  | "test" | "[" =>
    let inner := if name == "[" then args.dropLast else args
    if name == "[" && args.getLast? != some "]" then
      .done (complain m j "[: missing ]") 2
    else
      match testArgs (j.shell.view m.files) inner with
      | .ok b => .done (m, j) (if b then 0 else 1)
      | .error e => .done (complain m j (name ++ ": " ++ e)) 2
  | "pwd" => .done (write m j 1 ((j.shell.get? "PWD").getD "" ++ "\n")) 0
  | "cd" => changeDirectory m j args
  | "exit" => number j.shell.status fun n => .went m (j.exit n)
  | "return" => number j.shell.status fun n => .went m (returnFrom j n)
  | "break" => number 1 fun n => .went m (leaveLoops false n (j.setStatus 0))
  | "continue" => number 1 fun n => .went m (leaveLoops true n (j.setStatus 0))
  | "shift" => number 1 fun n =>
    if n > j.shell.args.length then giveUp m j "shift: can't shift that many"
    else .done (m, { j with shell := { j.shell with args := j.shell.args.drop n } }) 0
  | "set" =>
    match setArgs j.shell args with
    | .ok shell => .done (m, { j with shell }) 0
    | .error e => giveUp m j e
  | "unset" =>
    let names := args.filter fun a => !(a.startsWith "-")
    let shell :=
      if args.contains "-f" then
        { j.shell with functions := j.shell.functions.filter fun f => !names.contains f.1 }
      else names.foldl Shell.unset j.shell
    changing (if args.contains "-f" then [] else names) (.done (m, { j with shell }) 0)
  | "export" =>
    changing (settings.map argName)
      (.done (m, { j with shell := assignArgs true j.shell (args.filter (· != "-p")) }) 0)
  | "readonly" =>
    let args := args.filter (· != "-p")
    let shell := assignArgs false j.shell args
    changing (settings.map argName)
      (.done (m, { j with shell := { shell with fixed := args.map argName ++ shell.fixed } }) 0)
  | "local" => changing (settings.map argName) (.done (m, declareLocal j args) 0)
  | "type" =>
    let (m, j, found) := describeNames args m j true
    .done (m, j) (if found then 0 else 127)
  | "umask" => .done (if args.isEmpty then write m j 1 "0022\n" else (m, j)) 0
  | "eval" =>
    let script := (" ".intercalate args).toList
    .went m ((j.setStatus 0).push (.run (parseScript script) []))
  | "." =>
    match args with
    | [] => giveUp m j ".: filename argument required"
    | file :: _ =>
      match (j.shell.view m.files).readBytes (pathOf file) with
      | .ok content => .went m ((j.setStatus 0).push (.run (parseScript (ofBytes content)) []))
      | .error _ => giveUp m j (".: cannot open " ++ file ++ ": No such file")
  | "exec" =>
    match args with
    | [] => .done (m, j) 0
    | program :: rest => .went m { j with frames := [.execute "exec: " program rest, .leave] }
  | "kill" =>
    if args == ["-l"] then
      .done (write m j 1 (String.join (signals.map fun e => e.2.1 ++ "\n"))) 0
    else
      match killArgs args with
      | .error e => .done (complain m j e) 2
      | .ok (n, targets) =>
        let (m, j, failed) := sendSignal n targets m j false
        .done (m, j) (if failed then 1 else 0)
  | "getopts" =>
    match args with
    | letters :: name :: more =>
      getOption m j letters.toList name (if more.isEmpty then j.shell.args else more)
    | _ => .done (complain m j "getopts: Usage: getopts optstring var [arg...]") 2
  | "read" => readCommand m j args
  | "wait" => waitCommand m j args
  | "trap" => trapCommand m j args
  | "command" =>
    match args with
    | "-v" :: names =>
      let found (n : String) : Option String :=
        if builtinNames.contains n || (Shell.lookUp n j.shell.functions).isSome then some n
        else programPath? m j n
      match names.filterMap found with
      | [] => .done (m, j) 127
      | ns => .done (write m j 1 (String.join (ns.map fun n => n ++ "\n"))) 0
    | _ => .done (m, j) 0
  | _ => .done (m, j) 0

end TraceWorkbench.Simulation
