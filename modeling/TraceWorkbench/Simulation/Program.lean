import TraceWorkbench.Simulation.Machine

set_option autoImplicit false

/-!
# Programs

What happens when a file is run as a program. A few tools are programs of the machine itself; a
script names its interpreter in its first line. All else is no program.
-/
namespace TraceWorkbench.Simulation

inductive Tool where
  | shell
  | copier
  | modeChanger
  | sleeper
  deriving DecidableEq, Repr, Inhabited

namespace Tool

def all : List Tool := [shell, copier, modeChanger, sleeper]

def name : Tool → String
  | shell => "sh"
  | copier => "cat"
  | modeChanger => "chmod"
  | sleeper => "sleep"

def image (t : Tool) : Bytes := 0x7f :: ("ELF " ++ t.name).utf8Bytes

def ofImage? (content : Bytes) : Option Tool := all.find? fun t => t.image == content

def entries : List (String × Node) :=
  all.map fun t => (t.name, Node.file t.image true)

end Tool

structure Loaded where
  tool : Tool
  name : String
  args : List String
  deriving Repr

/-- The interpreter that the first line of a script names, with its one argument. -/
def interpreter? (content : Bytes) : Option (String × Option String) :=
  match ofBytes content with
  | '#' :: '!' :: rest =>
    let line := (rest.takeWhile (· != '\n')).dropWhile isBlankChar
    let program := line.takeWhile fun c => !isBlankChar c
    let arg := (line.dropWhile fun c => !isBlankChar c).dropWhile isBlankChar
    let arg := (arg.reverse.dropWhile isBlankChar).reverse
    if program.isEmpty then none
    else some (String.ofList program, if arg.isEmpty then none else some (String.ofList arg))
  | _ => none

def load (files : FileTree) : Nat → String → String → List String → Except OsError Loaded
  | 0, _, _, _ => .error .tooManyLinks
  | fuel + 1, path, name, args =>
    match files.stat (pathOf path) with
    | .error e => .error e
    | .ok (.file content executable) =>
      if !executable then .error .denied
      else
        match Tool.ofImage? content with
        | some tool => .ok ⟨tool, name, args⟩
        | none =>
          match interpreter? content with
          | some (program, arg) => load files fuel program program (arg.toList ++ path :: args)
          | none => .error .badProgram
    | .ok _ => .error .denied

def searchPath (path : String) : List String :=
  (path.toList.splitOn ':').map String.ofList

/-- Tries the directories in turn; a refusal is remembered, a missing file is not. -/
def findIn (files : FileTree) (name : String) (args : List String) (seen : OsError) :
    List String → Except OsError Loaded
  | [] => .error seen
  | dir :: rest =>
    let path := if dir.isEmpty then name else (Path.join ⟨dir⟩ ⟨name⟩).text
    match load files 6 path name args with
    | .error .noEntry => findIn files name args seen rest
    | .error .notDirectory => findIn files name args seen rest
    | .error .denied => findIn files name args .denied rest
    | other => other

/-- Finds a program: a name with a slash is a path, any other is looked for in directories. -/
def findProgram (files : FileTree) (path : String) (name : String) (args : List String) :
    Except OsError Loaded :=
  if name.isEmpty then .error .noEntry
  else if name.toList.contains '/' then load files 6 name name args
  else findIn files name args .noEntry (searchPath path)

def sleepTime? (s : String) : Option Nat :=
  let cs := s.toList
  let whole := cs.takeWhile Char.isDigit
  let rest := cs.dropWhile Char.isDigit
  let (part, rest) :=
    match rest with
    | '.' :: more => (more.takeWhile Char.isDigit, more.dropWhile Char.isDigit)
    | _ => ([], rest)
  if whole.isEmpty && part.isEmpty then none
  else
    let micros := decimal whole * 1000000 + decimal ((part ++ List.replicate 6 '0').take 6)
    match rest with
    | [] | ['s'] => some micros
    | ['m'] => some (60 * micros)
    | ['h'] => some (3600 * micros)
    | ['d'] => some (86400 * micros)
    | _ => none

def Shell.start (name : String) (args : List String) (vars : List (String × String))
    (pid parent : Nat) (cwd : Place) (ignored : List (Nat × String)) : Shell where
  name := name
  args := args
  vars :=
    Shell.put "OPTIND" "1" <| Shell.put "PPID" (toString parent) <|
      Shell.put "PWD" (octets (FileTree.placePath cwd).text) vars
  exported := vars.map Prod.fst
  functions := []
  status := 0
  pid := pid
  background := none
  cwd := cwd
  traps := ignored
  stopOnFailure := false
  needSet := false

/-- Reads the options of a shell: single letters, up to the first argument that is none. -/
def shellOptions : Shell → List String → Except String (Shell × Bool × List String)
  | s, [] => .ok (s, false, [])
  | s, a :: rest =>
    match a.toList with
    | ['-'] => .ok (s, false, rest)
    | ['-', '-'] => .ok (s, false, rest)
    | '-' :: letters =>
      match letters.find? fun c => !"ceunx".toList.contains c with
      | some c => .error ("Illegal option -" ++ String.singleton c)
      | none =>
        let s := { s with stopOnFailure := s.stopOnFailure || letters.contains 'e'
                          needSet := s.needSet || letters.contains 'u'
                          traced := s.traced || letters.contains 'x' }
        if letters.contains 'c' then
          (shellOptions s rest).map fun (s, _, rest) => (s, true, rest)
        else shellOptions s rest
    | _ => .ok (s, false, a :: rest)

def startShell (m : Machine) (j : Job) (name : String) (args : List String) : Machine × Job :=
  let s := Shell.start name [] j.shell.environment j.id j.parent j.shell.cwd
    (j.shell.traps.filter fun t => t.2.isEmpty)
  let j := { j with shell := s, line := 0 }
  let refuse (message : String) : Machine × Job :=
    let (m, j) := complain m j message
    (m, j.exit 2)
  match shellOptions s args with
  | .error e => refuse e
  | .ok (s, fromArg, rest) =>
    let j := { j with shell := s }
    match fromArg, rest with
    | true, [] => refuse "-c requires an argument"
    | true, script :: more =>
      let name := more.headD name
      (m, { j with shell := { s with name, args := more.drop 1 }
                   frames := [.run (parseScript script.toList) [], .leave] })
    | false, [] => (m, { j with frames := [.readScript [], .leave] })
    | false, file :: more =>
      match (s.view m.files).readBytes (pathOf file) with
      | .ok content =>
        let shell := { s with name := file, args := more }
        (m, { j with shell, frames := [.run (parseScript (ofBytes content)) [], .leave] })
      | .error .noEntry => refuse ("cannot open " ++ file ++ ": No such file")
      | .error e => refuse ("cannot open " ++ file ++ ": " ++ e.meaning)

def toolComplaint (m : Machine) (j : Job) (name message : String) : Machine × Job :=
  write m j 2 (name ++ ": " ++ message ++ "\n")

/-- Changes the modes of files; only making them programs has an effect. -/
def changeModes (m : Machine) (j : Job) (name mode : String) :
    List String → Bool → Machine × Job × Bool
  | [], failed => (m, j, failed)
  | file :: rest, failed =>
    let on := mode.toList.getLast? == some 'x' && mode.toList.contains '+' ||
      (mode.toList.all isOctal && mode.toList.any fun c => (decimal [c]) % 2 == 1)
    let off := mode.toList.contains '-' && mode.toList.contains 'x' ||
      (mode.toList.all isOctal && !on)
    let files := j.shell.view m.files
    match files.resolve (pathOf file) true with
    | .error e =>
      let (m, j) := toolComplaint m j name ("cannot access '" ++ file ++ "': " ++ e.meaning)
      changeModes m j name mode rest true
    | .ok place =>
      match files.root.at? place with
      | none =>
        let (m, j) := toolComplaint m j name
          ("cannot access '" ++ file ++ "': " ++ OsError.noEntry.meaning)
        changeModes m j name mode rest true
      | some _ =>
        let change : Option Node → Option Node
          | some (.file content executable) =>
            some (.file content (if on then true else if off then false else executable))
          | other => other
        let m := { m with files := m.files.setRoot (m.files.root.alterAt change place) }
        changeModes m j name mode rest failed

/-- What is wrong with an argument of the copier that looks like an option. Of the options only the
one that changes nothing is known. -/
def copierFault? (a : String) : Option String :=
  match a.toList with
  | '-' :: '-' :: _ :: _ => some ("unrecognized option '" ++ a ++ "'")
  | '-' :: letters =>
    (letters.find? (· != 'u')).map fun c => "invalid option -- '" ++ String.singleton c ++ "'"
  | _ => none

def copierFiles (args : List String) : Except String (List String) :=
  let options := args.takeWhile (· != "--")
  match options.findSome? copierFault? with
  | some fault => .error fault
  | none =>
    let names := options.filter (fun a => a == "-" || !a.startsWith "-") ++
      (args.drop options.length).drop 1
    .ok (if names.isEmpty then ["-"] else names)

def become (m : Machine) (j : Job) (p : Loaded) : Machine × Job :=
  let hint (name : String) : String := "Try '" ++ name ++ " --help' for more information.\n"
  match p.tool with
  | .shell => startShell m j p.name p.args
  | .copier =>
    match copierFiles p.args with
    | .error fault =>
      let (m, j) := toolComplaint m j p.name fault
      let (m, j) := write m j 2 (hint p.name)
      (m, j.exit 1)
    | .ok names =>
      (m, { j with
        frames := [.copy names false, .leave]
        shell := { j.shell with name := p.name, traps := [] } })
  | .modeChanger =>
    match p.args with
    | mode :: file :: more =>
      let (m, j, failed) := changeModes m j p.name mode (file :: more) false
      (m, j.exit (if failed then 1 else 0))
    | [mode] =>
      let (m, j) := toolComplaint m j p.name ("missing operand after '" ++ mode ++ "'")
      let (m, j) := write m j 2 (hint p.name)
      (m, j.exit 1)
    | [] =>
      let (m, j) := toolComplaint m j p.name "missing operand"
      let (m, j) := write m j 2 (hint p.name)
      (m, j.exit 1)
  | .sleeper =>
    match p.args.find? fun a => (sleepTime? a).isNone with
    | some a =>
      let (m, j) := toolComplaint m j p.name ("invalid time interval '" ++ a ++ "'")
      let (m, j) := write m j 2 (hint p.name)
      (m, j.exit 1)
    | none =>
      if p.args.isEmpty then
        let (m, j) := toolComplaint m j p.name "missing operand"
        let (m, j) := write m j 2 (hint p.name)
        (m, j.exit 1)
      else
        let time := (p.args.filterMap sleepTime?).foldl (· + ·) 0
        (m, { j with
          frames := [.sleepUntil (m.clock + time), .status 0, .leave]
          shell := { j.shell with traps := [] } })

end TraceWorkbench.Simulation
