import TraceWorkbench.Path

set_option autoImplicit false

/-!
# Arguments of the command line

Global options may stand anywhere; where one is given on several levels, the innermost counts. On
one level an option may be given once. A value may not look like an option, unless it is joined to
its own.
-/
namespace TraceWorkbench.CommandLine

inductive Request where
  | runC
  | runProject
  | buildC (emitLlvm : Bool)
  | runBinary
  | unused
  | setUp
  | locateError (file : Path)
  | startContainer
  | stopContainer
  deriving DecidableEq, Repr, Inhabited

structure Globals where
  config : Option Path := none
  project : Option Path := none
  docker : Bool := false
  jsonLogs : Bool := false
  deriving DecidableEq, Repr, Inhabited

structure Invocation where
  globals : Globals
  request : Request
  deriving DecidableEq, Repr, Inhabited

inductive ArgumentStop where
  | invalid
  | help
  deriving DecidableEq, Repr, Inhabited

inductive Level where
  | top
  | plain (request : Request)
  | buildC
  | locateError
  | container
  | containerAction (request : Request)
  deriving DecidableEq, Repr, Inhabited

def subcommand? : Level → String → Option Level
  | .top, "run-c" => some (.plain .runC)
  | .top, "run-project" => some (.plain .runProject)
  | .top, "build-c" => some .buildC
  | .top, "run-binary" => some (.plain .runBinary)
  | .top, "unused" => some (.plain .unused)
  | .top, "setup" => some (.plain .setUp)
  | .top, "locate-error" => some .locateError
  | .top, "container" => some .container
  | .container, "start" => some (.containerAction .startContainer)
  | .container, "stop" => some (.containerAction .stopContainer)
  | _, _ => none

def hasSubcommands : Level → Bool
  | .top | .container => true
  | _ => false

/-- What was asked of the subcommand `help`: each word names a subcommand of the one before it. A
level with subcommands also has `help` itself, which has none. -/
def helpStop (level : Level) : List String → ArgumentStop
  | [] => .help
  | a :: rest =>
    match subcommand? level a with
    | some inner => helpStop inner rest
    | none => if hasSubcommands level && a == "help" && rest.isEmpty then .help else .invalid

structure Reading where
  globals : Globals := {}
  emitLlvm : Bool := false
  file : Option Path := none
  /-- Set behind `--`: only positional arguments follow. -/
  positional : Bool := false
  deriving Repr, Inhabited

/-- The values of an inner level count before those of the level around it. -/
def Globals.inside (outer inner : Globals) : Globals where
  config := inner.config.orElse fun _ => outer.config
  project := inner.project.orElse fun _ => outer.project
  docker := outer.docker || inner.docker
  jsonLogs := outer.jsonLogs || inner.jsonLogs

/-- Sets an option that takes a path; the empty path is none. -/
def Reading.setPath (r : Reading) (name value : String) : Except ArgumentStop Reading :=
  if value.isEmpty then .error .invalid
  else
    match name with
    | "config" =>
      if r.globals.config.isSome then .error .invalid
      else .ok { r with globals := { r.globals with config := some ⟨value⟩ } }
    | _ =>
      if r.globals.project.isSome then .error .invalid
      else .ok { r with globals := { r.globals with project := some ⟨value⟩ } }

def Reading.setFlag (r : Reading) (level : Level) (name : String) : Except ArgumentStop Reading :=
  match name with
  | "docker" =>
    if r.globals.docker then .error .invalid
    else .ok { r with globals := { r.globals with docker := true } }
  | "json-logs" =>
    if r.globals.jsonLogs then .error .invalid
    else .ok { r with globals := { r.globals with jsonLogs := true } }
  | "emit-llvm" =>
    if level = .buildC && !r.emitLlvm then .ok { r with emitLlvm := true } else .error .invalid
  | "help" => .error .help
  | "version" => if level = .top then .error .help else .error .invalid
  | _ => .error .invalid

def isValue (a : String) : Bool := a == "-" || !(a.startsWith "-")

def takesPath (name : String) : Bool := name == "config" || name == "project"

inductive Piece where
  | path (name value : String)
  | pathNext (name : String)
  | flag (name : String)
  | invalid
  | endOfOptions
  | word (s : String)
  deriving DecidableEq, Repr

def Piece.of (a : String) : Piece :=
  match a.toList with
  | ['-', '-'] => .endOfOptions
  | '-' :: '-' :: cs =>
    let name := String.ofList (cs.takeWhile (· != '='))
    match cs.dropWhile (· != '=') with
    | _ :: value => if takesPath name then .path name (String.ofList value) else .invalid
    | [] => if takesPath name then .pathNext name else .flag name
  | ['-', 'p'] => .pathNext "project"
  | '-' :: 'p' :: '=' :: value => .path "project" (String.ofList value)
  | '-' :: 'p' :: value => .path "project" (String.ofList value)
  | '-' :: 'h' :: _ => .flag "help"
  | '-' :: 'V' :: _ => .flag "version"
  | '-' :: _ :: _ => .invalid
  | _ => .word a

def Reading.request (r : Reading) : Level → Except ArgumentStop Request
  | .top | .container => .error .invalid
  | .plain request | .containerAction request => .ok request
  | .buildC => .ok (.buildC r.emitLlvm)
  | .locateError => (r.file.map Request.locateError).elim (.error .invalid) .ok

def Reading.setWord (r : Reading) (level : Level) (s : String) : Except ArgumentStop Reading :=
  match level with
  | .locateError =>
    if r.file.isSome || s.isEmpty then .error .invalid else .ok { r with file := some ⟨s⟩ }
  | _ => .error .invalid

def readArguments (outer : Globals) (level : Level) (r : Reading) :
    List String → Except ArgumentStop Invocation
  | [] => do return ⟨outer.inside r.globals, ← r.request level⟩
  | a :: rest =>
    if r.positional then do readArguments outer level (← r.setWord level a) rest
    else
      match Piece.of a with
      | .path name value => do readArguments outer level (← r.setPath name value) rest
      | .pathNext name =>
        match rest with
        | value :: rest =>
          if isValue value then do readArguments outer level (← r.setPath name value) rest
          else .error .invalid
        | [] => .error .invalid
      | .flag name => do readArguments outer level (← r.setFlag level name) rest
      | .invalid => .error .invalid
      | .endOfOptions => readArguments outer level { r with positional := true } rest
      | .word s =>
        match subcommand? level s with
        | some inner => readArguments (outer.inside r.globals) inner {} rest
        | none =>
          if hasSubcommands level && s == "help" then .error (helpStop level rest)
          else do readArguments outer level (← r.setWord level s) rest

def Invocation.parse (args : List String) : Except ArgumentStop Invocation :=
  readArguments {} .top {} args

end TraceWorkbench.CommandLine
