import TraceWorkbench.Simulation.Words

set_option autoImplicit false

/-!
# Reading commands of shell scripts

Turns the tokens of a script into a command. What comes before a syntax error on an earlier line is
still run; the error itself stands in the command as its own complaint.
-/
namespace TraceWorkbench.Simulation

structure Complaint where
  line : Nat
  text : String
  deriving Repr, Inhabited

def reservedWords : List String :=
  ["!", "\x7b", "\x7d", "if", "then", "else", "elif", "fi", "for", "while", "until", "do", "done",
    "case", "esac"]

def closers : List String := ["\x7d", "then", "else", "elif", "fi", "do", "done", "esac"]

/-- The reserved word that a token is, where a command may start. -/
def Token.reserved? : Token → Option String
  | .word _ [.plain s] =>
    let s := String.ofList s
    if reservedWords.contains s then some s else none
  | _ => none

def Token.isOp (t : Token) (o : String) : Bool :=
  match t with
  | .op _ s => s == o
  | _ => false

def Token.isNewline : Token → Bool
  | .newline _ => true
  | _ => false

def skipNewlines (ts : List Token) : List Token := ts.dropWhile Token.isNewline

def lastLine (endLine : Nat) : List Token → Nat
  | .word line _ :: _ | .op line _ :: _ | .unclosed line _ :: _ => line
  | .newline line :: _ => line + 1
  | _ :: rest => lastLine endLine rest
  | [] => endLine

def inQuotes (s : String) : String := "\"" ++ s ++ "\""

def redirectSigns : List String := ["<<", "<", ">", ">>", "<&", ">&", "<>", ">|"]

def unexpected {α : Type} (endLine : Nat) (ts : List Token) (wanted : Option String := none) :
    Except Complaint (α × List Token) :=
  let what :=
    match ts with
    | [] => "end of file"
    | .newline _ :: _ => "newline"
    | .op _ s :: _ =>
      if redirectSigns.contains s then "redirection" else inQuotes s
    | t :: _ => (t.reserved?.map inQuotes).getD "word"
  let hint := (wanted.map fun w => " (expecting " ++ inQuotes w ++ ")").getD ""
  let text :=
    match ts with
    | .unclosed _ complaint :: _ => complaint
    | _ => what ++ " unexpected" ++ hint
  .error ⟨lastLine endLine ts, "Syntax error: " ++ text⟩

/-- Whether a list of commands ends here. -/
def endsList (lines : Bool) : List Token → Bool
  | [] => true
  | t :: _ =>
    t.isOp ")" || t.isOp ";;" || (!lines && t.isNewline) ||
      (match t.reserved? with
        | some s => closers.contains s
        | none => false)

def assignment? : Word → Option (String × Word)
  | .plain s :: more =>
    let name := s.takeWhile isNameChar
    match s.dropWhile isNameChar with
    | '=' :: value =>
      match name with
      | c :: _ => if isNameStart c then
          some (String.ofList name, if value.isEmpty then more else .plain value :: more)
        else none
      | [] => none
    | _ => none
  | _ => none

def redirectOps : List (String × Nat × RedirectKind) := [
  ("<", 0, .read), (">", 1, .write), (">|", 1, .write), (">>", 1, .append), ("<>", 0, .read),
  ("<&", 0, .copy), (">&", 1, .copy), ("<<", 0, .here)]

def redirect? (endLine : Nat) (bodies : List Word) (ts : List Token) :
    Option (Except Complaint (Redirect × List Token)) :=
  let (fd?, ts) :=
    match ts with
    | .number n :: rest => (some n, rest)
    | _ => (none, ts)
  match ts with
  | .op _ o :: rest =>
    match redirectOps.find? fun r => r.1 == o with
    | none => none
    | some (_, fd, kind) =>
      match rest with
      | .word _ w :: rest => some (.ok (⟨fd?.getD fd, kind, w⟩, rest))
      | .here i :: rest => some (.ok (⟨fd?.getD fd, .here, (bodies[i]?).getD []⟩, rest))
      | _ => some (unexpected endLine rest)
  | _ => none

def redirects (endLine : Nat) (bodies : List Word) :
    Nat → List Token → Except Complaint (List Redirect × List Token)
  | 0, ts => .ok ([], ts)
  | fuel + 1, ts =>
    match redirect? endLine bodies ts with
    | none => .ok ([], ts)
    | some (.error e) => .error e
    | some (.ok (r, ts)) =>
      match redirects endLine bodies fuel ts with
      | .error e => .error e
      | .ok (rs, ts) => .ok (r :: rs, ts)

def wordList : List Token → List Word × List Token
  | .word _ w :: rest =>
    let (ws, rest) := wordList rest
    (w :: ws, rest)
  | ts => ([], ts)

structure SimpleParts where
  line : Nat
  assigns : List (String × Word) := []
  words : List Word := []
  redirects : List Redirect := []

def SimpleParts.isEmpty (p : SimpleParts) : Bool :=
  p.assigns.isEmpty && p.words.isEmpty && p.redirects.isEmpty

def simpleCommand (endLine : Nat) (bodies : List Word) :
    Nat → SimpleParts → List Token → Except Complaint (Command × List Token)
  | 0, _, ts => unexpected endLine ts
  | fuel + 1, parts, ts =>
    match redirect? endLine bodies ts with
    | some (.error e) => .error e
    | some (.ok (r, ts)) =>
      simpleCommand endLine bodies fuel { parts with redirects := parts.redirects ++ [r] } ts
    | none =>
      match ts with
      | .word _ w :: rest =>
        match parts.words, assignment? w with
        | [], some a =>
          simpleCommand endLine bodies fuel { parts with assigns := parts.assigns ++ [a] } rest
        | _, _ => simpleCommand endLine bodies fuel { parts with words := parts.words ++ [w] } rest
      | _ =>
        if parts.isEmpty then unexpected endLine ts
        else .ok (.simple parts.line parts.assigns parts.words parts.redirects, ts)

section

variable (endLine : Nat) (bodies : List Word)

def expectWord (w : String) (ts : List Token) : Except Complaint (Unit × List Token) :=
  match ts with
  | t :: rest => if t.reserved? == some w then .ok ((), rest) else unexpected endLine ts (some w)
  | [] => unexpected endLine ts (some w)

def expectOp (o : String) (ts : List Token) : Except Complaint (Unit × List Token) :=
  match ts with
  | t :: rest => if t.isOp o then .ok ((), rest) else unexpected endLine ts (some o)
  | [] => unexpected endLine ts (some o)

def armPatterns : Nat → List Token → Except Complaint (List Word × List Token)
  | 0, ts => unexpected endLine ts
  | fuel + 1, ts =>
    match ts with
    | .word _ w :: .op _ "|" :: rest => do
      let (ws, ts) ← armPatterns fuel rest
      return (w :: ws, ts)
    | .word _ w :: .op _ ")" :: rest => .ok ([w], rest)
    | .word _ _ :: rest => unexpected endLine rest (some ")")
    | _ => unexpected endLine ts

mutual

/-- Reads a list of commands; `lines` says whether it may go on over several lines. -/
def commandList : Nat → Bool → List Token → Except Complaint (Command × List Token)
  | 0, _, ts => unexpected endLine ts
  | fuel + 1, lines, ts => do
    let ts := if lines then skipNewlines ts else ts
    if endsList lines ts then return (.skip, ts)
    let (c, ts) ← andOr fuel ts
    match ts with
    | .op _ "&" :: rest =>
      let (more, ts) ← commandList fuel lines rest
      return (.seq (.background c) more, ts)
    | .op _ ";" :: rest =>
      let (more, ts) ← commandList fuel lines rest
      return (.seq c more, ts)
    | .newline _ :: rest =>
      if lines then
        let (more, ts) ← commandList fuel lines rest
        return (.seq c more, ts)
      else return (c, ts)
    | _ => return (c, ts)

def someCommands : Nat → String → List Token → Except Complaint (Command × List Token)
  | 0, _, ts => unexpected endLine ts
  | fuel + 1, wanted, ts =>
    if (skipNewlines ts).isEmpty then unexpected endLine [] (some wanted)
    else if endsList true (skipNewlines ts) then unexpected endLine (skipNewlines ts)
    else commandList fuel true ts

def andOr : Nat → List Token → Except Complaint (Command × List Token)
  | 0, ts => unexpected endLine ts
  | fuel + 1, ts => do
    let (c, ts) ← pipe fuel ts
    andOrRest fuel c ts

def andOrRest : Nat → Command → List Token → Except Complaint (Command × List Token)
  | 0, _, ts => unexpected endLine ts
  | fuel + 1, c, ts =>
    match ts with
    | .op _ "&&" :: rest => do
      let (d, ts) ← pipe fuel (skipNewlines rest)
      andOrRest fuel (.both c d) ts
    | .op _ "||" :: rest => do
      let (d, ts) ← pipe fuel (skipNewlines rest)
      andOrRest fuel (.either c d) ts
    | _ => .ok (c, ts)

def pipe : Nat → List Token → Except Complaint (Command × List Token)
  | 0, ts => unexpected endLine ts
  | fuel + 1, ts =>
    match ts with
    | [] => unexpected endLine ts
    | t :: rest =>
      if t.reserved? == some "!" then do
        let (c, ts) ← pipe fuel rest
        return (.not c, ts)
      else do
        let (c, ts) ← command fuel ts
        let (more, ts) ← pipeRest fuel ts
        return (if more.isEmpty then c else .pipeline (c :: more), ts)

def pipeRest : Nat → List Token → Except Complaint (List Command × List Token)
  | 0, ts => unexpected endLine ts
  | fuel + 1, ts =>
    match ts with
    | .op _ "|" :: rest => do
      let (c, ts) ← command fuel (skipNewlines rest)
      let (more, ts) ← pipeRest fuel ts
      return (c :: more, ts)
    | _ => .ok ([], ts)

def command : Nat → List Token → Except Complaint (Command × List Token)
  | 0, ts => unexpected endLine ts
  | fuel + 1, ts =>
    match ts with
    | .word line [.plain name] :: .op _ "(" :: .op _ ")" :: rest =>
      if (Token.word line [.plain name]).reserved?.isSome then unexpected endLine ts
      else do
        let (body, ts) ← command fuel (skipNewlines rest)
        return (.define (String.ofList name) body, ts)
    | t :: _ =>
      if t.isOp "(" || t.reserved?.isSome then do
        let (c, ts) ← compound fuel ts
        let (rs, ts) ← redirects endLine bodies fuel ts
        return (if rs.isEmpty then c else .redirected c rs, ts)
      else simpleCommand endLine bodies fuel { line := lastLine endLine ts } ts
    | [] => unexpected endLine ts

def compound : Nat → List Token → Except Complaint (Command × List Token)
  | 0, ts => unexpected endLine ts
  | fuel + 1, ts =>
    match ts with
    | [] => unexpected endLine ts
    | t :: rest =>
      if t.isOp "(" then do
        let (c, ts) ← someCommands fuel ")" rest
        let (_, ts) ← expectOp endLine ")" ts
        return (.subshell c, ts)
      else
        match t.reserved? with
        | some "\x7b" => do
          let (c, ts) ← someCommands fuel "\x7d" rest
          let (_, ts) ← expectWord endLine "\x7d" ts
          return (c, ts)
        | some "if" => ifCommand fuel rest
        | some "while" => loopCommand fuel false rest
        | some "until" => loopCommand fuel true rest
        | some "for" => forCommand fuel rest
        | some "case" => caseCommand fuel rest
        | _ => unexpected endLine ts

def ifCommand : Nat → List Token → Except Complaint (Command × List Token)
  | 0, ts => unexpected endLine ts
  | fuel + 1, ts => do
    let (test, ts) ← someCommands fuel "then" ts
    let (_, ts) ← expectWord endLine "then" ts
    let (yes, ts) ← someCommands fuel "fi" ts
    match ts with
    | [] => unexpected endLine ts (some "fi")
    | t :: rest =>
      match t.reserved? with
      | some "elif" =>
        let (no, ts) ← ifCommand fuel rest
        return (.cond test yes no, ts)
      | some "else" =>
        let (no, ts) ← someCommands fuel "fi" rest
        let (_, ts) ← expectWord endLine "fi" ts
        return (.cond test yes no, ts)
      | some "fi" => return (.cond test yes .skip, rest)
      | _ => unexpected endLine ts (some "fi")

def loopCommand : Nat → Bool → List Token → Except Complaint (Command × List Token)
  | 0, _, ts => unexpected endLine ts
  | fuel + 1, untilTrue, ts => do
    let (test, ts) ← someCommands fuel "do" ts
    let (body, ts) ← doGroup fuel ts
    return (.loop untilTrue test body, ts)

def doGroup : Nat → List Token → Except Complaint (Command × List Token)
  | 0, ts => unexpected endLine ts
  | fuel + 1, ts => do
    let (_, ts) ← expectWord endLine "do" ts
    let (body, ts) ← someCommands fuel "done" ts
    let (_, ts) ← expectWord endLine "done" ts
    return (body, ts)

def forCommand : Nat → List Token → Except Complaint (Command × List Token)
  | 0, ts => unexpected endLine ts
  | fuel + 1, ts =>
    match ts with
    | .word line [.plain name] :: rest =>
      if !(name.all isNameChar && (name.head?.map isNameStart).getD false) then
        .error ⟨line, "Syntax error: Bad for loop variable"⟩
      else do
        let rest := skipNewlines rest
        let (words, ts) :=
          match rest with
          | .word _ [.plain ['i', 'n']] :: rest => Prod.map some id (wordList rest)
          | _ => (none, rest)
        let ts :=
          match ts with
          | .op _ ";" :: rest => rest
          | _ => ts
        let (body, ts) ← doGroup fuel (skipNewlines ts)
        return (.each (String.ofList name) words body, ts)
    | .word line _ :: _ => .error ⟨line, "Syntax error: Bad for loop variable"⟩
    | _ => .error ⟨lastLine endLine ts, "Syntax error: Bad for loop variable"⟩

def caseCommand : Nat → List Token → Except Complaint (Command × List Token)
  | 0, ts => unexpected endLine ts
  | fuel + 1, ts =>
    match ts with
    | .word _ w :: rest =>
      match skipNewlines rest with
      | .word _ [.plain ['i', 'n']] :: rest => do
        let (arms, ts) ← caseArms fuel (skipNewlines rest)
        return (.select w arms, ts)
      | other => unexpected endLine other (some "in")
    | _ => unexpected endLine ts

def caseArms : Nat → List Token → Except Complaint (List (List Word × Command) × List Token)
  | 0, ts => unexpected endLine ts
  | fuel + 1, ts =>
    match ts with
    | [] => unexpected endLine ts (some ")")
    | t :: rest =>
      if t.reserved? == some "esac" then .ok ([], rest)
      else do
        let start := if t.isOp "(" then rest else ts
        let (patterns, ts) ← armPatterns endLine (start.length + 1) start
        let (body, ts) ← commandList fuel true ts
        match ts with
        | .op _ ";;" :: rest =>
          let (arms, ts) ← caseArms fuel (skipNewlines rest)
          return ((patterns, body) :: arms, ts)
        | [] => unexpected endLine ts (some ";;")
        | _ =>
          let (_, ts) ← expectWord endLine "esac" ts
          return ([(patterns, body)], ts)

end

/-- Reads a script line by line, up to the first syntax error. -/
def scriptLines : Nat → List Token → Command
  | 0, _ => .skip
  | fuel + 1, ts =>
    let ts := skipNewlines ts
    if ts.isEmpty then .skip
    else
      match commandList endLine bodies (16 * ts.length + 16) false ts with
      | .error e => .malformed e.line e.text
      | .ok (c, rest) =>
        match rest with
        | [] => c
        | .newline _ :: rest => .seq c (scriptLines fuel rest)
        | _ =>
          match (unexpected endLine rest : Except Complaint (Unit × List Token)) with
          | .error e => .malformed e.line e.text
          | .ok _ => c

end

def parseScript (text : List Char) : Command :=
  let (tokens, bodies, endLine) := tokenize text
  scriptLines endLine bodies (tokens.length + 1) tokens

end TraceWorkbench.Simulation
