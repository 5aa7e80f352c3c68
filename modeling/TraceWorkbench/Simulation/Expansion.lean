import TraceWorkbench.Simulation.Arithmetic
import TraceWorkbench.Simulation.Pattern
import TraceWorkbench.Simulation.Shell

set_option autoImplicit false

/-!
# Expansion of words

Replaces parameters, arithmetic and the outputs of scripts in a word, then cuts what was not
quoted into fields and matches the fields against file names. The outputs of scripts come from
outside: where the next one is not known yet, the expansion stops and asks for it.
-/
namespace TraceWorkbench.Simulation

inductive Cell where
  | char (c : Char) (quoted split : Bool)
  /-- Quotes were here, so the field stays even if it is empty. -/
  | quotes
  | next
  /-- An empty row of arguments was here, which is no field. -/
  | noField
  deriving DecidableEq, Repr

inductive Pause where
  | needs (script : List Char)
  | fault (message : String)
  deriving Repr

structure Expansion where
  shell : Shell
  results : List String

abbrev Expand := StateT Expansion (Except Pause)

namespace Expand

def fail {α : Type} (p : Pause) : Expand α := fun _ => .error p

def shell : Expand Shell := do return (← get).shell

def assign (name value : String) : Expand Unit :=
  modify fun e => { e with shell := e.shell.set name value }

def result (script : List Char) : Expand String := do
  match (← get).results with
  | r :: rest =>
    modify fun e => { e with results := rest }
    return r
  | [] => fail (.needs script)

end Expand

def cellsOf (inQuotes : Bool) (s : String) : List Cell :=
  s.toList.map fun c => .char c inQuotes (!inQuotes)

def textOf (cells : List Cell) : String := String.ofList <| cells.filterMap fun
  | .char c _ _ => some c
  | .next => some ' '
  | _ => none

def markedOf (cells : List Cell) : List Marked := cells.filterMap fun
  | .char c quoted _ => some (c, quoted)
  | .next => some (' ', true)
  | _ => none

def argumentCells (inQuotes : Bool) (args : List String) : List Cell :=
  match args with
  | [] => [.noField]
  | a :: more =>
    let cells (a : String) := (if inQuotes then [.quotes] else []) ++ cellsOf inQuotes a
    cells a ++ more.flatMap fun a => .next :: cells a

def valueOf (name : String) : Expand String := do
  let s ← Expand.shell
  match s.parameter? name with
  | some v => return v
  | none =>
    if s.needSet && name != "@" && name != "*" then
      Expand.fail (.fault (name ++ ": parameter not set"))
    else return ""

/-- Expands a piece of a word; `fuel` bounds how deep words lie in words. -/
def expandPiece : Nat → Piece → Expand (List Cell)
  | 0, _ => return []
  | fuel + 1, p => do
    match p with
    | .plain s => return s.map fun c => .char c false false
    | .quoted s => return .quotes :: s.map fun c => .char c true false
    | .value q name =>
      let s ← Expand.shell
      if name == "@" || (name == "*" && !q) then return argumentCells q s.args
      else
        let v ← valueOf name
        return cellsOf q v
    | .length name =>
      let v ← valueOf name
      return cellsOf true (toString v.length)
    | .orElse q name emptyToo action word =>
      let s ← Expand.shell
      let value := s.parameter? name
      let isSet :=
        match value with
        | some v => !(emptyToo && v.isEmpty)
        | none => false
      match action, isSet with
      | .alternative, true => return (← word.mapM (expandPiece fuel)).flatten
      | .alternative, false => return []
      | _, true => expandPiece fuel (.value q name)
      | .default, false => return (← word.mapM (expandPiece fuel)).flatten
      | .assign, false =>
        let cells := (← word.mapM (expandPiece fuel)).flatten
        Expand.assign name (textOf cells)
        return cells
      | .complain, false =>
        let text := textOf (← word.mapM (expandPiece fuel)).flatten
        let why := if word.isEmpty then
            (if emptyToo then "parameter not set or null" else "parameter not set") else text
        Expand.fail (.fault (name ++ ": " ++ why))
    | .without q name atEnd longest pattern =>
      let v ← valueOf name
      let p := Pattern.ofMarked (markedOf (← pattern.mapM (expandPiece fuel)).flatten)
      let rest := if atEnd then p.trimEnd longest v.toList else p.trimStart longest v.toList
      return cellsOf q (String.ofList rest)
    | .output q script =>
      let r ← Expand.result script
      return cellsOf q r
    | .unreadable => Expand.fail (.fault "Bad substitution")
    | .unclosed complaint => Expand.fail (.fault ("Syntax error: " ++ complaint))
    | .arithmetic q text =>
      let inner := textOf (← (bodyPieces text).mapM (expandPiece fuel)).flatten
      let s ← Expand.shell
      match Arithmetic.evaluate s.vars inner.toList with
      | .error e => Expand.fail (.fault ("arithmetic expression: " ++ e ++ ": \"" ++ inner ++ "\""))
      | .ok (n, vars) =>
        modify fun e => { e with shell := { e.shell with vars } }
        return cellsOf q (toString n)

def expansionDepth : Nat := 200

def expandCells (w : Word) : Expand (List Cell) :=
  return (← w.mapM (expandPiece expansionDepth)).flatten

def expandText (w : Word) : Expand String := return textOf (← expandCells w)

def expandPattern (w : Word) : Expand Pattern :=
  return Pattern.ofMarked (markedOf (← expandCells w))

structure Cutting where
  done : List (List Marked)
  current : List Marked
  keep : Bool
  /-- A blank has just ended a field, so a separator behind it ends none. -/
  afterBlank : Bool

namespace Cutting

def finish (c : Cutting) : Cutting :=
  if c.current.isEmpty && !c.keep then c
  else ⟨c.current.reverse :: c.done, [], false, false⟩

def step (separators : List Char) (c : Cutting) : Cell → Cutting
  | .char ch quoted split =>
    if split && separators.contains ch then
      if ch == ' ' || ch == '\t' || ch == '\n' then
        if c.current.isEmpty && !c.keep then c else { c.finish with afterBlank := true }
      else if c.afterBlank && c.current.isEmpty then { c with afterBlank := false }
      else ⟨c.current.reverse :: c.done, [], false, false⟩
    else { c with current := (ch, quoted) :: c.current, afterBlank := false }
  | .quotes => { c with keep := true, afterBlank := false }
  | .next => c.finish
  | .noField => if c.current.isEmpty then { c with keep := false } else c

end Cutting

def fieldsOf (separators : List Char) (cells : List Cell) : List (List Marked) :=
  (cells.foldl (Cutting.step separators) ⟨[], [], false, false⟩).finish.done.reverse

def plainText (field : List Marked) : String := String.ofList (field.map Prod.fst)

def fieldParts : List Marked → List (List Marked)
  | [] => [[]]
  | (c, q) :: rest =>
    match fieldParts rest with
    | [] => [[(c, q)]]
    | part :: more => if c == '/' then [] :: part :: more else ((c, q) :: part) :: more

/-- The paths that match the rest of a field, behind a start that is settled. -/
def matchParts (t : FileTree) : String → List (List Marked) → List String
  | start, [] => [start]
  | start, part :: more =>
    let p := Pattern.ofMarked part
    let go (name : String) : List String :=
      if more.isEmpty then [start ++ name] else matchParts t (start ++ name ++ "/") more
    if !p.isOpen then
      let here := start ++ plainText part
      if more.isEmpty && (t.linkStat (pathOf here)).toOption.isNone then [] else go (plainText part)
    else
      match t.stat (if start.isEmpty then ⟨"."⟩ else pathOf start) with
      | .ok (.dir entries) =>
        let names := (entries.map fun e => octets e.1).filter fun n =>
          p.matches n.toList && (n.toList.head? != some '.' || p.head? == some (.literal '.'))
        (names.mergeSort fun a b => a ≤ b).flatMap go
      | _ => []

def matchField (t : FileTree) (field : List Marked) : List String :=
  if !(Pattern.ofMarked field).isOpen then [plainText field]
  else
    match matchParts t "" (fieldParts field) with
    | [] => [plainText field]
    | found => found

def expandFields (t : FileTree) (ws : List Word) : Expand (List String) := do
  let cells ← ws.mapM expandCells
  let s ← Expand.shell
  return (cells.flatMap (fieldsOf s.separators)).flatMap (matchField (s.view t))

end TraceWorkbench.Simulation
