import TraceWorkbench.Log.FieldValue

set_option autoImplicit false

/-!
# Log filters

A filter is a list of directives such as `info`, `target=debug` or `target[span\{field\}]=trace`,
with commas between. It is shown in a fixed order: directives without spans or fields first, and
more specific ones before less specific ones. A text that is no filter counts as `info`.
-/
namespace TraceWorkbench.LogFilter

inductive Level where
  | off
  | error
  | warn
  | info
  | debug
  | trace
  deriving DecidableEq, Repr, Inhabited

namespace Level

def text : Level → String
  | off => "off"
  | error => "error"
  | warn => "warn"
  | info => "info"
  | debug => "debug"
  | trace => "trace"

def all : List Level := [off, error, warn, info, debug, trace]

/-- A level by its name, in any case, or by its number. The empty text is the level of errors. -/
def ofText? (s : List Char) : Option Level :=
  let digits := match s with
    | '+' :: rest => rest
    | _ => s
  if !digits.isEmpty && digits.all Char.isDigit then
    all[digits.foldl (fun n d => 10 * n + (d.toNat - '0'.toNat)) 0]?
  else if s.isEmpty then some error
  else all.find? fun l => l.text.toList == s.map Char.toLower

end Level

structure Directive where
  target : Option (List Char)
  span : Option (List Char)
  fields : List FieldMatch
  level : Level
  deriving DecidableEq, Repr

inductive State where
  | start
  | levelOrTarget
  | span (first : Nat)
  | field (first : Nat)
  | fields
  | behindSpan
  | level (first : Nat)
  deriving DecidableEq, Repr

def dropBytes : Nat → List Char → List Char
  | 0, s => s
  | _, [] => []
  | n, c :: s => dropBytes (n - c.utf8Size) s

def takeBytes : Nat → List Char → List Char
  | 0, _ => []
  | _, [] => []
  | n, c :: s => c :: takeBytes (n - c.utf8Size) s

def cut (whole : List Char) (first last : Nat) : List Char :=
  takeBytes (last - first) (dropBytes first whole)

/-- Reads one character of a directive. Offsets count from the first character that is no blank,
and the parts are cut out of the whole text at these offsets. -/
def step (whole : List Char) (d : Directive) (i : Nat) (c : Char) :
    State → Option (Directive × State)
  | .start =>
    if c = '[' then some (d, .span (i + 1))
    else if c = '-' || c = ':' || c = '_' || Text.isAlphanumeric c then some (d, .levelOrTarget)
    else none
  | .levelOrTarget =>
    if c = '=' then some ({ d with target := some (cut whole 0 i) }, .level (i + 1))
    else if c = '[' then some ({ d with target := some (cut whole 0 i) }, .span (i + 1))
    else some (d, .levelOrTarget)
  | .span first =>
    let name := cut whole first i
    if c = ']' then some ({ d with span := some name }, .behindSpan)
    else if c = '\x7b' then
      some ({ d with span := if name.isEmpty then none else some name }, .field (i + 1))
    else some (d, .span first)
  | .field first =>
    let text := cut whole first i
    if c = '\x7d' then
      if text.isEmpty then none
      else (FieldMatch.ofText? text).map fun f => ({ d with fields := d.fields ++ [f] }, .fields)
    else some (d, .field first)
  | .fields => if c = ']' then some (d, .behindSpan) else none
  | .behindSpan => if c = '=' then some (d, .level (i + 1)) else none
  | .level first => some (d, .level first)

def readFrom (whole : List Char) (d : Directive) (st : State) :
    Nat → List Char → Option (Directive × State)
  | _, [] => some (d, st)
  | i, c :: rest =>
    match step whole d i c st with
    | none => none
    | some (d, st) => readFrom whole d st (i + c.utf8Size) rest

/-- The directive that was read. A target without a level lets everything through. -/
def finish (whole : List Char) (d : Directive) : State → Option Directive
  | .levelOrTarget =>
    match Level.ofText? whole with
    | some l => some { d with level := l, target := none }
    | none => some { d with level := .trace, target := some whole }
  | .level first =>
    let text := dropBytes first whole
    if text.isEmpty then some { d with level := .trace }
    else (Level.ofText? text).map fun l => { d with level := l }
  | .behindSpan => some d
  | _ => none

def Directive.ofText? (s : List Char) : Option Directive :=
  match readFrom s ⟨none, none, [], .trace⟩ .start 0 (Text.trim s) with
  | none => none
  | some (d, st) => finish s d st

def Directive.isDynamic (d : Directive) : Bool := d.span.isSome || !d.fields.isEmpty

def Directive.toStatic? (d : Directive) : Option Directive :=
  if d.span.isNone && d.fields.all (·.value.isNone) then some d else none

def listText (items : List (List Char)) : List Char :=
  match items with
  | [] => []
  | a :: more => a ++ more.flatMap (',' :: ·)

def Directive.text (d : Directive) : List Char :=
  let fields :=
    if d.fields.isEmpty then []
    else '\x7b' :: listText (d.fields.map FieldMatch.text) ++ ['\x7d']
  let spans := if d.isDynamic then '[' :: d.span.getD [] ++ fields ++ [']'] else []
  let place := d.target.getD [] ++ spans
  (if d.target.isSome || d.isDynamic then place ++ ['='] else []) ++ d.level.text.toList

/-- How specific directives are: by the bytes of the target, by having a span, and by the number of
fields. What follows only keeps the order total. -/
def Directive.order (a b : Directive) : Ordering :=
  let size (d : Directive) : Option Nat :=
    d.target.map fun t => t.foldl (fun n c => n + c.utf8Size) 0
  (compare (size a) (size b)).then <| (compare a.span.isSome b.span.isSome).then <|
    (compare a.fields.length b.fields.length).then <| (compare a.target b.target).then <|
      (compare a.span b.span).then (FieldMatch.listOrder a.fields b.fields)

/-- Adds a directive, most specific ones first; an equally specific one of the same place is
replaced. -/
def add (d : Directive) : List Directive → List Directive
  | [] => [d]
  | e :: rest =>
    match d.order e with
    | .eq => d :: rest
    | .gt => d :: e :: rest
    | .lt => e :: add d rest

def collect (ds : List Directive) : List Directive := ds.foldl (fun acc d => add d acc) []

def pieces (s : List Char) : List (List Char) :=
  match s with
  | [] => [[]]
  | c :: rest =>
    if c = ',' then [] :: pieces rest
    else
      match pieces rest with
      | [] => [[c]]
      | p :: more => (c :: p) :: more

def ofText? (s : String) : Option String :=
  let parts := (pieces s.toList).filter fun p => !p.isEmpty
  (parts.mapM Directive.ofText?).map fun ds =>
    let statics := ds.filter fun d => !d.isDynamic
    let dynamics := ds.filter Directive.isDynamic
    let all := collect (statics ++ dynamics.filterMap Directive.toStatic?) ++ collect dynamics
    String.ofList (listText (all.map Directive.text))

/-- The filter to use: the program's own setting, else the common one, else `info`. -/
def choose (own common : Option String) : String :=
  (ofText? ((own.or common).getD "info")).getD "info"

end TraceWorkbench.LogFilter
