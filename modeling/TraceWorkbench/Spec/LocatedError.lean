import TraceWorkbench.Json.Decode
import TraceWorkbench.Text.Blank
import TraceWorkbench.Text.Lines
import TraceWorkbench.Text.WordChar

set_option autoImplicit false

/-!
# Located errors

The specification compiler writes an error with a place as

    kind((line,column - line,column): message)

with blanks allowed around the numbers. The first line that holds one counts, and in it the
leftmost. The message runs to the last closing parenthesis of the line. The compiler counts from 1
and this library from 0.
-/
namespace TraceWorkbench

structure Position where
  line : UInt32
  column : UInt32
  deriving DecidableEq, Repr, Inhabited

structure SpecError where
  kind : String
  start : Position
  stop : Position
  message : String
  deriving DecidableEq, Repr, Inhabited

namespace Position

def text (p : Position) : String := toString p.line ++ ":" ++ toString p.column

/-- The position counted from 0; a 0 of the compiler stays. -/
def ofOneBased (line column : UInt32) : Position :=
  let down (n : UInt32) : UInt32 := if n = 0 then 0 else n - 1
  ⟨down line, down column⟩

def fields : List (Json.Field Position) := [
  .of "line" true Json.word32 fun v p => { p with line := v },
  .of "column" true Json.word32 fun v p => { p with column := v }]

def decoder : Json.Decoder Position := Json.record "Position" default fields

def toJson (p : Position) : Json.Value :=
  .ofMembers [("line", .nat p.line.toNat), ("column", .nat p.column.toNat)]

end Position

namespace SpecError

def fields : List (Json.Field SpecError) := [
  .of "kind" true Json.string fun v e => { e with kind := v },
  .of "start" true Position.decoder fun v e => { e with start := v },
  .of "end" true Position.decoder fun v e => { e with stop := v },
  .of "message" true Json.string fun v e => { e with message := v }]

def decoder : Json.Decoder SpecError := Json.record "ParsedSpecError" default fields

def toJson (e : SpecError) : Json.Value := .ofMembers [
  ("kind", .string e.kind), ("start", e.start.toJson), ("end", e.stop.toJson),
  ("message", .string e.message)]

open Text

def decimal (ds : List Char) : Nat := ds.foldl (fun n d => 10 * n + (d.toNat - '0'.toNat)) 0

def number? (s : List Char) : Option (UInt32 × List Char) :=
  let s := trimStart s
  let ds := s.takeWhile Char.isDigit
  if ds.isEmpty ∨ UInt32.size ≤ decimal ds then none
  else some (UInt32.ofNat (decimal ds), s.dropWhile Char.isDigit)

def symbol? (c : Char) : List Char → Option (List Char)
  | d :: rest => if d = c then some rest else none
  | [] => none

def point? (s : List Char) : Option ((UInt32 × UInt32) × List Char) := do
  let (line, s) ← number? s
  let s ← symbol? ',' (trimStart s)
  let (column, s) ← number? s
  return ((line, column), s)

/-- The identifier right before a place, whose line before it is given in reverse. -/
def kindBefore? (reversed : List Char) : Option (List Char) :=
  match (reversed.takeWhile isAsciiWord).reverse with
  | c :: more => if c.isDigit then none else some (c :: more)
  | [] => none

def beforeLast? (c : Char) (s : List Char) : Option (List Char) :=
  match s.reverse.dropWhile (· != c) with
  | _ :: before => some before.reverse
  | [] => none

/-- The error whose opening parentheses stand before `rest`. -/
def atOpening? (reversed rest : List Char) : Option SpecError := do
  let kind ← kindBefore? reversed
  let (start, s) ← point? rest
  let s ← symbol? '-' (trimStart s)
  let (stop, s) ← point? s
  let s ← symbol? ')' (trimStart s)
  let s ← symbol? ':' s
  let message ← match s with
    | c :: s => if isBlank c then beforeLast? ')' s else none
    | [] => none
  return {
    kind := String.ofList kind
    start := .ofOneBased start.1 start.2
    stop := .ofOneBased stop.1 stop.2
    message := String.ofList message }

/-- The leftmost error of a line; what was passed already stands in reverse. -/
def inLine? (reversed : List Char) : List Char → Option SpecError
  | [] => none
  | c :: rest =>
    let here :=
      match c, rest with
      | '(', '(' :: after => atOpening? reversed after
      | _, _ => none
    match here with
    | some e => some e
    | none => inLine? (c :: reversed) rest

def locate (text : String) : Option SpecError := (lines text.toList).findSome? (inLine? [])

end SpecError

end TraceWorkbench
