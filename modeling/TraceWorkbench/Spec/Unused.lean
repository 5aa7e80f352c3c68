import TraceWorkbench.Json.Decode
import TraceWorkbench.Spec.Tracked

set_option autoImplicit false

/-!
# Unused functions

A tracked function is used when some source holds its name, from a word boundary on, before an
opening parenthesis; blanks may stand between. For the unused ones, the references in the
specification are found, with their places.

The search for a name is taken to succeed or fail by its text alone. A name too long for a pattern
of bounded size, which would have to count as used, has no case of its own here.
-/
namespace TraceWorkbench

/-- A reference to a function in a specification. Lines and columns count from 0, columns in
characters. -/
structure FunctionOccurrence where
  function : String
  line : UInt32
  startColumn : UInt32
  endColumn : UInt32
  deriving DecidableEq, Repr, Inhabited

namespace FunctionOccurrence

def fields : List (Json.Field FunctionOccurrence) := [
  .of "function" true Json.string fun v o => { o with function := v },
  .of "line" true Json.word32 fun v o => { o with line := v },
  .of "start_column" true Json.word32 fun v o => { o with startColumn := v },
  .of "end_column" true Json.word32 fun v o => { o with endColumn := v }]

def decoder : Json.Decoder FunctionOccurrence := Json.record "FunctionOccurrence" default fields

def toJson (o : FunctionOccurrence) : Json.Value := .ofMembers [
  ("function", .string o.function), ("line", .nat o.line.toNat),
  ("start_column", .nat o.startColumn.toNat), ("end_column", .nat o.endColumn.toNat)]

end FunctionOccurrence

namespace Unused

open Text

/-- Whether exactly one of the two neighbours is a word character. -/
def isBoundary (left right : Option Char) : Bool :=
  (left.map isWordChar).getD false != (right.map isWordChar).getD false

def callAt (name : List Char) (left : Option Char) (s : List Char) : Bool :=
  isBoundary left s.head? &&
    match Tracked.strip? name s with
    | some rest => (trimStart rest).head? == some '('
    | none => false

def calls (name : List Char) (left : Option Char) : List Char → Bool
  | [] => callAt name left []
  | c :: rest => callAt name left (c :: rest) || calls name (some c) rest

def functions (tracked sources : List String) : List String :=
  tracked.filter fun name => !sources.any fun source => calls name.toList none source.toList

/-- The places of a mark in a text; a place inside an earlier one does not count. `skip` characters
of the text belong to an earlier place. -/
def places (mark : List Char) (column skip : Nat) : List Char → List Nat
  | [] => []
  | c :: rest =>
    match skip with
    | skip + 1 => places mark (column + 1) skip rest
    | 0 =>
      if mark.isPrefixOf (c :: rest) then
        column :: places mark (column + 1) (mark.length - 1) rest
      else places mark (column + 1) 0 rest

def spelling (function : String) : List Char :=
  Tracked.opening ++ '"' :: function.toList ++ ['"', ')']

/-- The largest number of 32 bits stands for all beyond it. -/
def clamp (n : Nat) : UInt32 := UInt32.ofNat (min n (UInt32.size - 1))

def inLine (functions : List String) (number : Nat) (line : List Char) : List FunctionOccurrence :=
  functions.flatMap fun function =>
    let mark := spelling function
    (places mark 0 0 line).map fun column =>
      ⟨function, clamp number, clamp column, clamp (column + mark.length)⟩

def occurrences (spec : String) (functions : List String) : List FunctionOccurrence :=
  let found := (lines spec.toList).zipIdx.flatMap fun (line, number) => inLine functions number line
  found.mergeSort fun a b =>
    a.line < b.line || (a.line == b.line && a.startColumn ≤ b.startColumn)

end Unused

end TraceWorkbench
