import TraceWorkbench.Json.Writer
import TraceWorkbench.Text.Printable
import TraceWorkbench.Text.Utf8

set_option autoImplicit false

/-!
# Why a JSON text was refused, and where

A fault holds the bytes that were unread when it was noticed, so its place is found by counting in
the whole text. Lines count from 1. The column counts the bytes of the line up to the place.
-/
namespace TraceWorkbench.Json

inductive Found where
  | null
  | boolean (b : Bool)
  | number (n : Number)
  | string (s : String)
  | sequence
  | map
  deriving DecidableEq, Repr

def Found.text : Found → String
  | .null => "null"
  | .boolean b => "boolean `" ++ (if b then "true" else "false") ++ "`"
  | .number (.int n) => "integer `" ++ toString n ++ "`"
  | .number n => "floating point `" ++ String.ofList n.text ++ "`"
  | .string s => "string " ++ s.displayQuoted
  | .sequence => "sequence"
  | .map => "map"

inductive Reason where
  | endOfList
  | endOfObject
  | endOfString
  | endOfValue
  | expectedColon
  | expectedListEnd
  | expectedObjectEnd
  | expectedLiteral
  | expectedValue
  | invalidEscape
  | invalidNumber
  | numberOutOfRange
  | controlCharacter
  | keyNotString
  | loneSurrogate
  | unfinishedPair
  | trailingComma
  | trailingCharacters
  | tooDeep
  | wrongType (found : Found) (wanted : String)
  | wrongValue (found : Found) (wanted : String)
  | missingField (name : String)
  | repeatedField (name : String)
  | unknownChoice (name : String) (known : List String)
  | wrongLength (length : Nat) (record : String) (fields : Nat)
  deriving DecidableEq, Repr

def choicesText : List String → String
  | [] => "there are no variants"
  | [a] => "expected `" ++ a ++ "`"
  | [a, b] => "expected `" ++ a ++ "` or `" ++ b ++ "`"
  | more => "expected one of " ++ ", ".intercalate (more.map fun a => "`" ++ a ++ "`")

def Reason.text : Reason → String
  | .endOfList => "EOF while parsing a list"
  | .endOfObject => "EOF while parsing an object"
  | .endOfString => "EOF while parsing a string"
  | .endOfValue => "EOF while parsing a value"
  | .expectedColon => "expected `:`"
  | .expectedListEnd => "expected `,` or `]`"
  | .expectedObjectEnd => "expected `,` or `\x7d`"
  | .expectedLiteral => "expected ident"
  | .expectedValue => "expected value"
  | .invalidEscape => "invalid escape"
  | .invalidNumber => "invalid number"
  | .numberOutOfRange => "number out of range"
  | .controlCharacter => "control character (\\u0000-\\u001F) found while parsing a string"
  | .keyNotString => "key must be a string"
  | .loneSurrogate => "lone leading surrogate in hex escape"
  | .unfinishedPair => "unexpected end of hex escape"
  | .trailingComma => "trailing comma"
  | .trailingCharacters => "trailing characters"
  | .tooDeep => "recursion limit exceeded"
  | .wrongType found wanted => "invalid type: " ++ found.text ++ ", expected " ++ wanted
  | .wrongValue found wanted => "invalid value: " ++ found.text ++ ", expected " ++ wanted
  | .missingField name => "missing field `" ++ name ++ "`"
  | .repeatedField name => "duplicate field `" ++ name ++ "`"
  | .unknownChoice name known => "unknown variant `" ++ name ++ "`, " ++ choicesText known
  | .wrongLength length record fields =>
    "invalid length " ++ toString length ++ ", expected struct " ++ record ++ " with " ++
      toString fields ++ (if fields = 1 then " element" else " elements")

structure Fault where
  reason : Reason
  rest : Bytes
  /-- Whether the place stands. The place of other faults moves to the end of the value around. -/
  settled : Bool
  deriving DecidableEq, Repr

/-- A read value, and the bytes behind it. -/
abbrev Reading (α : Type) := Except Fault (α × Bytes)

def failHere {α : Type} (reason : Reason) (rest : Bytes) : Except Fault α :=
  .error ⟨reason, rest, true⟩

/-- A fault of the next byte, which counts as read. -/
def failNext {α : Type} (reason : Reason) (rest : Bytes) : Except Fault α :=
  .error ⟨reason, rest.drop 1, true⟩

def failLoose {α : Type} (reason : Reason) (rest : Bytes) : Except Fault α :=
  .error ⟨reason, rest, false⟩

def settle {α : Type} : Except Fault α → Except Fault α
  | .error f => .error { f with settled := true }
  | .ok a => .ok a

def placeOf (line column : Nat) : Nat → Bytes → Nat × Nat
  | 0, _ | _, [] => (line, column)
  | n + 1, b :: rest =>
    if b = 0x0A then placeOf (line + 1) 0 n rest else placeOf line (column + 1) n rest

structure ReadError where
  reason : Reason
  line : Nat
  column : Nat
  deriving DecidableEq, Repr

def ReadError.message (e : ReadError) : String :=
  e.reason.text ++ " at line " ++ toString e.line ++ " column " ++ toString e.column

def Fault.locate (f : Fault) (whole : Bytes) : ReadError :=
  let (line, column) := placeOf 1 0 (whole.length - f.rest.length) whole
  ⟨f.reason, line, column⟩

end TraceWorkbench.Json
