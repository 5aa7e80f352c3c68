import TraceWorkbench.Json.Decode
import TraceWorkbench.Text.Blank
import TraceWorkbench.Text.Lines

set_option autoImplicit false

/-!
# Verification reports

The server prints a line `time: stream = value` for each value of an output stream. Other lines are
noise.
-/
namespace TraceWorkbench

structure TraceValue where
  time : String
  stream : String
  value : String
  deriving DecidableEq, Repr, Inhabited

namespace TraceValue

def fields : List (Json.Field TraceValue) := [
  .of "time" true Json.string fun v t => { t with time := v },
  .of "stream" true Json.string fun v t => { t with stream := v },
  .of "value" true Json.string fun v t => { t with value := v }]

def decoder : Json.Decoder TraceValue := Json.record "TraceValue" default fields

def toJson (t : TraceValue) : Json.Value := .ofMembers [
  ("time", .string t.time), ("stream", .string t.stream), ("value", .string t.value)]

open Text in
def ofLine? (line : List Char) : Option TraceValue := do
  let (time, rest) ← splitOnce ':' line
  let (stream, value) ← splitOnce '=' rest
  let time := trim time
  let stream := trim stream
  if time.isEmpty || stream.isEmpty then none
  else some ⟨String.ofList time, String.ofList stream, String.ofList (trim value)⟩

end TraceValue

structure VerificationReport where
  output : List String
  startedAt : String
  deriving DecidableEq, Repr, Inhabited

namespace VerificationReport

def text (r : VerificationReport) : String := String.join r.output

def values (r : VerificationReport) : List TraceValue :=
  (Text.lines r.text.toList).filterMap TraceValue.ofLine?

end VerificationReport

end TraceWorkbench
