import TraceWorkbench.Json.Decode

set_option autoImplicit false

/-!
# Compiled specifications

The specification compiler writes a JSON document, sometimes with a stray comma right before its
last character. The document lists the streams of the specification; the server is asked for those
that are marked as outputs.
-/
namespace TraceWorkbench

namespace CompiledSpec

def repairReversed : List Char → List Char
  | last :: ',' :: rest => last :: rest
  | s => s

/-- The compiler's output without a stray comma before its last character. -/
def repair (s : List Char) : List Char := (repairReversed s.reverse).reverse

theorem repair_stray (s : List Char) (last : Char) : repair (s ++ [',', last]) = s ++ [last] := by
  simp [repair, repairReversed]

end CompiledSpec

def normalizeCompiledSpec (text : String) : String :=
  String.ofList (CompiledSpec.repair text.toList)

structure TraceOutput where
  streamId : String
  streamName : String
  deriving DecidableEq, Repr, Inhabited

namespace TraceOutput

def selector (o : TraceOutput) : String := o.streamId ++ ":" ++ o.streamName

def fields : List (Json.Field TraceOutput) := [
  .of "stream_id" true Json.string fun v o => { o with streamId := v },
  .of "stream_name" true Json.string fun v o => { o with streamName := v }]

def decoder : Json.Decoder TraceOutput := Json.record "TraceOutputEntry" default fields

def toJson (o : TraceOutput) : Json.Value := .ofMembers [
  ("stream_id", .string o.streamId), ("stream_name", .string o.streamName)]

/-- Whether a flag counts as set: not `null`, `false`, zero or the empty text. -/
def isSet : Json.Value → Bool
  | .null => false
  | .bool b => b
  | .number (.int n) => n != 0
  | .number (.double bits) => bits.toNat % 1 <<< 63 != 0
  | .string s => !s.isEmpty
  | .array _ | .object _ => true

def idText? : Json.Value → Option String
  | .number n => some (String.ofList n.text)
  | .string s => if s.isEmpty then none else some s
  | _ => none

/-- The output that an item describes. An item of an object has a key, which stands in for a
missing id. -/
def ofItem? (key : Option String) (item : Json.Value) : Option TraceOutput := do
  let out ← item.get? "out"
  let name ← match item.get? "name" with
    | some (.string s) => if s.isEmpty then none else some s
    | _ => none
  let id ← ((item.get? "id").bind idText?).or key
  if isSet out then some ⟨id, name⟩ else none

def ofDocument (document : Json.Value) : List TraceOutput :=
  match document.get? "items" with
  | some (.array items) => items.filterMap (ofItem? none)
  | some (.object members) => members.filterMap fun (key, item) => ofItem? (some key) item
  | _ => []

end TraceOutput

end TraceWorkbench
