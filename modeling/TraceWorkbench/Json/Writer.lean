import TraceWorkbench.Decimal.Shortest
import TraceWorkbench.Json.Value

set_option autoImplicit false

/-!
# Writing JSON

The compact and the indented text of a value. A number that is no integer is written with the
shortest digits that read back: positionally from 1e-5 on and below 1e16, else with a signed
exponent.
-/
namespace TraceWorkbench.Json

def zeros (n : Nat) : List Char := List.replicate n '0'

def decimalText (g : Decimal.Grid) : List Char :=
  let ds := Nat.toDigits 10 g.digits
  let scientific : Int := (ds.length : Int) - 1 + g.exponent
  if -5 ≤ scientific ∧ scientific < 16 then
    if 0 ≤ g.exponent then ds ++ zeros g.exponent.toNat ++ ['.', '0']
    else if 0 ≤ scientific then
      let whole := scientific.toNat + 1
      ds.take whole ++ '.' :: ds.drop whole
    else '0' :: '.' :: zeros (scientific.natAbs - 1) ++ ds
  else
    let mantissa :=
      match ds with
      | d :: e :: more => d :: '.' :: e :: more
      | _ => ds
    mantissa ++ 'e' :: (if scientific < 0 then '-' else '+') :: Nat.toDigits 10 scientific.natAbs

def doubleText (bits : UInt64) : List Char :=
  let sign := if bits.toNat >>> 63 = 1 then ['-'] else []
  match Decimal.Binary.ofBits? bits with
  | none => "null".toList
  | some b =>
    if b.mantissa = 0 then sign ++ ['0', '.', '0']
    else sign ++ decimalText (b.shortest.strip 20)

def Number.text : Number → List Char
  | .int n => (toString n).toList
  | .double bits => doubleText bits

def escapedChar (c : Char) : List Char :=
  if c = '"' then ['\\', '"']
  else if c = '\\' then ['\\', '\\']
  else if c = '\n' then ['\\', 'n']
  else if c = '\t' then ['\\', 't']
  else if c = '\r' then ['\\', 'r']
  else if c = '\x08' then ['\\', 'b']
  else if c = '\x0c' then ['\\', 'f']
  else if c.toNat < 0x20 then
    '\\' :: 'u' :: '0' :: '0' :: Nat.digitChar (c.toNat / 16) :: [Nat.digitChar (c.toNat % 16)]
  else [c]

def quoted (s : String) : List Char := '"' :: s.toList.flatMap escapedChar ++ ['"']

mutual

def Value.compact : Value → List Char
  | .null => "null".toList
  | .bool true => "true".toList
  | .bool false => "false".toList
  | .number n => n.text
  | .string s => quoted s
  | .array [] => ['[', ']']
  | .array (v :: more) => '[' :: v.compact ++ compactItems more ++ [']']
  | .object [] => ['\x7b', '\x7d']
  | .object ((k, v) :: more) =>
    '\x7b' :: quoted k ++ ':' :: v.compact ++ compactMembers more ++ ['\x7d']

def compactItems : List Value → List Char
  | [] => []
  | v :: more => ',' :: v.compact ++ compactItems more

def compactMembers : List (String × Value) → List Char
  | [] => []
  | (k, v) :: more => ',' :: quoted k ++ ':' :: v.compact ++ compactMembers more

end

def newline (depth : Nat) : List Char := '\n' :: List.replicate (2 * depth) ' '

mutual

/-- Two blanks for each level of nesting; empty arrays and objects stay on their line. -/
def Value.indented (depth : Nat) : Value → List Char
  | .array [] => ['[', ']']
  | .array (v :: more) =>
    '[' :: newline (depth + 1) ++ v.indented (depth + 1) ++ indentedItems (depth + 1) more ++
      newline depth ++ [']']
  | .object [] => ['\x7b', '\x7d']
  | .object ((k, v) :: more) =>
    '\x7b' :: newline (depth + 1) ++ quoted k ++ ':' :: ' ' :: v.indented (depth + 1) ++
      indentedMembers (depth + 1) more ++ newline depth ++ ['\x7d']
  | .null => "null".toList
  | .bool b => (Value.bool b).compact
  | .number n => n.text
  | .string s => quoted s

def indentedItems (depth : Nat) : List Value → List Char
  | [] => []
  | v :: more => ',' :: newline depth ++ v.indented depth ++ indentedItems depth more

def indentedMembers (depth : Nat) : List (String × Value) → List Char
  | [] => []
  | (k, v) :: more =>
    ',' :: newline depth ++ quoted k ++ ':' :: ' ' :: v.indented depth ++
      indentedMembers depth more

end

def Value.text (v : Value) : String := String.ofList v.compact

def Value.indentedText (v : Value) : String := String.ofList (v.indented 0)

end TraceWorkbench.Json
