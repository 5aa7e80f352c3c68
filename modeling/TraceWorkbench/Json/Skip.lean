import TraceWorkbench.Json.Reader

set_option autoImplicit false

/-!
# Skipping JSON values

A value that nobody asked for is skipped without regard to its nesting, to the size of its numbers
or to unpaired surrogates.
-/
namespace TraceWorkbench.Json

inductive Bracket where
  | list
  | object
  deriving DecidableEq, Repr

def Bracket.closing : Bracket → UInt8
  | .list => byte ']'
  | .object => byte '\x7d'

def Bracket.unclosed : Bracket → Reason
  | .list => .endOfList
  | .object => .endOfObject

def Bracket.unseparated : Bracket → Reason
  | .list => .expectedListEnd
  | .object => .expectedObjectEnd

def skipKey (s : Bytes) : Except Fault Bytes :=
  match skipBlank s with
  | [] => failNext .endOfObject []
  | b :: rest =>
    if b = byte '"' then
      match skipString rest with
      | .error f => .error f
      | .ok s => colon s
    else failNext .keyNotString (b :: rest)

mutual

/-- Skips one value inside the open brackets, and then what follows it. -/
def skipValue : Nat → List Bracket → Bytes → Except Fault Bytes
  | 0, _, s => failHere .endOfValue s
  | fuel + 1, stack, s =>
    let after (r : Except Fault Bytes) : Except Fault Bytes :=
      match r with
      | .error f => .error f
      | .ok s => skipClosing fuel true stack s
    match skipBlank s with
    | [] => failNext .endOfValue []
    | b :: rest =>
      if b = byte 'n' then after (literal litNull rest)
      else if b = byte 't' then after (literal litTrue rest)
      else if b = byte 'f' then after (literal litFalse rest)
      else if b = byte '-' then after (skipNumber rest)
      else if isDigitByte b then after (skipNumber (b :: rest))
      else if b = byte '"' then after (skipString rest)
      else if b = byte '[' then skipClosing fuel false (.list :: stack) rest
      else if b = byte '\x7b' then skipClosing fuel false (.object :: stack) rest
      else failNext .expectedValue (b :: rest)

/-- Closes brackets as long as they close, and goes on with the next value of the one still open.
`full` says that a value stands before the place. -/
def skipClosing : Nat → Bool → List Bracket → Bytes → Except Fault Bytes
  | 0, _, _, s => failHere .endOfValue s
  | _ + 1, _, [], s => .ok s
  | fuel + 1, full, top :: stack, s =>
    let next (s : Bytes) : Except Fault Bytes :=
      match top with
      | .list => skipValue fuel (.list :: stack) s
      | .object =>
        match skipKey s with
        | .error f => .error f
        | .ok s => skipValue fuel (.object :: stack) s
    match skipBlank s with
    | [] => failNext top.unclosed []
    | b :: rest =>
      if full && b == byte ',' then next rest
      else if b = top.closing then skipClosing fuel true stack rest
      else if full then failNext top.unseparated (b :: rest)
      else next (b :: rest)

end

def skip (s : Bytes) : Except Fault Bytes := skipValue (2 * s.length + 2) [] s

end TraceWorkbench.Json
