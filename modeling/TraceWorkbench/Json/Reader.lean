import TraceWorkbench.Json.Lexeme

set_option autoImplicit false

/-!
# Reading JSON values

The reader takes the whole text for one value and says why and where it refuses it. Nesting is
limited to `depthLimit` brackets.
-/
namespace TraceWorkbench.Json

def depthLimit : Nat := 127

def colon (s : Bytes) : Except Fault Bytes :=
  match skipBlank s with
  | [] => failNext .endOfObject []
  | b :: rest => if b = byte ':' then .ok rest else failNext .expectedColon (b :: rest)

/-- Before an element of a list: whether one follows, and the bytes from its first one on. -/
def nextElement (first : Bool) (s : Bytes) : Reading Bool :=
  match skipBlank s with
  | [] => failNext .endOfList []
  | b :: rest =>
    if b = byte ']' then .ok (false, b :: rest)
    else if first then .ok (true, b :: rest)
    else if b = byte ',' then
      match skipBlank rest with
      | [] => failNext .endOfValue []
      | c :: more =>
        if c = byte ']' then failNext .trailingComma (c :: more) else .ok (true, c :: more)
    else failNext .expectedListEnd (b :: rest)

def nextMember (first : Bool) (s : Bytes) : Reading Bool :=
  match skipBlank s with
  | [] => failNext .endOfObject []
  | b :: rest =>
    if b = byte '\x7d' then .ok (false, b :: rest)
    else if first then
      if b = byte '"' then .ok (true, b :: rest) else failNext .keyNotString (b :: rest)
    else if b = byte ',' then
      match skipBlank rest with
      | [] => failNext .endOfValue []
      | c :: more =>
        if c = byte '"' then .ok (true, c :: more)
        else if c = byte '\x7d' then failNext .trailingComma (c :: more)
        else failNext .keyNotString (c :: more)
    else failNext .expectedObjectEnd (b :: rest)

def scalar (v : Value) (r : Except Fault Bytes) : Reading Value := r.map fun rest => (v, rest)

mutual

def value : Nat → Nat → Bytes → Reading Value
  | 0, _, s => failHere .endOfValue s
  | fuel + 1, depth, s =>
    match skipBlank s with
    | [] => failNext .endOfValue []
    | b :: rest =>
      if b = byte 'n' then scalar .null (literal litNull rest)
      else if b = byte 't' then scalar (.bool true) (literal litTrue rest)
      else if b = byte 'f' then scalar (.bool false) (literal litFalse rest)
      else if b = byte '-' then (number false rest).map fun (n, rest) => (.number n, rest)
      else if isDigitByte b then (number true (b :: rest)).map fun (n, rest) => (.number n, rest)
      else if b = byte '"' then (stringBody rest).map fun (t, rest) => (.string t, rest)
      else if b = byte '[' then
        match depth with
        | 0 => failNext .tooDeep (b :: rest)
        | depth + 1 => elements fuel depth [] rest
      else if b = byte '\x7b' then
        match depth with
        | 0 => failNext .tooDeep (b :: rest)
        | depth + 1 => members fuel depth true [] rest
      else failNext .expectedValue (b :: rest)

def elements : Nat → Nat → List Value → Bytes → Reading Value
  | 0, _, _, s => failHere .endOfValue s
  | fuel + 1, depth, acc, s =>
    match nextElement acc.isEmpty s with
    | .error f => .error f
    | .ok (false, s) => .ok (.array acc.reverse, s.drop 1)
    | .ok (true, s) =>
      match value fuel depth s with
      | .error f => .error f
      | .ok (v, s) => elements fuel depth (v :: acc) s

def members : Nat → Nat → Bool → Members → Bytes → Reading Value
  | 0, _, _, _, s => failHere .endOfValue s
  | fuel + 1, depth, first, acc, s =>
    match nextMember first s with
    | .error f => .error f
    | .ok (false, s) => .ok (.object acc, s.drop 1)
    | .ok (true, s) =>
      match stringBody (s.drop 1) with
      | .error f => .error f
      | .ok (key, s) =>
        match colon s with
        | .error f => .error f
        | .ok s =>
          match value fuel depth s with
          | .error f => .error f
          | .ok (v, s) => members fuel depth false (acc.insert key v) s

end

/-- Reads a whole text with `reader`, which may leave blanks behind. -/
def readWhole {α : Type} (reader : Bytes → Reading α) (s : Bytes) : Except ReadError α :=
  match reader s with
  | .error f => .error (f.locate s)
  | .ok (a, rest) =>
    match skipBlank rest with
    | [] => .ok a
    | b :: more =>
      match failNext .trailingCharacters (b :: more) with
      | .error f => .error (f.locate s)
      | .ok a => .ok a

/-- Every step of the reader takes a byte or goes one level in, so this much fuel suffices. -/
def fuelFor (s : Bytes) : Nat := 2 * s.length + 2

def parseBytes (s : Bytes) : Except ReadError Value := readWhole (value (fuelFor s) depthLimit) s

def parse (s : String) : Except ReadError Value := parseBytes s.utf8Bytes

end TraceWorkbench.Json
