import TraceWorkbench.Json.Skip

set_option autoImplicit false

/-!
# Reading JSON into records

A record is written as an object of its fields, in any order, or as a list of its fields in their
order. Fields that are not known are skipped. A field that may be missing keeps the value it has in
the record that reading starts from.
-/
namespace TraceWorkbench.Json

/-- A reader of one value, blanks before it included. -/
abbrev Decoder (α : Type) := Bytes → Reading α

/-- Refuses the value that starts here: `wanted` was wanted. -/
def refuse {α : Type} (wanted : String) (s : Bytes) : Except Fault α :=
  let wrong (found : Found) (rest : Bytes) : Except Fault α :=
    failHere (.wrongType found wanted) rest
  let named (found : Found) (r : Except Fault Bytes) : Except Fault α :=
    match r with
    | .error f => .error f
    | .ok rest => wrong found rest
  let numeral (r : Reading Number) : Except Fault α :=
    match r with
    | .error f => .error f
    | .ok (n, rest) => wrong (.number n) rest
  match s with
  | [] => failNext .expectedValue []
  | b :: rest =>
    if b = byte 'n' then named .null (literal litNull rest)
    else if b = byte 't' then named (.boolean true) (literal litTrue rest)
    else if b = byte 'f' then named (.boolean false) (literal litFalse rest)
    else if b = byte '-' then numeral (number false rest)
    else if isDigitByte b then numeral (number true s)
    else if b = byte '"' then
      match stringBody rest with
      | .error f => .error f
      | .ok (t, rest) => wrong (.string t) rest
    else if b = byte '[' then wrong .sequence s
    else if b = byte '\x7b' then wrong .map s
    else failNext .expectedValue s

def atValue {α : Type} (k : UInt8 → Bytes → Except Fault α) (s : Bytes) : Except Fault α :=
  match skipBlank s with
  | [] => failNext .endOfValue []
  | b :: rest => k b rest

def boolean : Decoder Bool := atValue fun b rest =>
  if b = byte 't' then (literal litTrue rest).map fun rest => (true, rest)
  else if b = byte 'f' then (literal litFalse rest).map fun rest => (false, rest)
  else refuse "a boolean" (b :: rest)

def stringCalled (wanted : String) : Decoder String := atValue fun b rest =>
  if b = byte '"' then stringBody rest else refuse wanted (b :: rest)

def string : Decoder String := stringCalled "a string"

def pathString : Decoder String := stringCalled "path string"

def word32 : Decoder UInt32 := atValue fun b rest =>
  let check (r : Reading Number) : Reading UInt32 :=
    match r with
    | .error f => .error f
    | .ok (.int n, rest) =>
      if 0 ≤ n ∧ n < UInt32.size then .ok (UInt32.ofNat n.toNat, rest)
      else failHere (.wrongValue (.number (.int n)) "u32") rest
    | .ok (n, rest) => failHere (.wrongType (.number n) "u32") rest
  if b = byte '-' then check (number false rest)
  else if isDigitByte b then check (number true (b :: rest))
  else refuse "u32" (b :: rest)

structure Field (σ : Type) where
  name : String
  read : σ → Decoder σ
  required : Bool

def Field.of {σ α : Type} (name : String) (required : Bool) (decode : Decoder α)
    (put : α → σ → σ) : Field σ :=
  ⟨name, fun r s => (decode s).map fun (a, rest) => (put a r, rest), required⟩

/-- Closes a list that was read up to here. The bytes left count also where it does not close. -/
def endList (s : Bytes) : Except Fault Unit × Bytes :=
  match skipBlank s with
  | [] => (failNext .endOfList [], [])
  | b :: rest =>
    if b = byte ']' then (.ok (), rest)
    else if b = byte ',' then
      match skipBlank rest with
      | c :: more =>
        (failNext (if c = byte ']' then .trailingComma else .trailingCharacters) (c :: more),
          c :: more)
      | [] => (failNext .trailingCharacters [], [])
    else (failNext .trailingCharacters (b :: rest), b :: rest)

def endObject (s : Bytes) : Except Fault Unit × Bytes :=
  match skipBlank s with
  | [] => (failNext .endOfObject [], [])
  | b :: rest =>
    if b = byte '\x7d' then (.ok (), rest)
    else if b = byte ',' then (failNext .trailingComma (b :: rest), b :: rest)
    else (failNext .trailingCharacters (b :: rest), b :: rest)

/-- Closes brackets after their content was read or refused. The place of a loose fault moves to
the bracket's end. -/
def closing {α : Type} (close : Bytes → Except Fault Unit × Bytes) (r : Reading α) : Reading α :=
  match r with
  | .ok (a, s) =>
    match close s with
    | (.ok (), rest) => .ok (a, rest)
    | (.error f, _) => .error f
  | .error f => if f.settled then .error f else .error ⟨f.reason, (close f.rest).2, true⟩

/-- Reads the fields of a record from a list, the `index`-th field first. -/
def recordItems {σ : Type} (name : String) (count : Nat) :
    Nat → List (Field σ) → σ → Bytes → Reading σ
  | _, [], r, s => .ok (r, s)
  | index, field :: more, r, s =>
    match nextElement (index == 0) s with
    | .error f => .error f
    | .ok (true, s) =>
      match field.read r s with
      | .error f => .error f
      | .ok (r, s) => recordItems name count (index + 1) more r s
    | .ok (false, s) =>
      if field.required then failLoose (.wrongLength index name count) s
      else recordItems name count (index + 1) more r s

/-- Reads the members of a record; `seen` are the fields that were read already. -/
def recordMembers {σ : Type} (fields : List (Field σ)) :
    Nat → Bool → List String → σ → Bytes → Reading σ
  | 0, _, _, _, s => failHere .endOfValue s
  | fuel + 1, first, seen, r, s =>
    match nextMember first s with
    | .error f => .error f
    | .ok (false, s) =>
      match fields.find? fun f => f.required && !seen.contains f.name with
      | some f => failLoose (.missingField f.name) s
      | none => .ok (r, s)
    | .ok (true, s) =>
      match stringBody (s.drop 1) with
      | .error f => .error f
      | .ok (key, s) =>
        match fields.find? fun f => f.name == key with
        | none =>
          match colon s with
          | .error f => .error f
          | .ok s =>
            match skip s with
            | .error f => .error f
            | .ok s => recordMembers fields fuel false seen r s
        | some field =>
          if seen.contains key then failLoose (.repeatedField key) s
          else
            match colon s with
            | .error f => .error f
            | .ok s =>
              match field.read r s with
              | .error f => .error f
              | .ok (r, s) => recordMembers fields fuel false (key :: seen) r s

def record {σ : Type} (name : String) (start : σ) (fields : List (Field σ)) : Decoder σ :=
  atValue fun b rest =>
    if b = byte '[' then closing endList (recordItems name fields.length 0 fields start rest)
    else if b = byte '\x7b' then
      closing endObject (recordMembers fields (rest.length + 1) true [] start rest)
    else refuse ("struct " ++ name) (b :: rest)

def unit : Decoder Unit := atValue fun b rest =>
  if b = byte 'n' then (literal litNull rest).map fun rest => ((), rest)
  else refuse "unit" (b :: rest)

def choiceName {α : Type} (known : List (String × α)) (s : Bytes) : Reading α :=
  match stringBody s with
  | .error f => .error f
  | .ok (name, rest) =>
    match known.find? fun k => k.1 == name with
    | some (_, a) => .ok (a, rest)
    | none => failHere (.unknownChoice name (known.map (·.1))) rest

def choiceKey {α : Type} (known : List (String × α)) (s : Bytes) : Reading α :=
  match skipBlank s with
  | [] => failNext .endOfObject []
  | b :: rest =>
    if b = byte '"' then choiceName known rest
    else if b = byte '\x7d' then failNext .expectedValue (b :: rest)
    else failNext .keyNotString (b :: rest)

/-- One of a few named choices: its name, or an object of its name and `null`. -/
def choice {α : Type} (known : List (String × α)) : Decoder α := atValue fun b rest =>
  if b = byte '\x7b' then
    match choiceKey known rest with
    | .error f => .error f
    | .ok (a, s) =>
      match colon s with
      | .error f => .error f
      | .ok s =>
        match unit s with
        | .error f => .error f
        | .ok (_, s) =>
          match skipBlank s with
          | [] => failHere .endOfObject []
          | c :: more =>
            if c = byte '\x7d' then .ok (a, more) else failHere .expectedValue (c :: more)
  else if b = byte '"' then choiceName known rest
  else failNext .expectedValue (b :: rest)

def decode {α : Type} (decoder : Decoder α) (s : String) : Except ReadError α :=
  readWhole decoder s.utf8Bytes

end TraceWorkbench.Json
