import TraceWorkbench.Text.Blank
import TraceWorkbench.Text.Letter

set_option autoImplicit false

/-!
# Patterns of field values

A field may be asked to match a regular expression. What matters here is whether an expression can
be used: it is well formed, at most 250 levels deep, matches whole characters only, and has no word
boundaries of Unicode, which an automaton over bytes does not find. Counted repetition needs a
closing brace, which ends the field, so an opening one is refused.
-/
namespace TraceWorkbench.LogFilter.Pattern

open TraceWorkbench.Text (isBlank isAlphabetic isAlphanumeric)

/-- The rules at a place of a pattern: whether it is about characters or bytes, and whether blanks
and comments are layout. -/
structure Mode where
  unicode : Bool := true
  layout : Bool := false
  deriving DecidableEq, Repr

inductive Atom where
  | char (code : Nat)
  | set
  | edge
  deriving DecidableEq, Repr

def skipBlanks : Bool → List Char → List Char
  | _, [] => []
  | true, c :: rest => skipBlanks (c != '\n') rest
  | false, c :: rest =>
    if isBlank c then skipBlanks false rest
    else if c = '#' then skipBlanks true rest
    else c :: rest

def Mode.skip (m : Mode) (s : List Char) : List Char := if m.layout then skipBlanks false s else s

def hexValue? (c : Char) : Option Nat :=
  if c.isDigit then some (c.toNat - '0'.toNat)
  else if 'a' ≤ c ∧ c ≤ 'f' then some (c.toNat - 'a'.toNat + 10)
  else if 'A' ≤ c ∧ c ≤ 'F' then some (c.toNat - 'A'.toNat + 10)
  else none

def Mode.hexCode (m : Mode) : Nat → Nat → List Char → Option (Nat × List Char)
  | 0, code, s => some (code, m.skip s)
  | digits + 1, code, s =>
    match m.skip s with
    | [] => none
    | c :: rest => (hexValue? c).bind fun d => m.hexCode digits (16 * code + d) rest

/-- A character by its code. Two digits are a byte where bytes are matched. -/
def Mode.coded (m : Mode) (digits : Nat) (s : List Char) : Option (Atom × List Char) :=
  match m.hexCode digits 0 s with
  | none => none
  | some (code, rest) =>
    if !code.isValidChar || (!m.unicode && digits == 2 && 0x80 ≤ code) then none
    else some (.char code, rest)

def Mode.category (m : Mode) (s : List Char) : Option (Atom × List Char) :=
  match m.skip s with
  | [] => none
  | c :: rest => if m.unicode && "CLMNPSZclmnpsz".contains c then some (.set, m.skip rest) else none

def controlCode? (c : Char) : Option Nat :=
  if c = 'a' then some 0x07
  else if c = 'f' then some 0x0C
  else if c = 't' then some 0x09
  else if c = 'n' then some 0x0A
  else if c = 'r' then some 0x0D
  else if c = 'v' then some 0x0B
  else none

def Mode.escape (m : Mode) : List Char → Option (Atom × List Char)
  | [] => none
  | c :: rest =>
    if c = 'x' then m.coded 2 rest
    else if c = 'u' then m.coded 4 rest
    else if c = 'U' then m.coded 8 rest
    else if c = 'p' || c = 'P' then m.category rest
    else if "dsw".contains c || ("DSW".contains c && m.unicode) then some (.set, rest)
    else if "Az".contains c || ("bB<>".contains c && !m.unicode) then some (.edge, rest)
    else if c.isAlphanum || c == '<' || c == '>' then
      (controlCode? c).map fun code => (.char code, rest)
    else if c.toNat < 0x80 then some (.char c.toNat, rest)
    else none

structure Tally where
  count : Nat := 0
  deepest : Nat := 0
  deriving DecidableEq, Repr

def Tally.add (t : Tally) (depth : Nat) : Tally := ⟨t.count + 1, max t.deepest depth⟩

/-- Several items together are one level more. -/
def Tally.depth (t : Tally) : Nat := if t.count ≤ 1 then t.deepest else t.deepest + 1

def classNames : List String :=
  ["alnum", "alpha", "ascii", "blank", "cntrl", "digit", "graph", "lower", "print", "punct",
    "space", "upper", "word", "xdigit"]

/-- A named class behind its bracket, such as `:^alpha:]`: whether it is negated, and the rest. -/
def namedClass? : List Char → Option (Bool × List Char)
  | ':' :: s =>
    let (negated, s) := match s with
      | '^' :: rest => (true, rest)
      | _ => (false, s)
    match s.dropWhile (· != ':') with
    | ':' :: ']' :: rest =>
      if classNames.contains (String.ofList (s.takeWhile (· != ':'))) then some (negated, rest)
      else none
    | _ => none
  | _ => none

def Mode.classAtom (m : Mode) (s : List Char) : Option (Atom × List Char) :=
  let read := match s with
    | [] => none
    | '\\' :: rest => m.escape rest
    | c :: rest => some (.char c.toNat, rest)
  match read with
  | some (.char code, rest) => if m.unicode || code < 0x80 then some (.char code, rest) else none
  | some (.set, rest) => some (.set, rest)
  | _ => none

/-- The character behind layout. A comment counts as its first character. -/
def Mode.peek (m : Mode) (s : List Char) : Option Char :=
  if m.layout then
    match s.dropWhile isBlank with
    | '#' :: rest => (rest.dropWhile isBlank).head?
    | s => s.head?
  else s.head?

def Mode.classItem (m : Mode) (s : List Char) : Option (List Char) :=
  match m.classAtom s with
  | none => none
  | some (low, rest) =>
    match m.skip rest with
    | [] => none
    | '-' :: rest =>
      if m.peek rest = some ']' ∨ m.peek rest = some '-' then some ('-' :: rest)
      else
        match low, m.classAtom (m.skip rest) with
        | .char low, some (.char high, rest) => if low ≤ high then some rest else none
        | _, _ => none
    | rest => some rest

def Mode.dashes (m : Mode) : Nat → Nat → List Char → Nat × List Char
  | fuel + 1, n, '-' :: rest => m.dashes fuel (n + 1) (m.skip rest)
  | _, n, s => (n, s)

/-- Reads what stands first in brackets; a closing bracket is an item there. -/
def Mode.classStart (m : Mode) (s : List Char) : Option (Tally × List Char) :=
  let inner := match m.skip s with
    | '^' :: rest => if m.unicode then some (m.skip rest) else none
    | rest => some rest
  match inner with
  | none => none
  | some s =>
    match m.dashes s.length 0 s with
    | (0, ']' :: rest) => some (⟨1, 0⟩, m.skip rest)
    | (n, rest) => some (⟨n, 0⟩, rest)

/-- The depth of what brackets hold: items, perhaps behind an operator and its left side. -/
def setDepth (left : Option Nat) (items : Tally) : Nat :=
  match left with
  | some depth => max depth items.depth + 1
  | none => items.depth

def Mode.classBody (m : Mode) :
    Nat → Option Nat → Tally → List Char → Option (Nat × List Char)
  | 0, _, _, _ => none
  | fuel + 1, left, items, s =>
    match m.skip s with
    | [] => none
    | ']' :: rest => some (setDepth left items + 1, rest)
    | '[' :: rest =>
      match namedClass? rest with
      | some (negated, rest) =>
        if negated && !m.unicode then none else m.classBody fuel left (items.add 0) rest
      | none =>
        match m.classStart rest with
        | none => none
        | some (first, rest) =>
          match m.classBody fuel none first rest with
          | none => none
          | some (depth, rest) => m.classBody fuel left (items.add depth) rest
    | '&' :: '&' :: rest => m.classBody fuel (some (setDepth left items)) ⟨0, 0⟩ rest
    | '-' :: '-' :: rest => m.classBody fuel (some (setDepth left items)) ⟨0, 0⟩ rest
    | '~' :: '~' :: rest => m.classBody fuel (some (setDepth left items)) ⟨0, 0⟩ rest
    | s =>
      match m.classItem s with
      | none => none
      | some rest => m.classBody fuel left (items.add 0) rest

def flags : List Char → List Char → Option (List Char × Char × List Char)
  | _, [] => none
  | seen, c :: rest =>
    if c = ':' ∨ c = ')' then
      if seen.head? = some '-' then none else some (seen.reverse, c, rest)
    else if seen.contains c || !"imsUuRx-".contains c then none
    else flags (c :: seen) rest

def Mode.change (m : Mode) (flags : List Char) : Mode :=
  let value (flag : Char) (now : Bool) : Bool :=
    (now || (flags.takeWhile (· != '-')).contains flag) &&
      !(flags.dropWhile (· != '-')).contains flag
  ⟨value 'u' m.unicode, value 'x' m.layout⟩

def isGroupName : List Char → Bool
  | [] => false
  | c :: rest =>
    (c == '_' || isAlphabetic c) && rest.all fun c => "_.[]".contains c || isAlphanumeric c

inductive Opening where
  | rules (m : Mode)
  | group (m : Mode) (name : Option (List Char))
  deriving DecidableEq, Repr

def Mode.namedGroup (m : Mode) (s : List Char) : Option (Opening × List Char) :=
  let name := s.takeWhile (· != '>')
  match s.dropWhile (· != '>') with
  | _ :: rest => if isGroupName name then some (.group m (some name), rest) else none
  | [] => none

def Mode.opening (m : Mode) (s : List Char) : Option (Opening × List Char) :=
  match m.skip s with
  | '?' :: 'P' :: '<' :: rest => m.namedGroup rest
  | '?' :: '<' :: rest => m.namedGroup rest
  | '?' :: rest =>
    match flags [] rest with
    | none => none
    | some (fs, ending, rest) =>
      if ending = ':' then some (.group (m.change fs) none, rest)
      else if fs.isEmpty then none
      else some (.rules (m.change fs), rest)
  | rest => some (.group m none, rest)

def Mode.atom (m : Mode) (c : Char) (rest : List Char) : Option (List Char) :=
  if c = '\\' then (m.escape rest).map (·.2)
  else if c = '\x7b' ∨ (c = '.' ∧ !m.unicode) then none
  else some rest

/-- How far an alternative is read: the depth of those before it, its items, and the depth of the
last item where that can be repeated. -/
structure Progress where
  before : Option Nat := none
  items : Tally := {}
  last : Option Nat := none
  deriving DecidableEq, Repr

def Progress.depth (p : Progress) : Nat :=
  match p.before with
  | some depth => max depth (p.items.depth + 1)
  | none => p.items.depth

def Progress.next (p : Progress) : Progress := { before := some (max p.depth (p.items.depth + 1)) }

def Progress.push (p : Progress) (depth : Nat) : Progress :=
  { p with items := p.items.add depth, last := some depth }

def Progress.repeated (p : Progress) (depth : Nat) : Progress :=
  { p with
    items := { p.items with deepest := max p.items.deepest (depth + 1) }
    last := some (depth + 1) }

/-- Reads alternatives up to a closing parenthesis or the end, and gives their depth and the names
of groups so far. -/
def body : Nat → Mode → List (List Char) → Progress → List Char →
    Option (Nat × List (List Char) × List Char)
  | 0, _, _, _, _ => none
  | fuel + 1, m, names, p, s =>
    match m.skip s with
    | [] => some (p.depth, names, [])
    | ')' :: rest => some (p.depth, names, ')' :: rest)
    | '|' :: rest => body fuel m names p.next rest
    | '(' :: rest =>
      match m.opening rest with
      | none => none
      | some (.rules m, rest) =>
        body fuel m names { p with items := p.items.add 0, last := none } rest
      | some (.group inner name, rest) =>
        if (name.map names.contains).getD false then none
        else
          match body fuel inner (name.toList ++ names) {} rest with
          | some (depth, names, ')' :: rest) => body fuel m names (p.push (depth + 1)) rest
          | _ => none
    | '[' :: rest =>
      match m.classStart rest with
      | none => none
      | some (first, rest) =>
        match m.classBody (rest.length + 1) none first rest with
        | none => none
        | some (depth, rest) => body fuel m names (p.push depth) rest
    | c :: rest =>
      if c = '?' ∨ c = '*' ∨ c = '+' then
        match p.last, rest with
        | none, _ => none
        | some depth, '?' :: rest => body fuel m names (p.repeated depth) rest
        | some depth, rest => body fuel m names (p.repeated depth) rest
      else
        match m.atom c rest with
        | none => none
        | some rest => body fuel m names (p.push 0) rest

def isUsable (s : List Char) : Bool :=
  match body (s.length + 1) {} [] {} s with
  | some (depth, _, []) => depth ≤ 250
  | _ => false

end TraceWorkbench.LogFilter.Pattern
