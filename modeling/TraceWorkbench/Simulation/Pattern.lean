set_option autoImplicit false

/-!
# Patterns

Patterns of `case` arms, of trimmed parameters and of file names. A quoted character only stands
for itself.
-/
namespace TraceWorkbench.Simulation

inductive Glob where
  | any
  | one
  | set (negated : Bool) (ranges : List (Char × Char))
  | literal (c : Char)
  deriving DecidableEq, Repr, Inhabited

abbrev Pattern := List Glob

/-- A character of a word, and whether it was quoted. -/
abbrev Marked := Char × Bool

def classRanges? : String → Option (List (Char × Char))
  | "alnum" => some [('0', '9'), ('A', 'Z'), ('a', 'z')]
  | "alpha" => some [('A', 'Z'), ('a', 'z')]
  | "blank" => some [(' ', ' '), ('\t', '\t')]
  | "cntrl" => some [('\x00', '\x1f'), ('\x7f', '\x7f')]
  | "digit" => some [('0', '9')]
  | "graph" => some [('!', '~')]
  | "lower" => some [('a', 'z')]
  | "print" => some [(' ', '~')]
  | "punct" => some [('!', '/'), (':', '@'), ('[', '\x60'), ('\x7b', '~')]
  | "space" => some [(' ', ' '), ('\t', '\x0d')]
  | "upper" => some [('A', 'Z')]
  | "xdigit" => some [('0', '9'), ('A', 'F'), ('a', 'f')]
  | _ => none

def namedClass? : List Marked → Option (List (Char × Char) × List Marked)
  | ('[', false) :: (':', _) :: rest =>
    let name := rest.takeWhile fun c => c.1 != ':'
    match rest.drop name.length with
    | (':', _) :: (']', false) :: rest =>
      (classRanges? (String.ofList (name.map (·.1)))).map fun ranges => (ranges, rest)
    | _ => none
  | _ => none

/-- The ranges of a bracket expression and what follows its end. A bracket that stands first counts
as itself. -/
def bracketRanges : Nat → Bool → List Marked → Option (List (Char × Char) × List Marked)
  | 0, _, _ | _, _, [] => none
  | fuel + 1, first, (c, q) :: rest =>
    let go (ranges : List (Char × Char)) (rest : List Marked) :=
      (bracketRanges fuel false rest).map fun (more, rest) => (ranges ++ more, rest)
    if c == ']' && !q && !first then some ([], rest)
    else
      match namedClass? ((c, q) :: rest), rest with
      | some (ranges, rest), _ => go ranges rest
      | none, ('-', false) :: (d, r) :: rest =>
        if d == ']' && !r then go [(c, c)] (('-', false) :: (d, r) :: rest) else go [(c, d)] rest
      | none, _ => go [(c, c)] rest

/-- Reads a pattern; a bracket that is never closed stands for itself. -/
def Pattern.read : Nat → List Marked → Pattern
  | 0, _ => []
  | _ + 1, [] => []
  | fuel + 1, (c, quoted) :: rest =>
    if quoted then .literal c :: read fuel rest
    else if c == '*' then .any :: read fuel rest
    else if c == '?' then .one :: read fuel rest
    else if c == '[' then
      let (negated, inner) :=
        match rest with
        | ('!', false) :: more => (true, more)
        | ('^', false) :: more => (true, more)
        | _ => (false, rest)
      match bracketRanges (inner.length + 1) true inner with
      | some (ranges, rest) => .set negated ranges :: read fuel rest
      | none => .literal c :: read fuel rest
    else .literal c :: read fuel rest

def Pattern.ofMarked (cs : List Marked) : Pattern := Pattern.read (cs.length + 1) cs

def Pattern.isOpen (p : Pattern) : Bool :=
  p.any fun
    | .literal _ => false
    | _ => true

def suffixes {α : Type} : List α → List (List α)
  | [] => [[]]
  | a :: rest => (a :: rest) :: suffixes rest

def Pattern.matches : Pattern → List Char → Bool
  | [], s => s.isEmpty
  | .any :: p, s => (suffixes s).any fun t => Pattern.matches p t
  | .one :: p, s =>
    match s with
    | _ :: rest => Pattern.matches p rest
    | [] => false
  | .set negated ranges :: p, s =>
    match s with
    | c :: rest => ((ranges.any fun r => r.1 ≤ c && c ≤ r.2) != negated) && Pattern.matches p rest
    | [] => false
  | .literal c :: p, s =>
    match s with
    | d :: rest => c == d && Pattern.matches p rest
    | [] => false

def Pattern.trimStart (p : Pattern) (longest : Bool) (s : List Char) : List Char :=
  let rests := (suffixes s).filter fun t => p.matches (s.take (s.length - t.length))
  ((if longest then rests.getLast? else rests.head?)).getD s

def Pattern.trimEnd (p : Pattern) (longest : Bool) (s : List Char) : List Char :=
  let ends := (suffixes s).filter p.matches
  match (if longest then ends.head? else ends.getLast?) with
  | some t => s.take (s.length - t.length)
  | none => s

end TraceWorkbench.Simulation
