import TraceWorkbench.Simulation.Syntax

set_option autoImplicit false

/-!
# Reading words of shell scripts

Cuts a script into tokens. Quotes, parameters and substitutions are recognized inside words; the
text of a here-document is taken from the lines behind its redirection.
-/
namespace TraceWorkbench.Simulation

def isNameStart (c : Char) : Bool := c.isAlpha || c == '_'

def isNameChar (c : Char) : Bool := c.isAlphanum || c == '_'

def isSpecialParam (c : Char) : Bool := "@*#?-$!".toList.contains c

def isBlankChar (c : Char) : Bool := c == ' ' || c == '\t'

def endsWord (c : Char) : Bool := " \t\n;&|<>()".toList.contains c

def pushChar (quoted : Bool) (c : Char) (ps : Word) : Word :=
  match ps.reverse with
  | .plain s :: before =>
    if quoted then ps ++ [.quoted [c]] else before.reverse ++ [.plain (s ++ [c])]
  | .quoted s :: before =>
    if quoted then before.reverse ++ [.quoted (s ++ [c])] else ps ++ [.plain [c]]
  | _ => ps ++ [if quoted then .quoted [c] else .plain [c]]

/-- The text up to the parenthesis that closes `depth` open ones, and what follows it. Quotes hide
parentheses. -/
def balanced (quote : Option Char) : Nat → List Char → Option (List Char × List Char)
  | _, [] => none
  | depth, '\\' :: c :: rest =>
    if quote == some '\'' && c == '\'' then
      (balanced none depth rest).map fun (a, b) => ('\\' :: c :: a, b)
    else (balanced quote depth rest).map fun (a, b) => ('\\' :: c :: a, b)
  | depth, c :: rest =>
    let go (quote : Option Char) (depth : Nat) : Option (List Char × List Char) :=
      (balanced quote depth rest).map fun (a, b) => (c :: a, b)
    match quote with
    | some q => if c == q then go none depth else go quote depth
    | none =>
      if c == ')' then if depth = 0 then some ([], rest) else go none (depth - 1)
      else if c == '(' then go none (depth + 1)
      else if c == '\'' || c == '"' then go (some c) depth
      else go none depth

def backquoted : List Char → Option (List Char × List Char)
  | [] => none
  | '\\' :: c :: rest =>
    (backquoted rest).map fun (a, b) =>
      if c = '\x60' || c = '\\' || c = '$' then (c :: a, b) else ('\\' :: c :: a, b)
  | c :: rest =>
    if c = '\x60' then some ([], rest) else (backquoted rest).map fun (a, b) => (c :: a, b)

/-- Where a row of pieces ends. -/
inductive WordMode where
  | word
  | doubleQuotes
  | braces (inQuotes : Bool)
  | body
  deriving DecidableEq, Repr

def WordMode.quotes : WordMode → Bool
  | .word => false
  | .doubleQuotes => true
  | .braces q => q
  | .body => true

def WordMode.atEnd : WordMode → List Piece
  | .word | .body => []
  | .doubleQuotes => [.unclosed "Unterminated quoted string"]
  | .braces _ => [.unclosed "Missing '\x7d'"]

def paramName? : List Char → Option (String × List Char)
  | [] => none
  | c :: rest =>
    if isNameStart c then
      some (String.ofList (c :: rest.takeWhile isNameChar), rest.dropWhile isNameChar)
    else if c.isDigit || isSpecialParam c then some (String.singleton c, rest)
    else none

def noParameter (s : List Char) : Option Piece × List Char :=
  if s.contains '\x7d' then (some .unreadable, (s.dropWhile (· != '\x7d')).drop 1)
  else (some (.unclosed "Missing '\x7d'"), [])

def unsetAction? : Char → Option UnsetAction
  | '-' => some .default
  | '=' => some .assign
  | '?' => some .complain
  | '+' => some .alternative
  | _ => none

mutual

def pieces : Nat → WordMode → Word → List Char → Word × List Char
  | 0, _, acc, s => (acc, s)
  | _ + 1, mode, acc, [] => (acc ++ mode.atEnd, [])
  | fuel + 1, mode, acc, c :: rest =>
    let q := mode.quotes
    if mode == .word && endsWord c then (acc, c :: rest)
    else if mode == .doubleQuotes && c == '"' then (acc, rest)
    else if c == '\x7d' && (mode == .braces true || mode == .braces false) then (acc, rest)
    else if c = '\\' then
      match rest with
      | [] => (pushChar q c acc, [])
      | d :: rest =>
        if d = '\n' then pieces fuel mode acc rest
        else if q && mode != .braces true then
          if d == '$' || d == '\x60' || d == '\\' || (d == '"' && mode == .doubleQuotes) then
            pieces fuel mode (pushChar true d acc) rest
          else pieces fuel mode (pushChar true d (pushChar true c acc)) rest
        else pieces fuel mode (pushChar true d acc) rest
    else if c = '\'' && (!q || mode == .braces true) then
      let text := rest.takeWhile (· != '\'')
      if text.length = rest.length then (acc ++ WordMode.atEnd .doubleQuotes, [])
      else pieces fuel mode (acc ++ [.quoted text]) (rest.drop (text.length + 1))
    else if c = '"' && mode != .body then
      let (inner, rest) := pieces fuel .doubleQuotes [.quoted []] rest
      pieces fuel mode (acc ++ inner) rest
    else if c = '\x60' then
      match backquoted rest with
      | some (script, rest) => pieces fuel mode (acc ++ [.output q script]) rest
      | none => (acc ++ [.unclosed "EOF in backquote substitution"], [])
    else if c = '$' then
      let (p, rest) := dollar fuel q rest
      match p with
      | some p => pieces fuel mode (acc ++ [p]) rest
      | none => pieces fuel mode (pushChar q c acc) rest
    else pieces fuel mode (pushChar q c acc) rest

def dollar : Nat → Bool → List Char → Option Piece × List Char
  | 0, _, s => (none, s)
  | fuel + 1, q, s =>
    match s with
    | '(' :: '(' :: rest =>
      match balanced none 1 rest with
      | some (text, rest) => (some (.arithmetic q (text.take (text.length - 1))), rest)
      | none => (some (.unclosed "Missing '))'"), [])
    | '(' :: rest =>
      match balanced none 0 rest with
      | some (script, rest) => (some (.output q script), rest)
      | none => (some (.unclosed "end of file unexpected (expecting \")\")"), [])
    | c :: rest =>
      if c = '\x7b' then braced fuel q rest
      else
        match paramName? s with
        | some (name, rest) => (some (.value q name), rest)
        | none => (none, s)
    | [] => (none, [])

def braced : Nat → Bool → List Char → Option Piece × List Char
  | 0, _, s => noParameter s
  | fuel + 1, q, s =>
    match s with
    | '#' :: c :: rest =>
      if c = '\x7d' then (some (.value q "#"), rest)
      else
        match paramName? (c :: rest) with
        | some (name, rest) => (some (.length name), (rest.dropWhile (· != '\x7d')).drop 1)
        | none => noParameter s
    | _ =>
      match paramName? s with
      | none => noParameter s
      | some (name, rest) =>
        let name := if name.toList.all Char.isDigit then
            String.ofList (s.takeWhile Char.isDigit) else name
        let rest := if name.toList.all Char.isDigit then s.dropWhile Char.isDigit else rest
        match rest with
        | '#' :: '#' :: rest =>
          let (w, rest) := pieces fuel (.braces false) [] rest
          (some (.without q name false true w), rest)
        | '#' :: rest =>
          let (w, rest) := pieces fuel (.braces false) [] rest
          (some (.without q name false false w), rest)
        | '%' :: '%' :: rest =>
          let (w, rest) := pieces fuel (.braces false) [] rest
          (some (.without q name true true w), rest)
        | '%' :: rest =>
          let (w, rest) := pieces fuel (.braces false) [] rest
          (some (.without q name true false w), rest)
        | ':' :: c :: rest =>
          match unsetAction? c with
          | some action =>
            let (w, rest) := pieces fuel (.braces q) [] rest
            (some (.orElse q name true action w), rest)
          | none => noParameter s
        | c :: rest =>
          if c = '\x7d' then (some (.value q name), rest)
          else
            match unsetAction? c with
            | some action =>
              let (w, rest) := pieces fuel (.braces q) [] rest
              (some (.orElse q name false action w), rest)
            | none => noParameter s
        | [] => noParameter s

end

def bodyPieces (s : List Char) : Word := (pieces (2 * s.length + 2) .body [] s).1

structure PendingHere where
  delimiter : List Char
  literal : Bool
  stripTabs : Bool
  deriving Repr

def delimiterOf (w : Word) : List Char × Bool :=
  (w.flatMap fun
    | .plain s | .quoted s => s
    | _ => [],
   w.any fun
    | .quoted _ => true
    | _ => false)

/-- The lines before a line that is the delimiter, and what follows it. -/
def hereLines (delimiter : List Char) (stripTabs : Bool) :
    Nat → List Char → List Char × List Char
  | 0, s => ([], s)
  | fuel + 1, s =>
    if s.isEmpty then ([], [])
    else
      let line := s.takeWhile (· != '\n')
      let rest := (s.dropWhile (· != '\n')).drop 1
      let line := if stripTabs then line.dropWhile (· == '\t') else line
      if line == delimiter then ([], rest)
      else
        let (a, b) := hereLines delimiter stripTabs fuel rest
        (line ++ '\n' :: a, b)

def readHere (s : List Char) : List PendingHere → List Word × List Char
  | [] => ([], s)
  | h :: more =>
    let (text, s) := hereLines h.delimiter h.stripTabs (s.length + 1) s
    let word := if h.literal then [.quoted text] else bodyPieces text
    let (words, s) := readHere s more
    (word :: words, s)

def operators : List String :=
  ["<<-", "&&", "||", ";;", "<<", ">>", "<&", ">&", "<>", ">|", ";", "&", "|", "<", ">", "(", ")"]

def operator? (s : List Char) : Option (String × List Char) :=
  (operators.find? fun o => o.toList.isPrefixOf s).map fun o => (o, s.drop o.length)

structure Cutter where
  line : Nat
  tokens : List Token
  pending : List PendingHere
  bodies : List Word
  /-- Set behind the operator of a here-document, whose delimiter comes next. -/
  expects : Option Bool

def Cutter.push (c : Cutter) (t : Token) : Cutter := { c with tokens := t :: c.tokens }

def Cutter.pass (c : Cutter) (before after : List Char) : Cutter :=
  { c with line := c.line + (before.take (before.length - after.length)).count '\n' }

def decimal (ds : List Char) : Nat := ds.foldl (fun n d => 10 * n + (d.toNat - '0'.toNat)) 0

def unclosed? (w : Word) : Option String := w.findSome? fun
  | .unclosed complaint => some complaint
  | _ => none

def Cutter.takeWord (st : Cutter) (line : Nat) (w : Word) (next : Option Char) : Cutter :=
  match unclosed? w, st.expects with
  | some complaint, _ => st.push (.unclosed st.line complaint)
  | none, some stripTabs =>
    let (delimiter, literal) := delimiterOf w
    let index := st.bodies.length + st.pending.length
    { st.push (.here index) with
      pending := st.pending ++ [⟨delimiter, literal, stripTabs⟩], expects := none }
  | none, none =>
    match w, next with
    | [.plain ds], some d =>
      if ds.all Char.isDigit && (d == '<' || d == '>') then st.push (.number (decimal ds))
      else st.push (.word line w)
    | _, _ => st.push (.word line w)

def cut : Nat → Cutter → List Char → Cutter
  | 0, st, _ => st
  | _ + 1, st, [] => st
  | fuel + 1, st, c :: rest =>
    if isBlankChar c then cut fuel st rest
    else if c = '\\' && rest.head? == some '\n' then
      cut fuel { st with line := st.line + 1 } (rest.drop 1)
    else if c = '#' then cut fuel st (rest.dropWhile (· != '\n'))
    else if c = '\n' then
      let (bodies, after) := readHere rest st.pending
      let st := (st.push (.newline st.line)).pass (c :: rest) after
      cut fuel { st with pending := [], bodies := st.bodies ++ bodies } after
    else
      match operator? (c :: rest) with
      | some (o, rest) =>
        if o = "<<" || o = "<<-" then
          cut fuel { st.push (.op st.line "<<") with expects := some (o == "<<-") } rest
        else cut fuel (st.push (.op st.line o)) rest
      | none =>
        let (w, after) := pieces (2 * (rest.length + 1) + 2) .word [] (c :: rest)
        let line := st.line
        cut fuel ((st.pass (c :: rest) after).takeWord line w after.head?) after

def tokenize (s : List Char) : List Token × List Word × Nat :=
  let st := cut (2 * s.length + 2) ⟨1, [], [], [], none⟩ s
  (st.tokens.reverse, st.bodies, st.line)

end TraceWorkbench.Simulation
