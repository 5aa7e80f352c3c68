set_option autoImplicit false

/-!
# Reading shell text

How a shell cuts a line into tokens, one character at a time: quotes and backslashes take their
special meaning from the characters they cover, blanks end a word, and signs are taken as long as
they can be. A text that would be changed by the shell is refused: one with an expansion, a pattern
or a comment in it, or with a quote that is never closed. So a text that is read means its tokens
and nothing else.
-/
namespace TraceWorkbench.ShellText

/-- A character of a word. One that is quoted stands for itself. -/
structure Letter where
  char : Char
  quoted : Bool
  deriving DecidableEq, Repr

inductive Token where
  | word (text : String)
  | assignment (name value : String)
  | operator (sign : String)
  deriving DecidableEq, Repr

inductive State where
  /-- Outside quotes, in a word or between words. -/
  | plain (word : Option (List Letter))
  | escaped (word : Option (List Letter))
  | single (word : List Letter)
  | double (word : List Letter)
  | doubleEscaped (word : List Letter)
  | operator (sign : List Char)
  deriving DecidableEq, Repr

def isBlank (c : Char) : Bool := c == ' ' || c == '\t'

def operators : List String :=
  ["\n", "&", "&&", "|", "||", ";", ";;", "<", "<<", "<<-", "<&", "<>", ">", ">>", ">&", ">|", "(",
    ")"]

def isOperatorChar (c : Char) : Bool := ['\n', '&', '|', ';', '<', '>', '(', ')'].contains c

/-- Characters with which an expansion, a pattern, a comment or a reserved sign begins. -/
def isActive (c : Char) : Bool :=
  ['$', '\x60', '*', '?', '[', '#', '~', '%', '!', '^', '\x7b', '\x7d'].contains c

def isNameStart (c : Char) : Bool := c.isAlpha || c == '_'

def isNameChar (c : Char) : Bool := c.isAlphanum || c == '_'

/-- Names of variables. -/
def isName : List Char → Bool
  | [] => false
  | c :: rest => isNameStart c && rest.all isNameChar

def textOf (ls : List Letter) : String := String.ofList (ls.map Letter.char)

/-- Whether an equals sign ends the name in an assignment: it must not be quoted. -/
def isSign (l : Letter) : Bool := l.char == '=' && !l.quoted

/-- A word is an assignment if it starts with a name and an equals sign, both without quotes. -/
def ofLetters (ls : List Letter) : Token :=
  let name := ls.takeWhile fun l => !isSign l
  match ls.dropWhile fun l => !isSign l with
  | [] => .word (textOf ls)
  | _ :: value =>
    if name.all (fun l => !l.quoted) && isName (name.map Letter.char) then
      .assignment (textOf name) (textOf value)
    else .word (textOf ls)

/-- A number right in front of a redirection would name a descriptor. -/
def isDescriptor (c : Char) (word : Option (List Letter)) : Bool :=
  (c == '<' || c == '>') && (word.getD []).all fun l => !l.quoted && l.char.isDigit

def stepPlain (word : Option (List Letter)) (c : Char) : Option (List Token × State) :=
  let ls := word.getD []
  let ended := word.toList.map ofLetters
  if isBlank c then some (ended, .plain none)
  else if c = '\'' then some ([], .single ls)
  else if c = '"' then some ([], .double ls)
  else if c = '\\' then some ([], .escaped word)
  else if isOperatorChar c then
    if word.isSome && isDescriptor c word then none else some (ended, .operator [c])
  else if isActive c then none
  else some ([], .plain (some (ls ++ [⟨c, false⟩])))

def step : State → Char → Option (List Token × State)
  | .plain word, c => stepPlain word c
  | .escaped word, c =>
    if c = '\n' then some ([], .plain word)
    else some ([], .plain (some (word.getD [] ++ [⟨c, true⟩])))
  | .single ls, c =>
    if c = '\'' then some ([], .plain (some ls)) else some ([], .single (ls ++ [⟨c, true⟩]))
  | .double ls, c =>
    if c = '"' then some ([], .plain (some ls))
    else if c = '\\' then some ([], .doubleEscaped ls)
    else if c = '$' ∨ c = '\x60' then none
    else some ([], .double (ls ++ [⟨c, true⟩]))
  | .doubleEscaped ls, c =>
    if c = '\n' then some ([], .double ls)
    else if c = '$' ∨ c = '\x60' ∨ c = '"' ∨ c = '\\' then some ([], .double (ls ++ [⟨c, true⟩]))
    else some ([], .double (ls ++ [⟨'\\', true⟩, ⟨c, true⟩]))
  | .operator sign, c =>
    if operators.contains (String.ofList (sign ++ [c])) then some ([], .operator (sign ++ [c]))
    else (stepPlain none c).map fun (out, st) => (.operator (String.ofList sign) :: out, st)

/-- The tokens that are complete, and what is still open. -/
def feed : State → List Char → Option (List Token × State)
  | st, [] => some ([], st)
  | st, c :: rest =>
    (step st c).bind fun (out, st) => (feed st rest).map fun (more, st) => (out ++ more, st)

/-- What the end of the text makes of the open part; a quote has to be closed before. -/
def finish : State → Option (List Token)
  | .plain word => some (word.toList.map ofLetters)
  | .operator sign => some [.operator (String.ofList sign)]
  | _ => none

def read (s : String) : Option (List Token) :=
  (feed (.plain none) s.toList).bind fun (out, st) => (finish st).map (out ++ ·)

theorem feed_append (st : State) (a b : List Char) :
    feed st (a ++ b) = (feed st a).bind fun (out, st) =>
      (feed st b).map fun (more, st) => (out ++ more, st) := by
  induction a generalizing st with
  | nil => simp [feed]
  | cons c rest ih =>
    simp only [List.cons_append, feed, Option.bind_assoc, ih]
    cases step st c with
    | none => rfl
    | some r =>
      simp only [Option.bind_some]
      cases feed r.2 rest with
      | none => rfl
      | some q =>
        simp only [Option.bind_some, Option.map_some]
        cases feed q.2 b <;> simp

example : read "A=\"b c\" cat 'it'\"'s\" >> log&" = some [.assignment "A" "b c", .word "cat",
    .word "it's", .operator ">>", .word "log", .operator "&"] := by decide +kernel

example : read "echo $HOME" = none ∧ read "ls *.c" = none ∧ read "echo 'open" = none := by
  decide +kernel

end TraceWorkbench.ShellText
