set_option autoImplicit false

/-!
# Shell scripts

The tools of a project may be shell scripts. A word is a row of pieces; the text of a command
substitution or of an arithmetic expression stays unread until it is needed.
-/
namespace TraceWorkbench.Simulation

inductive UnsetAction where
  | default
  | assign
  | complain
  /-- The word stands in for a parameter that *is* set. -/
  | alternative
  deriving DecidableEq, Repr, Inhabited

inductive Piece where
  | plain (s : List Char)
  | quoted (s : List Char)
  | value (inQuotes : Bool) (name : String)
  | length (name : String)
  | orElse (inQuotes : Bool) (name : String) (emptyToo : Bool) (action : UnsetAction)
      (word : List Piece)
  /-- The value without a part at one of its ends that matches a pattern. -/
  | without (inQuotes : Bool) (name : String) (atEnd longest : Bool) (pattern : List Piece)
  | output (inQuotes : Bool) (script : List Char)
  | arithmetic (inQuotes : Bool) (text : List Char)
  | unreadable
  /-- Something was opened that the script never closes. -/
  | unclosed (complaint : String)
  deriving Repr, Inhabited

abbrev Word := List Piece

inductive RedirectKind where
  | read
  | write
  | append
  /-- The target is the text itself. -/
  | here
  | copy
  deriving DecidableEq, Repr, Inhabited

structure Redirect where
  fd : Nat
  kind : RedirectKind
  target : Word
  deriving Repr, Inhabited

inductive Command where
  | skip
  | simple (line : Nat) (assigns : List (String × Word)) (words : List Word)
      (redirects : List Redirect)
  | seq (a b : Command)
  | background (a : Command)
  | both (a b : Command)
  | either (a b : Command)
  | not (a : Command)
  | pipeline (parts : List Command)
  | cond (test yes no : Command)
  | loop (untilTrue : Bool) (test body : Command)
  | each (name : String) (words : Option (List Word)) (body : Command)
  | select (word : Word) (arms : List (List Word × Command))
  | subshell (a : Command)
  | redirected (a : Command) (redirects : List Redirect)
  | define (name : String) (body : Command)
  | malformed (line : Nat) (complaint : String)
  deriving Repr, Inhabited

inductive Token where
  | word (line : Nat) (w : Word)
  | number (n : Nat)
  | op (line : Nat) (s : String)
  | here (index : Nat)
  | newline (line : Nat)
  | unclosed (line : Nat) (complaint : String)
  deriving Repr, Inhabited

end TraceWorkbench.Simulation
