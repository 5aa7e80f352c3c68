import TraceWorkbench.Text.Blank
import TraceWorkbench.Text.Lines
import TraceWorkbench.Text.WordChar

set_option autoImplicit false

/-!
# Tracked functions

A specification tracks a function by `function_calls("name")`. What follows `--` on a line is a
comment.
-/
namespace TraceWorkbench.Tracked

open Text

def opening : List Char := "function_calls(".toList

def strip? (mark s : List Char) : Option (List Char) :=
  if mark.isPrefixOf s then some (s.drop mark.length) else none

/-- The name in the reference that a text begins with, and what follows the reference. -/
def readReference? (s : List Char) : Option (List Char × List Char) := do
  let s ← strip? opening s
  let s ← strip? ['"'] (trimStart s)
  let name := s.takeWhile isAsciiWord
  let s ← strip? ['"'] (s.dropWhile isAsciiWord)
  let rest ← strip? [')'] (trimStart s)
  match name with
  | c :: _ => if c.isDigit then none else some (name, rest)
  | [] => none

def reference? (s : List Char) : Option (List Char) := (readReference? s).map (·.1)

/-- The names in the references of a text, from left to right. Behind a reference the search goes on
with what follows it: `skip` characters of the text belong to an earlier reference. -/
def references (skip : Nat) : List Char → List (List Char)
  | [] => []
  | c :: s =>
    match skip with
    | skip + 1 => references skip s
    | 0 =>
      match readReference? (c :: s) with
      | some (name, rest) => name :: references (s.length - rest.length) s
      | none => references 0 s

/-- The code of a line: what stands before its comment. -/
def code (line : List Char) : List Char := before ['-', '-'] line

/-- The functions that a specification tracks, in the order of their first references. -/
def functions (spec : String) : List String :=
  ((lines spec.toList).flatMap fun line => references 0 (code line)).eraseDups.map String.ofList

end TraceWorkbench.Tracked
