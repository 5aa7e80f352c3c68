set_option autoImplicit false

/-!
# Quoted shell words

A word is written as a row of chunks, each in the plainest style that carries it: bare, in single
quotes, or in double quotes with a backslash before `"` and `\`. A chunk ends only where no style
carries one character more. The text of the chunks adds up to the word (`chunks_text`).
-/
namespace TraceWorkbench.Quoted

structure Styles where
  bare : Bool
  single : Bool
  double : Bool
  deriving DecidableEq, Repr

def Styles.inter (a b : Styles) : Styles :=
  ⟨a.bare && b.bare, a.single && b.single, a.double && b.double⟩

def Styles.isEmpty (s : Styles) : Bool := !(s.bare || s.single || s.double)

def isBareChar (c : Char) : Bool := c.isAlphanum || "+-./:@]_".toList.contains c

def isSingleChar (c : Char) : Bool := c != '\'' && c != '^' && c != '\\'

/-- An exclamation mark is left out because of history expansion in interactive shells. -/
def isDoubleChar (c : Char) : Bool := c != '\x60' && c != '$' && c != '!' && c != '^'

def carrying (c : Char) : Styles := ⟨isBareChar c, isSingleChar c, isDoubleChar c⟩

/-- A caret can only open a chunk, and then needs single quotes. -/
def opening (c : Char) : Styles := if c = '^' then ⟨false, true, false⟩ else carrying c

structure Chunk where
  text : List Char
  styles : Styles
  deriving DecidableEq, Repr

def chunksFrom (chunk : Chunk) : List Char → List Chunk
  | [] => [chunk]
  | c :: rest =>
    let both := chunk.styles.inter (carrying c)
    if both.isEmpty then chunk :: chunksFrom ⟨[c], opening c⟩ rest
    else chunksFrom ⟨chunk.text ++ [c], both⟩ rest

def chunks : List Char → List Chunk
  | [] => []
  | c :: rest => chunksFrom ⟨[c], opening c⟩ rest

theorem chunksFrom_text (chunk : Chunk) (s : List Char) :
    (chunksFrom chunk s).flatMap Chunk.text = chunk.text ++ s := by
  induction s generalizing chunk with
  | nil => simp [chunksFrom]
  | cons c rest ih =>
    simp only [chunksFrom]
    split
    · simp [ih]
    · simp [ih]

theorem chunks_text (s : List Char) : (chunks s).flatMap Chunk.text = s := by
  cases s with
  | nil => rfl
  | cons c rest => simp [chunks, chunksFrom_text]

def escapeDouble : List Char → List Char
  | [] => []
  | c :: rest =>
    if c = '"' ∨ c = '\\' then '\\' :: c :: escapeDouble rest else c :: escapeDouble rest

def Chunk.write (k : Chunk) : List Char :=
  if k.styles.bare then k.text
  else if k.styles.single then '\'' :: k.text ++ ['\'']
  else '"' :: escapeDouble k.text ++ ['"']

/-- The word as the shell reads it back. No shell word holds a NUL, and a text with one is left as
it is. -/
def encode (s : List Char) : List Char :=
  if '\x00' ∈ s then s
  else if s.isEmpty then ['\'', '\'']
  else (chunks s).flatMap Chunk.write

end TraceWorkbench.Quoted

def String.shellQuoted (s : String) : String :=
  String.ofList (TraceWorkbench.Quoted.encode s.toList)
