set_option autoImplicit false

/-!
# Blank characters

The Unicode `White_Space` property, and trimming by it. Every reader and report of this library
that speaks of blanks means this class, not the ASCII one.
-/
namespace TraceWorkbench.Text

def isBlank (c : Char) : Bool :=
  let n := c.toNat
  (9 ≤ n && n ≤ 13) || n == 0x20 || n == 0x85 || n == 0xA0 || n == 0x1680 ||
    (0x2000 ≤ n && n ≤ 0x200A) || n == 0x2028 || n == 0x2029 || n == 0x202F || n == 0x205F ||
    n == 0x3000

def trimStart (s : List Char) : List Char := s.dropWhile isBlank

def trimEnd (s : List Char) : List Char := (s.reverse.dropWhile isBlank).reverse

def trim (s : List Char) : List Char := trimEnd (trimStart s)

/-- A text is trimmed when neither end is blank. -/
def Trimmed (s : List Char) : Prop := trim s = s

end TraceWorkbench.Text

def String.trimBlank (s : String) : String := String.ofList (TraceWorkbench.Text.trim s.toList)
