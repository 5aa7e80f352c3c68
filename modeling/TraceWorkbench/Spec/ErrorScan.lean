import TraceWorkbench.Spec.LocatedError
import TraceWorkbench.Text.Utf8

set_option autoImplicit false

/-!
# Scanning bytes for a located error

The search for an error with a place over the bytes of a line, by offsets into them. A slice that
begins or ends inside a character stops the scan with a fault, and so does a loop that is not done
within its rounds.
-/
namespace TraceWorkbench.ErrorScan

open Text Utf8

inductive Fault where
  | insideCharacter (offset : Nat)
  | unfinished
  deriving DecidableEq, Repr

/-- A part of the scan: it may find nothing, and it may stop with a fault. -/
abbrev Scan := OptionT (Except Fault)

def Scan.ofOption {α : Type} (found : Option α) : Scan α := OptionT.mk (.ok found)

/-! Bytes of a text -/

def isBoundary (s : Bytes) (i : Nat) : Bool :=
  i = 0 || i = s.length || s[i]?.any fun b => !tail.contains b

def sliceFrom (s : Bytes) (i : Nat) : Except Fault Bytes :=
  if isBoundary s i then .ok (s.drop i) else .error (.insideCharacter i)

def sliceTo (s : Bytes) (i : Nat) : Except Fault Bytes :=
  if isBoundary s i then .ok (s.take i) else .error (.insideCharacter i)

def firstChar? (s : Bytes) : Option Char := (segments s).head?.map Segment.text

/-- The characters with their offsets, the first at `offset`. -/
def charIndices (offset : Nat) : List Segment → List (Nat × Char)
  | [] => []
  | part :: more => (offset, part.text) :: charIndices (offset + part.bytes.length) more

/-- The offset of the first place where `mark` stands. -/
def find (mark : Bytes) : Bytes → Option Nat
  | [] => if mark.isEmpty then some 0 else none
  | b :: rest =>
    if mark.isPrefixOf (b :: rest) then some 0 else (find mark rest).map (· + 1)

def findLast (mark : UInt8) : Bytes → Option Nat
  | [] => none
  | b :: rest =>
    match findLast mark rest with
    | some i => some (i + 1)
    | none => if b = mark then some 0 else none

def isDigit (b : UInt8) : Bool := 0x30 ≤ b && b ≤ 0x39

def word? (digits : Bytes) : Option UInt32 :=
  let n := digits.foldl (fun n b => 10 * n + (b.toNat - 0x30)) 0
  if UInt32.size ≤ n then none else some (.ofNat n)

/-! A place is read with a cursor -/

structure Cursor where
  input : Bytes
  pos : Nat

namespace Cursor

def rest (c : Cursor) : Except Fault Bytes := sliceFrom c.input c.pos

def peek (c : Cursor) : Scan Char := do
  let s ← c.rest
  .ofOption (firstChar? s)

def advance (c : Cursor) (n : Nat) : Cursor := { c with pos := c.pos + n }

def skipBlanksWithin : Nat → Cursor → Except Fault Cursor
  | 0, _ => .error .unfinished
  | rounds + 1, c => do
    match (← c.peek.run).filter isBlank with
    | some x => skipBlanksWithin rounds (c.advance x.utf8Size)
    | none => return c

def skipBlanks (c : Cursor) : Except Fault Cursor := skipBlanksWithin (c.input.length + 1) c

def blank (c : Cursor) : Scan Cursor := do
  let x ← c.peek
  if isBlank x then return c.advance x.utf8Size else failure

def symbol (x : Char) (c : Cursor) : Scan Cursor := do
  let y ← c.peek
  if y = x then return c.advance x.utf8Size else failure

def number (c : Cursor) : Scan (UInt32 × Cursor) := do
  let c ← c.skipBlanks
  let digits := ((← c.rest).takeWhile isDigit).length
  if digits = 0 then failure
  else
    let n ← .ofOption (word? (← sliceTo (← c.rest) digits))
    return (n, c.advance digits)

def point (c : Cursor) : Scan ((UInt32 × UInt32) × Cursor) := do
  let (line, c) ← c.number
  let c ← (← c.skipBlanks).symbol ','
  let (column, c) ← c.number
  return ((line, column), c)

end Cursor

/-! Lines -/

def kindBefore (front : Bytes) : Scan Bytes := do
  let word := (charIndices 0 (segments front)).reverse.takeWhile fun p => isAsciiWord p.2
  let (start, _) ← .ofOption word.getLast?
  let kind ← sliceFrom front start
  if (firstChar? kind).any fun c => c.isAlpha || c == '_' then return kind else failure

def parseAt (line : Bytes) (opening : Nat) : Scan SpecError := do
  let kind ← kindBefore (← sliceTo line opening)
  let (start, c) ← (Cursor.mk (← sliceFrom line (opening + 2)) 0).point
  let c ← (← c.skipBlanks).symbol '-'
  let (stop, c) ← c.point
  let c ← (← c.skipBlanks).symbol ')'
  let c ← c.symbol ':'
  let c ← c.blank
  let rest ← c.rest
  let close ← .ofOption (findLast 0x29 rest)
  let message ← sliceTo rest close
  return {
    kind := .ofBytesLossy kind
    start := .ofOneBased start.1 start.2
    stop := .ofOneBased stop.1 stop.2
    message := .ofBytesLossy message }

/-- Two opening parentheses. -/
def opens : Bytes := [0x28, 0x28]

def parseLineWithin (line : Bytes) : Nat → Nat → Except Fault (Option SpecError)
  | 0, _ => .error .unfinished
  | rounds + 1, start => do
    match find opens (← sliceFrom line start) with
    | none => return none
    | some offset =>
      match ← (parseAt line (start + offset)).run with
      | some e => return some e
      | none => parseLineWithin line rounds (start + offset + 1)

def parseLine (line : Bytes) : Except Fault (Option SpecError) :=
  parseLineWithin line (line.length + 1) 0

def scanLines : List Bytes → Except Fault (Option SpecError)
  | [] => return none
  | line :: more => do
    match ← parseLine line with
    | some e => return some e
    | none => scanLines more

def scan (text : String) : Except Fault (Option SpecError) :=
  scanLines ((lines text.toList).map encode)

end TraceWorkbench.ErrorScan
