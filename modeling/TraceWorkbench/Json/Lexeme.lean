import TraceWorkbench.Json.Fault

set_option autoImplicit false

/-!
# The words of JSON: blanks, literals, strings and numbers

Strings are read by an automaton, byte by byte. An integer that does not fit 64 bits, and every
number with a point or an exponent, becomes a double: as many of its digits as fit 64 bits, times
or divided by a power of ten.
-/
namespace TraceWorkbench.Json

def isJsonBlank (b : UInt8) : Bool := b == 0x20 || b == 0x0A || b == 0x09 || b == 0x0D

def skipBlank (s : Bytes) : Bytes := s.dropWhile isJsonBlank

def byte (c : Char) : UInt8 := UInt8.ofNat c.toNat

def literal : Bytes → Bytes → Except Fault Bytes
  | [], s => .ok s
  | _ :: _, [] => failHere .endOfValue []
  | t :: more, b :: rest => if b = t then literal more rest else failHere .expectedLiteral rest

def litNull : Bytes := "ull".utf8Bytes
def litTrue : Bytes := "rue".utf8Bytes
def litFalse : Bytes := "alse".utf8Bytes

def hexDigit? (b : UInt8) : Option Nat :=
  let n := b.toNat
  if 0x30 ≤ n ∧ n ≤ 0x39 then some (n - 0x30)
  else if 0x41 ≤ n ∧ n ≤ 0x46 then some (n - 0x37)
  else if 0x61 ≤ n ∧ n ≤ 0x66 then some (n - 0x57)
  else none

def hexValue? (ds : List UInt8) : Option Nat :=
  ds.foldl (fun acc d => acc.bind fun n => (hexDigit? d).map (16 * n + ·)) (some 0)

/-- The place inside a string: in plain text, or in an escape that is half read. -/
inductive StringState where
  | plain
  | escape
  | hex (seen : List UInt8)
  | pairSlash (high : Nat)
  | pairMark (high : Nat)
  | low (high : Nat) (seen : List UInt8)
  deriving DecidableEq, Repr

def simpleEscape? (b : UInt8) : Option UInt8 :=
  if b = byte '"' then some b
  else if b = byte '\\' then some b
  else if b = byte '/' then some b
  else if b = byte 'b' then some 0x08
  else if b = byte 'f' then some 0x0C
  else if b = byte 'n' then some 0x0A
  else if b = byte 'r' then some 0x0D
  else if b = byte 't' then some 0x09
  else none

def encodeCode (n : Nat) : Bytes := String.utf8EncodeChar (Char.ofNat n)

/-- Reads a string behind its opening quote. Where the text is only skipped, surrogates need no
partner, and a control character is refused before it is taken. The bytes read so far stand in
reverse order. -/
def stringFrom (skipping : Bool) : StringState → Bytes → Bytes → Reading Bytes
  | _, _, [] => failHere .endOfString []
  | .plain, acc, b :: rest =>
    if b = byte '"' then .ok (acc.reverse, rest)
    else if b = byte '\\' then stringFrom skipping .escape acc rest
    else if b < 0x20 then failHere .controlCharacter (if skipping then b :: rest else rest)
    else stringFrom skipping .plain (b :: acc) rest
  | .escape, acc, b :: rest =>
    if b = byte 'u' then stringFrom skipping (.hex []) acc rest
    else
      match simpleEscape? b with
      | some c => stringFrom skipping .plain (c :: acc) rest
      | none => failHere .invalidEscape rest
  | .hex seen, acc, b :: rest =>
    if seen.length < 3 then stringFrom skipping (.hex (seen ++ [b])) acc rest
    else
      match hexValue? (seen ++ [b]) with
      | none => failHere .invalidEscape rest
      | some n =>
        if skipping then stringFrom skipping .plain acc rest
        else if 0xDC00 ≤ n ∧ n ≤ 0xDFFF then failHere .loneSurrogate rest
        else if 0xD800 ≤ n ∧ n ≤ 0xDBFF then stringFrom skipping (.pairSlash n) acc rest
        else stringFrom skipping .plain ((encodeCode n).reverse ++ acc) rest
  | .pairSlash high, acc, b :: rest =>
    if b = byte '\\' then stringFrom skipping (.pairMark high) acc rest
    else failHere .unfinishedPair rest
  | .pairMark high, acc, b :: rest =>
    if b = byte 'u' then stringFrom skipping (.low high []) acc rest
    else failHere .unfinishedPair rest
  | .low high seen, acc, b :: rest =>
    if seen.length < 3 then stringFrom skipping (.low high (seen ++ [b])) acc rest
    else
      match hexValue? (seen ++ [b]) with
      | none => failHere .invalidEscape rest
      | some n =>
        if n < 0xDC00 ∨ 0xDFFF < n then failHere .loneSurrogate rest
        else
          let code := (high - 0xD800) * 0x400 + (n - 0xDC00) + 0x10000
          stringFrom skipping .plain ((encodeCode code).reverse ++ acc) rest

def stringBody (s : Bytes) : Reading String :=
  (stringFrom false .plain [] s).map fun (text, rest) => (String.ofBytesLossy text, rest)

def skipString (s : Bytes) : Except Fault Bytes :=
  (stringFrom true .plain [] s).map (·.2)

def isDigitByte (b : UInt8) : Bool := 0x30 ≤ b && b ≤ 0x39

def digitValue (b : UInt8) : Nat := b.toNat - 0x30

/-- Takes up digits while the number fits 64 bits; also says how many digits are left. -/
def absorb (n : Nat) : List UInt8 → Nat × Nat
  | [] => (n, 0)
  | d :: more =>
    if n * 10 + digitValue d < UInt64.size then absorb (n * 10 + digitValue d) more
    else (n, more.length + 1)

/-- Brings `f * 10 ^ e` for very small `e` into the range of the powers of ten, in steps. -/
def divideDown : Nat → Float → Int → Float × Int
  | 0, f, e => (f, e)
  | fuel + 1, f, e => if e < -308 then divideDown fuel (f / 1e308) (e + 308) else (f, e)

/-- `n * 10 ^ e` by one multiplication or division of doubles; `none` beyond the largest double. -/
def scaleDouble (n : Nat) (e : Int) : Option Float :=
  let f := (UInt64.ofNat n).toFloat
  if e > 308 then if n = 0 then some f else none
  else if e ≥ 0 then
    let g := f * Float.ofScientific 1 false e.toNat
    if g.isInf then none else some g
  else
    let (g, e) := divideDown 4 f e
    if e < -308 then some 0.0 else some (g / Float.ofScientific 1 false e.natAbs)

def signed (positive : Bool) (f : Float) : Number := .double (if positive then f else -f).toBits

def doubleOf (positive : Bool) (n : Nat) (e : Int) (rest : Bytes) : Reading Number :=
  match scaleDouble n e with
  | some f => .ok (signed positive f, rest)
  | none => failHere .numberOutOfRange rest

/-- Takes up the digits of an exponent while it fits 31 bits; else says how many are left behind
the digit that was too much. -/
def absorbExponent (n : Nat) : List UInt8 → Except Nat Nat
  | [] => .ok n
  | d :: more =>
    if n * 10 + digitValue d < 1 <<< 31 then absorbExponent (n * 10 + digitValue d) more
    else .error more.length

def exponentPart (positive : Bool) (n : Nat) (start : Int) (s : Bytes) : Reading Number :=
  let (down, s) :=
    match s with
    | b :: rest =>
      if b = byte '+' then (false, rest) else if b = byte '-' then (true, rest) else (false, s)
    | [] => (false, s)
  match s with
  | [] => failHere .endOfValue []
  | b :: rest =>
    if !isDigitByte b then failHere .invalidNumber rest
    else
      let digits := s.takeWhile isDigitByte
      let rest := s.dropWhile isDigitByte
      match absorbExponent 0 digits with
      | .ok e => doubleOf positive n (if down then start - e else start + e) rest
      | .error left =>
        if n ≠ 0 ∧ !down then failHere .numberOutOfRange (s.drop (digits.length - left))
        else .ok (signed positive 0.0, rest)

def afterDigits (positive : Bool) (n : Nat) (e : Int) (s : Bytes) : Reading Number :=
  match s with
  | b :: rest =>
    if b = byte 'e' || b = byte 'E' then exponentPart positive n e rest else doubleOf positive n e s
  | [] => doubleOf positive n e s

def fractionPart (positive : Bool) (n : Nat) (start : Int) (s : Bytes) : Reading Number :=
  let digits := s.takeWhile isDigitByte
  if digits.isEmpty then
    if s.isEmpty then failNext .endOfValue s else failNext .invalidNumber s
  else
    let (m, left) := absorb n digits
    afterDigits positive m (start - (digits.length - left)) (s.dropWhile isDigitByte)

/-- Goes on behind the integer digits, of which `left` did not fit. -/
def afterInteger (positive : Bool) (n left : Nat) (s : Bytes) : Reading Number :=
  let plain : Reading Number :=
    if left > 0 then doubleOf positive n left s
    else if positive then .ok (.int n, s)
    else if n = 0 ∨ 1 <<< 63 < n then .ok (signed false (UInt64.ofNat n).toFloat, s)
    else .ok (.int (-n), s)
  match s with
  | b :: rest =>
    if b = byte '.' then fractionPart positive n left rest
    else if b = byte 'e' || b = byte 'E' then exponentPart positive n left rest
    else plain
  | [] => plain

def number (positive : Bool) (s : Bytes) : Reading Number :=
  match s with
  | [] => failHere .endOfValue []
  | b :: rest =>
    if b = byte '0' then
      if (rest.head?.map isDigitByte).getD false then failNext .invalidNumber rest
      else afterInteger positive 0 0 rest
    else if isDigitByte b then
      let (n, left) := absorb 0 (s.takeWhile isDigitByte)
      afterInteger positive n left (s.dropWhile isDigitByte)
    else failHere .invalidNumber rest

def skipExponent (s : Bytes) : Except Fault Bytes :=
  let s :=
    match s with
    | b :: rest => if b = byte '+' || b = byte '-' then rest else s
    | [] => s
  match s with
  | [] => failHere .invalidNumber []
  | b :: rest =>
    if isDigitByte b then .ok (rest.dropWhile isDigitByte) else failHere .invalidNumber rest

def skipFraction (s : Bytes) : Except Fault Bytes :=
  if (s.head?.map isDigitByte).getD false then
    match s.dropWhile isDigitByte with
    | b :: rest => if b = byte 'e' || b = byte 'E' then skipExponent rest else .ok (b :: rest)
    | [] => .ok []
  else failNext .invalidNumber s

def skipNumber (s : Bytes) : Except Fault Bytes :=
  match s with
  | [] => failHere .invalidNumber []
  | b :: rest =>
    if b = byte '0' && (rest.head?.map isDigitByte).getD false then failNext .invalidNumber rest
    else if !isDigitByte b then failHere .invalidNumber rest
    else
      match s.dropWhile isDigitByte with
      | c :: more =>
        if c = byte '.' then skipFraction more
        else if c = byte 'e' || c = byte 'E' then skipExponent more
        else .ok (c :: more)
      | [] => .ok []

end TraceWorkbench.Json
