import TraceWorkbench.Simulation.Arithmetic

set_option autoImplicit false

/-!
# Printing

What `echo` and `printf` write for their arguments, as octets.
-/
namespace TraceWorkbench.Simulation

def isOctal (c : Char) : Bool := '0' ≤ c && c ≤ '7'

def escape? : Char → Option Char
  | 'a' => some '\x07'
  | 'b' => some '\x08'
  | 'e' => some '\x1b'
  | 'f' => some '\x0c'
  | 'n' => some '\n'
  | 'r' => some '\x0d'
  | 't' => some '\t'
  | 'v' => some '\x0b'
  | '\\' => some '\\'
  | _ => none

def octalChar (ds : List Char) : Char :=
  Char.ofNat ((ds.foldl (fun n d => 8 * n + Arithmetic.digitValue d) 0) % 256)

/-- Undoes escapes. A number has to start with 0 if `zero` says so; `false` stands beside a text
that `\c` ended. -/
def unescape (zero : Bool) : Nat → List Char → List Char × Bool
  | 0, _ => ([], true)
  | _ + 1, [] => ([], true)
  | fuel + 1, '\\' :: c :: rest =>
    let go (out : List Char) (rest : List Char) : List Char × Bool :=
      let (more, on) := unescape zero fuel rest
      (out ++ more, on)
    if c == 'c' && zero then ([], false)
    else
      match escape? c with
      | some d => go [d] rest
      | none =>
        if c == '0' && zero then
          let ds := (rest.take 3).takeWhile isOctal
          go [octalChar ds] (rest.drop ds.length)
        else if isOctal c then
          let ds := ((c :: rest).take 3).takeWhile isOctal
          if zero then go ['\\', c] rest else go [octalChar ds] ((c :: rest).drop ds.length)
        else go ['\\', c] rest
  | fuel + 1, c :: rest =>
    let (more, on) := unescape zero fuel rest
    (c :: more, on)

def echoText (args : List String) : String :=
  let (newline, args) :=
    match args with
    | "-n" :: rest => (false, rest)
    | _ => (true, args)
  let s := (" ".intercalate args).toList
  let (text, on) := unescape true (s.length + 1) s
  String.ofList (if newline && on then text ++ ['\n'] else text)

structure Printed where
  out : List Char := []
  args : List String
  used : Bool := false
  complaints : List String := []
  status : Nat := 0
  /-- Set when nothing more is to be written. -/
  stopped : Bool := false

def Printed.write (p : Printed) (s : List Char) : Printed := { p with out := p.out ++ s }

def Printed.complain (p : Printed) (s : String) : Printed :=
  { p with complaints := p.complaints ++ ["printf: " ++ s], status := 1 }

def Printed.giveUp (p : Printed) (s : String) : Printed :=
  { p.complain s with status := 2, stopped := true }

def Printed.next (p : Printed) : Option String × Printed :=
  match p.args with
  | a :: rest => (some a, { p with args := rest, used := true })
  | [] => (none, p)

def Printed.number (p : Printed) : Int × Printed :=
  match p.next with
  | (none, p) => (0, p)
  | (some a, p) =>
    match a.toList with
    | '\'' :: c :: _ | '"' :: c :: _ => (c.toNat, p)
    | cs =>
      let cs := cs.dropWhile fun c => isBlankChar c || c == '\n'
      let (negative, cs) :=
        match cs with
        | '-' :: rest => (true, rest)
        | '+' :: rest => (false, rest)
        | _ => (false, cs)
      let isHex :=
        match cs with
        | '0' :: x :: d :: _ => (x == 'x' || x == 'X') && Arithmetic.digitValue d < 16
        | _ => false
      let base := if isHex then 16 else if cs.head? == some '0' then 8 else 10
      let cs := if isHex then cs.drop 2 else cs
      let ds := cs.takeWhile fun c => Arithmetic.digitValue c < base
      let n : Int := Arithmetic.inBase base ds
      let n := if negative then -n else n
      if a.isEmpty then (0, p)
      else if ds.isEmpty then (n, p.complain (a ++ ": expected numeric value"))
      else if ds.length < cs.length then (n, p.complain (a ++ ": not completely converted"))
      else (n, p)

structure FormatSpec where
  flags : List Char
  width : Nat
  precision : Option Nat

def FormatSpec.pad (f : FormatSpec) (s : List Char) : List Char :=
  let fill := List.replicate (f.width - s.length) ' '
  if f.flags.contains '-' then s ++ fill else fill ++ s

def FormatSpec.text (f : FormatSpec) (s : List Char) : List Char :=
  f.pad ((f.precision.map s.take).getD s)

def FormatSpec.number (f : FormatSpec) (base : Nat) (upper signed : Bool) (n : Int) : List Char :=
  let m := if signed then n.natAbs else (n % UInt64.size).toNat
  let digits := (Nat.toDigits base m).map fun c => if upper then c.toUpper else c
  let digits := if f.precision == some 0 && m == 0 then [] else digits
  let digits := List.replicate ((f.precision.getD 1) - digits.length) '0' ++ digits
  let lead :=
    if signed && n < 0 then ['-']
    else if signed && f.flags.contains '+' then ['+']
    else if signed && f.flags.contains ' ' then [' ']
    else if f.flags.contains '#' && m != 0 && base == 16 then ['0', if upper then 'X' else 'x']
    else if f.flags.contains '#' && base == 8 && digits.head? != some '0' then ['0']
    else []
  if f.flags.contains '0' && !f.flags.contains '-' && f.precision.isNone then
    lead ++ List.replicate (f.width - lead.length - digits.length) '0' ++ digits
  else f.pad (lead ++ digits)

def formatNumber (p : Printed) (s : List Char) : Nat × Printed × List Char :=
  match s with
  | '*' :: rest =>
    let (n, p) := p.number
    (n.toNat, p, rest)
  | _ => (decimal (s.takeWhile Char.isDigit), p, s.dropWhile Char.isDigit)

def convert (p : Printed) (f : FormatSpec) (c : Char) : Printed :=
  match c with
  | 's' =>
    let (a, p) := p.next
    p.write (f.text (a.getD "").toList)
  | 'b' =>
    let (a, p) := p.next
    let s := (a.getD "").toList
    let (text, on) := unescape true (s.length + 1) s
    { p.write (f.text text) with stopped := !on }
  | 'c' =>
    let (a, p) := p.next
    p.write (f.pad ((a.getD "").toList.take 1))
  | 'd' | 'i' =>
    let (n, p) := p.number
    p.write (f.number 10 false true n)
  | 'u' =>
    let (n, p) := p.number
    p.write (f.number 10 false false n)
  | 'o' =>
    let (n, p) := p.number
    p.write (f.number 8 false false n)
  | 'x' =>
    let (n, p) := p.number
    p.write (f.number 16 false false n)
  | 'X' =>
    let (n, p) := p.number
    p.write (f.number 16 true false n)
  | _ => p.giveUp ("%" ++ String.singleton c ++ ": invalid directive")

def printOnce : Nat → Printed → List Char → Printed
  | 0, p, _ => p
  | _ + 1, p, [] => p
  | fuel + 1, p, c :: rest =>
    if p.stopped then p
    else if c == '%' then
      match rest with
      | '%' :: rest => printOnce fuel (p.write ['%']) rest
      | _ =>
        let flags := rest.takeWhile fun c => "-+ #0".toList.contains c
        let (width, p, rest) := formatNumber p (rest.dropWhile fun c => "-+ #0".toList.contains c)
        let (precision, p, rest) :=
          match rest with
          | '.' :: rest =>
            let (n, p, rest) := formatNumber p rest
            (some n, p, rest)
          | _ => (none, p, rest)
        match rest with
        | [] => p.giveUp "missing format character"
        | k :: rest => printOnce fuel (convert p ⟨flags, width, precision⟩ k) rest
    else if c == '\\' then
      match rest with
      | d :: more =>
        let n := if isOctal d then (((d :: more).take 3).takeWhile isOctal).length else 1
        let (text, _) := unescape false 2 (c :: rest.take n)
        printOnce fuel (p.write text) (rest.drop n)
      | [] => p.write ['\\']
    else printOnce fuel (p.write [c]) rest

def printRounds : Nat → List Char → Printed → Printed
  | 0, _, p => p
  | fuel + 1, format, p =>
    let q := printOnce (2 * format.length + 2) { p with used := false } format
    if q.stopped || !q.used || q.args.isEmpty then q else printRounds fuel format q

def printfText (args : List String) : String × List String × Nat :=
  let operands := if args.head? == some "--" then args.drop 1 else args
  match operands with
  | [] => ("", ["printf: usage: printf format [arg ...]"], 2)
  | format :: rest =>
    match format.toList, args.head? == some "--" with
    | '-' :: c :: _, false => ("", ["printf: Illegal option -" ++ String.singleton c], 2)
    | cs, _ =>
      let p := printRounds (rest.length + 1) cs { args := rest }
      (String.ofList p.out, p.complaints, p.status)

end TraceWorkbench.Simulation
