import TraceWorkbench.Simulation.Printing
import TraceWorkbench.Simulation.Shell

set_option autoImplicit false

/-!
# Conditions

What `test` says of its arguments. A condition is true, false or not well formed.
-/
namespace TraceWorkbench.Simulation

abbrev Verdict := Except String Bool

def testInteger (s : String) : Except String Int :=
  let cs := (s.toList.dropWhile isBlankChar).reverse.dropWhile isBlankChar |>.reverse
  let (negative, ds) :=
    match cs with
    | '-' :: rest => (true, rest)
    | '+' :: rest => (false, rest)
    | _ => (false, cs)
  if ds.isEmpty || !ds.all Char.isDigit then .error ("Illegal number: " ++ s)
  else .ok (if negative then -(decimal ds : Int) else decimal ds)

def testUnary? (t : FileTree) (op arg : String) : Option Bool :=
  let node? := (t.stat (pathOf arg)).toOption
  match op with
  | "-n" => some (!arg.isEmpty)
  | "-z" => some arg.isEmpty
  | "-e" => some node?.isSome
  | "-f" => some ((node?.map Node.isFile).getD false)
  | "-d" => some ((node?.map Node.isDir).getD false)
  | "-r" | "-w" => some node?.isSome
  | "-x" => some (match node? with
      | some (.file _ executable) => executable
      | some (.dir _) => true
      | _ => false)
  | "-s" => some (match node? with
      | some (.file content _) => !content.isEmpty
      | some (.dir _) => true
      | _ => false)
  | "-h" | "-L" => some (match (t.linkStat (pathOf arg)).toOption with
      | some (.link _) => true
      | _ => false)
  | "-p" | "-S" | "-b" | "-c" | "-t" | "-u" | "-g" | "-k" => some false
  | "-O" | "-G" => some node?.isSome
  | _ => none

def testCompare (f : Int → Int → Bool) (a b : String) : Verdict := do
  return f (← testInteger a) (← testInteger b)

def testBinary? (t : FileTree) (a op b : String) : Option Verdict :=
  match op with
  | "=" => some (.ok (a == b))
  | "!=" => some (.ok (a != b))
  | "<" => some (.ok (a < b))
  | ">" => some (.ok (b < a))
  | "-eq" => some (testCompare (· == ·) a b)
  | "-ne" => some (testCompare (· != ·) a b)
  | "-lt" => some (testCompare (fun x y => decide (x < y)) a b)
  | "-le" => some (testCompare (fun x y => decide (x ≤ y)) a b)
  | "-gt" => some (testCompare (fun x y => decide (y < x)) a b)
  | "-ge" => some (testCompare (fun x y => decide (y ≤ x)) a b)
  | "-ef" =>
    match t.resolve (pathOf a) true, t.resolve (pathOf b) true with
    | .ok p, .ok q => some (.ok (p == q && (t.root.at? p).isSome))
    | _, _ => some (.ok false)
  | "-nt" | "-ot" => some (.ok false)
  | _ => none

mutual

/-- A row of conditions with `-o` between them. -/
def testOr (t : FileTree) : Nat → List String → Except String (Bool × List String)
  | 0, _ => .error "argument expected"
  | fuel + 1, args => do
    let (a, rest) ← testAnd t fuel args
    match rest with
    | "-o" :: rest =>
      let (b, rest) ← testOr t fuel rest
      return (a || b, rest)
    | _ => return (a, rest)

def testAnd (t : FileTree) : Nat → List String → Except String (Bool × List String)
  | 0, _ => .error "argument expected"
  | fuel + 1, args => do
    let (a, rest) ← testNot t fuel args
    match rest with
    | "-a" :: rest =>
      let (b, rest) ← testAnd t fuel rest
      return (a && b, rest)
    | _ => return (a, rest)

def testNot (t : FileTree) : Nat → List String → Except String (Bool × List String)
  | 0, _ => .error "argument expected"
  | fuel + 1, args =>
    match args with
    | a :: op :: b :: rest =>
      match testBinary? t a op b with
      | some v => v.map fun v => (v, rest)
      | none => testPrimary t fuel args
    | [_, op] =>
      if (testBinary? t "" op "").isSome then .error (op ++ ": argument expected")
      else testPrimary t fuel args
    | _ => testPrimary t fuel args

def testPrimary (t : FileTree) : Nat → List String → Except String (Bool × List String)
  | 0, _ => .error "argument expected"
  | fuel + 1, args =>
    match args with
    | [] => .error "argument expected"
    | "!" :: rest =>
      if rest.isEmpty then .ok (true, [])
      else (testNot t fuel rest).map fun (v, rest) => (!v, rest)
    | "(" :: rest =>
      if rest.isEmpty then .ok (true, [])
      else do
        let (v, rest) ← testOr t fuel rest
        match rest with
        | ")" :: rest => return (v, rest)
        | _ => .error "closing paren expected"
    | op :: rest =>
      match rest with
      | arg :: more =>
        match testUnary? t op arg with
        | some v => .ok (v, more)
        | none => .ok (!op.isEmpty, rest)
      | [] => .ok (!op.isEmpty, [])

end

def testArgs (t : FileTree) (args : List String) : Verdict :=
  match args with
  | [] => .ok false
  | [a] => .ok (!a.isEmpty)
  | _ => do
    let (v, rest) ← testOr t (4 * args.length + 4) args
    if rest.isEmpty then return v
    else
      let last := (args[args.length - rest.length - 1]?).getD ""
      .error (last ++ ": unexpected operator")

end TraceWorkbench.Simulation
