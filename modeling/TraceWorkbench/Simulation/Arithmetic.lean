import TraceWorkbench.Simulation.Words

set_option autoImplicit false

/-!
# Arithmetic of shell scripts

Evaluates the text of an arithmetic expression. Names stand for their values, and a name may be
given a new one.
-/
namespace TraceWorkbench.Simulation.Arithmetic

inductive Item where
  | number (n : Int)
  | name (s : String)
  | op (s : String)
  deriving DecidableEq, Repr

def operators : List String :=
  ["<<=", ">>=", "||", "&&", "==", "!=", "<=", ">=", "<<", ">>", "+=", "-=", "*=", "/=", "%=", "&=",
    "|=", "^=", "+", "-", "*", "/", "%", "<", ">", "=", "!", "~", "&", "|", "^", "?", ":", "(", ")"]

def digitValue (c : Char) : Nat :=
  if c.isDigit then c.toNat - '0'.toNat
  else if c.isAlpha then c.toLower.toNat - 'a'.toNat + 10
  else 99

def inBase (base : Nat) (ds : List Char) : Int := ds.foldl (fun n d => base * n + digitValue d) 0

/-- A number in decimal, octal or hexadecimal at the start of a text, and what follows it. -/
def numberOf : List Char → Int × List Char
  | '0' :: c :: ds =>
    if c == 'x' || c == 'X' then
      (inBase 16 (ds.takeWhile fun d => digitValue d < 16), ds.dropWhile fun d => digitValue d < 16)
    else
      (inBase 8 ((c :: ds).takeWhile fun d => digitValue d < 8),
        (c :: ds).dropWhile fun d => digitValue d < 8)
  | ds => (inBase 10 (ds.takeWhile Char.isDigit), ds.dropWhile Char.isDigit)

def items : Nat → List Char → Option (List Item)
  | 0, _ => none
  | _ + 1, [] => some []
  | fuel + 1, c :: rest =>
    if isBlankChar c || c == '\n' then items fuel rest
    else if c.isDigit then
      let (n, rest) := numberOf (c :: rest)
      (items fuel rest).map (.number n :: ·)
    else if isNameStart c then
      let name := (c :: rest).takeWhile isNameChar
      (items fuel ((c :: rest).dropWhile isNameChar)).map (.name (String.ofList name) :: ·)
    else
      match operators.find? fun o => o.toList.isPrefixOf (c :: rest) with
      | some o => (items fuel ((c :: rest).drop o.length)).map (.op o :: ·)
      | none => (items fuel rest).map (.op (String.singleton c) :: ·)

abbrev Values := List (String × String)

def valueOf (vs : Values) (name : String) : Int :=
  match ((vs.find? fun v => v.1 == name).map fun v => v.2.toList).getD [] with
  | '-' :: ds => -(numberOf ds).1
  | '+' :: ds => (numberOf ds).1
  | ds => (numberOf ds).1

def truth (b : Bool) : Int := if b then 1 else 0

def precedence? : String → Option Nat
  | "||" => some 1
  | "&&" => some 2
  | "|" => some 3
  | "^" => some 4
  | "&" => some 5
  | "==" | "!=" => some 6
  | "<" | "<=" | ">" | ">=" => some 7
  | "<<" | ">>" => some 8
  | "+" | "-" => some 9
  | "*" | "/" | "%" => some 10
  | _ => none

def wrap (n : Int) : Int := n.bmod UInt64.size

def bits (f : Nat → Nat → Nat) (a b : Int) : Int :=
  wrap (f (a % UInt64.size).toNat (b % UInt64.size).toNat)

def apply (o : String) (a b : Int) : Except String Int :=
  match o with
  | "||" => .ok (truth (a != 0 || b != 0))
  | "&&" => .ok (truth (a != 0 && b != 0))
  | "|" => .ok (bits (· ||| ·) a b)
  | "^" => .ok (bits (· ^^^ ·) a b)
  | "&" => .ok (bits (· &&& ·) a b)
  | "==" => .ok (truth (a == b))
  | "!=" => .ok (truth (a != b))
  | "<" => .ok (truth (decide (a < b)))
  | "<=" => .ok (truth (decide (a ≤ b)))
  | ">" => .ok (truth (decide (b < a)))
  | ">=" => .ok (truth (decide (b ≤ a)))
  | "<<" => .ok (wrap (a <<< (b % 64).toNat))
  | ">>" => .ok (a >>> (b % 64).toNat)
  | "+" => .ok (wrap (a + b))
  | "-" => .ok (wrap (a - b))
  | "*" => .ok (wrap (a * b))
  | "/" => if b = 0 then .error "division by zero" else .ok (wrap (a.tdiv b))
  | "%" => if b = 0 then .error "division by zero" else .ok (a.tmod b)
  | _ => .error "expecting EOF"

structure Progress where
  value : Int
  rest : List Item
  values : Values

mutual

def expression : Nat → Values → List Item → Except String Progress
  | 0, _, _ => .error "expecting primary"
  | fuel + 1, vs, .name x :: .op o :: rest =>
    if o == "=" then do
      let p ← expression fuel vs rest
      return { p with values := (x, toString p.value) :: p.values }
    else if o.endsWith "=" && (precedence? (o.dropEnd 1).toString).isSome && o != "==" &&
        o != "!=" && o != "<=" && o != ">=" then do
      let p ← expression fuel vs rest
      let n ← apply (o.dropEnd 1).toString (valueOf vs x) p.value
      return { p with value := n, values := (x, toString n) :: p.values }
    else choice fuel vs (.name x :: .op o :: rest)
  | fuel + 1, vs, ts => choice fuel vs ts

def choice : Nat → Values → List Item → Except String Progress
  | 0, _, _ => .error "expecting primary"
  | fuel + 1, vs, ts => do
    let p ← operation fuel 1 vs ts
    match p.rest with
    | .op "?" :: rest =>
      let yes ← expression fuel p.values rest
      match yes.rest with
      | .op ":" :: rest =>
        let no ← choice fuel p.values rest
        return if p.value != 0 then { yes with rest := no.rest } else no
      | _ => .error "expecting ':'"
    | _ => return p

/-- Operations that bind at least as tightly as a level. -/
def operation : Nat → Nat → Values → List Item → Except String Progress
  | 0, _, _, _ => .error "expecting primary"
  | fuel + 1, level, vs, ts => do
    let p ← primary fuel vs ts
    operationRest fuel level p

def operationRest : Nat → Nat → Progress → Except String Progress
  | 0, _, _ => .error "expecting primary"
  | fuel + 1, level, p =>
    match p.rest with
    | .op o :: rest =>
      match precedence? o with
      | none => .ok p
      | some n =>
        if n < level then .ok p
        else if (o == "&&" && p.value == 0) || (o == "||" && p.value != 0) then do
          let right ← operation fuel (n + 1) [] (rest.map fun
            | .op "/" | .op "%" => .op "*"
            | t => t)
          let rest := rest.drop (rest.length - right.rest.length)
          operationRest fuel level { p with value := truth (o == "||"), rest }
        else do
          let right ← operation fuel (n + 1) p.values rest
          let v ← apply o p.value right.value
          operationRest fuel level { right with value := v }
    | _ => .ok p

def primary : Nat → Values → List Item → Except String Progress
  | 0, _, _ => .error "expecting primary"
  | fuel + 1, vs, ts =>
    match ts with
    | .number n :: rest => .ok ⟨wrap n, rest, vs⟩
    | .name x :: rest => .ok ⟨valueOf vs x, rest, vs⟩
    | .op "-" :: rest => (primary fuel vs rest).map fun p => { p with value := wrap (-p.value) }
    | .op "+" :: rest => primary fuel vs rest
    | .op "!" :: rest =>
      (primary fuel vs rest).map fun p => { p with value := truth (p.value == 0) }
    | .op "~" :: rest => (primary fuel vs rest).map fun p => { p with value := -p.value - 1 }
    | .op "(" :: rest => do
      let p ← expression fuel vs rest
      match p.rest with
      | .op ")" :: rest => return { p with rest }
      | _ => .error "expecting ')'"
    | _ => .error "expecting primary"

end

def evaluate (vs : Values) (text : List Char) : Except String (Int × Values) :=
  match items (text.length + 1) text with
  | none => .error "expecting primary"
  | some [] => .ok (0, vs)
  | some ts =>
    match expression (8 * ts.length + 8) vs ts with
    | .error e => .error e
    | .ok p => if p.rest.isEmpty then .ok (p.value, p.values) else .error "expecting EOF"

end TraceWorkbench.Simulation.Arithmetic
