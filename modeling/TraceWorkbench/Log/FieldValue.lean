import TraceWorkbench.Decimal.Nearest
import TraceWorkbench.Log.Pattern

set_option autoImplicit false

/-!
# Values that fields are matched with

A value is read as the first of these that fits: a truth value, an integer of 64 bits, a double, a
pattern. Values of different kinds are ordered by kind.
-/
namespace TraceWorkbench.LogFilter

inductive FieldValue where
  | bool (b : Bool)
  /-- A double that is a number, by the bits of its magnitude. -/
  | double (negative : Bool) (magnitude : Nat)
  | nan
  | natural (n : Nat)
  | integer (n : Int)
  | pattern (text : List Char)
  deriving DecidableEq, Repr

namespace FieldValue

def signed (s : List Char) : Bool × List Char :=
  match s with
  | '-' :: rest => (true, rest)
  | '+' :: rest => (false, rest)
  | _ => (false, s)

def digitsValue (s : List Char) : Nat :=
  s.foldl (fun n d => 10 * n + (d.toNat - '0'.toNat)) 0

/-- An integer of 64 bits; one with a minus sign is signed. -/
def integer? (s : List Char) : Option FieldValue :=
  let (negative, digits) := signed s
  let n := digitsValue digits
  if digits.isEmpty || !digits.all Char.isDigit then none
  else if negative then if n ≤ 1 <<< 63 then some (.integer (-n)) else none
  else if n < UInt64.size then some (.natural n) else none

def exponent? : List Char → Option Int
  | [] => some 0
  | c :: s =>
    let (negative, digits) := signed s
    if (c != 'e' && c != 'E') || digits.isEmpty || !digits.all Char.isDigit then none
    else some (if negative then -(digitsValue digits : Int) else digitsValue digits)

/-- The magnitude of a decimal such as `12.5e-3`. There are digits on one side of the point. -/
def magnitude? (s : List Char) : Option Nat :=
  let whole := s.takeWhile Char.isDigit
  let (part, rest) := match s.dropWhile Char.isDigit with
    | '.' :: rest => (rest.takeWhile Char.isDigit, rest.dropWhile Char.isDigit)
    | rest => ([], rest)
  if whole.isEmpty && part.isEmpty then none
  else
    (exponent? rest).map fun e =>
      (Decimal.Grid.mk (digitsValue (whole ++ part)) (e - part.length)).nearestBits

def double? (s : List Char) : Option FieldValue :=
  let (negative, rest) := signed s
  let word := String.ofList (rest.map Char.toLower)
  if word = "nan" then some .nan
  else if word = "inf" ∨ word = "infinity" then some (.double negative Decimal.infiniteBits)
  else (magnitude? rest).map (.double negative)

def ofText? (s : List Char) : Option FieldValue :=
  if s = "true".toList then some (.bool true)
  else if s = "false".toList then some (.bool false)
  else
    ((integer? s).or (double? s)).or (if Pattern.isUsable s then some (.pattern s) else none)

def positional (g : Decimal.Grid) : List Char :=
  let ds := Nat.toDigits 10 g.digits
  let places := g.exponent.natAbs
  if 0 ≤ g.exponent then ds ++ List.replicate places '0'
  else if places < ds.length then
    ds.take (ds.length - places) ++ '.' :: ds.drop (ds.length - places)
  else '0' :: '.' :: List.replicate (places - ds.length) '0' ++ ds

/-- The shortest digits that read back, all of them written out. -/
def magnitudeText (bits : Nat) : List Char :=
  match Decimal.Binary.ofBits? (UInt64.ofNat bits) with
  | none => "inf".toList
  | some b => if b.mantissa = 0 then ['0'] else positional (b.shortest.strip 20)

def text : FieldValue → List Char
  | bool b => (if b then "true" else "false").toList
  | double negative bits => (if negative then ['-'] else []) ++ magnitudeText bits
  | nan => "NaN".toList
  | natural n => Nat.toDigits 10 n
  | integer n => (toString n).toList
  | pattern s => s

def kind : FieldValue → Nat
  | bool _ => 0
  | double _ _ => 1
  | nan => 2
  | natural _ => 3
  | integer _ => 4
  | pattern _ => 5

def weight : FieldValue → Int
  | bool b => if b then 1 else 0
  | double negative bits => if negative then -bits else bits
  | natural n => n
  | integer n => n
  | nan | pattern _ => 0

def order (a b : FieldValue) : Ordering :=
  (compare a.kind b.kind).then <| (compare a.weight b.weight).then <|
    match a, b with
    | pattern s, pattern t => compare s t
    | _, _ => .eq

end FieldValue

structure FieldMatch where
  name : List Char
  value : Option FieldValue
  deriving DecidableEq, Repr

namespace FieldMatch

def text (f : FieldMatch) : List Char :=
  match f.value with
  | some v => f.name ++ '=' :: v.text
  | none => f.name

/-- The name stands before the first `=`, and the value between it and the next. -/
def ofText? (s : List Char) : Option FieldMatch :=
  let name := s.takeWhile (· != '=')
  match s.dropWhile (· != '=') with
  | _ :: rest => (FieldValue.ofText? (rest.takeWhile (· != '='))).map fun v => ⟨name, some v⟩
  | [] => some ⟨name, none⟩

/-- Conditions without a value come first, then the names count and then the values. -/
def order (a b : FieldMatch) : Ordering :=
  (compare a.value.isSome b.value.isSome).then <| (compare a.name b.name).then <|
    match a.value, b.value with
    | some v, some w => v.order w
    | _, _ => .eq

def listOrder : List FieldMatch → List FieldMatch → Ordering
  | [], [] => .eq
  | [], _ :: _ => .lt
  | _ :: _, [] => .gt
  | a :: as, b :: bs => (a.order b).then (listOrder as bs)

end FieldMatch

end TraceWorkbench.LogFilter
