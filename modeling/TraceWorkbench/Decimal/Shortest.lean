set_option autoImplicit false

/-!
# Shortest decimals of binary floating point numbers

A finite double is `mantissa * 2 ^ exponent`. The reals nearer to it than to any other double make
up an interval, ends included when the mantissa is even. The shortest decimal is one of the two
neighbours of the number on the coarsest decimal grid that has a point in this interval; of two the
nearer is taken, and on a tie the one with the even last digit.
-/
namespace TraceWorkbench.Decimal

structure Binary where
  mantissa : Nat
  exponent : Int
  deriving DecidableEq, Repr

structure Grid where
  digits : Nat
  exponent : Int
  deriving DecidableEq, Repr

/-- The magnitude held in the bits of a double; `none` for infinities and NaN. -/
def Binary.ofBits? (bits : UInt64) : Option Binary :=
  let fraction : Nat := bits.toNat % 1 <<< 52
  let field : Nat := bits.toNat >>> 52 % 1 <<< 11
  if field = 2047 then none
  else if field = 0 then some ⟨fraction, -1074⟩
  else some ⟨1 <<< 52 + fraction, (field : Int) - 1075⟩

structure Ratio where
  num : Nat
  den : Nat

def Ratio.le (a b : Ratio) : Bool := a.num * b.den ≤ b.num * a.den

def Ratio.lt (a b : Ratio) : Bool := a.num * b.den < b.num * a.den

/-- `n * base ^ e` as a fraction. -/
def scaled (n base : Nat) (e : Int) : Ratio :=
  if e < 0 then ⟨n, Nat.pow base e.natAbs⟩ else ⟨n * Nat.pow base e.toNat, 1⟩

/-- Quarters of a unit in the last place around the number: its own place, and the two ends of the
interval that rounds to it. -/
def Binary.interval (b : Binary) : Ratio × Ratio × Ratio :=
  let low := if b.mantissa = 1 <<< 52 ∧ b.exponent > -1074 then 1 else 2
  let place (n : Nat) := scaled n 2 (b.exponent - 2)
  (place (4 * b.mantissa), place (4 * b.mantissa - low), place (4 * b.mantissa + 2))

def Binary.rounds (b : Binary) (g : Grid) : Bool :=
  let (_, low, high) := b.interval
  let x := scaled g.digits 10 g.exponent
  if b.mantissa % 2 = 0 then low.le x && x.le high else low.lt x && x.lt high

/-- The exponent `e` with `10 ^ e ≤ x < 10 ^ (e + 1)`. -/
def magnitude (x : Ratio) : Int :=
  let whole := x.num / x.den
  if whole > 0 then (Nat.toDigits 10 whole).length - 1
  else
    let t := (Nat.toDigits 10 (x.den / x.num)).length - 1
    if x.den ≤ x.num * Nat.pow 10 t then -(t : Int) else -(t : Int) - 1

/-- The neighbour of the number on the grid of `10 ^ e` that rounds to it, if one does. -/
def Binary.onGrid? (b : Binary) (e : Int) : Option Grid :=
  let (x, _, _) := b.interval
  let unit := scaled 1 10 e
  let below := x.num * unit.den / (x.den * unit.num)
  let rest := x.num * unit.den % (x.den * unit.num)
  let down : Grid := ⟨below, e⟩
  let up : Grid := ⟨below + 1, e⟩
  let upIsNearer :=
    2 * rest > x.den * unit.num || (2 * rest == x.den * unit.num && below % 2 == 1)
  match b.rounds down, b.rounds up with
  | true, true => some (if upIsNearer then up else down)
  | true, false => some down
  | false, true => some up
  | false, false => none

/-- The first grid from `10 ^ e` on, `left` of them, that has a hit. -/
def Binary.search (b : Binary) : Nat → Int → Grid
  | 0, e => (b.onGrid? e).getD ⟨b.mantissa, 0⟩
  | left + 1, e =>
    match b.onGrid? e with
    | some g => g
    | none => b.search left (e - 1)

def Grid.strip : Nat → Grid → Grid
  | 0, g => g
  | bound + 1, g =>
    if g.digits ≠ 0 ∧ g.digits % 10 = 0 then Grid.strip bound ⟨g.digits / 10, g.exponent + 1⟩ else g

/-- Seventeen digits always suffice. -/
def Binary.shortest (b : Binary) : Grid := b.search 17 (magnitude b.interval.1)

end TraceWorkbench.Decimal
