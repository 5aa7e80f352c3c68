import TraceWorkbench.Decimal.Shortest

set_option autoImplicit false

/-!
# Doubles nearest to decimals

The bits of a magnitude count up with it, so the bits of the nearest double are those of the double
below, or one more. A tie goes to the even mantissa, and what lies beyond the largest double counts
as infinite.
-/
namespace TraceWorkbench.Decimal

def infiniteBits : Nat := 2047 <<< 52

/-- The exponent of the place that the mantissa of a positive ratio counts in. -/
def placeOf (x : Ratio) : Int :=
  let guess : Int := (x.num.log2 : Int) - x.den.log2 - 53
  let full := scaled (1 <<< 53) 2 guess
  max (-1074) (if full.le x then guess + 1 else guess)

/-- The multiple of `2 ^ e` nearest to a ratio, counted in `2 ^ e`; a tie goes to the even one. -/
def roundAt (x : Ratio) (e : Int) : Nat :=
  let unit := scaled 1 2 e
  let den := x.den * unit.num
  let below := x.num * unit.den / den
  let rest := x.num * unit.den % den
  if 2 * rest > den || (2 * rest == den && below % 2 == 1) then below + 1 else below

def nearestBits (x : Ratio) : Nat :=
  if x.num = 0 then 0
  else
    let e := placeOf x
    min infiniteBits ((e + 1074).toNat <<< 52 + roundAt x e)

/-- The bits of the double nearest to a decimal. The exponent of a number far out of range is not
looked at closely. -/
def Grid.nearestBits (g : Grid) : Nat :=
  let top : Int := (Nat.toDigits 10 g.digits).length + g.exponent
  if g.digits = 0 ∨ top < -330 then 0
  else if 310 < top then infiniteBits
  else Decimal.nearestBits (scaled g.digits 10 g.exponent)

end TraceWorkbench.Decimal
