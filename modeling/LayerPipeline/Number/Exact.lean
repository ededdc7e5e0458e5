import LayerPipeline.Number.Scalar
import LayerPipeline.Number.Binary64
import LayerPipeline.Number.Decimal

/-!
# Exact rationals as scalars

The same rules read without rounding.
-/

namespace LayerPipeline

namespace Exact

/-- The rational with exactly `places` decimal places, a half to the even neighbour. -/
def fixed (places : Nat) (x : Rat) : String :=
  Decimal.signText (x < 0) ++
    Decimal.positional (roundDiv (x.num.natAbs * Nat.pow 10 places) x.den) (-(places : Int)) ""

/-- Numerator and denominator; an integer is written without its denominator. -/
def text (x : Rat) : String :=
  if x.den = 1 then toString x.num else toString x.num ++ "/" ++ toString x.den

/-- The largest natural number below `bound` whose square is at most `n`, by bisection. -/
def natSqrt (n : Nat) : Nat → Nat → Nat → Nat
  | 0, low, _ => low
  | fuel + 1, low, high =>
    let middle := (low + high) / 2
    if high ≤ low + 1 then low
    else if middle * middle ≤ n then natSqrt n fuel middle high
    else natSqrt n fuel low middle

/-- The square root of a nonnegative rational, to six decimal places from below. -/
def sqrt (x : Rat) : Rat :=
  let n := x.num.natAbs * 1000000000000 / x.den
  mkRat (natSqrt n (n.log2 + 2) 0 (n + 1)) 1000000

end Exact

/-- Over the rationals nothing is infinite; the value at that place is never consulted for a node
that offers memory. -/
instance : Scalar Rat where
  add := Rat.add
  sub := Rat.sub
  mul := Rat.mul
  div := Rat.div
  lt x y := x.blt y = true
  le x y := y.blt x = false
  max x y := if y.blt x then x else y
  min x y := if y.blt x then y else x
  ofScientific := Rat.ofScientific
  decidableLT x y := inferInstanceAs (Decidable (x.blt y = true))
  decidableLE x y := inferInstanceAs (Decidable (y.blt x = false))
  same x y := decide (x = y)
  ofNat n := Rat.ofInt n
  truncate x := min x.floor.toNat (UInt64.size - 1)
  totalLE x y := !y.blt x
  neutral := Rat.ofInt 0
  infinity := Rat.ofInt 0
  sqrt := Exact.sqrt
  fixed := Exact.fixed
  shortest := Exact.text

end LayerPipeline
