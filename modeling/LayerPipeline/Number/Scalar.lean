/-!
# Scalars

The arithmetic of costs, memory sizes and loads. Every rule of the library that computes with such
quantities is written over a `Scalar`, so the same definitions run on machine floating point and
can be read over exact rationals.
-/

namespace LayerPipeline

/-- A number type that the planner, the matcher and the registry can compute with.

`<` and `≤` are the numeric comparisons of the type: an incomparable pair satisfies neither.
`max` and `min` return the other operand when one of the two is not a number. -/
class Scalar (α : Type) extends
    Add α, Sub α, Mul α, Div α, LT α, LE α, Max α, Min α, OfScientific α where
  /-- Comparisons are decided by computation. -/
  decidableLT : DecidableLT α
  /-- Comparisons are decided by computation. -/
  decidableLE : DecidableLE α
  /-- Numeric equality, which need not be equality of representations. -/
  same : α → α → Bool
  /-- The value nearest to a natural number. -/
  ofNat : Nat → α
  /-- The integer part of a nonnegative value, at most `2 ^ 64 - 1`; zero for every other value. -/
  truncate : α → Nat
  /-- A total order on representations, used wherever values are sorted. -/
  totalLE : α → α → Bool
  /-- The value that leaves every value as it is when added to it. -/
  neutral : α
  /-- What a share of nothing amounts to. -/
  infinity : α
  /-- Square root, as far as the type has one. -/
  sqrt : α → α
  /-- The value written with a fixed number of decimal places. -/
  fixed : Nat → α → String
  /-- The value written with the fewest digits that denote it, never with an exponent. -/
  shortest : α → String

namespace Scalar

variable {α : Type} [Scalar α]

instance : DecidableLT α := Scalar.decidableLT

instance : DecidableLE α := Scalar.decidableLE

/-- `x` moved into the range from `lo` to `hi`; a value that is not a number stays as it is. -/
def clamp (x lo hi : α) : α :=
  let y := if x < lo then lo else x
  if hi < y then hi else y

/-- `clamp`, refused unless the bounds are ordered. -/
def clamp? (x lo hi : α) : Option α :=
  if lo ≤ hi then some (clamp x lo hi) else none

/-- Sum of a list from the left. -/
def sum (xs : List α) : α :=
  xs.foldl (· + ·) neutral

/-- Distance of two values. -/
def distance (x y : α) : α :=
  if x < y then y - x else x - y

end Scalar

end LayerPipeline
