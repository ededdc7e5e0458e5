import LayerPipeline.Number.Scalar

/-!
# Binary floating point of double precision

A `Binary64` is a bit pattern. Comparisons and rounding are defined on the pattern itself by exact
integer arithmetic; only the four operations go through the machine.
-/

namespace LayerPipeline

/-- The quotient `n / d` rounded to the nearest natural number, a half to the even neighbour. -/
def roundDiv (n d : Nat) : Nat :=
  let q := n / d
  let r := n % d
  if 2 * r < d then q
  else if d < 2 * r then q + 1
  else if q % 2 = 0 then q
  else q + 1

/-- A double-precision number, kept as its 64 bits so that every pattern is a value of its own. -/
structure Binary64 where
  /-- Sign, exponent and fraction, from the most significant bit down. -/
  bits : UInt64
deriving DecidableEq, Inhabited

namespace Binary64

/-! ## Parts of the pattern -/

/-- What the sign bit is worth. -/
def signWeight : Nat := 0x8000000000000000

/-- What the lowest bit of the exponent is worth; the fraction lies below it. -/
def fractionWeight : Nat := 0x10000000000000

/-- Whether the sign bit is set. -/
def negative (x : Binary64) : Bool :=
  signWeight ≤ x.bits.toNat

/-- The pattern without its sign bit, as a number. Among values of one sign a larger magnitude
means a larger distance from zero. -/
def magnitude (x : Binary64) : Nat :=
  x.bits.toNat % signWeight

/-- Magnitude of the infinities. Every larger one belongs to a pattern that is not a number. -/
def infiniteMagnitude : Nat := 0x7ff * fractionWeight

/-- Whether the pattern is not a number. -/
def isNaN (x : Binary64) : Bool :=
  infiniteMagnitude < x.magnitude

/-- Whether the pattern is a number other than the two infinities. -/
def isFinite (x : Binary64) : Bool :=
  x.magnitude < infiniteMagnitude

/-- The value with the given sign and magnitude. -/
def ofParts (negative : Bool) (magnitude : Nat) : Binary64 :=
  ⟨UInt64.ofNat (magnitude + if negative then signWeight else 0)⟩

/-- Positive zero. -/
def zero : Binary64 := ⟨0⟩

/-- Positive infinity. -/
def infinity : Binary64 := ofParts false infiniteMagnitude

/-- Significand `m` and exponent `q` of a finite value, whose distance from zero is `m * 2 ^ q`. -/
def decompose (x : Binary64) : Nat × Int :=
  let field : Nat := x.magnitude / fractionWeight
  let fraction : Nat := x.magnitude % fractionWeight
  if field = 0 then (fraction, -1074) else (fraction + fractionWeight, (field : Int) - 1075)

/-- Numerator and denominator of the distance of a finite value from zero. -/
def quotient (x : Binary64) : Nat × Nat :=
  let (m, q) := x.decompose
  if 0 ≤ q then (m * Nat.pow 2 q.toNat, 1) else (m, Nat.pow 2 (-q).toNat)

/-! ## Order -/

/-- Position on the number line; both zeros are at 0. -/
def position (x : Binary64) : Int :=
  if x.negative then -(x.magnitude : Int) else x.magnitude

/-- Numeric "less than", false when either side is not a number. -/
def lt (x y : Binary64) : Bool :=
  !x.isNaN && !y.isNaN && x.position < y.position

/-- Numeric "at most", false when either side is not a number. -/
def le (x y : Binary64) : Bool :=
  !x.isNaN && !y.isNaN && x.position ≤ y.position

/-- Numeric equality: the zeros are equal, and what is not a number equals nothing. -/
def same (x y : Binary64) : Bool :=
  !x.isNaN && !y.isNaN && x.position = y.position

instance : LT Binary64 := ⟨fun x y => x.lt y = true⟩

instance : LE Binary64 := ⟨fun x y => x.le y = true⟩

instance : DecidableLT Binary64 := fun x y => inferInstanceAs (Decidable (x.lt y = true))

instance : DecidableLE Binary64 := fun x y => inferInstanceAs (Decidable (x.le y = true))

/-- Position in the total order of patterns: negative patterns that are not numbers come first,
then the numbers with -0 below +0, then the positive patterns that are not numbers. -/
def rank (x : Binary64) : Int :=
  if x.negative then -(x.magnitude : Int) - 1 else x.magnitude

/-- The larger operand, or the other one when one is not a number. -/
def maximum (x y : Binary64) : Binary64 :=
  if x.isNaN then y else if x < y then y else x

/-- The smaller operand, or the other one when one is not a number. -/
def minimum (x y : Binary64) : Binary64 :=
  if x.isNaN then y else if y < x then y else x

/-! ## Arithmetic -/

/-- The machine number with this pattern. -/
def toFloat (x : Binary64) : Float :=
  Float.ofBits x.bits

/-- The pattern of a machine number. -/
def ofFloat (x : Float) : Binary64 :=
  ⟨x.toBits⟩

instance : Add Binary64 := ⟨fun x y => ofFloat (x.toFloat + y.toFloat)⟩

instance : Sub Binary64 := ⟨fun x y => ofFloat (x.toFloat - y.toFloat)⟩

instance : Mul Binary64 := ⟨fun x y => ofFloat (x.toFloat * y.toFloat)⟩

instance : Div Binary64 := ⟨fun x y => ofFloat (x.toFloat / y.toFloat)⟩

/-! ## Rounding -/

/-- The largest `e` with `2 ^ e ≤ n / d`, for positive `n` and `d`. -/
def floorLog2 (n d : Nat) : Int :=
  let e : Int := (n.log2 : Int) - d.log2
  let reaches := if 0 ≤ e then decide (d * Nat.pow 2 e.toNat ≤ n)
    else decide (d ≤ n * Nat.pow 2 (-e).toNat)
  if reaches then e else e - 1

/-- The value nearest to `n / d` with the given sign, a half to the even significand. Quotients
beyond the largest finite value give an infinity. -/
def ofQuotient (negative : Bool) (n d : Nat) : Binary64 :=
  if n = 0 then ofParts negative 0
  else
    let q : Int := max (floorLog2 n d - 52) (-1074)
    let m := if 0 ≤ q then roundDiv n (d * Nat.pow 2 q.toNat)
      else roundDiv (n * Nat.pow 2 (-q).toNat) d
    ofParts negative (min ((q + 1074).toNat * fractionWeight + m) infiniteMagnitude)

/-- The value nearest to a natural number. -/
def ofNat (n : Nat) : Binary64 :=
  ofQuotient false n 1

/-- The integer part of a nonnegative number, at most `2 ^ 64 - 1`; zero for all else. -/
def truncate (x : Binary64) : Nat :=
  if x.isNaN || x.negative then 0
  else if x.isFinite then
    let (n, d) := x.quotient
    min (n / d) (UInt64.size - 1)
  else UInt64.size - 1

end Binary64

end LayerPipeline
