import LayerPipeline.Number.Binary64

/-!
# Decimal numerals

Reading a decimal numeral as the nearest `Binary64` or as one close to it, finding the shortest
numeral that reads back as a given value, and writing numerals out.
-/

namespace LayerPipeline

/-- The number `digits * 10 ^ exponent`, negated when `negative`. -/
structure Decimal where
  negative : Bool
  digits : Nat
  exponent : Int
deriving DecidableEq, Inhabited

namespace Decimal

/-- How many decimal digits a natural number has. -/
def width (n : Nat) : Nat :=
  (Nat.toDigits 10 n).length

/-- Numerals whose first digit stands above this power of ten exceed every finite value. -/
def ceilingExponent : Int := 400

/-- Numerals whose first digit stands below this power of ten round to zero. -/
def floorExponent : Int := -400

/-- The value nearest to the numeral, infinite when it exceeds every finite one. The two early
cases keep a large exponent from being expanded. -/
def nearest (d : Decimal) : Binary64 :=
  let lead := d.exponent + width d.digits
  if d.digits = 0 || lead < floorExponent then .ofParts d.negative 0
  else if ceilingExponent < lead then .ofParts d.negative Binary64.infiniteMagnitude
  else if 0 ≤ d.exponent then .ofQuotient d.negative (d.digits * Nat.pow 10 d.exponent.toNat) 1
  else .ofQuotient d.negative d.digits (Nat.pow 10 (-d.exponent).toNat)

/-! ## Reading by scaling -/

/-- The highest power of ten below infinity. -/
def highestPower : Nat := 308

/-- The value nearest to a power of ten. -/
def powerOfTen (k : Nat) : Binary64 := .ofNat (Nat.pow 10 k)

/-- The value nearest to `digits`, multiplied or divided by the value nearest to a power of ten. It
can miss the nearest value in the last place. A power too high to be divided by at once is divided
by in two steps, and what is left after two full steps is zero. -/
def scale (digits : Nat) (exponent : Int) : Binary64 :=
  let x := Binary64.ofNat digits
  let k := exponent.natAbs
  if digits = 0 || k = 0 then x
  else if 0 < exponent then
    if k ≤ highestPower then x * powerOfTen k else .infinity
  else if k ≤ highestPower then x / powerOfTen k
  else if k ≤ 2 * highestPower then
    x / powerOfTen highestPower / powerOfTen (k - highestPower)
  else .zero

/-- The numeral's digits brought to scale, refused beyond the largest finite value. -/
def scaled? (d : Decimal) : Option Binary64 :=
  let x := scale d.digits d.exponent
  if x.isFinite then some (.ofParts d.negative x.magnitude) else none

/-! ## Shortest numerals -/

/-- The numeral with its trailing zeros moved into the exponent. -/
def stripZeros (negative : Bool) (digits : Nat) (exponent : Int) : Decimal :=
  let zeros := ((Nat.toDigits 10 digits).reverse.takeWhile (· = '0')).length
  if digits = 0 then ⟨negative, 0, 0⟩
  else ⟨negative, digits / Nat.pow 10 zeros, exponent + zeros⟩

/-- The largest `e` with `10 ^ e ≤ n / d`, for positive `n` and `d`. -/
def floorLog10 (n d : Nat) : Int :=
  if d ≤ n then (width (n / d) : Int) - 1
  else
    let k := width (d / n) - 1
    if d ≤ n * Nat.pow 10 k then -(k : Int) else -(k : Int) - 1

/-- The multiple of `10 ^ p` next below the distance of `x` from zero, and twice the remainder
compared with the step: which of the two neighbours on that grid is nearer. -/
def gridNeighbours (x : Binary64) (p : Int) : Nat × Ordering :=
  let (n, d) := x.quotient
  let (n, d) := if 0 ≤ p then (n, d * Nat.pow 10 p.toNat) else (n * Nat.pow 10 (-p).toNat, d)
  (n / d, compare (2 * (n % d)) d)

/-- Which of two equally near neighbours is taken. -/
inductive Tie where
  | even
  | upper
deriving DecidableEq, Inhabited

/-- The nearer of the two neighbours of `x` on the grid of multiples of `10 ^ p` that reads back as
`x`, if one of them does. -/
def onGrid? (tie : Tie) (x : Binary64) (p : Int) : Option Decimal :=
  let (below, side) := gridNeighbours x p
  let lower : Decimal := ⟨x.negative, below, p⟩
  let upper : Decimal := ⟨x.negative, below + 1, p⟩
  let preferLower : Bool := match side with
    | .lt => true
    | .gt => false
    | .eq => tie = .even && below % 2 = 0
  let (first, second) := if preferLower then (lower, upper) else (upper, lower)
  if first.nearest = x then some first
  else if second.nearest = x then some second
  else none

/-- The numeral with the fewest digits that reads back as the finite value `x`, and among those the
nearest to it. Seventeen digits always suffice. -/
def shortest (tie : Tie) (x : Binary64) : Decimal :=
  if x.magnitude = 0 then ⟨x.negative, 0, 0⟩
  else
    let (n, d) := x.quotient
    let lead := floorLog10 n d
    let found := (List.range 17).findSome? fun (k : Nat) => onGrid? tie x (lead - k)
    match found with
    | some r => stripZeros r.negative r.digits r.exponent
    | none => ⟨x.negative, (gridNeighbours x (lead - 16)).1, lead - 16⟩

/-! ## Writing numerals -/

/-- A sign for negative numbers. -/
def signText (negative : Bool) : String :=
  if negative then "-" else ""

/-- `digits * 10 ^ exponent` without an exponent; `places` is what stands behind the digits of an
integer. -/
def positional (digits : Nat) (exponent : Int) (places : String) : String :=
  let cs := Nat.toDigits 10 digits
  if 0 ≤ exponent then
    if digits = 0 then "0" ++ places
    else String.ofList (cs ++ List.replicate exponent.toNat '0') ++ places
  else
    let k := (-exponent).toNat
    let padded := List.replicate (k + 1 - cs.length) '0' ++ cs
    let whole := padded.take (padded.length - k)
    let fraction := padded.drop (padded.length - k)
    String.ofList whole ++ "." ++ String.ofList fraction

/-- The decisions of a text format for floating-point numbers. -/
structure Style where
  /-- Powers of ten of the first digit from which and up to which no exponent is written. -/
  plain : Option (Int × Int)
  /-- What stands behind the digits of an integer written without an exponent. -/
  integerSuffix : String
  /-- What stands before the digits of a positive exponent. -/
  positiveMark : String
  /-- Text of the infinities, without a sign. -/
  infinite : String
  /-- Whether an infinity is signed. -/
  signedInfinity : Bool
  /-- Text of what is not a number. -/
  notANumber : String
  /-- Which of two equally near shortest numerals is written. -/
  tie : Tie

/-- Power of ten of the first digit. -/
def lead (d : Decimal) : Int :=
  if d.digits = 0 then 0 else d.exponent + width d.digits - 1

/-- One digit, a point and the others if there are any, then the exponent. -/
def scientific (s : Style) (d : Decimal) : String :=
  let cs := Nat.toDigits 10 d.digits
  let head := String.ofList (cs.take 1)
  let tail := if cs.length ≤ 1 then "" else "." ++ String.ofList (cs.drop 1)
  let e := d.lead
  head ++ tail ++ "e" ++ (if 0 ≤ e then s.positiveMark else "-") ++ toString e.natAbs

/-- The text of a value in the given style. -/
def write (s : Style) (x : Binary64) : String :=
  if x.isNaN then s.notANumber
  else if !x.isFinite then
    (if s.signedInfinity then signText x.negative else "") ++ s.infinite
  else
    let d := shortest s.tie x
    let body := match s.plain with
      | none => positional d.digits d.exponent s.integerSuffix
      | some (lo, hi) =>
        if lo ≤ d.lead && d.lead ≤ hi then positional d.digits d.exponent s.integerSuffix
        else scientific s d
    signText d.negative ++ body

/-- Numbers inside messages: never an exponent, and integers without a point. -/
def messageStyle : Style := ⟨none, "", "", "inf", true, "NaN", .upper⟩

/-- Numbers inside a diagnostic dump: a point always, and an exponent from `10 ^ 16` on and below
`10 ^ -4`. -/
def dumpStyle : Style := ⟨some (-4, 15), ".0", "", "inf", true, "NaN", .upper⟩

/-- The value with exactly `places` decimal places, a half to the even neighbour. -/
def fixed (places : Nat) (x : Binary64) : String :=
  if x.isNaN then "NaN"
  else if !x.isFinite then signText x.negative ++ "inf"
  else
    let (n, d) := x.quotient
    signText x.negative ++ positional (roundDiv (n * Nat.pow 10 places) d) (-(places : Int)) ""

end Decimal

instance : Scalar Binary64 where
  max := Binary64.maximum
  min := Binary64.minimum
  ofScientific m neg e := Decimal.nearest ⟨false, m, if neg then -(e : Int) else e⟩
  decidableLT := inferInstance
  decidableLE := inferInstance
  same := Binary64.same
  ofNat := Binary64.ofNat
  truncate := Binary64.truncate
  totalLE x y := x.rank ≤ y.rank
  neutral := .ofParts true 0
  infinity := Binary64.infinity
  sqrt x := .ofFloat x.toFloat.sqrt
  fixed := Decimal.fixed
  shortest := Decimal.write Decimal.messageStyle

end LayerPipeline
