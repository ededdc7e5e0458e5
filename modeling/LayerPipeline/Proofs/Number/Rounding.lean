import LayerPipeline.Proofs.Number.Order
import Mathlib.Algebra.Order.Field.Power
import Mathlib.Algebra.Order.Floor.Semifield
import Mathlib.Data.Int.Log
import Mathlib.Data.Rat.Floor
import Mathlib.Tactic.Linarith
import Mathlib.Tactic.Positivity
import Mathlib.Tactic.FieldSimp
import Mathlib.Tactic.Ring

/-!
# Nearest values

Rounding a nonnegative rational, first to a natural number and then to a value of double precision.
What is rounded is the rational alone, however it was written as a quotient, and a larger rational
is never rounded to a smaller value.
-/

namespace LayerPipeline

/-! ## Natural numbers -/

section Quotient

variable {n d n' d' : ℕ}

theorem roundDiv_bounds (n d : ℕ) : n / d ≤ roundDiv n d ∧ roundDiv n d ≤ n / d + 1 := by
  unfold roundDiv
  simp only
  split_ifs <;> omega

/-- A quotient is rounded up if the remainder exceeds one half, or is one half of an odd number. -/
theorem roundDiv_eq (n d : ℕ) :
    roundDiv n d =
      if d < 2 * (n % d) ∨ 2 * (n % d) = d ∧ n / d % 2 = 1 then n / d + 1 else n / d := by
  unfold roundDiv
  simp only
  split_ifs <;> omega

theorem roundDiv_le_roundDiv (hd : 0 < d) (hd' : 0 < d') (h : n * d' ≤ n' * d) :
    roundDiv n d ≤ roundDiv n' d' := by
  have hn := Nat.div_add_mod n d
  have hn' := Nat.div_add_mod n' d'
  have hquotient : n / d ≤ n' / d' := by
    rw [Nat.le_div_iff_mul_le hd']
    refine Nat.le_of_mul_le_mul_right ?_ hd
    calc n / d * d' * d = n / d * d * d' := by ring
      _ ≤ n * d' := Nat.mul_le_mul_right d' (Nat.div_mul_le_self n d)
      _ ≤ n' * d := h
  rcases hquotient.lt_or_eq with hlt | heq
  · have hleft := roundDiv_bounds n d
    have hright := roundDiv_bounds n' d'
    omega
  · -- the whole parts agree, so that the remainders are in the order of the quotients
    have hremainder : n % d * d' ≤ n' % d' * d := by
      have hleft : n * d' = n / d * d * d' + n % d * d' := by
        conv_lhs => rw [← hn]
        ring
      have hright : n' * d = n / d * d * d' + n' % d' * d := by
        conv_lhs => rw [← hn', ← heq]
        ring
      omega
    rw [roundDiv_eq, roundDiv_eq, ← heq]
    have hup : d ≤ 2 * (n % d) → d' ≤ 2 * (n' % d') := by
      intro hhalf
      refine Nat.le_of_mul_le_mul_right ?_ hd
      nlinarith
    have hover : d < 2 * (n % d) → d' < 2 * (n' % d') := by
      intro hhalf
      refine Nat.lt_of_mul_lt_mul_right (a := d) ?_
      nlinarith
    split_ifs <;> omega

end Quotient

/-- The natural number nearest to a nonnegative rational, a half to the even neighbour. -/
def roundRatio (x : ℚ) : ℕ := roundDiv x.num.natAbs x.den

section Ratio

variable {x y : ℚ}

private theorem natAbs_num_div (hx : 0 ≤ x) : (x.num.natAbs : ℚ) / x.den = x := by
  conv_rhs => rw [← Rat.num_div_den x]
  rw [Nat.cast_natAbs, abs_of_nonneg (Rat.num_nonneg.mpr hx)]

theorem roundDiv_le_of_div_le {n d n' d' : ℕ} (hd : 0 < d) (hd' : 0 < d')
    (h : (n : ℚ) / d ≤ n' / d') : roundDiv n d ≤ roundDiv n' d' := by
  refine roundDiv_le_roundDiv hd hd' ?_
  rw [div_le_div_iff₀ (by exact_mod_cast hd) (by exact_mod_cast hd')] at h
  exact_mod_cast h

/-- Only the ratio of numerator and denominator matters. -/
theorem roundDiv_eq_roundRatio {n d : ℕ} (hd : 0 < d) : roundDiv n d = roundRatio (n / d) := by
  have hsame : ((n / d : ℚ).num.natAbs : ℚ) / (n / d : ℚ).den = n / d :=
    natAbs_num_div (by positivity)
  refine le_antisymm ?_ ?_
  · exact roundDiv_le_of_div_le hd (Rat.den_pos _) hsame.ge
  · exact roundDiv_le_of_div_le (Rat.den_pos _) hd hsame.le

theorem roundRatio_mono (hx : 0 ≤ x) (hxy : x ≤ y) : roundRatio x ≤ roundRatio y := by
  refine roundDiv_le_of_div_le (Rat.den_pos _) (Rat.den_pos _) ?_
  rwa [natAbs_num_div hx, natAbs_num_div (hx.trans hxy)]

@[simp] theorem roundRatio_natCast (n : ℕ) : roundRatio n = n := by
  simp [roundRatio, roundDiv]
  omega

/-- What is rounded is at most one half away. -/
theorem abs_roundDiv_sub_le {n d : ℕ} (hd : 0 < d) : |(roundDiv n d : ℚ) - n / d| ≤ 1 / 2 := by
  have hd' : (0 : ℚ) < d := by exact_mod_cast hd
  have hsplit : (n / d : ℚ) = (n / d : ℕ) + (n % d : ℕ) / (d : ℚ) := by
    rw [div_eq_iff hd'.ne', add_mul, div_mul_cancel₀ _ hd'.ne']
    exact_mod_cast (Nat.div_add_mod' n d).symm
  have hrest : n % d < d := Nat.mod_lt _ hd
  rw [hsplit, roundDiv_eq]
  split_ifs with hup
  · have hhalf : (1 : ℚ) / 2 ≤ (n % d : ℕ) / (d : ℚ) := by
      rw [div_le_div_iff₀ two_pos hd']
      exact_mod_cast (by omega : 1 * d ≤ n % d * 2)
    have hone : ((n % d : ℕ) : ℚ) / d ≤ 1 := by
      rw [div_le_one hd']
      exact_mod_cast hrest.le
    rw [abs_le]
    push_cast
    constructor <;> linarith
  · have hhalf : ((n % d : ℕ) : ℚ) / d ≤ 1 / 2 := by
      rw [div_le_div_iff₀ hd' two_pos]
      exact_mod_cast (by omega : n % d * 2 ≤ 1 * d)
    have hzero : (0 : ℚ) ≤ (n % d : ℕ) / (d : ℚ) := by positivity
    rw [abs_le]
    constructor <;> linarith

theorem abs_roundRatio_sub_le (hx : 0 ≤ x) : |(roundRatio x : ℚ) - x| ≤ 1 / 2 := by
  have herror : |(roundRatio x : ℚ) - x.num.natAbs / x.den| ≤ 1 / 2 :=
    abs_roundDiv_sub_le x.den_pos
  rwa [natAbs_num_div hx] at herror

end Ratio

/-! ## Powers of two -/

/-- The power of two next below a positive rational. -/
theorem log_eq_iff {r : ℚ} (hr : 0 < r) {e : ℤ} :
    Int.log 2 r = e ↔ (2 : ℚ) ^ e ≤ r ∧ r < 2 ^ (e + 1) := by
  have hlow := Int.zpow_le_iff_le_log one_lt_two (x := e) hr
  have hhigh := Int.lt_zpow_iff_log_lt one_lt_two (x := e + 1) hr
  push_cast at hlow hhigh
  rw [hlow, hhigh]
  omega

namespace Binary64

theorem reaches_iff (n : ℕ) {d : ℕ} (hd : 0 < d) (e : ℤ) :
    (if 0 ≤ e then decide (d * Nat.pow 2 e.toNat ≤ n) else decide (d ≤ n * Nat.pow 2 (-e).toNat)) =
      true ↔ (2 : ℚ) ^ e ≤ n / d := by
  have hd' : (0 : ℚ) < d := by exact_mod_cast hd
  rw [le_div_iff₀ hd']
  split_ifs with he
  · obtain ⟨k, rfl⟩ := Int.eq_ofNat_of_zero_le he
    simp only [Int.toNat_natCast, zpow_natCast, decide_eq_true_eq]
    rw [mul_comm]
    exact_mod_cast Iff.rfl
  · obtain ⟨k, hk⟩ := Int.eq_ofNat_of_zero_le (by omega : 0 ≤ -e)
    rw [hk, show e = -(k : ℤ) by omega, zpow_neg, inv_mul_le_iff₀ (by positivity), zpow_natCast]
    simp only [Int.toNat_natCast, decide_eq_true_eq]
    rw [mul_comm]
    exact_mod_cast Iff.rfl

/-- The lengths of numerator and denominator bound a quotient from below. -/
theorem zpow_log2_sub_le_div {n d : ℕ} (hn : 0 < n) (hd : 0 < d) :
    (2 : ℚ) ^ ((n.log2 : ℤ) - d.log2 - 1) ≤ n / d := by
  have hnlow : (2 : ℚ) ^ (n.log2 : ℤ) ≤ n := by exact_mod_cast Nat.log2_self_le hn.ne'
  have hdhigh : (d : ℚ) < 2 ^ ((d.log2 : ℤ) + 1) := by exact_mod_cast Nat.lt_log2_self
  rw [le_div_iff₀ (by exact_mod_cast hd)]
  calc (2 : ℚ) ^ ((n.log2 : ℤ) - d.log2 - 1) * d
      ≤ 2 ^ ((n.log2 : ℤ) - d.log2 - 1) * 2 ^ ((d.log2 : ℤ) + 1) := by gcongr
    _ = 2 ^ (n.log2 : ℤ) := by rw [← zpow_add₀ two_ne_zero]; congr 1; ring
    _ ≤ n := hnlow

/-- The lengths of numerator and denominator bound a quotient from above. -/
theorem div_lt_zpow_log2_sub {n d : ℕ} (hd : 0 < d) :
    (n / d : ℚ) < 2 ^ ((n.log2 : ℤ) - d.log2 + 1) := by
  have hnhigh : (n : ℚ) < 2 ^ ((n.log2 : ℤ) + 1) := by exact_mod_cast Nat.lt_log2_self
  have hdlow : (2 : ℚ) ^ (d.log2 : ℤ) ≤ d := by exact_mod_cast Nat.log2_self_le hd.ne'
  rw [div_lt_iff₀ (by exact_mod_cast hd)]
  calc (n : ℚ) < 2 ^ ((n.log2 : ℤ) + 1) := hnhigh
    _ = 2 ^ ((n.log2 : ℤ) - d.log2 + 1) * 2 ^ (d.log2 : ℤ) := by
      rw [← zpow_add₀ two_ne_zero]; congr 1; ring
    _ ≤ 2 ^ ((n.log2 : ℤ) - d.log2 + 1) * d := by gcongr

theorem floorLog2_eq_log {n d : ℕ} (hn : 0 < n) (hd : 0 < d) :
    floorLog2 n d = Int.log 2 (n / d : ℚ) := by
  have hr : (0 : ℚ) < n / d := by positivity
  symm
  rw [log_eq_iff hr]
  have hbelow := zpow_log2_sub_le_div hn hd
  have habove : (n / d : ℚ) < _ := div_lt_zpow_log2_sub hd
  have hreaches := reaches_iff n hd ((n.log2 : ℤ) - d.log2)
  unfold floorLog2
  by_cases h : (2 : ℚ) ^ ((n.log2 : ℤ) - d.log2) ≤ n / d
  · rw [if_pos (hreaches.mpr h)]
    exact ⟨h, habove⟩
  · rw [if_neg fun hr => h (hreaches.mp hr), sub_add_cancel]
    exact ⟨hbelow, not_le.mp h⟩

/-! ## Values -/

/-- How far a finite value is from zero. -/
def distance (x : Binary64) : ℚ := x.decompose.1 * 2 ^ x.decompose.2

theorem distance_nonneg (x : Binary64) : 0 ≤ x.distance := by
  unfold distance
  positivity

/-- The exponent with which the value nearest to a positive rational is written, unless the
significand overflows: 53 binary digits, but none below the smallest positive value. -/
def exponentFor (r : ℚ) : ℤ := max (Int.log 2 r - 52) (-1074)

/-- The value nearest to a nonnegative rational, a half to the even significand. -/
def nearestTo (negative : Bool) (r : ℚ) : Binary64 :=
  if r = 0 then ofParts negative 0
  else
    ofParts negative (min ((exponentFor r + 1074).toNat * fractionWeight +
      roundRatio (r / 2 ^ exponentFor r)) infiniteMagnitude)

theorem ofQuotient_eq_nearestTo (negative : Bool) {n d : ℕ} (hd : 0 < d) :
    ofQuotient negative n d = nearestTo negative (n / d) := by
  have hd' : (d : ℚ) ≠ 0 := by exact_mod_cast hd.ne'
  unfold ofQuotient nearestTo
  rcases Nat.eq_zero_or_pos n with rfl | hn
  · simp
  · rw [if_neg hn.ne', if_neg (by positivity : (n / d : ℚ) ≠ 0)]
    rw [floorLog2_eq_log hn hd]
    change ofParts negative (min ((exponentFor (n / d) + 1074).toNat * fractionWeight + _) _) = _
    congr 3
    change (if 0 ≤ exponentFor (n / d) then roundDiv n (d * Nat.pow 2 (exponentFor (n / d)).toNat)
      else roundDiv (n * Nat.pow 2 (-exponentFor (n / d)).toNat) d) = _
    split_ifs with he
    · obtain ⟨k, hk⟩ := Int.eq_ofNat_of_zero_le he
      rw [hk, Int.toNat_natCast, Nat.pow_eq,
        roundDiv_eq_roundRatio (Nat.mul_pos hd (Nat.pow_pos two_pos))]
      congr 1
      rw [zpow_natCast]
      push_cast
      rw [div_div]
    · obtain ⟨k, hk⟩ := Int.eq_ofNat_of_zero_le (by omega : 0 ≤ -exponentFor (n / d))
      rw [roundDiv_eq_roundRatio hd, hk, show exponentFor (n / d) = -(k : ℤ) by omega]
      congr 1
      simp only [Int.toNat_natCast, zpow_neg, zpow_natCast, Nat.pow_eq]
      push_cast
      field_simp

/-! ## Parts -/

private theorem lt_signWeight {m : ℕ} (hm : m ≤ infiniteMagnitude) : m < 0x8000000000000000 :=
  hm.trans_lt (by decide)

theorem magnitude_ofParts (negative : Bool) {m : ℕ} (hm : m ≤ infiniteMagnitude) :
    (ofParts negative m).magnitude = m := by
  have hlt := lt_signWeight hm
  unfold magnitude ofParts signWeight
  rw [UInt64.toNat_ofNat']
  cases negative <;> simp only [Bool.false_eq_true, if_false, if_true] <;> omega

theorem negative_ofParts (negative : Bool) {m : ℕ} (hm : m ≤ infiniteMagnitude) :
    (ofParts negative m).negative = negative := by
  have hlt := lt_signWeight hm
  unfold Binary64.negative ofParts signWeight
  rw [UInt64.toNat_ofNat']
  cases negative <;>
    simp only [Bool.false_eq_true, if_false, if_true, decide_eq_false_iff_not, decide_eq_true_eq] <;>
    omega

/-- The distance from zero that belongs to a significand and an exponent. A significand that
overflows counts as the next exponent. -/
theorem distance_of_magnitude {x : Binary64} {q : ℤ} {m : ℕ} (hq : -1074 ≤ q)
    (hx : x.magnitude = (q + 1074).toNat * fractionWeight + m) (hm : m ≤ 2 * fractionWeight)
    (hleast : q = -1074 ∨ fractionWeight ≤ m) : x.distance = m * 2 ^ q := by
  obtain ⟨k, hk⟩ := Int.eq_ofNat_of_zero_le (by omega : 0 ≤ q + 1074)
  obtain rfl : q = k - 1074 := by omega
  rw [show ((k : ℤ) - 1074 + 1074).toNat = k by omega] at hx
  unfold distance decompose
  rw [hx]
  unfold fractionWeight at *
  rcases Nat.lt_trichotomy m (2 * 0x10000000000000) with hlt | rfl | hgt
  · rcases Nat.lt_or_ge m 0x10000000000000 with hsmall | hlarge
    · obtain rfl : k = 0 := by omega
      have hfield : (0 * 0x10000000000000 + m) / 0x10000000000000 = 0 := by omega
      have hfraction : (0 * 0x10000000000000 + m) % 0x10000000000000 = m := by omega
      simp only [hfield, hfraction, if_true]
      norm_num
    · have hfield : (k * 0x10000000000000 + m) / 0x10000000000000 = k + 1 := by omega
      have hfraction : (k * 0x10000000000000 + m) % 0x10000000000000 + 0x10000000000000 = m := by
        omega
      simp only [hfield, hfraction, Nat.add_one_ne_zero, if_false]
      congr 2
      push_cast
      ring
  · have hfield : (k * 0x10000000000000 + 2 * 0x10000000000000) / 0x10000000000000 = k + 2 := by
      omega
    have hfraction : (k * 0x10000000000000 + 2 * 0x10000000000000) % 0x10000000000000 = 0 := by
      omega
    simp only [hfield, hfraction, if_neg (by omega : k + 2 ≠ 0)]
    rw [show ((k + 2 : ℕ) : ℤ) - 1075 = (k : ℤ) - 1074 + 1 by push_cast; ring,
      zpow_add_one₀ two_ne_zero]
    push_cast
    ring
  · omega

/-! ## The nearest value -/

section Nearest

variable {r r' : ℚ} {negative : Bool}

/-- The significand of the value nearest to a positive rational, before it is cut. -/
def significandFor (r : ℚ) : ℕ := roundRatio (r / 2 ^ exponentFor r)

theorem le_exponentFor (r : ℚ) : -1074 ≤ exponentFor r := le_max_right _ _

/-- What is rounded to the significand has at most 53 digits before the point. -/
theorem div_exponentFor_lt (hr : 0 < r) : r / 2 ^ exponentFor r < (2 * fractionWeight : ℕ) := by
  have hlog := ((log_eq_iff hr).mp rfl).2
  rw [div_lt_iff₀ (by positivity)]
  calc r < 2 ^ (Int.log 2 r + 1) := hlog
    _ ≤ 2 ^ (53 + exponentFor r) := by
      refine zpow_le_zpow_right₀ one_le_two ?_
      have := le_max_left (Int.log 2 r - 52) (-1074)
      unfold exponentFor
      omega
    _ = (2 * fractionWeight : ℕ) * 2 ^ exponentFor r := by
      rw [zpow_add₀ two_ne_zero]
      norm_num [fractionWeight]

/-- The significand has at most 53 digits, or is the next power of two. -/
theorem significandFor_le (hr : 0 < r) : significandFor r ≤ 2 * fractionWeight := by
  have hmono := roundRatio_mono (by positivity : 0 ≤ r / 2 ^ exponentFor r) (div_exponentFor_lt hr).le
  rwa [roundRatio_natCast] at hmono

theorem abs_significandFor_sub_le (hr : 0 < r) :
    |(significandFor r : ℚ) - r / 2 ^ exponentFor r| ≤ 1 / 2 :=
  abs_roundRatio_sub_le (by positivity)

/-- The significand has all 53 digits, unless the exponent is the least one. -/
theorem fractionWeight_le_significandFor (hr : 0 < r) :
    exponentFor r = -1074 ∨ fractionWeight ≤ significandFor r := by
  rcases max_choice (Int.log 2 r - 52) (-1074) with hexponent | hexponent
  · right
    have hlog := ((log_eq_iff hr).mp rfl).1
    have hscaled : ((fractionWeight : ℕ) : ℚ) ≤ r / 2 ^ exponentFor r := by
      rw [le_div_iff₀ (by positivity), exponentFor, hexponent]
      calc ((fractionWeight : ℕ) : ℚ) * 2 ^ (Int.log 2 r - 52)
          = 2 ^ (52 : ℤ) * 2 ^ (Int.log 2 r - 52) := by norm_num [fractionWeight]
        _ = 2 ^ Int.log 2 r := by rw [← zpow_add₀ two_ne_zero]; congr 1; ring
        _ ≤ r := hlog
    have hmono := roundRatio_mono (Nat.cast_nonneg _) hscaled
    rwa [roundRatio_natCast] at hmono
  · exact .inl hexponent

/-- The magnitude of the nearest value, before it is cut at the infinities. -/
def magnitudeFor (r : ℚ) : ℕ :=
  if r = 0 then 0 else (exponentFor r + 1074).toNat * fractionWeight + significandFor r

theorem nearestTo_eq (negative : Bool) (r : ℚ) :
    nearestTo negative r = ofParts negative (min (magnitudeFor r) infiniteMagnitude) := by
  unfold nearestTo magnitudeFor
  split_ifs
  · rfl
  · rfl

theorem magnitude_nearestTo (negative : Bool) (r : ℚ) :
    (nearestTo negative r).magnitude = min (magnitudeFor r) infiniteMagnitude := by
  rw [nearestTo_eq, magnitude_ofParts negative (min_le_right _ _)]

theorem negative_nearestTo (negative : Bool) (r : ℚ) :
    (nearestTo negative r).negative = negative := by
  rw [nearestTo_eq, negative_ofParts negative (min_le_right _ _)]

theorem isNaN_nearestTo (negative : Bool) (r : ℚ) : (nearestTo negative r).isNaN = false := by
  unfold isNaN
  rw [magnitude_nearestTo]
  exact decide_eq_false (not_lt.mpr (min_le_right _ _))

theorem exponentFor_mono (hr : 0 < r) (h : r ≤ r') : exponentFor r ≤ exponentFor r' :=
  max_le_max_right _ (Int.sub_le_sub_right (Int.log_mono_right hr h) 52)

/-- A larger rational has a larger magnitude, or the same. -/
theorem magnitudeFor_mono (hr : 0 ≤ r) (h : r ≤ r') : magnitudeFor r ≤ magnitudeFor r' := by
  unfold magnitudeFor
  rcases hr.eq_or_lt with rfl | hpos
  · rw [if_pos rfl]
    exact Nat.zero_le _
  have hpos' := hpos.trans_le h
  rw [if_neg hpos.ne', if_neg hpos'.ne']
  have hexponent := exponentFor_mono hpos h
  have hleast := le_exponentFor r
  rcases hexponent.lt_or_eq with hlt | heq
  · -- the significands of a larger exponent start where those of the smaller one end
    have hle := significandFor_le hpos
    have hge := (fractionWeight_le_significandFor hpos').resolve_left (by omega)
    have hstep : (exponentFor r + 1074).toNat + 1 ≤ (exponentFor r' + 1074).toNat := by omega
    have hweight := Nat.mul_le_mul_right fractionWeight hstep
    rw [Nat.add_one_mul] at hweight
    omega
  · rw [heq]
    refine Nat.add_le_add_left (roundRatio_mono (by positivity) ?_) _
    rw [heq]
    gcongr

theorem magnitude_nearestTo_mono (negative : Bool) (hr : 0 ≤ r) (h : r ≤ r') :
    (nearestTo negative r).magnitude ≤ (nearestTo negative r').magnitude := by
  rw [magnitude_nearestTo, magnitude_nearestTo]
  exact min_le_min_right _ (magnitudeFor_mono hr h)

/-- Rationals are rounded in their order. -/
theorem nearestTo_le_nearestTo (hr : 0 ≤ r) (h : r ≤ r') :
    nearestTo false r ≤ nearestTo false r' := by
  refine le_iff.mpr ⟨isNaN_nearestTo _ _, isNaN_nearestTo _ _, ?_⟩
  rw [position, position, negative_nearestTo, negative_nearestTo, if_neg Bool.false_ne_true,
    if_neg Bool.false_ne_true]
  exact_mod_cast magnitude_nearestTo_mono false hr h

/-- No rational below the largest power of two is rounded to an infinity. -/
theorem isFinite_nearestTo (negative : Bool) (hr : 0 ≤ r) (h : r < 2 ^ (1023 : ℤ)) :
    (nearestTo negative r).isFinite = true := by
  have hbelow : magnitudeFor r < infiniteMagnitude := by
    unfold magnitudeFor
    rcases hr.eq_or_lt with rfl | hpos
    · rw [if_pos rfl]
      decide
    rw [if_neg hpos.ne']
    have hlog : Int.log 2 r < 1023 := (Int.lt_zpow_iff_log_lt one_lt_two hpos).mp h
    have hexponent : exponentFor r ≤ 970 := max_le (by omega) (by omega)
    have hfield := Nat.mul_le_mul_right fractionWeight
      (by omega : (exponentFor r + 1074).toNat ≤ 2044)
    have hsignificand := significandFor_le hpos
    unfold infiniteMagnitude
    unfold fractionWeight at *
    omega
  unfold isFinite
  rw [magnitude_nearestTo, min_eq_left hbelow.le]
  exact decide_eq_true hbelow

/-- How far the nearest value is from zero, where it is finite. -/
theorem distance_nearestTo (hr : 0 < r) (hfinite : (nearestTo negative r).isFinite = true) :
    (nearestTo negative r).distance = significandFor r * 2 ^ exponentFor r := by
  refine distance_of_magnitude (le_exponentFor r) ?_ (significandFor_le hr)
    (fractionWeight_le_significandFor hr)
  have hcut := magnitude_nearestTo negative r
  have hbelow : (nearestTo negative r).magnitude < infiniteMagnitude := by
    simpa [isFinite] using hfinite
  rw [hcut, min_eq_left (by omega)]
  exact if_neg hr.ne'

end Nearest

/-! ## Values of natural numbers -/

theorem ofNat_eq_nearestTo (n : ℕ) : ofNat n = nearestTo false n := by
  rw [ofNat, ofQuotient_eq_nearestTo false one_pos, Nat.cast_one, div_one]

theorem isFinite_ofNat {n : ℕ} (hn : n < 2 ^ 64) : (ofNat n).isFinite = true := by
  rw [ofNat_eq_nearestTo]
  refine isFinite_nearestTo false (Nat.cast_nonneg n) ?_
  calc (n : ℚ) < 2 ^ (64 : ℤ) := by exact_mod_cast hn
    _ ≤ 2 ^ (1023 : ℤ) := zpow_le_zpow_right₀ one_le_two (by norm_num)

theorem negative_ofNat (n : ℕ) : (ofNat n).negative = false := by
  rw [ofNat_eq_nearestTo, negative_nearestTo]

/-- A natural number of at most 53 binary digits is not rounded. -/
theorem distance_ofNat {n : ℕ} (hpos : 0 < n) (hn : n < 2 ^ 53) : (ofNat n).distance = n := by
  have hn' : (0 : ℚ) < n := by exact_mod_cast hpos
  have hfinite := isFinite_ofNat (hn.trans (by norm_num))
  rw [ofNat_eq_nearestTo] at hfinite ⊢
  have hlog : Int.log 2 (n : ℚ) < 53 :=
    (Int.lt_zpow_iff_log_lt one_lt_two hn').mp (by exact_mod_cast hn)
  have hle : exponentFor n ≤ 0 := max_le (by omega) (by omega)
  obtain ⟨k, hk⟩ := Int.eq_ofNat_of_zero_le (neg_nonneg.mpr hle)
  have hexponent : exponentFor n = -(k : ℤ) := by omega
  -- with a negative exponent the significand is a multiple of the number
  have hsignificand : significandFor n = n * 2 ^ k := by
    rw [significandFor, hexponent, zpow_neg, zpow_natCast, div_inv_eq_mul]
    exact_mod_cast roundRatio_natCast (n * 2 ^ k)
  rw [distance_nearestTo hn' hfinite, hsignificand, hexponent, zpow_neg, zpow_natCast]
  push_cast
  field_simp

/-! ## Distances -/

theorem distance_of_magnitude_zero {x : Binary64} (h : x.magnitude = 0) : x.distance = 0 := by
  have h0 := distance_of_magnitude (x := x) (q := -1074) (m := 0) le_rfl (by simpa using h)
    (Nat.zero_le _) (.inl rfl)
  simpa using h0

/-- The exponent of a value and its significand. -/
theorem exists_parts (x : Binary64) : ∃ (q : ℤ) (m : ℕ), -1074 ≤ q ∧
    x.magnitude = (q + 1074).toNat * fractionWeight + m ∧ m < 2 * fractionWeight ∧
    (q = -1074 ∨ fractionWeight ≤ m) := by
  by_cases hsmall : x.magnitude < fractionWeight
  · exact ⟨-1074, x.magnitude, le_rfl, by simp, by omega, .inl rfl⟩
  · have hdiv := Nat.div_add_mod' x.magnitude fractionWeight
    have hpos : 0 < fractionWeight := by decide
    have hfield : 1 ≤ x.magnitude / fractionWeight := Nat.div_pos (not_lt.mp hsmall) hpos
    have hmod := Nat.mod_lt x.magnitude hpos
    refine ⟨(x.magnitude / fractionWeight : ℕ) - 1075, x.magnitude % fractionWeight + fractionWeight,
      by omega, ?_, by omega, .inr (by omega)⟩
    rw [show (((x.magnitude / fractionWeight : ℕ) : ℤ) - 1075 + 1074).toNat =
      x.magnitude / fractionWeight - 1 by omega, Nat.sub_mul]
    have := Nat.mul_le_mul_right fractionWeight hfield
    omega

theorem distance_mono {x y : Binary64} (h : x.magnitude ≤ y.magnitude) :
    x.distance ≤ y.distance := by
  obtain ⟨q, m, hq, hx, hm, hleast⟩ := exists_parts x
  obtain ⟨q', m', hq', hy, hm', hleast'⟩ := exists_parts y
  rw [distance_of_magnitude hq hx hm.le hleast, distance_of_magnitude hq' hy hm'.le hleast']
  rw [hx, hy] at h
  rcases lt_trichotomy q q' with hlt | rfl | hgt
  · have hge := hleast'.resolve_left (by omega)
    calc (m : ℚ) * 2 ^ q ≤ (2 * fractionWeight : ℕ) * 2 ^ q := by gcongr
      _ = (fractionWeight : ℕ) * 2 ^ (q + 1) := by
        rw [zpow_add_one₀ two_ne_zero]
        push_cast
        ring
      _ ≤ m' * 2 ^ q' := by
        gcongr
        · exact one_le_two
        · exact hlt
  · have hmm : m ≤ m' := by omega
    gcongr
  · have hge := hleast.resolve_left (by omega)
    have hstep : (q' + 1074).toNat + 1 ≤ (q + 1074).toNat := by omega
    have hweight := Nat.mul_le_mul_right fractionWeight hstep
    rw [Nat.add_one_mul] at hweight
    omega

/-- The quotient of a value is its distance from zero. -/
theorem quotient_eq_distance (x : Binary64) :
    0 < x.quotient.2 ∧ (x.quotient.1 : ℚ) / x.quotient.2 = x.distance := by
  unfold quotient distance
  obtain ⟨m, q⟩ := x.decompose
  simp only
  split_ifs with hq
  · obtain ⟨k, rfl⟩ := Int.eq_ofNat_of_zero_le hq
    simp
  · obtain ⟨k, hk⟩ := Int.eq_ofNat_of_zero_le (by omega : 0 ≤ -q)
    obtain rfl : q = -(k : ℤ) := by omega
    simp [div_eq_mul_inv]

theorem truncate_eq_floor {x : Binary64} (hsign : x.negative = false) (hfinite : x.isFinite = true) :
    x.truncate = min ⌊x.distance⌋₊ (UInt64.size - 1) := by
  have hnumber : x.isNaN = false := by
    unfold isNaN
    have hlt : x.magnitude < infiniteMagnitude := by simpa [isFinite] using hfinite
    exact decide_eq_false (by omega)
  obtain ⟨-, hdistance⟩ := x.quotient_eq_distance
  rw [← hdistance, Nat.floor_div_eq_div]
  unfold truncate
  rw [hnumber, hsign, hfinite]
  rfl

end Binary64

end LayerPipeline
