import LayerPipeline.Proofs.Number.Rounding
import Mathlib

/-!
# Operations of the machine

The four operations go through the machine, which takes a value apart into sign, significand and
exponent, computes with these and rounds what comes out. Multiplication and division give the value
nearest to the exact result, so that what is known of rounding rationals holds of them. The
subtraction of zero gives the minuend.
-/

namespace LayerPipeline.Binary64

open Float.Model Float.Model.UnpackedFloat

/-- The parts of a value as the machine takes them. -/
def unpacked (x : Binary64) : UnpackedFloat := unpack .binary64 x.bits.toBitVec

/-- The value that the machine makes of parts. -/
def packed (u : UnpackedFloat) : Binary64 := ⟨⟨pack .binary64 u⟩⟩

theorem unpack_pack_unpack (b : BitVec 64) :
    unpack .binary64 (pack .binary64 (unpack .binary64 b)) = unpack .binary64 b := by
  rw [pack_unpack]
  split_ifs with h
  · simp only [isNaNBits, decide_eq_true_eq] at h
    rw [unpack_packedNaN]
    simp [UnpackedFloat.unpack, h.1, h.2]
  · rfl

theorem mul_eq_packed (x y : Binary64) :
    x * y = packed (UnpackedFloat.mul .binary64 x.unpacked y.unpacked) := by
  unfold unpacked
  rw [← unpack_pack_unpack x.bits.toBitVec, ← unpack_pack_unpack y.bits.toBitVec]
  rfl

theorem div_eq_packed (x y : Binary64) :
    x / y = packed (UnpackedFloat.div .binary64 x.unpacked y.unpacked) := by
  unfold unpacked
  rw [← unpack_pack_unpack x.bits.toBitVec, ← unpack_pack_unpack y.bits.toBitVec]
  rfl

theorem sub_eq_packed (x y : Binary64) :
    x - y = packed (UnpackedFloat.sub .binary64 x.unpacked y.unpacked) := by
  unfold unpacked
  rw [← unpack_pack_unpack x.bits.toBitVec, ← unpack_pack_unpack y.bits.toBitVec]
  rfl

theorem toNat_unpackExponent (x : Binary64) :
    (@unpackExponent .binary64 x.bits.toBitVec).toNat = x.magnitude / fractionWeight := by
  rw [unpackExponent_def]
  simp [magnitude, signWeight, fractionWeight, Nat.shiftRight_eq_div_pow]
  omega

theorem toNat_unpackMantissa (x : Binary64) :
    (@unpackMantissa .binary64 x.bits.toBitVec).toNat = x.magnitude % fractionWeight := by
  rw [unpackMantissa_def]
  simp [magnitude, signWeight, fractionWeight]

/-- The sign of a value. -/
def sign (negative : Bool) : Sign := if negative then .negative else .positive

theorem ofBitVec_unpackSign (x : Binary64) :
    Sign.ofBitVec (@unpackSign .binary64 x.bits.toBitVec) = sign x.negative := by
  have hbit : (@unpackSign .binary64 x.bits.toBitVec).toNat = x.bits.toNat / signWeight := by
    have hbits := x.bits.toNat_lt
    rw [unpackSign_def]
    simp [signWeight, Nat.shiftRight_eq_div_pow]
    omega
  have hweight : 0 < signWeight := by decide
  unfold Sign.ofBitVec sign negative
  simp only [decide_eq_true_eq]
  by_cases hn : signWeight ≤ x.bits.toNat
  · have hone : 0 < x.bits.toNat / signWeight := Nat.div_pos hn hweight
    rw [if_pos hn, if_neg fun h => by rw [h] at hbit; simp at hbit; omega]
  · have hnone : x.bits.toNat / signWeight = 0 := Nat.div_eq_of_lt (not_le.mp hn)
    have hvector : @unpackSign .binary64 x.bits.toBitVec = 0#1 :=
      BitVec.eq_of_toNat_eq (by rw [hbit, hnone]; rfl)
    rw [if_neg hn, if_pos hvector]

theorem decompose_pos {x : Binary64} (h0 : x.magnitude ≠ 0) : 0 < x.decompose.1 := by
  unfold decompose fractionWeight
  simp only
  split_ifs <;> simp only <;> omega

theorem unpacked_of_isFinite {x : Binary64} (hfinite : x.isFinite = true) (h0 : x.magnitude ≠ 0) :
    x.unpacked = .finite (sign x.negative) x.decompose.1 x.decompose.2 (decompose_pos h0) := by
  have hbelow : x.magnitude < infiniteMagnitude := by simpa [isFinite] using hfinite
  have hexponent := x.toNat_unpackExponent
  have hmantissa := x.toNat_unpackMantissa
  have hnotAll : @unpackExponent .binary64 x.bits.toBitVec ≠ -1#11 := by
    intro h
    rw [h] at hexponent
    simp [infiniteMagnitude, fractionWeight] at hexponent hbelow
    omega
  unfold unpacked UnpackedFloat.unpack
  simp only [if_neg hnotAll, ofBitVec_unpackSign]
  by_cases hzero : @unpackExponent .binary64 x.bits.toBitVec = 0#11
  · have hfield : x.magnitude / fractionWeight = 0 := by rw [← hexponent, hzero]; rfl
    have hrest : @unpackMantissa .binary64 x.bits.toBitVec ≠ 0#52 := by
      intro h
      rw [h] at hmantissa
      simp [fractionWeight] at hmantissa hfield
      omega
    have hparts : x.decompose = (x.magnitude % fractionWeight, -1074) := if_pos hfield
    simp only [if_pos hzero, dif_neg hrest]
    rw [UnpackedFloat.finite.injEq, hparts, hmantissa, hexponent, hfield]
    exact ⟨rfl, rfl, rfl⟩
  · have hfield : x.magnitude / fractionWeight ≠ 0 := by
      rw [← hexponent]
      exact fun h => hzero (BitVec.eq_of_toNat_eq h)
    have hparts : x.decompose = (x.magnitude % fractionWeight + fractionWeight,
      ((x.magnitude / fractionWeight : ℕ) : ℤ) - 1075) := if_neg hfield
    simp only [if_neg hzero]
    rw [UnpackedFloat.finite.injEq, hparts, BitVec.toNat_append,
      ← Nat.shiftLeft_add_eq_or_of_lt (BitVec.isLt _), hmantissa, hexponent]
    exact ⟨rfl, Nat.add_comm _ _, rfl⟩

theorem unpacked_of_magnitude_zero {x : Binary64} (h0 : x.magnitude = 0) :
    x.unpacked = .zero (sign x.negative) := by
  have hexponent := x.toNat_unpackExponent
  have hmantissa := x.toNat_unpackMantissa
  rw [h0] at hexponent hmantissa
  have hzero : @unpackExponent .binary64 x.bits.toBitVec = 0#11 :=
    BitVec.eq_of_toNat_eq hexponent
  have hrest : @unpackMantissa .binary64 x.bits.toBitVec = 0#52 :=
    BitVec.eq_of_toNat_eq hmantissa
  unfold unpacked UnpackedFloat.unpack
  simp only [ofBitVec_unpackSign, hzero, hrest]
  rfl

/-! ## Packing -/

theorem packed_components (negative : Bool) {exponent fraction : ℕ} (he : exponent < 2 ^ 11)
    (hf : fraction < fractionWeight) :
    (⟨⟨packComponents .binary64 (sign negative) (BitVec.ofNat 11 exponent)
      (BitVec.ofNat 52 fraction)⟩⟩ : Binary64) =
      ofParts negative (exponent * fractionWeight + fraction) := by
  unfold ofParts
  congr 1
  apply UInt64.toNat_inj.mp
  rw [UInt64.toNat_ofNat']
  change (packComponents .binary64 (sign negative) (BitVec.ofNat 11 exponent)
      (BitVec.ofNat 52 fraction)).toNat = _
  unfold fractionWeight at *
  unfold packComponents signWeight
  rw [BitVec.toNat_append, ← Nat.shiftLeft_add_eq_or_of_lt (BitVec.isLt _), BitVec.toNat_append,
    ← Nat.shiftLeft_add_eq_or_of_lt (BitVec.isLt _), BitVec.toNat_ofNat, BitVec.toNat_ofNat,
    Nat.mod_eq_of_lt he, Nat.mod_eq_of_lt hf]
  cases negative <;> simp [sign, Sign.toBitVec, Nat.shiftLeft_eq] <;> omega

theorem packed_zero (negative : Bool) : packed (.zero (sign negative)) = ofParts negative 0 :=
  packed_components negative (by decide) (by decide)

theorem packed_finite (negative : Bool) {q : ℤ} {m : ℕ} (h0 : 0 < m) (hq : -1074 ≤ q)
    (hm : m < 2 * fractionWeight) (hleast : q = -1074 ∨ fractionWeight ≤ m) :
    packed (.finite (sign negative) m q h0) =
      ofParts negative (min ((q + 1074).toNat * fractionWeight + m) infiniteMagnitude) := by
  obtain ⟨k, hk⟩ := Int.eq_ofNat_of_zero_le (by omega : 0 ≤ q + 1074)
  obtain rfl : q = k - 1074 := by omega
  rw [show ((k : ℤ) - 1074 + 1074).toNat = k by omega]
  have hbiased : ((k : ℤ) - 1074 + Format.binary64.exponentBias +
      Format.binary64.mantissaBitsWithoutImplicit).toNat = k + 1 := by
    change ((k : ℤ) - 1074 + (1023 : ℕ) + (52 : ℕ)).toNat = k + 1
    omega
  have hdigits : m.log2 + 1 = Format.binary64.mantissaBits ↔ fractionWeight ≤ m := by
    change m.log2 + 1 = 53 ↔ 2 ^ 52 ≤ m
    have hlow := Nat.le_log2 h0.ne' (k := 52)
    have hhigh := (Nat.log2_lt h0.ne' (k := 53)).mpr hm
    omega
  unfold packed UnpackedFloat.pack
  simp only [hbiased, hdigits]
  split_ifs with hlarge hnormal
  · have hcut : infiniteMagnitude ≤ k * fractionWeight + m := by
      unfold infiniteMagnitude fractionWeight at *
      omega
    rw [min_eq_right hcut]
    exact packed_components negative (by decide : 0x7ff < 2 ^ 11) (by decide : 0 < fractionWeight)
  · -- the leading digit is not stored: it carries over into the exponent
    have hstored : BitVec.ofNat 52 m = BitVec.ofNat 52 (m - fractionWeight) := by
      apply BitVec.eq_of_toNat_eq
      unfold fractionWeight at *
      simp only [BitVec.toNat_ofNat]
      omega
    have hcut : k * fractionWeight + m ≤ infiniteMagnitude := by
      unfold infiniteMagnitude fractionWeight at *
      omega
    have hcarry : (k + 1) * fractionWeight + (m - fractionWeight) = k * fractionWeight + m := by
      rw [Nat.add_one_mul]
      omega
    rw [min_eq_left hcut, ← hcarry, ← packed_components negative (by omega) (by omega), ← hstored]
  · obtain rfl : k = 0 := by omega
    have hcut : 0 * fractionWeight + m ≤ infiniteMagnitude := by
      unfold infiniteMagnitude fractionWeight at *
      omega
    rw [min_eq_left hcut]
    exact packed_components negative (by decide) (by omega)

/-! ## Rounding -/

/-- A quotient as the machine keeps it: the whole part, and where the rest lies. -/
def extended (n d : ℕ) : ExtendedMantissa :=
  .ofMantissaAndAccuracy (n / d) (accuracyOfFraction (n % d) d)

/-- The first digit behind the whole part, and whether there is another one. -/
theorem extended_eq (n : ℕ) {d : ℕ} (hd : 0 < d) :
    extended n d =
      ⟨n / d, decide (d ≤ 2 * (n % d)), decide (n % d ≠ 0 ∧ 2 * (n % d) ≠ d)⟩ := by
  unfold extended accuracyOfFraction
  by_cases h0 : n % d = 0
  · simp [h0, ExtendedMantissa.ofMantissaAndAccuracy, hd.ne']
  · rw [if_neg h0]
    rcases Nat.lt_trichotomy (2 * (n % d)) d with hlt | heq | hgt
    · simp [Nat.compare_eq_lt.mpr hlt, ExtendedMantissa.ofMantissaAndAccuracy, h0, hlt, hlt.ne]
    · simp [ExtendedMantissa.ofMantissaAndAccuracy, heq]
    · simp [Nat.compare_eq_gt.mpr hgt, ExtendedMantissa.ofMantissaAndAccuracy, h0, hgt.le, hgt.ne']

theorem roundedMantissa_extended (n : ℕ) {d : ℕ} (hd : 0 < d) :
    (extended n d).roundedMantissa = roundDiv n d := by
  rw [extended_eq n hd, roundDiv_eq]
  rcases Nat.lt_trichotomy (2 * (n % d)) d with hlt | heq | hgt
  · rw [decide_eq_false (not_le.mpr hlt), if_neg (by omega)]
    cases decide (n % d ≠ 0 ∧ 2 * (n % d) ≠ d) <;> rfl
  · rw [decide_eq_true heq.ge, decide_eq_false (fun h => h.2 heq)]
    change n / d + n / d % 2 = _
    split_ifs <;> omega
  · rw [decide_eq_true hgt.le, decide_eq_true ⟨by omega, hgt.ne'⟩, if_pos (.inl hgt)]
    rfl

theorem shiftRightOne_extended (n : ℕ) {d : ℕ} (hd : 0 < d) :
    (extended n d).shiftRightOne = extended n (d * 2) := by
  have hrest := Nat.mod_mul (x := n) (a := d) (b := 2)
  have hlt := Nat.mod_lt n hd
  rw [extended_eq n hd, extended_eq n (by positivity), ← Nat.div_div_eq_div_mul, hrest]
  unfold ExtendedMantissa.shiftRightOne
  simp only
  rcases Nat.mod_two_eq_zero_or_one (n / d) with heven | hodd
  · rw [heven]
    congr 1
    · simp
      omega
    · rw [← Bool.decide_or]
      exact decide_eq_decide.mpr (by omega)
  · rw [hodd]
    congr 1
    · simp
      omega
    · rw [← Bool.decide_or]
      exact decide_eq_decide.mpr (by omega)

theorem extended_shiftRight (n : ℕ) {d : ℕ} (hd : 0 < d) (k : ℕ) :
    extended n d >>> k = extended n (d * 2 ^ k) := by
  change k.repeat ExtendedMantissa.shiftRightOne (extended n d) = _
  induction k with
  | zero => simp [Nat.repeat]
  | succ k ih =>
    rw [Nat.repeat, ih, shiftRightOne_extended n (by positivity), pow_succ, mul_assoc]

theorem targetExponent_eq (m : ℕ) (e : ℤ) :
    Format.binary64.targetExponent (totalExponent m e) = max (m.log2 + e - 52) (-1074) := by
  change max ((m.log2 : ℤ) + 1 + e - (53 : ℕ)) (3 - 2 ^ 10 - (53 : ℕ)) = _
  congr 1
  omega

theorem shiftToTargetExponent_eq (m : ℕ) (e : ℤ) (a : Accuracy) (shift : ℕ)
    (h : (max (m.log2 + e - 52) (-1074) - e).toNat = shift) :
    shiftToTargetExponent .binary64 m e a =
      (ExtendedMantissa.ofMantissaAndAccuracy m a >>> shift, e + shift) := by
  subst h
  rw [← targetExponent_eq]
  rfl

/-- A significand that needs no rounding is kept, unless it is one digit too long. -/
theorem shiftToTargetExponent_exact {m : ℕ} {e : ℤ} (he : -1074 ≤ e) (hm : m < 2 * fractionWeight) :
    shiftToTargetExponent .binary64 m e .exact = (⟨m, false, false⟩, e) := by
  have hlog : m.log2 ≤ 52 := by
    rcases Nat.eq_zero_or_pos m with rfl | hpos
    · simp
    · exact Nat.lt_succ_iff.mp ((Nat.log2_lt hpos.ne').mpr hm)
  rw [shiftToTargetExponent_eq m e .exact 0 (by omega), Int.natCast_zero, add_zero]
  rfl

theorem shiftToTargetExponent_overflow {e : ℤ} (he : -1074 ≤ e) :
    shiftToTargetExponent .binary64 (2 * fractionWeight) e .exact =
      (⟨fractionWeight, false, false⟩, e + 1) := by
  have hlog : (2 * fractionWeight).log2 = 53 := by decide +kernel
  rw [shiftToTargetExponent_eq _ e .exact 1 (by rw [hlog]; omega)]
  rfl

section Quotient

variable {n d : ℕ} {e : ℤ}

/-- The exponent that the machine finds for a quotient. The whole part has as many binary digits as
the quotient itself, if it has any. -/
theorem targetExponent_quotient (hn : 0 < n) (hd : 0 < d) (hwhole : n / d = 0 → e ≤ -1074) :
    max ((n / d).log2 + e - 52) (-1074) = exponentFor (n / d * 2 ^ e) := by
  have hd' : (0 : ℚ) < d := by exact_mod_cast hd
  have hpos : (0 : ℚ) < n / d * 2 ^ e := by positivity
  unfold exponentFor
  rcases Nat.eq_zero_or_pos (n / d) with hzero | hwhole'
  · have hsmall : (n / d * 2 ^ e : ℚ) < 2 ^ e := by
      have hlt : n < d := (Nat.div_eq_zero_iff.mp hzero).resolve_left hd.ne'
      refine mul_lt_of_lt_one_left (by positivity) ?_
      rw [div_lt_one hd']
      exact_mod_cast hlt
    have hlog : Int.log 2 (n / d * 2 ^ e : ℚ) < e :=
      (Int.lt_zpow_iff_log_lt one_lt_two hpos).mp (by exact_mod_cast hsmall)
    have he := hwhole hzero
    rw [hzero, Nat.log2_zero]
    omega
  · have hlow : 2 ^ (n / d).log2 * d ≤ n :=
      (Nat.le_div_iff_mul_le hd).mp (Nat.log2_self_le hwhole'.ne')
    have hhigh : n < 2 ^ ((n / d).log2 + 1) * d := (Nat.div_lt_iff_lt_mul hd).mp Nat.lt_log2_self
    have hlog : Int.log 2 (n / d * 2 ^ e : ℚ) = (n / d).log2 + e := by
      rw [log_eq_iff hpos, add_right_comm, zpow_add₀ two_ne_zero, zpow_add₀ two_ne_zero]
      constructor
      · gcongr
        rw [le_div_iff₀ hd']
        exact_mod_cast hlow
      · gcongr
        rw [div_lt_iff₀ hd']
        exact_mod_cast hhigh
    rw [hlog]

/-- The exponent and the significand that the machine finds for a quotient are those of the
nearest value. -/
theorem shiftToTargetExponent_quotient (hn : 0 < n) (hd : 0 < d) (hwhole : n / d = 0 → e ≤ -1074)
    (he : e ≤ exponentFor (n / d * 2 ^ e)) :
    (shiftToTargetExponent .binary64 (n / d) e (accuracyOfFraction (n % d) d)).1.roundedMantissa =
        significandFor (n / d * 2 ^ e) ∧
      (shiftToTargetExponent .binary64 (n / d) e (accuracyOfFraction (n % d) d)).2 =
        exponentFor (n / d * 2 ^ e) := by
  have htarget := targetExponent_quotient hn hd hwhole
  obtain ⟨shift, hshift⟩ := Int.eq_ofNat_of_zero_le (sub_nonneg.mpr he)
  rw [shiftToTargetExponent_eq _ e _ shift (by rw [htarget, hshift, Int.toNat_natCast])]
  refine ⟨?_, by omega⟩
  change (extended n d >>> shift).roundedMantissa = _
  rw [extended_shiftRight n hd, roundedMantissa_extended n (by positivity),
    roundDiv_eq_roundRatio (by positivity), significandFor]
  congr 1
  rw [show exponentFor (n / d * 2 ^ e) = e + shift by omega, zpow_add₀ two_ne_zero]
  push_cast
  rw [zpow_natCast]
  field_simp

/-- Rounding what the machine keeps of a quotient gives the nearest value. -/
theorem packed_roundWithAccuracy (negative : Bool) (hn : 0 < n) (hd : 0 < d)
    (hwhole : n / d = 0 → e ≤ -1074) (he : e ≤ exponentFor (n / d * 2 ^ e)) :
    packed (roundWithAccuracy .binary64 (sign negative) (n / d) e (accuracyOfFraction (n % d) d)) =
      nearestTo negative (n / d * 2 ^ e) := by
  obtain ⟨hsignificand, hexponent⟩ := shiftToTargetExponent_quotient hn hd hwhole he
  set r : ℚ := n / d * 2 ^ e with hr
  have hpos : 0 < r := by positivity
  have hle := significandFor_le hpos
  have hleast := fractionWeight_le_significandFor hpos
  have hbound := le_exponentFor r
  rw [nearestTo_eq, magnitudeFor, if_neg hpos.ne']
  unfold roundWithAccuracy
  simp only [hsignificand, hexponent]
  rcases hle.lt_or_eq with hlt | heq
  · simp only [shiftToTargetExponent_exact hbound hlt]
    split_ifs with h0
    · rw [h0] at hleast ⊢
      rw [packed_zero, hleast.resolve_right (by decide)]
      simp
    · exact packed_finite negative _ hbound hlt hleast
  · simp only [heq, shiftToTargetExponent_overflow hbound]
    have hcarry : (exponentFor r + 1 + 1074).toNat * fractionWeight + fractionWeight =
        (exponentFor r + 1074).toNat * fractionWeight + 2 * fractionWeight := by
      rw [show (exponentFor r + 1 + 1074).toNat = (exponentFor r + 1074).toNat + 1 by omega]
      ring
    rw [dif_neg (by decide), ← hcarry]
    exact packed_finite negative (by decide) (by omega) (by decide) (.inr le_rfl)

end Quotient

/-! ## Operations -/

section Operations

variable {x y : Binary64}

theorem sign_mul_sign (a b : Bool) : sign a * sign b = sign (a ^^ b) := by
  cases a <;> cases b <;> rfl

theorem sign_div_sign (a b : Bool) : sign a / sign b = sign (a ^^ b) := by
  cases a <;> cases b <;> rfl

/-- A significand has all its 53 digits, unless the exponent is the least one. -/
theorem decompose_normal (x : Binary64) :
    -1074 ≤ x.decompose.2 ∧ (x.decompose.2 = -1074 ∨ fractionWeight ≤ x.decompose.1) := by
  unfold decompose fractionWeight
  simp only
  split_ifs with hfield
  · exact ⟨le_rfl, .inl rfl⟩
  · exact ⟨by omega, .inr (by omega)⟩

theorem packed_zero_mul (a b : Bool) : packed (.zero (sign a * sign b)) = nearestTo (a ^^ b) 0 := by
  rw [sign_mul_sign, packed_zero, nearestTo, if_pos rfl]

/-- A product as a quotient with a power of two behind it. -/
theorem distance_mul_distance (x y : Binary64) : x.distance * y.distance =
    ((x.decompose.1 * y.decompose.1 : ℕ) : ℚ) / (1 : ℕ) * 2 ^ (x.decompose.2 + y.decompose.2) := by
  unfold distance
  rw [zpow_add₀ two_ne_zero]
  push_cast
  ring

/-- The exact product has no fewer digits than the nearest value, or is below the least exponent. -/
theorem le_exponentFor_mul (hx0 : x.magnitude ≠ 0) (hy0 : y.magnitude ≠ 0) :
    x.decompose.2 + y.decompose.2 ≤ exponentFor (x.distance * y.distance) := by
  have hm := Nat.mul_pos (decompose_pos hx0) (decompose_pos hy0)
  rw [distance_mul_distance, ← targetExponent_quotient hm one_pos (by rw [Nat.div_one]; omega),
    Nat.div_one]
  obtain ⟨-, hleast | hnormal⟩ := x.decompose_normal
  · obtain ⟨-, hleast' | hnormal'⟩ := y.decompose_normal
    · omega
    · have hlog : 52 ≤ (x.decompose.1 * y.decompose.1).log2 :=
        (Nat.le_log2 hm.ne').mpr (hnormal'.trans (Nat.le_mul_of_pos_left _ (decompose_pos hx0)))
      omega
  · have hlog : 52 ≤ (x.decompose.1 * y.decompose.1).log2 :=
      (Nat.le_log2 hm.ne').mpr (hnormal.trans (Nat.le_mul_of_pos_right _ (decompose_pos hy0)))
    omega

/-- The product of two finite values is the value nearest to the exact product. -/
theorem mul_eq_nearestTo (hx : x.isFinite = true) (hy : y.isFinite = true) :
    x * y = nearestTo (x.negative ^^ y.negative) (x.distance * y.distance) := by
  rw [mul_eq_packed]
  by_cases hx0 : x.magnitude = 0
  · rw [distance_of_magnitude_zero hx0, zero_mul, unpacked_of_magnitude_zero hx0]
    by_cases hy0 : y.magnitude = 0
    · rw [unpacked_of_magnitude_zero hy0]
      exact packed_zero_mul _ _
    · rw [unpacked_of_isFinite hy hy0]
      exact packed_zero_mul _ _
  rw [unpacked_of_isFinite hx hx0]
  by_cases hy0 : y.magnitude = 0
  · rw [distance_of_magnitude_zero hy0, mul_zero, unpacked_of_magnitude_zero hy0]
    exact packed_zero_mul _ _
  rw [unpacked_of_isFinite hy hy0]
  have hm := Nat.mul_pos (decompose_pos hx0) (decompose_pos hy0)
  have hexponent := le_exponentFor_mul hx0 hy0
  rw [distance_mul_distance] at hexponent ⊢
  rw [← packed_roundWithAccuracy _ hm one_pos (by rw [Nat.div_one]; omega) hexponent,
    ← sign_mul_sign, Nat.div_one, Nat.mod_one]
  rfl

/-- The machine shifts the dividend until the quotient has enough digits. -/
theorem packed_divCore (negative : Bool) {m m' : ℕ} {e e' : ℤ} (hm : 0 < m) (hm' : 0 < m') :
    packed (roundWithAccuracy .binary64 (sign negative) (divCore .binary64 m e m' e').1
      (divCore .binary64 m e m' e').2.1 (divCore .binary64 m e m' e').2.2) =
      nearestTo negative (m * 2 ^ e / (m' * 2 ^ e')) := by
  have htarget : Format.binary64.targetExponent (totalExponent m e - totalExponent m' e') =
      max (m.log2 + e - m'.log2 - e' - 53) (-1074) := by
    change max ((m.log2 : ℤ) + 1 + e - (m'.log2 + 1 + e') - (53 : ℕ)) (3 - 2 ^ 10 - (53 : ℕ)) = _
    congr 1
    omega
  unfold divCore
  simp only [htarget, Nat.shiftLeft_eq]
  obtain ⟨t, ht⟩ : ∃ t, t = min (e - e') (max (m.log2 + e - m'.log2 - e' - 53) (-1074)) := ⟨_, rfl⟩
  obtain ⟨shift, hshift⟩ := Int.eq_ofNat_of_zero_le (by omega : 0 ≤ e - e' - t)
  rw [← ht, hshift, Int.toNat_natCast]
  have hexact : (m * 2 ^ e / (m' * 2 ^ e') : ℚ) = ((m * 2 ^ shift : ℕ) : ℚ) / m' * 2 ^ t := by
    rw [show e = e' + shift + t by omega, zpow_add₀ two_ne_zero, zpow_add₀ two_ne_zero,
      zpow_natCast]
    push_cast
    field_simp
  have hpos : (0 : ℚ) < m * 2 ^ e / (m' * 2 ^ e') := by positivity
  -- the difference of the lengths is the length of the quotient, or one more
  have hlow : (2 : ℚ) ^ ((m.log2 : ℤ) + e - m'.log2 - e' - 1) ≤ m * 2 ^ e / (m' * 2 ^ e') := by
    calc (2 : ℚ) ^ ((m.log2 : ℤ) + e - m'.log2 - e' - 1)
        = 2 ^ ((m.log2 : ℤ) - m'.log2 - 1) * (2 ^ e / 2 ^ e') := by
          rw [← zpow_sub₀ two_ne_zero, ← zpow_add₀ two_ne_zero]
          congr 1
          ring
      _ ≤ m / m' * (2 ^ e / 2 ^ e') := by
          gcongr
          exact zpow_log2_sub_le_div hm hm'
      _ = m * 2 ^ e / (m' * 2 ^ e') := by ring
  have hlog : (m.log2 : ℤ) + e - m'.log2 - e' - 1 ≤ Int.log 2 (m * 2 ^ e / (m' * 2 ^ e') : ℚ) :=
    (Int.zpow_le_iff_le_log one_lt_two hpos).mp (by exact_mod_cast hlow)
  have hwhole : m * 2 ^ shift / m' = 0 → t ≤ -1074 := by
    intro hzero
    by_contra hlarge
    have hone : (1 : ℚ) ≤ ((m * 2 ^ shift : ℕ) : ℚ) / m' := by
      refine le_of_mul_le_mul_right ?_ (by positivity : (0 : ℚ) < 2 ^ t)
      rw [one_mul, ← hexact]
      exact (zpow_le_zpow_right₀ one_le_two (by omega)).trans hlow
    rw [one_le_div (by positivity)] at hone
    have hlt := (Nat.div_eq_zero_iff.mp hzero).resolve_left hm'.ne'
    have hge : m' ≤ m * 2 ^ shift := by exact_mod_cast hone
    omega
  have hexponent : t ≤ exponentFor (((m * 2 ^ shift : ℕ) : ℚ) / m' * 2 ^ t) := by
    rw [← hexact, exponentFor]
    omega
  rw [hexact]
  exact packed_roundWithAccuracy negative (by positivity) hm' hwhole hexponent

/-- The quotient of a finite value by one other than zero is the value nearest to the exact
quotient. -/
theorem div_eq_nearestTo (hx : x.isFinite = true) (hy : y.isFinite = true) (hy0 : y.magnitude ≠ 0) :
    x / y = nearestTo (x.negative ^^ y.negative) (x.distance / y.distance) := by
  rw [div_eq_packed, unpacked_of_isFinite hy hy0]
  by_cases hx0 : x.magnitude = 0
  · rw [distance_of_magnitude_zero hx0, zero_div, unpacked_of_magnitude_zero hx0]
    change packed (.zero (sign x.negative / sign y.negative)) = _
    rw [sign_div_sign, packed_zero, nearestTo, if_pos rfl]
  · rw [unpacked_of_isFinite hx hx0, distance, distance,
      ← packed_divCore _ (decompose_pos hx0) (decompose_pos hy0), ← sign_div_sign]
    rfl

/-- Natural numbers that are divided by one positive value keep their order. -/
theorem ofNat_div_le_ofNat_div {m n : ℕ} (h : m ≤ n) (hn : n < 2 ^ 64) (hy : y.isFinite = true)
    (hy0 : y.magnitude ≠ 0) (hsign : y.negative = false) : ofNat m / y ≤ ofNat n / y := by
  have hdistance : (ofNat m).distance ≤ (ofNat n).distance := by
    refine distance_mono ?_
    rw [ofNat_eq_nearestTo, ofNat_eq_nearestTo]
    exact magnitude_nearestTo_mono false (Nat.cast_nonneg m) (by exact_mod_cast h)
  rw [div_eq_nearestTo (isFinite_ofNat (h.trans_lt hn)) hy hy0, div_eq_nearestTo (isFinite_ofNat hn)
    hy hy0, negative_ofNat, negative_ofNat, hsign]
  exact nearestTo_le_nearestTo (div_nonneg (distance_nonneg _) (distance_nonneg _))
    (div_le_div_of_nonneg_right hdistance (distance_nonneg _))

theorem packed_unpacked (hx : x.isNaN = false) : packed x.unpacked = x := by
  have hnumber : @isNaNBits .binary64 x.bits.toBitVec = false := by
    have hexponent := x.toNat_unpackExponent
    have hmantissa := x.toNat_unpackMantissa
    have hbelow : x.magnitude ≤ infiniteMagnitude := by simpa [isNaN] using hx
    refine decide_eq_false fun hnan => hnan.2 (BitVec.eq_of_toNat_eq ?_)
    rw [hnan.1] at hexponent
    rw [hmantissa]
    simp [infiniteMagnitude, fractionWeight] at hexponent hbelow ⊢
    omega
  have hbits : pack .binary64 (unpack .binary64 x.bits.toBitVec) = x.bits.toBitVec := by
    rw [pack_unpack, hnumber]
    rfl
  unfold packed unpacked
  rw [hbits]

/-- A number less nothing is that number. -/
theorem sub_zero (hx : x.isNaN = false) : x - 0.0 = x := by
  have hzero : (0.0 : Binary64).unpacked = .zero .positive := by
    rw [zero_eq]
    exact unpacked_of_magnitude_zero (by decide)
  have hsub : UnpackedFloat.sub .binary64 x.unpacked (.zero .positive) = x.unpacked := by
    cases x.unpacked with
    | zero s => cases s <;> rfl
    | infinity s => rfl
    | notANumber => rfl
    | finite s m e hm => rfl
  rw [sub_eq_packed, hzero, hsub, packed_unpacked hx]

end Operations

end LayerPipeline.Binary64
