import LayerPipeline.Number.Decimal

/-!
# Order of binary floating point numbers

Bounds that hold for every bit pattern, also for those that are not numbers.
-/

namespace LayerPipeline.Binary64

variable {x y : Binary64}

theorem lt_iff : x < y ↔ x.isNaN = false ∧ y.isNaN = false ∧ x.position < y.position := by
  change x.lt y = true ↔ _
  simp [lt, and_assoc]

theorem le_iff : x ≤ y ↔ x.isNaN = false ∧ y.isNaN = false ∧ x.position ≤ y.position := by
  change x.le y = true ↔ _
  simp [le, and_assoc]

theorem max_eq (x y : Binary64) : max x y = if x.isNaN then y else if x < y then y else x := rfl

/-! ## Zero and one -/

theorem zero_eq : (0.0 : Binary64) = ⟨0⟩ := by decide +kernel

theorem one_eq : (1.0 : Binary64) = ⟨0x3ff0000000000000⟩ := by decide +kernel

theorem isNaN_zero : (0.0 : Binary64).isNaN = false := by
  rw [zero_eq]
  decide

theorem isNaN_one : (1.0 : Binary64).isNaN = false := by
  rw [one_eq]
  decide

theorem position_zero : (0.0 : Binary64).position = 0 := by
  rw [zero_eq]
  decide

theorem position_one : 0 < (1.0 : Binary64).position := by
  rw [one_eq]
  decide

/-- A value that is at least zero stays the lower bound of a maximum, whatever the other one is. -/
theorem zero_le_max (x : Binary64) (hy : 0.0 ≤ y) : 0.0 ≤ max x y := by
  rw [max_eq]
  grind [lt_iff, le_iff]

theorem zero_le_max_zero (x : Binary64) : 0.0 ≤ max x 0.0 :=
  zero_le_max x (le_iff.mpr ⟨isNaN_zero, isNaN_zero, Int.le_refl _⟩)

/-- Moving a value up to zero does not take it to one. -/
theorem one_le_max_zero (x : Binary64) : 1.0 ≤ max x 0.0 ↔ 1.0 ≤ x := by
  rw [max_eq]
  grind [lt_iff, le_iff, isNaN_zero, isNaN_one, position_zero, position_one]

/-- Moving a value between zero and one does not take it to one, unless it was there or above. -/
theorem one_le_clamp (x : Binary64) : 1.0 ≤ Scalar.clamp x 0.0 1.0 ↔ 1.0 ≤ x := by
  unfold Scalar.clamp
  grind [lt_iff, le_iff, isNaN_zero, isNaN_one, position_zero, position_one]

/-! ## Bounds -/

section Bounds

variable {lo hi : Binary64}

theorem max_self (x : Binary64) : max x x = x := by
  rw [max_eq]
  split
  · rfl
  · split <;> rfl

theorem max_zero (hx : 0.0 < x) : max x 0.0 = x := by
  rw [max_eq]
  grind [lt_iff]

/-- A clamp has a result when its bounds are numbers in their order. -/
theorem clamp?_eq_some_iff :
    Scalar.clamp? x lo hi = some y ↔ lo ≤ hi ∧ Scalar.clamp x lo hi = y := by
  unfold Scalar.clamp?
  split
  · next h => exact ⟨fun hy => ⟨h, Option.some.inj hy⟩, fun hy => congrArg some hy.2⟩
  · next h => exact ⟨fun hy => (nomatch hy), fun hy => absurd hy.1 h⟩

/-- Only what is not a number is left outside the bounds. -/
theorem clamp_between (x : Binary64) (h : lo ≤ hi) :
    (Scalar.clamp x lo hi).isNaN = true ∨
      lo ≤ Scalar.clamp x lo hi ∧ Scalar.clamp x lo hi ≤ hi := by
  unfold Scalar.clamp
  grind [lt_iff, le_iff]

/-- A value between the bounds is left as it is. -/
theorem clamp_of_between (hlo : lo ≤ x) (hhi : x ≤ hi) : Scalar.clamp x lo hi = x := by
  unfold Scalar.clamp
  grind [lt_iff, le_iff]

end Bounds

end LayerPipeline.Binary64
