import LayerPipeline.Number.Exact
import LayerPipeline.Proofs.Planning.Partition
import Mathlib.Algebra.BigOperators.Group.List.Basic
import Mathlib.Algebra.Order.Ring.Rat
import Mathlib.Tactic.Linarith
import Mathlib.Tactic.NormNum
import Mathlib.Tactic.Ring

/-!
# Planning in exact arithmetic

Over the rationals the operations of a scalar are those of the ordered field, and a difference of
two sums over initial parts of the sequence is the sum of the part between.
-/

namespace LayerPipeline.Planning

/-! ## Operations and constants -/

theorem max_exact (x y : ℚ) : Scalar.toMax.max x y = max x y := by
  change (if y < x then x else y) = _
  rw [max_def]
  split
  · rename_i hlt
    rw [if_neg (not_le.mpr hlt)]
  · rename_i hlt
    rw [if_pos (not_lt.mp hlt)]

theorem min_exact (x y : ℚ) : Scalar.toMin.min x y = min x y := by
  change (if y < x then y else x) = _
  rw [min_def]
  split
  · next hlt => rw [if_neg (not_le.mpr hlt)]
  · next hlt => rw [if_pos (not_lt.mp hlt)]

theorem distance_exact (x y : ℚ) : Scalar.distance x y = |x - y| := by
  change (if x < y then y - x else x - y) = _
  split
  · rename_i hlt
    rw [abs_of_neg (by linarith)]
    ring
  · rename_i hlt
    rw [abs_of_nonneg (by linarith)]

theorem tolerance_exact : (tolerance : ℚ) = 1 / 10 ^ 9 := by
  decide +kernel

theorem tolerance_nonneg : 0 ≤ (tolerance : ℚ) := by
  rw [tolerance_exact]
  norm_num

theorem zero_exact : Scalar.toOfScientific.ofScientific 0 true 1 = (0 : ℚ) := by
  decide +kernel

theorem clamp_exact (x : ℚ) {hi : ℚ} (h : 0 ≤ hi) :
    Scalar.clamp x (Scalar.toOfScientific.ofScientific 0 true 1) hi = max 0 (min x hi) := by
  rw [zero_exact]
  change (if hi < (if x < 0 then 0 else x) then hi else if x < 0 then 0 else x) = _
  by_cases hx : x < 0
  · rw [if_pos hx, if_neg (not_lt.mpr h), min_eq_left (hx.le.trans h), max_eq_left hx.le]
  · rw [if_neg hx, max_eq_right (le_min (not_lt.mp hx) h)]
    split
    · next hhigh => rw [min_eq_right hhigh.le]
    · next hhigh => rw [min_eq_left (not_lt.mp hhigh)]

theorem one_exact : Scalar.toOfScientific.ofScientific 10 true 1 = (1 : ℚ) := by
  decide +kernel

theorem gigabyte_exact : Scalar.toOfScientific.ofScientific 10240 true 1 = (1024 : ℚ) := by
  decide +kernel

/-! ## Largest and smallest values -/

theorem max?_cons_exact (x : ℚ) (xs : List ℚ) :
    (x :: xs).max? = some (xs.foldl Scalar.toMax.max x) := by
  have hmax : Scalar.toMax.max = (max : ℚ → ℚ → ℚ) := by
    funext y z
    exact max_exact y z
  rw [List.max?_cons', hmax]

theorem min?_cons_exact (x : ℚ) (xs : List ℚ) :
    (x :: xs).min? = some (xs.foldl Scalar.toMin.min x) := by
  have hmin : Scalar.toMin.min = (min : ℚ → ℚ → ℚ) := by
    funext y z
    exact min_exact y z
  rw [List.min?_cons', hmin]

/-! ## Sums -/

theorem foldl_add_exact (xs : List ℚ) (x : ℚ) : xs.foldl Scalar.toAdd.add x = x + xs.sum := by
  induction xs generalizing x with
  | nil => simp
  | cons y ys ih =>
    rw [List.foldl_cons, ih, List.sum_cons, ← add_assoc]
    rfl

theorem sum_exact (xs : List ℚ) : Scalar.sum xs = xs.sum := by
  have h := foldl_add_exact xs 0
  rw [zero_add] at h
  exact h

theorem prefixSum_exact (xs : List ℚ) (count : ℕ) : prefixSum xs count = (xs.take count).sum := by
  have h := foldl_add_exact (xs.take count) (Scalar.toOfScientific.ofScientific 0 true 1)
  rw [zero_exact, zero_add] at h
  rw [← h, ← zero_exact]
  rfl

/-- A difference of sums over two initial parts of the sequence is the sum over the block between
them. -/
theorem prefixSum_sub_exact (layers : List (LayerCost ℚ)) (cost : LayerCost ℚ → ℚ) {start stop : ℕ}
    (h : start ≤ stop) :
    prefixSum (layers.map cost) stop - prefixSum (layers.map cost) start =
      Scalar.sum ((slice layers start stop).map cost) := by
  have hsplit : (layers.take stop).map cost = (layers.take start).map cost ++
      (slice layers start stop).map cost := by
    rw [← take_append_slice layers h, List.map_append]
  rw [prefixSum_exact, prefixSum_exact, sum_exact, ← List.map_take, ← List.map_take, hsplit,
    List.sum_append]
  ring

/-- The memory of a block is what its layers take together. -/
theorem memoryOf_exact (layers : List (LayerCost ℚ)) {start stop : ℕ} (h : start ≤ stop) :
    memoryOf layers start stop = Scalar.sum ((slice layers start stop).map (·.memoryMb)) :=
  prefixSum_sub_exact layers (·.memoryMb) h

/-- The latency of a block is that of its layers together. -/
theorem latencyOf_exact (layers : List (LayerCost ℚ)) {start stop : ℕ} (h : start ≤ stop) :
    latencyOf layers start stop = Scalar.sum ((slice layers start stop).map (·.latencyMs)) :=
  prefixSum_sub_exact layers (·.latencyMs) h

/-! ## Memory tests -/

/-- A node fits what is at most its available memory, with no allowance. -/
theorem canFit_exact (node : Node ℚ) (memoryMb : ℚ) :
    node.canFit memoryMb = true ↔ memoryMb ≤ node.availableGb * 1024 := by
  have hfit : node.canFit memoryMb = true ↔
      memoryMb / Scalar.toOfScientific.ofScientific 10240 true 1 ≤ node.availableGb :=
    decide_eq_true_iff
  rw [hfit, gigabyte_exact]
  exact div_le_iff₀ (by norm_num)

/-- A node accepts blocks up to its available memory and the tolerance. -/
theorem Accepts.memoryOf_le {config : PlannerConfig ℚ} {layers : List (LayerCost ℚ)}
    {node : Node ℚ} {start stop : ℕ} (h : Accepts config layers node start stop) :
    memoryOf layers start stop ≤ node.availableGb * 1024 + 1 / 10 ^ 9 := by
  have hfits : ¬ node.availableGb * Scalar.toOfScientific.ofScientific 10240 true 1 + tolerance <
      memoryOf layers start stop := h.fits
  rw [gigabyte_exact, tolerance_exact] at hfits
  exact not_lt.mp hfits

end LayerPipeline.Planning
