import LayerPipeline.Proofs.Number.Machine
import LayerPipeline.Proofs.Profile.History

/-!
# Percentiles of a batch

Completing a batch stamps three latencies on the latest run of each layer that ran more than once.
They stand at fixed ranks of the sorted latencies, so each was recorded and they are in order,
whatever was recorded. The ranks are those of exact arithmetic, as far as a batch fits into a memory.
-/

namespace LayerPipeline

/-! ## Ranks -/

/-- The rank of a quantile among `n` values, by exact arithmetic. -/
def exactRank (q : ℚ) (n : ℕ) : ℕ := min ⌊(n : ℚ) * q⌋₊ (n - 1)

theorem exactRank_lt (q : ℚ) {n : ℕ} (hn : 0 < n) : exactRank q n < n :=
  (min_le_right _ _).trans_lt (by omega)

theorem exactRank_mono {q q' : ℚ} (h : q ≤ q') (n : ℕ) : exactRank q n ≤ exactRank q' n :=
  min_le_min_right _ (Nat.floor_mono (by gcongr))

theorem half_le_exactRank {q : ℚ} (hq : 1 / 2 ≤ q) {n : ℕ} (hn : 2 ≤ n) :
    n / 2 ≤ exactRank q n := by
  refine le_min (Nat.le_floor ?_) (by omega)
  calc ((n / 2 : ℕ) : ℚ) ≤ n / 2 := Nat.cast_div_le
    _ = n * (1 / 2) := by ring
    _ ≤ n * q := by gcongr

namespace Binary64

variable {y : Binary64} {n percent : ℕ}

/-- A rational of at most 47 digits before the point keeps at least six behind it, so that the
significand counts fractions of the whole number. -/
theorem truncate_nearestTo {r : ℚ} (hr : 0 < r) (hlt : r < 2 ^ (47 : ℤ)) :
    ∃ w : ℕ, 64 ≤ w ∧ r / 2 ^ exponentFor r = r * w ∧
      (nearestTo false r).truncate = significandFor r / w := by
  have hlog : Int.log 2 r < 47 := (Int.lt_zpow_iff_log_lt one_lt_two hr).mp hlt
  have hexponent : exponentFor r ≤ -6 := max_le (by omega) (by omega)
  obtain ⟨k, hk⟩ := Int.eq_ofNat_of_zero_le (by omega : 0 ≤ -exponentFor r)
  obtain hexponent' : exponentFor r = -(k : ℤ) := by omega
  have hfinite : (nearestTo false r).isFinite = true :=
    isFinite_nearestTo false hr.le (hlt.trans_le (zpow_le_zpow_right₀ one_le_two (by norm_num)))
  have hdistance : (nearestTo false r).distance = significandFor r / (2 ^ k : ℕ) := by
    rw [distance_nearestTo hr hfinite, hexponent', zpow_neg, zpow_natCast, div_eq_mul_inv]
    push_cast
    rfl
  refine ⟨2 ^ k, Nat.pow_le_pow_right two_pos (by omega : 6 ≤ k), ?_, ?_⟩
  · rw [hexponent', zpow_neg, zpow_natCast, div_inv_eq_mul]
    push_cast
    rfl
  · rw [truncate_eq_floor (negative_nearestTo false r) hfinite, hdistance, Nat.floor_div_eq_div]
    refine min_eq_left ?_
    calc significandFor r / 2 ^ k ≤ significandFor r := Nat.div_le_self _ _
      _ ≤ 2 * fractionWeight := significandFor_le hr
      _ ≤ UInt64.size - 1 := by decide

/-- A significand `s` that was rounded from a little less than `m / 100`, and counts fractions of
`1 / w`: it is rounded up to a whole number that was missed by less, and is still below the next. -/
theorem significand_div_eq {r : ℚ} {s w m : ℕ} (hw : 64 ≤ w) (hshort : r * w < 2 ^ 53)
    (hround : |(s : ℚ) - r * w| ≤ 1 / 2) (hbelow : r ≤ m / 100)
    (hclose : m / 100 - r < r / 2 ^ 54) : s / w = m / 100 := by
  have hw' : (64 : ℚ) ≤ w := by exact_mod_cast hw
  rw [abs_le] at hround
  have hlow : ((m / 100 : ℕ) : ℚ) ≤ m / 100 := Nat.cast_div_le
  have hhigh : (m / 100 : ℚ) ≤ (m / 100 : ℕ) + 99 / 100 := by
    rw [div_le_iff₀ (by norm_num), add_mul, div_mul_cancel₀ _ (by norm_num)]
    exact_mod_cast (by omega : m ≤ m / 100 * 100 + 99)
  have hreached : m / 100 * w ≤ s := by
    have hmissed : ((m / 100 : ℕ) - r) * w < 1 / 2 := by
      calc ((m / 100 : ℕ) - r) * w ≤ (m / 100 - r) * w := by gcongr
        _ ≤ r / 2 ^ 54 * w := by gcongr
        _ = r * w / 2 ^ 54 := by ring
        _ < 2 ^ 53 / 2 ^ 54 := by gcongr
        _ = 1 / 2 := by norm_num
    have hnext : ((m / 100 : ℕ) * w : ℚ) < s + 1 := by linarith
    exact Nat.lt_succ_iff.mp (by exact_mod_cast hnext)
  have hunder : s < (m / 100 + 1) * w := by
    have hroom : r * w ≤ ((m / 100 : ℕ) + 99 / 100) * w := by
      gcongr
      exact hbelow.trans hhigh
    have hstay : (s : ℚ) < ((m / 100 : ℕ) + 1) * w := by linarith
    exact_mod_cast hstay
  exact Nat.div_eq_of_lt_le hreached hunder

/-- What is lost by writing a percentage in binary does not show in a rank. -/
theorem truncate_ofNat_mul (hn : 0 < n) (hbound : n < 2 ^ 47) (hfinite : y.isFinite = true)
    (hsign : y.negative = false) (hpercent : percent ≤ 100) (hpos : 0 < y.distance)
    (hbelow : y.distance ≤ percent / 100)
    (hclose : percent / 100 - y.distance < y.distance / 2 ^ 54) :
    (ofNat n * y).truncate = n * percent / 100 := by
  have hn' : (0 : ℚ) < n := by exact_mod_cast hn
  obtain ⟨r, hr⟩ : ∃ r : ℚ, r = n * y.distance := ⟨_, rfl⟩
  have hrpos : 0 < r := by rw [hr]; positivity
  have hrbelow : r ≤ (n * percent : ℕ) / 100 := by
    rw [hr, Nat.cast_mul, mul_div_assoc]
    gcongr
  have hrclose : (n * percent : ℕ) / 100 - r < r / 2 ^ 54 := by
    calc ((n * percent : ℕ) / 100 - r : ℚ) = n * (percent / 100 - y.distance) := by
          rw [hr, Nat.cast_mul]; ring
      _ < n * (y.distance / 2 ^ 54) := by gcongr
      _ = r / 2 ^ 54 := by rw [hr]; ring
  have hrlt : r < 2 ^ (47 : ℤ) := by
    calc r ≤ (n * percent : ℕ) / 100 := hrbelow
      _ ≤ (n * 100 : ℕ) / 100 := by gcongr
      _ = n := by push_cast; ring
      _ < 2 ^ (47 : ℤ) := by exact_mod_cast hbound
  have hproduct : ofNat n * y = nearestTo false r := by
    rw [mul_eq_nearestTo (isFinite_ofNat (hbound.trans (by norm_num))) hfinite, negative_ofNat, hsign,
      distance_ofNat hn (hbound.trans (by norm_num)), hr]
    rfl
  obtain ⟨w, hw, hscaled, htruncate⟩ := truncate_nearestTo hrpos hrlt
  have hshort : r * w < 2 ^ 53 := by
    calc r * w = r / 2 ^ exponentFor r := hscaled.symm
      _ < (2 * fractionWeight : ℕ) := div_exponentFor_lt hrpos
      _ = 2 ^ 53 := by norm_num [fractionWeight]
  have hround := abs_significandFor_sub_le hrpos
  rw [hscaled] at hround
  rw [hproduct, htruncate]
  exact significand_div_eq hw hshort hround hrbelow hrclose

end Binary64

namespace Collector

/-- A percentage between one half and the whole has its last binary digit at the fifty-third place
behind the point. One that is written a little below the exact percentage leads to the exact rank. -/
theorem quantileIndex_eq_exactRank {y : Binary64} (percent significand : ℕ)
    (hfinite : y.isFinite = true) (hsign : y.negative = false)
    (hparts : y.decompose = (significand, -53)) (hpos : 0 < significand) (hpercent : percent ≤ 100)
    (hbelow : significand * 100 ≤ percent * 2 ^ 53)
    (hclose : percent * 2 ^ 53 * 2 ^ 54 < significand * 100 * (2 ^ 54 + 1)) {n : ℕ}
    (hbound : n < 2 ^ 47) : quantileIndex n y = exactRank (percent / 100) n := by
  have hdistance : y.distance = significand / 2 ^ 53 := by
    rw [Binary64.distance, hparts, zpow_neg, div_eq_mul_inv]
    norm_num
  have hbelow' : y.distance ≤ percent / 100 := by
    rw [hdistance, div_le_div_iff₀ (by norm_num) (by norm_num)]
    exact_mod_cast hbelow
  have hclose' : percent / 100 - y.distance < y.distance / 2 ^ 54 := by
    have hcast : (percent : ℚ) * 2 ^ 53 * 2 ^ 54 < significand * 100 * (2 ^ 54 + 1) := by
      exact_mod_cast hclose
    rw [hdistance]
    linarith
  have hpos' : 0 < y.distance := by
    rw [hdistance]
    positivity
  change min (Binary64.truncate (Binary64.ofNat n * y)) (n - 1) = _
  rcases Nat.eq_zero_or_pos n with rfl | hn
  · simp [exactRank]
  · rw [Binary64.truncate_ofNat_mul hn hbound hfinite hsign hpercent hpos' hbelow' hclose', exactRank,
      ← mul_div_assoc]
    congr 1
    exact_mod_cast (Nat.floor_div_eq_div (K := ℚ) (n * percent) 100).symm

theorem quantileIndex_095 {n : ℕ} (hbound : n < 2 ^ 47) :
    quantileIndex n (0.95 : Binary64) = exactRank (95 / 100) n := by
  rw [show (0.95 : Binary64) = ⟨0x3fee666666666666⟩ by decide +kernel]
  exact quantileIndex_eq_exactRank 95 0x1e666666666666 (by decide) (by decide) (by decide)
    (by norm_num) (by norm_num) (by norm_num) (by norm_num) hbound

theorem quantileIndex_099 {n : ℕ} (hbound : n < 2 ^ 47) :
    quantileIndex n (0.99 : Binary64) = exactRank (99 / 100) n := by
  rw [show (0.99 : Binary64) = ⟨0x3fefae147ae147ae⟩ by decide +kernel]
  exact quantileIndex_eq_exactRank 99 0x1fae147ae147ae (by decide) (by decide) (by decide)
    (by norm_num) (by norm_num) (by norm_num) (by norm_num) hbound

/-! ## Stamping at given ranks -/

/-- The runs of a layer: at most one, or one that came after others. -/
theorem few_or_concat {α : Type} (rs : List (LayerRecord α)) :
    rs.length ≤ 1 ∨ ∃ earlier latest, earlier ≠ [] ∧ rs = earlier ++ [latest] := by
  rcases Nat.lt_or_ge 1 rs.length with hmany | hfew
  · have hne : rs ≠ [] := List.length_pos_iff.mp (by omega)
    refine .inr ⟨rs.dropLast, rs.getLast hne, ?_, (List.dropLast_concat_getLast hne).symm⟩
    rw [← List.length_pos_iff, List.length_dropLast]
    omega
  · exact .inl hfew

section Stamping

variable {α : Type} [Scalar α] {upper highest : ℕ → ℕ}

/-- The latencies of some runs in their total order. -/
def sortedLatencies (rs : List (LayerRecord α)) : List α :=
  (rs.map (·.forwardLatencyMs)).mergeSort Scalar.totalLE

/-- `stamp`, with the ranks of the upper two percentiles given by the number of runs. -/
def stampAt (upper highest : ℕ → ℕ) (rs : List (LayerRecord α)) : List (LayerRecord α) :=
  match rs.getLast? with
  | some latest =>
    if rs.length ≤ 1 then rs
    else
      rs.dropLast ++ [{ latest with
        p50LatencyMs := (sortedLatencies rs)[rs.length / 2]?
        p95LatencyMs := (sortedLatencies rs)[upper rs.length]?
        p99LatencyMs := (sortedLatencies rs)[highest rs.length]? }]
  | none => rs

/-- `finalize`, with the ranks of the upper two percentiles given by the number of runs. -/
def finalizeAt (upper highest : ℕ → ℕ) (c : Collector α) : Collector α :=
  { c with layers := c.layers.map (stampAt upper highest) }

theorem finalize_eq_finalizeAt (c : Collector α) :
    c.finalize = c.finalizeAt (quantileIndex · (0.95 : α)) (quantileIndex · (0.99 : α)) := rfl

theorem stampAt_of_length_le {rs : List (LayerRecord α)} (h : rs.length ≤ 1) :
    stampAt upper highest rs = rs := by
  unfold stampAt
  cases rs.getLast? with
  | none => rfl
  | some latest => exact if_pos h

theorem stampAt_concat {earlier : List (LayerRecord α)} {latest : LayerRecord α}
    (hran : earlier ≠ []) :
    stampAt upper highest (earlier ++ [latest]) = earlier ++ [{ latest with
      p50LatencyMs := (sortedLatencies (earlier ++ [latest]))[(earlier.length + 1) / 2]?
      p95LatencyMs := (sortedLatencies (earlier ++ [latest]))[upper (earlier.length + 1)]?
      p99LatencyMs := (sortedLatencies (earlier ++ [latest]))[highest (earlier.length + 1)]? }] := by
  have hmany : ¬ earlier.length + 1 ≤ 1 := by
    have := List.length_pos_iff.mpr hran
    omega
  simp [stampAt, hmany]

/-- Only the rank for the number of runs matters. -/
theorem stampAt_congr {upper' highest' : ℕ → ℕ} {rs : List (LayerRecord α)}
    (hupper : upper rs.length = upper' rs.length)
    (hhighest : highest rs.length = highest' rs.length) :
    stampAt upper highest rs = stampAt upper' highest' rs := by
  unfold stampAt
  rw [hupper, hhighest]

/-- Stamping changes neither the latencies nor their number. -/
theorem stampAt_stampAt (rs : List (LayerRecord α)) :
    stampAt upper highest (stampAt upper highest rs) = stampAt upper highest rs := by
  rcases few_or_concat rs with hfew | ⟨earlier, latest, hran, rfl⟩
  · rw [stampAt_of_length_le hfew, stampAt_of_length_le hfew]
  · rw [stampAt_concat hran, stampAt_concat hran]
    simp [sortedLatencies]

theorem history_finalizeAt (c : Collector α) : (c.finalizeAt upper highest).history =
    c.history.map fun h => (h.1, stampAt upper highest h.2) :=
  c.layers.items_map (stampAt upper highest)

theorem finalizeAt_finalizeAt (c : Collector α) :
    (c.finalizeAt upper highest).finalizeAt upper highest = c.finalizeAt upper highest := by
  refine ext_history ?_ rfl
  simp [history_finalizeAt, stampAt_stampAt]

end Stamping

/-! ## Completed batches -/

/-- The percentiles of two or more latencies. They are found in the latencies put in order, not
interpolated. -/
structure Percentiles (latencies : List Binary64) (p50 p95 p99 : Binary64) : Prop where
  ranked : ∃ sorted : List Binary64, sorted.Perm latencies ∧
    sorted.Pairwise (fun x y => x.rank ≤ y.rank) ∧
    sorted[latencies.length / 2]? = some p50 ∧
    sorted[exactRank (95 / 100) latencies.length]? = some p95 ∧
    sorted[exactRank (99 / 100) latencies.length]? = some p99
  p50_le : p50.rank ≤ p95.rank
  p95_le : p95.rank ≤ p99.rank
  recorded : p50 ∈ latencies ∧ p95 ∈ latencies ∧ p99 ∈ latencies

/-- What completing a batch makes of the runs of one layer. -/
inductive Stamps : List (LayerRecord Binary64) → List (LayerRecord Binary64) → Prop
  | few {rs} (h : rs.length ≤ 1) : Stamps rs rs
  | many {earlier latest p50 p95 p99} (hran : earlier ≠ [])
      (h : Percentiles ((earlier ++ [latest]).map (·.forwardLatencyMs)) p50 p95 p99) :
      Stamps (earlier ++ [latest]) (earlier ++ [{ latest with
        p50LatencyMs := some p50
        p95LatencyMs := some p95
        p99LatencyMs := some p99 }])

/-- What completing a batch makes of a collector: every layer stays at its place. -/
structure Completes (c c' : Collector Binary64) : Prop where
  layers : List.Forall₂ (fun h h' => h'.1 = h.1 ∧ Stamps h.2 h'.2) c.history c'.history
  inFlight : c'.inFlight = c.inFlight

private theorem totalLE_trans (x y z : Binary64) (hxy : Scalar.totalLE x y = true)
    (hyz : Scalar.totalLE y z = true) : Scalar.totalLE x z = true :=
  decide_eq_true ((of_decide_eq_true hxy).trans (of_decide_eq_true hyz))

private theorem totalLE_total (x y : Binary64) :
    (Scalar.totalLE x y || Scalar.totalLE y x) = true := by
  simpa [Scalar.totalLE] using Int.le_total x.rank y.rank

theorem pairwise_sortedLatencies (rs : List (LayerRecord Binary64)) :
    (sortedLatencies rs).Pairwise fun x y => x.rank ≤ y.rank :=
  (List.pairwise_mergeSort totalLE_trans totalLE_total _).imp of_decide_eq_true

/-- In a sorted list a higher position holds no smaller value. -/
theorem rank_getElem_le {sorted : List Binary64} (h : sorted.Pairwise fun x y => x.rank ≤ y.rank)
    {i j : ℕ} (hij : i ≤ j) (hj : j < sorted.length) : sorted[i].rank ≤ sorted[j].rank := by
  rcases hij.lt_or_eq with hlt | rfl
  · exact List.pairwise_iff_getElem.mp h i j _ hj hlt
  · exact le_rfl

/-- The ranks pick three of the latencies, in their order. -/
theorem percentiles_sortedLatencies {rs : List (LayerRecord Binary64)} (hmany : 2 ≤ rs.length) :
    ∃ p50 p95 p99, Percentiles (rs.map (·.forwardLatencyMs)) p50 p95 p99 ∧
      (sortedLatencies rs)[rs.length / 2]? = some p50 ∧
      (sortedLatencies rs)[exactRank (95 / 100) rs.length]? = some p95 ∧
      (sortedLatencies rs)[exactRank (99 / 100) rs.length]? = some p99 := by
  have hsorted := pairwise_sortedLatencies rs
  have hperm : (sortedLatencies rs).Perm (rs.map (·.forwardLatencyMs)) := List.mergeSort_perm _ _
  have hlength : (sortedLatencies rs).length = rs.length := by
    rw [hperm.length_eq, List.length_map]
  have h50 : rs.length / 2 ≤ exactRank (95 / 100) rs.length :=
    half_le_exactRank (by norm_num) hmany
  have h95 : exactRank (95 / 100) rs.length ≤ exactRank (99 / 100) rs.length :=
    exactRank_mono (by norm_num) _
  have h99 : exactRank (99 / 100) rs.length < (sortedLatencies rs).length := by
    rw [hlength]
    exact exactRank_lt _ (by omega)
  have hpick50 := List.getElem?_eq_getElem ((h50.trans h95).trans_lt h99)
  have hpick95 := List.getElem?_eq_getElem (h95.trans_lt h99)
  have hpick99 := List.getElem?_eq_getElem h99
  refine ⟨_, _, _, ⟨⟨_, hperm, hsorted, ?_⟩, rank_getElem_le hsorted h50 _,
    rank_getElem_le hsorted h95 h99, hperm.mem_iff.mp (List.getElem_mem _),
    hperm.mem_iff.mp (List.getElem_mem _), hperm.mem_iff.mp (List.getElem_mem _)⟩,
    hpick50, hpick95, hpick99⟩
  rw [List.length_map]
  exact ⟨hpick50, hpick95, hpick99⟩

theorem stamps_stampAt (rs : List (LayerRecord Binary64)) :
    Stamps rs (stampAt (exactRank (95 / 100)) (exactRank (99 / 100)) rs) := by
  rcases few_or_concat rs with hfew | ⟨earlier, latest, hran, rfl⟩
  · rw [stampAt_of_length_le hfew]
    exact .few hfew
  · have hmany : 2 ≤ (earlier ++ [latest]).length := by
      have hpos := List.length_pos_iff.mpr hran
      rw [List.length_append, List.length_singleton]
      omega
    obtain ⟨p50, p95, p99, hpercentiles, h50, h95, h99⟩ := percentiles_sortedLatencies hmany
    rw [List.length_append, List.length_singleton] at h50 h95 h99
    rw [stampAt_concat hran, h50, h95, h99]
    exact .many hran hpercentiles

/-- `finalize` by exact arithmetic. -/
def finalizeExactly (c : Collector Binary64) : Collector Binary64 :=
  c.finalizeAt (exactRank (95 / 100)) (exactRank (99 / 100))

theorem completes_finalizeExactly (c : Collector Binary64) : Completes c c.finalizeExactly where
  layers := by
    rw [finalizeExactly, history_finalizeAt, List.forall₂_map_right_iff, List.forall₂_same]
    exact fun h _ => ⟨rfl, stamps_stampAt h.2⟩
  inFlight := rfl

theorem finalize_eq_finalizeExactly {c : Collector Binary64}
    (hbound : ∀ h ∈ c.history, h.2.length < 2 ^ 47) : c.finalize = c.finalizeExactly := by
  rw [finalize_eq_finalizeAt, finalizeExactly]
  refine ext_history ?_ rfl
  rw [history_finalizeAt, history_finalizeAt]
  refine List.map_congr_left fun h hmem => ?_
  rw [stampAt_congr (quantileIndex_095 (hbound h hmem)) (quantileIndex_099 (hbound h hmem))]

theorem finalize_finalize {α : Type} [Scalar α] (c : Collector α) :
    c.finalize.finalize = c.finalize := by
  rw [finalize_eq_finalizeAt c, finalize_eq_finalizeAt, finalizeAt_finalizeAt]

/-- Completing a batch stamps the latest run of each layer that ran at least twice with latencies of
that layer at the exact ranks, leaves all else as it was, and does nothing when it is repeated. The
ranks that are computed are the exact ones as long as no layer ran `2 ^ 47` times. -/
theorem finalize_completes (c : Collector Binary64) :
    Completes c c.finalizeExactly ∧ c.finalizeExactly.finalizeExactly = c.finalizeExactly ∧
    c.finalize.finalize = c.finalize ∧
    ((∀ h ∈ c.history, h.2.length < 2 ^ 47) → c.finalize = c.finalizeExactly) :=
  ⟨completes_finalizeExactly c, finalizeAt_finalizeAt c, finalize_finalize c,
    finalize_eq_finalizeExactly⟩

private def timed (name : String) (latencyMs : Binary64) : LayerRecord Binary64 :=
  { LayerRecord.basic name "" 0 with forwardLatencyMs := latencyMs }

private def notANumber : Binary64 := ⟨0x7ff8000000000000⟩

private def strangeBatch : Collector Binary64 :=
  [timed "a" notANumber, timed "b" 2.0, timed "a" 1.0, timed "a" (.ofParts true 0)].foldl file
    { empty with inFlight := 1 }

private theorem history_strangeBatch : strangeBatch.history =
    [("a", [timed "a" notANumber, timed "a" 1.0, timed "a" (.ofParts true 0)]),
      ("b", [timed "b" 2.0])] := by
  decide +kernel

/-- A latency that is not a number is the largest one, and the negative zero the smallest. -/
theorem finalize_completes_strange :
    (∀ h ∈ strangeBatch.history, h.2.length < 2 ^ 47) ∧
    Completes strangeBatch strangeBatch.finalize ∧
    strangeBatch.finalize.finalize = strangeBatch.finalize ∧
    strangeBatch.finalize.history =
      [("a", [timed "a" notANumber, timed "a" 1.0, { timed "a" (.ofParts true 0) with
          p50LatencyMs := some 1.0
          p95LatencyMs := some notANumber
          p99LatencyMs := some notANumber }]),
        ("b", [timed "b" 2.0])] := by
  have hbound : ∀ h ∈ strangeBatch.history, h.2.length < 2 ^ 47 := by
    simp [history_strangeBatch]
  obtain ⟨hcompletes, -, htwice, hexact⟩ := finalize_completes strangeBatch
  rw [hexact hbound] at htwice ⊢
  refine ⟨hbound, hcompletes, htwice, ?_⟩
  have hsorted : sortedLatencies [timed "a" notANumber, timed "a" 1.0,
      timed "a" (.ofParts true 0)] = [.ofParts true 0, 1.0, notANumber] := by
    have hone : Scalar.totalLE notANumber 1.0 = false := by decide +kernel
    have hzero : Scalar.totalLE 1.0 (Binary64.ofParts true 0) = false := by decide +kernel
    simp [sortedLatencies, timed, List.mergeSort, List.MergeSort.Internal.splitInTwo, hone,
      hzero]
  have h95 : exactRank (95 / 100) 3 = 2 := by norm_num [exactRank]
  have h99 : exactRank (99 / 100) 3 = 2 := by norm_num [exactRank]
  rw [finalizeExactly, history_finalizeAt, history_strangeBatch]
  simp [stampAt, hsorted, h95, h99]

end Collector

end LayerPipeline
