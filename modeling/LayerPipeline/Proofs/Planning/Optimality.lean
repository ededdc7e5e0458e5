import LayerPipeline.Proofs.Planning.Exact
import LayerPipeline.Proofs.Planning.Feasibility

/-!
# Optimality of the search in exact arithmetic

The comparison of candidates is not transitive, because differences up to the tolerance do not
count, so every comparison can cost one tolerance. A cell is chosen by at most as many comparisons
as there are layers, once for every node, and the result by at most as many as there are stages.
That bounds what the returned partition may lose against any other one.
-/

namespace LayerPipeline.Planning

/-! ## Comparisons -/

section Comparisons

variable {tol : ℚ}

theorem fst_le_of_keyLess (htol : 0 ≤ tol) {x y : ℚ × ℚ} (h : keyLess tol x y = true) :
    x.1 ≤ y.1 + tol := by
  unfold keyLess at h
  split at h
  · have hlt : x.1 < y.1 := of_decide_eq_true h
    linarith
  · rename_i hclose
    have hle : |x.1 - y.1| ≤ tol := by
      rw [← distance_exact]
      exact not_lt.mp hclose
    linarith [le_of_abs_le hle]

theorem fst_le_of_not_keyLess (htol : 0 ≤ tol) {x y : ℚ × ℚ} (h : ¬ keyLess tol x y = true) :
    y.1 ≤ x.1 + tol := by
  unfold keyLess at h
  split at h
  · have hle : y.1 ≤ x.1 := not_lt.mp fun hlt : x.1 < y.1 => h (decide_eq_true hlt)
    linarith
  · rename_i hclose
    have hle : |x.1 - y.1| ≤ tol := by
      rw [← distance_exact]
      exact not_lt.mp hclose
    linarith [neg_le_of_abs_le hle]

variable {β : Type} (key : β → ℚ × ℚ)

/-- What is kept of two candidates is worse than either by at most one tolerance. -/
theorem prefer_le (htol : 0 ≤ tol) (best c : β) :
    (key (prefer tol key best c)).1 ≤ (key best).1 + tol ∧
      (key (prefer tol key best c)).1 ≤ (key c).1 + tol := by
  unfold prefer
  split
  · rename_i hless
    exact ⟨fst_le_of_keyLess htol hless, by linarith⟩
  · rename_i hless
    exact ⟨by linarith, fst_le_of_not_keyLess htol hless⟩

theorem foldl_prefer_le (htol : 0 ≤ tol) (best : β) (cs : List β) :
    ∀ c ∈ best :: cs, (key (cs.foldl (prefer tol key) best)).1 ≤ (key c).1 + cs.length * tol := by
  induction cs generalizing best with
  | nil => simp
  | cons d cs ih =>
    obtain ⟨hbest, hd⟩ := prefer_le key htol best d
    have hkept := ih (prefer tol key best d) _ List.mem_cons_self
    have hlength : ((d :: cs).length : ℚ) * tol = cs.length * tol + tol := by
      push_cast [List.length_cons]
      ring
    intro c hc
    rw [List.foldl_cons, hlength]
    rcases List.mem_cons.mp hc with rfl | hc
    · linarith
    · rcases List.mem_cons.mp hc with rfl | hc
      · linarith
      · have := ih (prefer tol key best d) c (List.mem_cons_of_mem _ hc)
        linarith

/-- A choice among at most one candidate more than `n` is worse than any of them by at most `n`
tolerances. -/
theorem preferred?_le (htol : 0 ≤ tol) {cs : List β} {best c : β} {n : ℕ}
    (h : preferred? tol key cs = some best) (hc : c ∈ cs) (hn : cs.length ≤ n + 1) :
    (key best).1 ≤ (key c).1 + n * tol := by
  cases cs with
  | nil => cases h
  | cons d cs =>
    obtain rfl := Option.some.inj h
    have hfold := foldl_prefer_le key htol d cs c hc
    have hle : (cs.length : ℚ) ≤ n := by
      rw [List.length_cons] at hn
      exact_mod_cast Nat.le_of_succ_le_succ hn
    have := mul_le_mul_of_nonneg_right hle htol
    linarith

end Comparisons

/-! ## Loss of a cell -/

/-- One more block keeps the distance of two tallies. -/
theorem key_extend_le {t u : Tally ℚ} {loss : ℚ} (hloss : 0 ≤ loss) {strategy : Strategy}
    (h : (t.key strategy).1 ≤ (u.key strategy).1 + loss) (latency share : ℚ) :
    ((t.extend latency share).key strategy).1 ≤
      ((u.extend latency share).key strategy).1 + loss := by
  have hmax : ∀ x y z : ℚ, x ≤ y + loss → max x z ≤ max y z + loss := by
    intro x y z hxy
    refine max_le ?_ ?_
    · linarith [le_max_left y z]
    · linarith [le_max_right y z]
  cases strategy with
  | balanced =>
    simp only [Tally.key, Tally.extend, max_exact] at h ⊢
    exact hmax _ _ _ h
  | latency =>
    change t.totalLatency + latency ≤ u.totalLatency + latency + loss
    have h' : t.totalLatency ≤ u.totalLatency + loss := h
    linarith
  | memory =>
    simp only [Tally.key, Tally.extend, max_exact] at h ⊢
    exact hmax _ _ _ h

/-- A cell is worse than any placement that it stands for by at most one tolerance for every node
and layer. -/
theorem drift_exact (strategy : Strategy) (n : ℕ) :
    Drift strategy n fun j (t u : Tally ℚ) =>
      (t.key strategy).1 ≤ (u.key strategy).1 + ((j * n : ℕ) : ℚ) * tolerance := by
  refine ⟨by simp, ?_, ?_⟩
  · intro j t u h latency share
    exact key_extend_le (mul_nonneg (Nat.cast_nonneg _) tolerance_nonneg) h latency share
  · intro j u best c cs hbest hc hlength h
    have hchoice := preferred?_le (fun c : Cell ℚ => c.tally.key strategy) tolerance_nonneg hbest hc
      hlength
    have hsum : (((j + 1) * n : ℕ) : ℚ) * tolerance =
        ((j * n : ℕ) : ℚ) * tolerance + n * tolerance := by
      push_cast
      ring
    rw [hsum]
    linarith

/-! ## Loss of the result -/

/-- Whenever an admissible partition exists, the search returns one, and its objective exceeds that
of any admissible partition by at most a billionth for every pair of a node and a layer and for
every stage that is allowed. -/
theorem solve_near_optimal (config : PlannerConfig ℚ) (layers : List (LayerCost ℚ))
    (nodes : List (Node ℚ)) (strategy : Strategy) {other : List Block}
    (h : Admissible config layers nodes other) :
    ∃ blocks, solve config layers nodes strategy = .ok blocks ∧
      Admissible config layers nodes blocks ∧
      objective config layers nodes blocks strategy ≤
        objective config layers nodes other strategy +
          ((nodes.length * layers.length + stageLimit config nodes.length layers.length : ℕ) : ℚ) /
            10 ^ 9 := by
  rcases solve_cases config layers nodes strategy with
    ⟨blocks, hok, hadm, hbest⟩ | ⟨_, hnone⟩
  · refine ⟨blocks, hok, hadm, ?_⟩
    obtain ⟨c, hc, hcell⟩ := (drift_exact strategy layers.length).cellOf? h.placement le_rfl
      h.length_le
    have hmem : (other.length, c.tally) ∈ finalists config layers nodes strategy :=
      mem_completions.mpr ⟨h.length_pos, h.length_le, c, hc, rfl⟩
    have hchoice := preferred?_le (fun p : ℕ × Tally ℚ => p.2.key strategy) tolerance_nonneg hbest
      hmem (n := stageLimit config nodes.length layers.length) (by
        refine (List.length_filterMap_le _ _).trans ?_
        simp)
    rw [key_tallyOf] at hcell hchoice
    rw [tolerance_exact] at hcell hchoice
    push_cast at hcell ⊢
    linarith
  · exact absurd ⟨other, h⟩ hnone

private def unevenLayers : List (LayerCost ℚ) :=
  [.basic "long" 19.9999999995 100.0, .basic "short" 0.0000000005 100.0]

private def evenNodes : List (Node ℚ) :=
  [(Node.basic "left" .gpu 100.0).withVram 1.0, (Node.basic "right" .gpu 100.0).withVram 1.0]

/-- One stage is returned although two would have a shorter longest stage: the gain is below the
tolerance. -/
theorem solve_near_optimal_below_tolerance :
    Admissible .standard unevenLayers evenNodes [⟨0, 0, 1⟩, ⟨1, 1, 2⟩] ∧
      (solve .standard unevenLayers evenNodes .balanced).toOption = some [⟨0, 0, 2⟩] ∧
      objective .standard unevenLayers evenNodes [⟨0, 0, 1⟩, ⟨1, 1, 2⟩] .balanced <
        objective .standard unevenLayers evenNodes [⟨0, 0, 2⟩] .balanced ∧
      ∃ blocks, solve .standard unevenLayers evenNodes .balanced = .ok blocks ∧
        Admissible .standard unevenLayers evenNodes blocks ∧
        objective .standard unevenLayers evenNodes blocks .balanced ≤
          objective .standard unevenLayers evenNodes [⟨0, 0, 1⟩, ⟨1, 1, 2⟩] .balanced +
            6 / 10 ^ 9 := by
  have hadm : Admissible .standard unevenLayers evenNodes [⟨0, 0, 1⟩, ⟨1, 1, 2⟩] := by
    decide +kernel
  exact ⟨hadm, by decide +kernel, by decide +kernel, solve_near_optimal _ _ _ _ hadm⟩

end LayerPipeline.Planning
