import LayerPipeline.Proofs.Planning.Table

/-!
# Feasibility

The search answers with an admissible partition whenever there is one, and gives up only when there
is none. Going back through the table never gets stuck.
-/

namespace LayerPipeline.Planning

variable {α : Type} [Scalar α]

/-! ## The best number of stages -/

/-- What the result is chosen from: the placements of the whole sequence, one for each number of
stages. -/
def completions (n maxK : Nat) (last : Row α) : List (Nat × Tally α) :=
  (List.range maxK).filterMap fun k => (last.cell? n (k + 1)).map fun c => (k + 1, c.tally)

theorem bestCount?_eq (strategy : Strategy) (n maxK : Nat) (last : Row α) :
    bestCount? strategy n maxK last =
      preferred? tolerance (fun p => p.2.key strategy) (completions n maxK last) := by
  have hfold := foldl_improve tolerance (fun p => p.2.key strategy) none (completions n maxK last)
  rw [Option.toList_none, List.nil_append, completions, List.foldl_filterMap] at hfold
  rw [completions, ← hfold, bestCount?]
  congr 1
  funext best k
  cases last.cell? n (k + 1) with
  | none => rfl
  | some c => cases best <;> rfl

omit [Scalar α] in
theorem mem_completions {n maxK k : Nat} {last : Row α} {t : Tally α} :
    (k, t) ∈ completions n maxK last ↔
      1 ≤ k ∧ k ≤ maxK ∧ ∃ c, last.cell? n k = some c ∧ t = c.tally := by
  simp only [completions, List.mem_filterMap, List.mem_range, Option.map_eq_some_iff,
    Prod.mk.injEq]
  constructor
  · rintro ⟨before, hlt, c, hc, rfl, rfl⟩
    exact ⟨by omega, by omega, c, hc, rfl⟩
  · rintro ⟨hpos, hle, c, hc, rfl⟩
    obtain ⟨before, rfl⟩ := Nat.exists_eq_add_of_le' hpos
    exact ⟨before, by omega, c, hc, rfl, rfl⟩

/-! ## What the search returns -/

section Solve

variable (config : PlannerConfig α) (layers : List (LayerCost α)) (nodes : List (Node α))
  (strategy : Strategy)

/-- The placements that the search ends with. -/
def finalists : List (Nat × Tally α) :=
  completions layers.length (stageLimit config nodes.length layers.length)
    (lastRow config strategy layers (stageLimit config nodes.length layers.length) nodes)

theorem solve_eq :
    solve config layers nodes strategy =
      match preferred? tolerance (fun p => p.2.key strategy)
          (finalists config layers nodes strategy) with
      | none => .error (.infeasible (infeasibleReason (Sequence.ofLayers layers) nodes
          (stageLimit config nodes.length layers.length)))
      | some (k, _) => trace (rows config strategy (Sequence.ofLayers layers)
          (stageLimit config nodes.length layers.length) nodes) layers.length k [] := by
  obtain ⟨rest, hrest⟩ := rows_eq_cons config strategy layers
    (stageLimit config nodes.length layers.length) nodes
  have hcount : (Sequence.ofLayers layers).count = layers.length := rfl
  simp only [solve, hcount, hrest, List.head?_cons, Option.bind_some, bestCount?_eq]
  rfl

/-- An admissible partition is among those that the search ends with, as far as its number of
stages goes. -/
theorem finalists_of_admissible {blocks : List Block}
    (h : Admissible config layers nodes blocks) :
    ∃ t, (blocks.length, t) ∈ finalists config layers nodes strategy := by
  have hdrift : Drift strategy layers.length (fun _ (_ _ : Tally α) => True) := by
    constructor <;> simp
  obtain ⟨c, hc, _⟩ := hdrift.cellOf? h.placement (Nat.le_refl _) h.length_le
  exact ⟨c.tally, mem_completions.mpr ⟨h.length_pos, h.length_le, c, hc, rfl⟩⟩

/-- The search returns an admissible partition with the tally that it preferred, or there is no
such partition. -/
theorem solve_cases :
    (∃ blocks, solve config layers nodes strategy = .ok blocks ∧
      Admissible config layers nodes blocks ∧
      preferred? tolerance (fun p => p.2.key strategy) (finalists config layers nodes strategy) =
        some (blocks.length, tallyOf config layers nodes blocks)) ∨
    solve config layers nodes strategy =
        .error (.infeasible (infeasibleReason (Sequence.ofLayers layers) nodes
          (stageLimit config nodes.length layers.length))) ∧
      ¬ ∃ blocks, Admissible config layers nodes blocks := by
  rw [solve_eq]
  cases hbest : preferred? tolerance (fun p => p.2.key strategy)
      (finalists config layers nodes strategy) with
  | none =>
    right
    refine ⟨rfl, ?_⟩
    rintro ⟨blocks, hblocks⟩
    obtain ⟨t, ht⟩ := finalists_of_admissible config layers nodes strategy hblocks
    rw [preferred?_eq_none_iff] at hbest
    simp [hbest] at ht
  | some best =>
    left
    obtain ⟨k, t⟩ := best
    obtain ⟨hpos, hle, c, hc, rfl⟩ := mem_completions.mp (preferred?_mem hbest)
    obtain ⟨blocks, htrace, hplace, rfl, htally⟩ := trace_rows (Nat.le_refl _) hle hc []
    rw [List.append_nil] at htrace
    exact ⟨blocks, htrace, ⟨hplace, hpos, hle⟩, by rw [htally]⟩

variable {config layers nodes strategy}

theorem admissible_of_solve {blocks : List Block}
    (h : solve config layers nodes strategy = .ok blocks) :
    Admissible config layers nodes blocks := by
  rcases solve_cases config layers nodes strategy with ⟨_, hok, hadm, _⟩ | ⟨herr, _⟩
  · rw [h, Except.ok.injEq] at hok
    rwa [hok]
  · rw [h] at herr
    cases herr

end Solve

/-- The reason for giving up starts with a number. -/
theorem infeasibleReason_ne (s : Sequence α) (nodes : List (Node α)) (maxK : Nat) (text : String)
    (h : text.toList.head?.any Char.isDigit = false) : infeasibleReason s nodes maxK ≠ text := by
  rintro rfl
  cases hlist : Nat.toDigits 10 s.count with
  | nil => exact Nat.toDigits_ne_nil hlist
  | cons c rest =>
    have hdigit : c.isDigit = true :=
      Nat.isDigit_of_mem_toDigits (b := 10) (n := s.count) (by decide) (by decide) (by simp [hlist])
    simp [infeasibleReason, hlist, hdigit] at h

/-- The search gives up exactly when no admissible partition exists, it fails in no other way, and
its table is never found inconsistent. -/
theorem solve_infeasible_iff (config : PlannerConfig α) (layers : List (LayerCost α))
    (nodes : List (Node α)) (strategy : Strategy) :
    ((∃ reason, solve config layers nodes strategy = .error (.infeasible reason)) ↔
      ¬ ∃ blocks, Admissible config layers nodes blocks) ∧
    (∀ e, solve config layers nodes strategy = .error e → ∃ reason, e = .infeasible reason) ∧
    solve config layers nodes strategy ≠ .error (.infeasible "partition table inconsistent") := by
  rcases solve_cases config layers nodes strategy with ⟨blocks, hok, hadm, _⟩ | ⟨herr, hnone⟩
  · rw [hok]
    refine ⟨⟨?_, fun h => absurd ⟨blocks, hadm⟩ h⟩, by simp, by simp⟩
    rintro ⟨reason, h⟩
    cases h
  · rw [herr]
    refine ⟨⟨fun _ => hnone, fun _ => ⟨_, rfl⟩⟩, ?_, ?_⟩
    · intro e he
      exact ⟨_, (Except.error.inj he).symm⟩
    · intro h
      refine infeasibleReason_ne _ _ _ _ ?_ (PlanningError.infeasible.inj (Except.error.inj h))
      decide

end LayerPipeline.Planning
