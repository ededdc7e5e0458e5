import LayerPipeline.Planning.PlanFile
import LayerPipeline.Proofs.Plan.Fault
import LayerPipeline.Proofs.Planning.Coverage
import LayerPipeline.Proofs.Planning.Exact
import LayerPipeline.Service.Coordinator

/-!
# Validity of generated plans

A generated plan passes every check of plans but the one on memory. The search measures the memory
of a block as a difference of sums over initial parts of the sequence and allows a tolerance, while
the check adds up the layers of the stage and allows none. A plan whose stages are accepted by the
one and refused by the other is returned all the same, and cannot be installed or loaded.
-/

namespace LayerPipeline.Planning

variable {α : Type} [Scalar α]

/-! ## The bottleneck -/

theorem firstMaximum_fst_lt (best : Nat × α) (position : Nat) (xs : List α)
    (h : best.1 < position) : (firstMaximum best position xs).1 < position + xs.length := by
  induction xs generalizing best position with
  | nil => simpa [firstMaximum] using h
  | cons x xs ih =>
    rw [firstMaximum, List.length_cons]
    have hstart : (if best.2 < x then (position, x) else best).1 < position + 1 := by
      split <;> grind
    have hnext := ih (if best.2 < x then (position, x) else best) (position + 1) hstart
    omega

theorem finish_bottleneck_lt (config : PlannerConfig α) {stages : List (Stage α)}
    (hne : stages ≠ []) (eligible : Nat) (modelName createdAt : String) (strategy : Strategy) :
    (finish config stages eligible modelName createdAt strategy).bottleneckStageId.toNat <
      stages.length := by
  cases stages with
  | nil => exact absurd rfl hne
  | cons s rest =>
    have hlt := firstMaximum_fst_lt (0, s.totalMs) 1 (rest.map (·.totalMs)) (by simp)
    rw [List.length_map] at hlt
    change (UInt64.ofNat (firstMaximum (0, s.totalMs) 1 (rest.map (·.totalMs))).1).toNat < _
    rw [UInt64.toNat_ofNat', List.length_cons]
    exact Nat.lt_of_le_of_lt (Nat.mod_le _ _) (by omega)

/-! ## Checks of a generated plan -/

section Generated

variable {config : PlannerConfig α} {layers : List (LayerCost α)} {nodes : List (Node α)}
  {modelName createdAt : String} {strategy : Strategy} {plan : Plan α}

/-- A plan for layers with different names is refused only for the first stage that does not fit
its node. -/
theorem fault?_generate (h : generate config layers nodes modelName strategy createdAt = .ok plan)
    (hnames : (layers.map (·.name)).Nodup) :
    plan.fault? = (plan.stages.find? fun s => !s.node.canFit s.memoryMb).map Plan.overcommit := by
  obtain ⟨blocks, stages, hsolve, hbuild, rfl⟩ := generate_eq_ok h
  have hadm := admissible_of_solve hsolve
  have hstages := stagesOf_buildStages hbuild
  have hne := hstages.ne_nil hadm
  refine Plan.fault?_of_orderly ⟨?_, ?_, ?_⟩ hne (finish_bottleneck_lt config hne _ _ _ _)
  · intro i s hs
    rw [hstages.stageId_toNat hadm hs, Nat.zero_add]
  · exact hstages.layers_ne_nil hadm.placement
  · rw [List.nil_append, finish_stages, hstages.flatMap_layers hadm.placement]
    exact hnames

theorem stagesFit_iff_fault?
    (h : generate config layers nodes modelName strategy createdAt = .ok plan)
    (hnames : (layers.map (·.name)).Nodup) : plan.fault? = none ↔ plan.StagesFit := by
  rw [fault?_generate h hnames, Option.map_eq_none_iff, List.find?_eq_none]
  simp [Plan.StagesFit, Node.canFit]

/-- Every stage adds up the memory of a part of the sequence that its node has accepted. -/
theorem accepts_of_generate
    (h : generate config layers nodes modelName strategy createdAt = .ok plan) :
    ∀ s ∈ plan.stages, ∃ start stop, start < stop ∧ stop ≤ layers.length ∧
      s.layers = (slice layers start stop).map (·.name) ∧
      s.memoryMb = Scalar.sum ((slice layers start stop).map (·.memoryMb)) ∧
      Accepts config layers s.node start stop := by
  obtain ⟨blocks, stages, hsolve, hbuild, rfl⟩ := generate_eq_ok h
  have hadm := admissible_of_solve hsolve
  intro s hs
  obtain ⟨i, hi⟩ := List.getElem?_of_mem hs
  obtain ⟨b, hb, hstage⟩ := (stagesOf_buildStages hbuild).stageOf hi
  obtain ⟨hlt, hle⟩ := hadm.placement.endToEnd.bounds b hb
  obtain ⟨node, hnode, haccepts⟩ := hadm.placement.accepted b hb
  rw [hstage.node, Option.some.injEq] at hnode
  subst hnode
  exact ⟨b.start, b.stop, hlt, hle, hstage.names, hstage.memory, haccepts⟩

/-- A plan for layers with different names passes validation exactly when the memory of the layers
of every stage, added up, is at most what its node has, which the search has only tested up to its
tolerance and on differences of sums. Whether the plan can be installed, and whether a file that
holds it is accepted, depends on nothing else. -/
theorem generate_validate_iff [JsonCodec α]
    (h : generate config layers nodes modelName strategy createdAt = .ok plan)
    (hnames : (layers.map (·.name)).Nodup) :
    (plan.validate = .ok () ↔ plan.StagesFit) ∧
    (∀ s ∈ plan.stages, ∃ start stop, start < stop ∧ stop ≤ layers.length ∧
      s.layers = (slice layers start stop).map (·.name) ∧
      s.memoryMb = Scalar.sum ((slice layers start stop).map (·.memoryMb)) ∧
      ¬ s.node.availableGb * 1024.0 + tolerance < memoryOf layers start stop) ∧
    (∀ c : Coordinator α,
      c.installPlan plan = .ok { c with plan := some plan } ↔ plan.StagesFit) ∧
    ∀ text, (Json.parse? text).bind JsonCodec.read = some plan →
      (Plan.ofFileText text = .ok plan ↔ plan.StagesFit) := by
  have hvalid : plan.validate = .ok () ↔ plan.StagesFit :=
    (Plan.validate_eq_ok_iff plan).trans (stagesFit_iff_fault? h hnames)
  refine ⟨hvalid, fun s hs => ?_, fun c => ?_, fun text htext => ?_⟩
  · obtain ⟨start, stop, hlt, hle, hlayers, hmemory, haccepts⟩ := accepts_of_generate h s hs
    exact ⟨start, stop, hlt, hle, hlayers, hmemory, haccepts.fits⟩
  · rw [← hvalid, Coordinator.installPlan]
    cases plan.validate <;> simp
  · rw [← hvalid, Plan.ofFileText, htext]
    cases hplan : plan.validate <;> simp [hplan]

end Generated

private def tightLayers : List (LayerCost Binary64) :=
  [.basic "a" 10.0 512.0, .basic "b" 10.0 512.0000000005]

private def tightNodes : List (Node Binary64) :=
  [(Node.basic "n" .gpu 100.0).withVram 1.0]

/-- Two layers that exceed the only node by half a billionth of a megabyte: the plan is made, and
then refused. -/
theorem generate_validate_iff_refused :
    ∃ plan, generate PlannerConfig.standard tightLayers tightNodes "m" .balanced "" = .ok plan ∧
      (tightLayers.map (·.name)).Nodup ∧ ¬ plan.StagesFit ∧ plan.validate ≠ .ok () := by
  have hrefused : (generate PlannerConfig.standard tightLayers tightNodes "m" .balanced
      "").toOption.map (fun plan => decide plan.StagesFit) = some false := by
    decide +kernel
  cases h : generate PlannerConfig.standard tightLayers tightNodes "m" .balanced "" with
  | error e => simp [h, Except.toOption] at hrefused
  | ok plan =>
    have hfit : ¬ plan.StagesFit := by simpa [h, Except.toOption] using hrefused
    refine ⟨plan, rfl, by decide, hfit, fun hvalid => hfit ?_⟩
    exact (generate_validate_iff h (by decide)).1.mp hvalid

/-! ## Exact arithmetic -/

/-- Without rounding the memory of a refused stage lies above what its node has by at most the
tolerance. -/
theorem generate_refused_iff_exact {config : PlannerConfig ℚ} {layers : List (LayerCost ℚ)}
    {nodes : List (Node ℚ)} {modelName createdAt : String} {strategy : Strategy} {plan : Plan ℚ}
    (h : generate config layers nodes modelName strategy createdAt = .ok plan)
    (hnames : (layers.map (·.name)).Nodup) :
    plan.validate ≠ .ok () ↔ ∃ s ∈ plan.stages,
      s.node.availableGb * 1024 < s.memoryMb ∧
        s.memoryMb ≤ s.node.availableGb * 1024 + 1 / 10 ^ 9 := by
  have hmemory : ∀ s ∈ plan.stages, s.memoryMb ≤ s.node.availableGb * 1024 + 1 / 10 ^ 9 := by
    intro s hs
    obtain ⟨start, stop, hlt, _, _, hmemory, haccepts⟩ := accepts_of_generate h s hs
    rw [hmemory, ← memoryOf_exact layers (Nat.le_of_lt hlt)]
    exact haccepts.memoryOf_le
  have hfit : plan.StagesFit ↔ ∀ s ∈ plan.stages, s.memoryMb ≤ s.node.availableGb * 1024 := by
    simp only [← canFit_exact, Node.canFit, decide_eq_true_eq]
    rfl
  rw [ne_eq, Plan.validate_eq_ok_iff, stagesFit_iff_fault? h hnames, hfit]
  constructor
  · intro hover
    push Not at hover
    obtain ⟨s, hs, hlt⟩ := hover
    exact ⟨s, hs, hlt, hmemory s hs⟩
  · rintro ⟨s, hs, hlt, _⟩ hall
    exact absurd hlt (not_lt.mpr (hall s hs))

end LayerPipeline.Planning
