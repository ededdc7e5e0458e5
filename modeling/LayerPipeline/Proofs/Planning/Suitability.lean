import LayerPipeline.Proofs.Planning.Coverage
import LayerPipeline.Proofs.Planning.RosterOrder

/-!
# Suitability of nodes for the layers placed on them

The search never asks about a single layer: it compares, for both ends of a block, how many layers
before it the node cannot host. A plan puts every layer on a node that suits it all the same, and
only on nodes that passed the filter of the roster.
-/

namespace LayerPipeline.Planning

variable {α : Type} [Scalar α]

/-! ## What a node suits -/

/-- A node suits a layer that is not larger than its available memory, unless the layer needs half
precision and the node has none. -/
theorem suits_requirement_iff (n : Node α) (l : LayerCost α) :
    n.toCapability.suits l.requirement = true ↔
      ¬ n.toCapability.availableGb < l.memoryMb / 1024.0 ∧
        (l.requiresFp16 = true → n.supportsFp16 = true) := by
  have hfp16 : n.toCapability.hasFp16 = n.supportsFp16 := rfl
  have hmemory : l.requirement.memoryGb = l.memoryMb / 1024.0 := by
    unfold LayerCost.requirement
    split <;> rfl
  have hneeds : l.requirement.requiresFp16 = l.requiresFp16 := by
    unfold LayerCost.requirement
    split <;> simp_all [Requirement.requiringFp16, Requirement.basic]
  rw [Capability.suits, hmemory, hneeds, hfp16]
  cases l.requiresFp16 <;> simp

/-! ## Stages and their parts of the sequence -/

/-- A stage holds a part of the sequence on a node of the roster that passed its filter and suits
every layer of that part. -/
structure Hosts (nodes : List (Node α)) (part : List (LayerCost α)) (s : Stage α) : Prop where
  names : s.layers = part.map (·.name)
  listed : s.node ∈ nodes
  unsaturated : s.node.isSaturated = false
  score_pos : (0.0 : α) < s.node.computeScore
  memory_pos : (0.0 : α) < s.node.capacityGb
  suits : ∀ l ∈ part, s.node.toCapability.suits l.requirement = true
  fp16 : ∀ l ∈ part, l.requiresFp16 = true → s.node.supportsFp16 = true

section Stages

variable {config : PlannerConfig α} {layers : List (LayerCost α)} {nodes : List (Node α)}
  {blocks : List Block} {stages : List (Stage α)}

/-- What follows for a block and its stage holds of all of them in turn. -/
theorem StagesOf.forall₂ {R : Block × Nat → Stage α → Prop}
    (h : StagesOf config layers nodes 0 blocks stages)
    (hR : ∀ p ∈ blocks.zipIdx, ∀ s, StageOf config layers nodes p.2 p.1 s → R p s) :
    List.Forall₂ R blocks.zipIdx stages := by
  have hmem : List.Forall₂ (fun p s => p ∈ blocks.zipIdx ∧ StageOf config layers nodes p.2 p.1 s)
      blocks.zipIdx stages :=
    (List.forall₂_and_left ..).mpr ⟨fun _ hp => hp, h⟩
  exact hmem.imp fun p s hs => hR p hs.1 s hs.2

/-- The stage of a block that an eligible node has accepted. -/
theorem StageOf.hosts {position : Nat} {b : Block} {s : Stage α} {node : Node α}
    (h : StageOf config layers (eligibleNodes nodes) position b s)
    (hnode : (eligibleNodes nodes)[b.node]? = some node)
    (hacc : Accepts config layers node b.start b.stop) :
    Hosts nodes (slice layers b.start b.stop) s := by
  obtain rfl : s.node = node := Option.some.inj (h.node.symm.trans hnode)
  obtain ⟨hlisted, heligible⟩ := mem_eligibleNodes.mp (List.mem_of_getElem? hnode)
  obtain ⟨hunsaturated, hscore, hmemory⟩ := (isEligible_iff s.node).mp heligible
  refine ⟨h.names, hlisted, hunsaturated, hscore, hmemory, hacc.suits, ?_⟩
  intro l hl
  exact ((suits_requirement_iff s.node l).mp (hacc.suits l hl)).2

theorem StagesOf.hosts (h : StagesOf config layers (eligibleNodes nodes) 0 blocks stages)
    (hplace : Placement config layers (eligibleNodes nodes) layers.length blocks) :
    List.Forall₂ (Hosts nodes) (blocks.map fun b => slice layers b.start b.stop) stages := by
  have hblocks : List.Forall₂ (fun p s => Hosts nodes (slice layers p.1.start p.1.stop) s)
      blocks.zipIdx stages := by
    apply h.forall₂
    intro p hp s hs
    obtain ⟨node, hnode, hacc⟩ := hplace.accepted p.1 (List.fst_mem_of_mem_zipIdx hp)
    exact hs.hosts hnode hacc
  have hmap : blocks.map (fun b => slice layers b.start b.stop) =
      blocks.zipIdx.map fun p => slice layers p.1.start p.1.stop := by
    conv_lhs => rw [← List.zipIdx_map_fst 0 blocks, List.map_map]
    rfl
  rw [hmap, List.forall₂_map_left_iff]
  exact hblocks

end Stages

/-! ## Plans -/

/-- The stages of a plan hold the sequence cut into parts, one after the other, and every part
stands on an eligible node that suits each of its layers; so a layer that needs half precision is on
a node that has it, wherever it lies in the sequence. The comparisons of the scalars are
arbitrary. -/
theorem generate_hosts {config : PlannerConfig α} {layers : List (LayerCost α)}
    {nodes : List (Node α)} {modelName createdAt : String} {strategy : Strategy} {plan : Plan α}
    (h : generate config layers nodes modelName strategy createdAt = .ok plan) :
    ∃ parts : List (List (LayerCost α)), parts.flatten = layers ∧
      List.Forall₂ (Hosts nodes) parts plan.stages := by
  obtain ⟨blocks, stages, hsolve, hbuild, rfl⟩ := generate_eq_ok h
  have hplace := (admissible_of_solve hsolve).placement
  refine ⟨blocks.map fun b => slice layers b.start b.stop, ?_, ?_⟩
  · rw [← List.flatMap_def, hplace.endToEnd.flatMap_slice_all]
  · exact (stagesOf_buildStages hbuild).hosts hplace

private def mixedLayers : List (LayerCost Binary64) :=
  [.basic "a" 100.0 100.0, { LayerCost.basic "b" 100.0 100.0 with requiresFp16 := true },
    .basic "c" 100.0 100.0, .basic "d" 100.0 100.0]

private def mixedNodes : List (Node Binary64) :=
  [(Node.basic "gpu" .gpu 50.0).withVram 16.0, (Node.basic "cpu" .cpu 100.0).withRam 64.0]

/-- The second layer needs half precision, so that the slower of two nodes gets two layers of four
although one would be better balanced. -/
theorem generate_hosts_mixed :
    ∃ plan, generate PlannerConfig.standard mixedLayers mixedNodes "m" .balanced "" = .ok plan ∧
      plan.stages.map (·.layers) = [["a", "b"], ["c", "d"]] ∧
      plan.stages.map (·.node.supportsFp16) = [true, false] ∧
      ∃ parts : List (List (LayerCost Binary64)), parts.flatten = mixedLayers ∧
        List.Forall₂ (Hosts mixedNodes) parts plan.stages := by
  have horder : eligibleNodes mixedNodes = mixedNodes :=
    eligibleNodes_of_ordered (by decide +kernel) (by decide +kernel)
  have hplan : (generate PlannerConfig.standard mixedLayers mixedNodes "m" .balanced
      "").toOption.map (fun plan => (plan.stages.map (·.layers),
        plan.stages.map (·.node.supportsFp16))) =
      some ([["a", "b"], ["c", "d"]], [true, false]) := by
    simp only [generate, horder]
    decide +kernel
  cases h : generate PlannerConfig.standard mixedLayers mixedNodes "m" .balanced "" with
  | error e => simp [h, Except.toOption] at hplan
  | ok plan =>
    simp only [h, Except.toOption, Option.map_some, Option.some.injEq, Prod.mk.injEq] at hplan
    exact ⟨plan, rfl, hplan.1, hplan.2, generate_hosts h⟩

end LayerPipeline.Planning
