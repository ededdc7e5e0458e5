import LayerPipeline.Proofs.Planning.Exact
import LayerPipeline.Proofs.Planning.Suitability
import Mathlib.Algebra.Order.BigOperators.Group.List
import Mathlib.Algebra.Order.Field.Basic

/-!
# Annotations of a plan in exact arithmetic

The search measures blocks by differences of sums and charges a hand-off to every block that does
not start the sequence; a plan adds up the layers of its stages and charges a hand-off to every
stage but the first. Without rounding, and as long as no cost is negative, both come to the same:
the figures of a plan are those of the cell that the search has selected.
-/

namespace LayerPipeline.Planning

/-! ## Largest and smallest values -/

/-- Among values that are not negative, starting from zero finds the largest. -/
theorem max?_of_nonneg {xs : List ℚ} (hne : xs ≠ []) (hnonneg : ∀ x ∈ xs, 0 ≤ x) :
    xs.max? = some (xs.foldl Scalar.toMax.max (Scalar.toOfScientific.ofScientific 0 true 1)) := by
  rw [zero_exact]
  obtain ⟨hmem, hle⟩ := List.max?_eq_some_iff.mp (max?_cons_exact 0 xs)
  refine List.max?_eq_some_iff.mpr ⟨?_, fun x hx => hle x (by simp [hx])⟩
  rcases List.mem_cons.mp hmem with hzero | hmem
  · obtain ⟨x, hx⟩ := List.exists_mem_of_ne_nil xs hne
    have hx' : x = 0 := le_antisymm (hzero ▸ hle x (by simp [hx])) (hnonneg x hx)
    rwa [hzero, ← hx']
  · exact hmem

/-- A value of a list and its position, such that no value is larger and all before it are
smaller. -/
structure IsFirstMaximum (xs : List ℚ) (best : ℕ × ℚ) : Prop where
  found : xs[best.1]? = some best.2
  le : ∀ x ∈ xs, x ≤ best.2
  lt : ∀ i < best.1, ∀ x, xs[i]? = some x → x < best.2

theorem IsFirstMaximum.concat {xs : List ℚ} {best : ℕ × ℚ} (h : IsFirstMaximum xs best) (x : ℚ) :
    IsFirstMaximum (xs ++ [x]) (if best.2 < x then (xs.length, x) else best) := by
  have hbound : best.1 < xs.length := (List.getElem?_eq_some_iff.mp h.found).1
  by_cases hx : best.2 < x
  · rw [if_pos hx]
    refine ⟨by simp, ?_, ?_⟩
    · intro y hy
      rcases List.mem_append.mp hy with hy | hy
      · exact (h.le y hy).trans hx.le
      · exact (List.mem_singleton.mp hy).le
    · intro i hi y hy
      rw [List.getElem?_append_left hi] at hy
      exact (h.le y (List.mem_of_getElem? hy)).trans_lt hx
  · rw [if_neg hx]
    refine ⟨by rw [List.getElem?_append_left hbound, h.found], ?_, ?_⟩
    · intro y hy
      rcases List.mem_append.mp hy with hy | hy
      · exact h.le y hy
      · rw [List.mem_singleton.mp hy]
        exact not_lt.mp hx
    · intro i hi y hy
      rw [List.getElem?_append_left (hi.trans hbound)] at hy
      exact h.lt i hi y hy

theorem IsFirstMaximum.firstMaximum {before : List ℚ} {best : ℕ × ℚ}
    (h : IsFirstMaximum before best) (xs : List ℚ) :
    IsFirstMaximum (before ++ xs) (firstMaximum best before.length xs) := by
  induction xs generalizing before best with
  | nil => simpa [Planning.firstMaximum] using h
  | cons x xs ih =>
    have hnext := ih (h.concat x)
    rw [List.append_assoc, List.length_append] at hnext
    exact hnext

/-! ## Stages and blocks -/

theorem EndToEnd.first_le {first last : ℕ} {blocks : List Block} (h : EndToEnd first last blocks) :
    ∀ b ∈ blocks, first ≤ b.start := by
  induction blocks generalizing first with
  | nil => simp
  | cons c rest ih =>
    obtain ⟨hstart, hlt, hrest⟩ := h
    intro b hb
    rcases List.mem_cons.mp hb with rfl | hb
    · exact hstart.ge
    · exact hlt.le.trans (ih hrest b hb)

/-- The block that starts the sequence is the first one. -/
theorem EndToEnd.start_pos_iff {first last : ℕ} {blocks : List Block}
    (h : EndToEnd first last blocks) {p : Block × ℕ} (hp : p ∈ blocks.zipIdx) :
    0 < p.2 ↔ first < p.1.start := by
  cases blocks with
  | nil => simp at hp
  | cons c rest =>
    obtain ⟨hstart, hlt, hrest⟩ := h
    rw [List.zipIdx_cons] at hp
    rcases List.mem_cons.mp hp with rfl | hp
    · simp [hstart]
    · have hposition := List.le_snd_of_mem_zipIdx hp
      have hle := hrest.first_le p.1 (List.fst_mem_of_mem_zipIdx hp)
      exact ⟨fun _ => hlt.trans_le hle, fun _ => by omega⟩

section Stages

variable {config : PlannerConfig ℚ} {layers : List (LayerCost ℚ)} {nodes : List (Node ℚ)}
  {position : ℕ} {b : Block} {s : Stage ℚ}

theorem StageOf.totalMs_exact (h : StageOf config layers nodes position b s)
    (hle : b.start ≤ b.stop) (hfirst : 0 < position ↔ 0 < b.start) :
    s.totalMs = blockMs config layers s.node b.start b.stop := by
  have hexpected : s.expectedMs = computeMs config layers s.node b.start b.stop := by
    rw [computeOn_eq_ok config s.node h.expected, computeMs, latencyOf_exact layers hle]
  rw [Stage.totalMs, blockMs, hexpected, h.transfer]
  simp only [hfirst]

theorem lt_one_of_isSaturated {node : Node ℚ} (h : node.isSaturated = false) :
    node.utilization < 1 := by
  have hload : ¬ Scalar.toOfScientific.ofScientific 10 true 1 ≤ node.utilization :=
    of_decide_eq_false h
  rw [one_exact] at hload
  exact not_le.mp hload

/-- Eligible nodes have memory available. -/
theorem availableGb_pos {node : Node ℚ} (h : isEligible node = true) : 0 < node.availableGb := by
  obtain ⟨hload, -, hcapacity⟩ := (isEligible_iff node).mp h
  have hcapacity' : Scalar.toOfScientific.ofScientific 0 true 1 < node.capacityGb := hcapacity
  rw [zero_exact] at hcapacity'
  change 0 < node.capacityGb * Scalar.toMax.max
    (Scalar.toOfScientific.ofScientific 10 true 1 - node.utilization)
    (Scalar.toOfScientific.ofScientific 0 true 1)
  rw [max_exact, one_exact, zero_exact]
  have hfree : 0 < 1 - node.utilization := sub_pos.mpr (lt_one_of_isSaturated hload)
  exact mul_pos hcapacity' (lt_max_of_lt_left hfree)

/-- Eligible nodes have throughput left. -/
theorem throughput_pos {node : Node ℚ} (h : isEligible node = true) :
    0 < node.computeScore * (Scalar.toOfScientific.ofScientific 10 true 1 - node.utilization) := by
  obtain ⟨hload, hscore, -⟩ := (isEligible_iff node).mp h
  have hscore' : Scalar.toOfScientific.ofScientific 0 true 1 < node.computeScore := hscore
  rw [zero_exact] at hscore'
  rw [one_exact]
  exact mul_pos hscore' (sub_pos.mpr (lt_one_of_isSaturated hload))

/-- The first test of both readings of a share of memory; the other branches are never taken. -/
theorem availableMb_pos {node : Node ℚ} (h : isEligible node = true) :
    Scalar.toOfScientific.ofScientific 0 true 1 <
      node.availableGb * Scalar.toOfScientific.ofScientific 10240 true 1 := by
  rw [zero_exact, gigabyte_exact]
  exact mul_pos (availableGb_pos h) (by norm_num)

theorem memoryUtilization_of_eligible (heligible : isEligible s.node = true) :
    s.memoryUtilization =
      s.memoryMb / (s.node.availableGb * Scalar.toOfScientific.ofScientific 10240 true 1) :=
  if_neg (not_le.mpr (availableMb_pos heligible))

theorem StageOf.memoryUtilization_exact (h : StageOf config layers nodes position b s)
    (hle : b.start ≤ b.stop) (heligible : isEligible s.node = true) :
    s.memoryUtilization = blockShare layers s.node b.start b.stop := by
  rw [memoryUtilization_of_eligible heligible, h.memory, ← memoryOf_exact layers hle]
  exact (if_pos (availableMb_pos heligible)).symm

/-! ## Costs that are not negative -/

theorem sum_slice_nonneg {cost : LayerCost ℚ → ℚ} (hcost : ∀ l ∈ layers, 0 ≤ cost l)
    (start stop : ℕ) : 0 ≤ Scalar.sum ((slice layers start stop).map cost) := by
  rw [sum_exact]
  refine List.sum_nonneg fun x hx => ?_
  obtain ⟨l, hl, rfl⟩ := List.mem_map.mp hx
  exact hcost l (List.mem_of_mem_drop (List.mem_of_mem_take hl))

theorem transferMs_nonneg {node : Node ℚ} (hactivation : 0 ≤ config.activationMb)
    (hlatency : 0 ≤ node.latencyMs) : 0 ≤ transferMs config node := by
  have hbits : (0 : ℚ) ≤ Scalar.toOfScientific.ofScientific 80 true 1 := by decide +kernel
  have hmillis : (0 : ℚ) ≤ Scalar.toOfScientific.ofScientific 10000 true 1 := by decide +kernel
  refine add_nonneg hlatency ?_
  split
  · rename_i hbandwidth
    have hbandwidth' : Scalar.toOfScientific.ofScientific 0 true 1 < node.bandwidthMbps :=
      hbandwidth
    rw [zero_exact] at hbandwidth'
    exact mul_nonneg (div_nonneg (mul_nonneg hactivation hbits) hbandwidth'.le) hmillis
  · exact zero_exact.ge

theorem StageOf.totalMs_nonneg (h : StageOf config layers nodes position b s)
    (heligible : isEligible s.node = true) (hreference : 0 ≤ config.referenceScore)
    (hlayers : ∀ l ∈ layers, 0 ≤ l.latencyMs) (htransfer : 0 ≤ transferMs config s.node) :
    0 ≤ s.totalMs := by
  have hexpected : 0 ≤ s.expectedMs := by
    rw [computeOn_eq_ok config s.node h.expected]
    exact div_nonneg (mul_nonneg (sum_slice_nonneg hlayers _ _) hreference)
      (throughput_pos heligible).le
  refine add_nonneg hexpected ?_
  rw [h.transfer]
  split
  · exact htransfer
  · exact zero_exact.ge

theorem StageOf.memoryUtilization_nonneg (h : StageOf config layers nodes position b s)
    (heligible : isEligible s.node = true) (hlayers : ∀ l ∈ layers, 0 ≤ l.memoryMb) :
    0 ≤ s.memoryUtilization := by
  rw [memoryUtilization_of_eligible heligible, h.memory, gigabyte_exact]
  exact div_nonneg (sum_slice_nonneg hlayers _ _)
    (mul_nonneg (availableGb_pos heligible).le (by norm_num))

end Stages

/-! ## The selected cell -/

/-- The search selects a cell with a number of stages: in the row for all nodes, the cell for all
layers and the number of stages that it prefers. -/
def Selects (config : PlannerConfig ℚ) (layers : List (LayerCost ℚ)) (nodes : List (Node ℚ))
    (strategy : Strategy) (count : ℕ) (cell : Cell ℚ) : Prop :=
  let maxK := stageLimit config nodes.length layers.length
  ∃ row, (rows config strategy (Sequence.ofLayers layers) maxK nodes).head? = some row ∧
    bestCount? strategy layers.length maxK row = some (count, cell.tally) ∧
    row.cell? layers.length count = some cell

/-- The partition that the search returns is that of the cell that it selects. -/
theorem exists_selects {config : PlannerConfig ℚ} {layers : List (LayerCost ℚ)}
    {nodes : List (Node ℚ)} {strategy : Strategy} {blocks : List Block}
    (h : solve config layers nodes strategy = .ok blocks) :
    ∃ cell, Selects config layers nodes strategy blocks.length cell ∧
      tallyOf config layers nodes blocks = cell.tally := by
  obtain ⟨found, hok, -, hbest⟩ | ⟨herr, -⟩ := solve_cases config layers nodes strategy
  · obtain rfl := Except.ok.inj (h.symm.trans hok)
    obtain ⟨rest, hrest⟩ := rows_eq_cons config strategy layers
      (stageLimit config nodes.length layers.length) nodes
    obtain ⟨-, -, cell, hcell, htally⟩ := mem_completions.mp (preferred?_mem hbest)
    refine ⟨cell, ⟨_, by rw [hrest]; rfl, ?_, hcell⟩, htally⟩
    rw [bestCount?_eq, ← htally]
    exact hbest
  · rw [h] at herr
    cases herr

section Placements

variable {config : PlannerConfig ℚ} {layers : List (LayerCost ℚ)} {nodes : List (Node ℚ)}
  {blocks : List Block} {stages : List (Stage ℚ)}

/-- A figure of the blocks that agrees with one of the stages, block by block. -/
theorem StagesOf.filterMap_eq (h : StagesOf config layers nodes 0 blocks stages)
    {ofBlock : Block → Option ℚ} {ofStage : Stage ℚ → ℚ}
    (heq : ∀ p ∈ blocks.zipIdx, ∀ s, StageOf config layers nodes p.2 p.1 s →
      ofBlock p.1 = some (ofStage s)) :
    blocks.filterMap ofBlock = stages.map ofStage := by
  have hmap : ∀ {ps : List (Block × ℕ)} {ss : List (Stage ℚ)},
      List.Forall₂ (fun p s => ofBlock p.1 = some (ofStage s)) ps ss →
      ps.filterMap (fun p => ofBlock p.1) = ss.map ofStage := by
    intro ps ss hforall
    induction hforall with
    | nil => rfl
    | cons hp _ ih => simp [hp, ih]
  rw [← hmap (h.forall₂ heq)]
  conv_lhs => rw [← List.zipIdx_map_fst 0 blocks, List.filterMap_map]
  rfl

/-- What the search records about a placement is what its stages amount to. -/
theorem StagesOf.tallyOf_exact (h : StagesOf config layers (eligibleNodes nodes) 0 blocks stages)
    (hplace : Placement config layers (eligibleNodes nodes) layers.length blocks) :
    tallyOf config layers (eligibleNodes nodes) blocks =
      ⟨(stages.map (·.totalMs)).foldl Scalar.toMax.max
          (Scalar.toOfScientific.ofScientific 0 true 1),
        (stages.map (·.totalMs)).sum,
        (stages.map (·.memoryUtilization)).foldl Scalar.toMax.max
          (Scalar.toOfScientific.ofScientific 0 true 1)⟩ := by
  have hle : ∀ p ∈ blocks.zipIdx, p.1.start ≤ p.1.stop := fun p hp =>
    (hplace.endToEnd.bounds p.1 (List.fst_mem_of_mem_zipIdx hp)).1.le
  have htimes : blockTimes config layers (eligibleNodes nodes) blocks = stages.map (·.totalMs) := by
    apply h.filterMap_eq
    intro p hp s hs
    rw [hs.node, Option.map_some, hs.totalMs_exact (hle p hp) (hplace.endToEnd.start_pos_iff hp)]
  have hshares : blockShares layers (eligibleNodes nodes) blocks =
      stages.map (·.memoryUtilization) := by
    apply h.filterMap_eq
    intro p hp s hs
    have heligible := (mem_eligibleNodes.mp (List.mem_of_getElem? hs.node)).2
    rw [hs.node, Option.map_some, hs.memoryUtilization_exact (hle p hp) heligible]
  have hsum := foldl_add_exact (stages.map (·.totalMs))
    (Scalar.toOfScientific.ofScientific 0 true 1)
  rw [zero_exact, zero_add] at hsum
  simp only [tallyOf, objective, htimes, hshares, ← hsum]
  rw [← zero_exact]
  rfl

end Placements

/-! ## Figures of a plan -/

theorem quotient_bounds {totals : List ℚ} (hnonneg : ∀ t ∈ totals, 0 ≤ t) {shortest longest : ℚ}
    (hmin : totals.min? = some shortest) (hmax : totals.max? = some longest) :
    0 ≤ shortest / longest ∧ shortest / longest ≤ 1 := by
  obtain ⟨hshortest, hleast⟩ := List.min?_eq_some_iff.mp hmin
  obtain ⟨hlongest, -⟩ := List.max?_eq_some_iff.mp hmax
  have hpos : 0 ≤ longest := hnonneg longest hlongest
  exact ⟨div_nonneg (hnonneg shortest hshortest) hpos,
    div_le_one_of_le₀ (hleast longest hlongest) hpos⟩

/-- The balance is the shortest over the longest time, where the longest one is not zero. -/
theorem balance_exact {totals : List ℚ} (hnonneg : ∀ t ∈ totals, 0 ≤ t) {shortest longest : ℚ}
    (hmin : totals.min? = some shortest) (hmax : totals.max? = some longest) :
    balance totals = if 0 < longest then shortest / longest else 1 := by
  obtain ⟨hzero, hone⟩ := quotient_bounds hnonneg hmin hmax
  cases totals with
  | nil => cases hmin
  | cons t ts =>
    rw [max?_of_nonneg (by simp) hnonneg, Option.some.injEq] at hmax
    rw [min?_cons_exact, Option.some.injEq] at hmin
    have hbalance : balance (t :: ts) =
        if Scalar.toOfScientific.ofScientific 0 true 1 < longest then
          Scalar.clamp (shortest / longest) (Scalar.toOfScientific.ofScientific 0 true 1)
            (Scalar.toOfScientific.ofScientific 10 true 1)
        else Scalar.toOfScientific.ofScientific 10 true 1 := by
      rw [← hmax, ← hmin]
      rfl
    rw [hbalance, one_exact, clamp_exact _ zero_le_one, zero_exact, min_eq_left hone,
      max_eq_right hzero]

/-- The figures of a plan are those that the search has accumulated in a cell; the bottleneck is the
first stage that takes longest, and the balance is the quotient of the shortest and the longest
time. -/
structure Annotates (plan : Plan ℚ) (t : Tally ℚ) : Prop where
  longest : plan.bottleneckMs = t.maxLatency
  total : plan.totalExpectedMs + plan.totalTransferMs = t.totalLatency
  fullest : (plan.stages.map (·.memoryUtilization)).max? = some t.maxUtilization
  bottleneck : IsFirstMaximum (plan.stages.map (·.totalMs))
    (plan.bottleneckStageId.toNat, plan.bottleneckMs)
  balance : ∃ shortest, (plan.stages.map (·.totalMs)).min? = some shortest ∧
    plan.loadBalance = if 0 < plan.bottleneckMs then shortest / plan.bottleneckMs else 1
  balance_nonneg : 0 ≤ plan.loadBalance
  balance_le_one : plan.loadBalance ≤ 1

theorem finish_bottleneck (config : PlannerConfig ℚ) {stages : List (Stage ℚ)} (hne : stages ≠ [])
    (hcount : stages.length < UInt64.size) (eligible : ℕ) (modelName createdAt : String)
    (strategy : Strategy) :
    IsFirstMaximum (stages.map (·.totalMs))
      ((finish config stages eligible modelName createdAt strategy).bottleneckStageId.toNat,
        (finish config stages eligible modelName createdAt strategy).bottleneckMs) := by
  cases stages with
  | nil => exact absurd rfl hne
  | cons s rest =>
    have hfirst : IsFirstMaximum [s.totalMs] (0, s.totalMs) := ⟨rfl, by simp, by simp⟩
    have hall := hfirst.firstMaximum (rest.map (·.totalMs))
    have hbound := (List.getElem?_eq_some_iff.mp hall.found).1
    have hsmall : (firstMaximum (0, s.totalMs) 1 (rest.map (·.totalMs))).1 < UInt64.size := by
      refine Nat.lt_trans hbound ?_
      simpa [Nat.add_comm] using hcount
    change IsFirstMaximum _ ((UInt64.ofNat (firstMaximum (0, s.totalMs) 1
      (rest.map (·.totalMs))).1).toNat, (firstMaximum (0, s.totalMs) 1 (rest.map (·.totalMs))).2)
    rw [UInt64.toNat_ofNat_of_lt' hsmall]
    exact hall

/-- Stages that take no negative time and share of memory make a plan with their figures. -/
theorem finish_annotates (config : PlannerConfig ℚ) {stages : List (Stage ℚ)} (hne : stages ≠ [])
    (hcount : stages.length < UInt64.size) (htimes : ∀ s ∈ stages, 0 ≤ s.totalMs)
    (hshares : ∀ s ∈ stages, 0 ≤ s.memoryUtilization) (eligible : ℕ)
    (modelName createdAt : String) (strategy : Strategy) :
    Annotates (finish config stages eligible modelName createdAt strategy)
      ⟨(stages.map (·.totalMs)).foldl Scalar.toMax.max
          (Scalar.toOfScientific.ofScientific 0 true 1),
        (stages.map (·.totalMs)).sum,
        (stages.map (·.memoryUtilization)).foldl Scalar.toMax.max
          (Scalar.toOfScientific.ofScientific 0 true 1)⟩ := by
  have hne' : ∀ f : Stage ℚ → ℚ, stages.map f ≠ [] := by simp [hne]
  have htimes' : ∀ t ∈ stages.map (·.totalMs), 0 ≤ t := by simpa using htimes
  have hshares' : ∀ u ∈ stages.map (·.memoryUtilization), 0 ≤ u := by simpa using hshares
  have hfirst := finish_bottleneck config hne hcount eligible modelName createdAt strategy
  have hmax : (stages.map (·.totalMs)).max? =
      some (finish config stages eligible modelName createdAt strategy).bottleneckMs :=
    List.max?_eq_some_iff.mpr ⟨List.mem_of_getElem? hfirst.found, hfirst.le⟩
  obtain ⟨shortest, hmin⟩ := Option.ne_none_iff_exists'.mp
    (mt List.min?_eq_none_iff.mp (hne' (·.totalMs)))
  have hbalance : (finish config stages eligible modelName createdAt strategy).loadBalance = _ :=
    balance_exact htimes' hmin hmax
  obtain ⟨hzero, hone⟩ := quotient_bounds htimes' hmin hmax
  constructor
  case longest =>
    rw [max?_of_nonneg (hne' _) htimes'] at hmax
    exact (Option.some.inj hmax).symm
  case total =>
    change Scalar.sum (stages.map (·.expectedMs)) + Scalar.sum (stages.map (·.transferMs)) = _
    rw [sum_exact, sum_exact, ← List.sum_map_add]
    rfl
  case fullest => exact max?_of_nonneg (hne' _) hshares'
  case bottleneck => exact hfirst
  case balance => exact ⟨shortest, hmin, hbalance⟩
  case balance_nonneg =>
    rw [hbalance]
    split
    · exact hzero
    · exact zero_le_one
  case balance_le_one =>
    rw [hbalance]
    split
    · exact hone
    · exact le_rfl

section Generated

variable {config : PlannerConfig ℚ} {layers : List (LayerCost ℚ)} {nodes : List (Node ℚ)}
  {modelName createdAt : String} {strategy : Strategy} {plan : Plan ℚ}

/-- The figures of a plan for an admissible partition are those of the partition. -/
theorem StagesOf.annotates {blocks : List Block} {stages : List (Stage ℚ)}
    (h : StagesOf config layers (eligibleNodes nodes) 0 blocks stages)
    (hadm : Admissible config layers (eligibleNodes nodes) blocks)
    (hlayers : ∀ l ∈ layers, 0 ≤ l.latencyMs ∧ 0 ≤ l.memoryMb)
    (hnodes : ∀ n ∈ nodes, 0 ≤ n.latencyMs)
    (hconfig : 0 ≤ config.referenceScore ∧ 0 ≤ config.activationMb) :
    Annotates (finish config stages (eligibleNodes nodes).length modelName createdAt strategy)
      (tallyOf config layers (eligibleNodes nodes) blocks) := by
  have hstage : ∀ s ∈ stages, 0 ≤ s.totalMs ∧ 0 ≤ s.memoryUtilization := by
    intro s hs
    obtain ⟨i, hi⟩ := List.getElem?_of_mem hs
    obtain ⟨b, -, hof⟩ := h.stageOf hi
    obtain ⟨hlisted, heligible⟩ := mem_eligibleNodes.mp (List.mem_of_getElem? hof.node)
    constructor
    · exact hof.totalMs_nonneg heligible hconfig.1 (fun l hl => (hlayers l hl).1)
        (transferMs_nonneg hconfig.2 (hnodes s.node hlisted))
    · exact hof.memoryUtilization_nonneg heligible fun l hl => (hlayers l hl).2
  rw [h.tallyOf_exact hadm.placement]
  exact finish_annotates config (h.ne_nil hadm) (h.length_lt hadm) (fun s hs => (hstage s hs).1)
    (fun s hs => (hstage s hs).2) _ _ _ _

/-- If no cost of a layer, no latency of a node and neither the reference score nor the size of a
hand-off is negative, then a plan carries the figures of the cell that the search has selected. -/
theorem generate_annotates
    (h : generate config layers nodes modelName strategy createdAt = .ok plan)
    (hlayers : ∀ l ∈ layers, 0 ≤ l.latencyMs ∧ 0 ≤ l.memoryMb)
    (hnodes : ∀ n ∈ nodes, 0 ≤ n.latencyMs)
    (hconfig : 0 ≤ config.referenceScore ∧ 0 ≤ config.activationMb) :
    ∃ cell, Selects config layers (eligibleNodes nodes) strategy plan.stages.length cell ∧
      Annotates plan cell.tally := by
  obtain ⟨blocks, stages, hsolve, hbuild, rfl⟩ := generate_eq_ok h
  have hstages := stagesOf_buildStages hbuild
  obtain ⟨cell, hcell, htally⟩ := exists_selects hsolve
  refine ⟨cell, ?_, ?_⟩
  · rw [finish_stages, hstages.length_eq]
    exact hcell
  · rw [← htally]
    exact hstages.annotates (admissible_of_solve hsolve) hlayers hnodes hconfig

end Generated

private def equalLayers : List (LayerCost ℚ) :=
  [.basic "a" 80.0 256.0, .basic "b" 80.0 512.0]

private def equalNodes : List (Node ℚ) :=
  [(Node.basic "left" .gpu 100.0).withVram 1.0, (Node.basic "right" .gpu 100.0).withVram 1.0]

/-- Two layers of equal cost on equal nodes: the second stage is the bottleneck by its hand-off. -/
theorem generate_annotates_hand_off :
    ∃ plan, generate .standard equalLayers equalNodes "m" .balanced "" = .ok plan ∧
      (∀ l ∈ equalLayers, 0 ≤ l.latencyMs ∧ 0 ≤ l.memoryMb) ∧
      (∀ n ∈ equalNodes, 0 ≤ n.latencyMs) ∧
      (0 ≤ (PlannerConfig.standard : PlannerConfig ℚ).referenceScore ∧
        0 ≤ (PlannerConfig.standard : PlannerConfig ℚ).activationMb) ∧
      (plan.bottleneckStageId, plan.bottleneckMs, plan.loadBalance) =
        (1, 837 / 10, 800 / 837) ∧
      ∃ cell, Selects .standard equalLayers (eligibleNodes equalNodes) .balanced
        plan.stages.length cell ∧ Annotates plan cell.tally := by
  have hlayers : ∀ l ∈ equalLayers, 0 ≤ l.latencyMs ∧ 0 ≤ l.memoryMb := by decide +kernel
  have hnodes : ∀ n ∈ equalNodes, 0 ≤ n.latencyMs := by decide +kernel
  have hconfig : 0 ≤ (PlannerConfig.standard : PlannerConfig ℚ).referenceScore ∧
      0 ≤ (PlannerConfig.standard : PlannerConfig ℚ).activationMb := by decide +kernel
  have horder : eligibleNodes equalNodes = equalNodes :=
    eligibleNodes_of_ordered (by decide +kernel) (by decide +kernel)
  have hplan : (generate .standard equalLayers equalNodes "m" .balanced "").toOption.map
      (fun plan => (plan.bottleneckStageId, plan.bottleneckMs, plan.loadBalance)) =
      some (1, 837 / 10, 800 / 837) := by
    simp only [generate, horder]
    decide +kernel
  cases h : generate .standard equalLayers equalNodes "m" .balanced "" with
  | error e => simp [h, Except.toOption] at hplan
  | ok plan =>
    refine ⟨plan, rfl, hlayers, hnodes, hconfig, ?_, generate_annotates h hlayers hnodes hconfig⟩
    simpa [h, Except.toOption] using hplan

end LayerPipeline.Planning
