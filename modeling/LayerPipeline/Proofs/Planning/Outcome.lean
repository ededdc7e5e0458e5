import LayerPipeline.Proofs.Number.Order
import LayerPipeline.Proofs.Planning.Suitability
import LayerPipeline.Proofs.Planning.Validity
import Mathlib.Algebra.Order.BigOperators.Group.List

/-!
# How planning ends

Planning returns a plan, or says that there are no layers, no nodes, or no admissible partition.
What the search has committed to is never refused afterwards: whether a device computes at all does
not depend on the amount of work, so a block that was accepted by differences of sums becomes a
stage with sums of its own. Nothing is read outside the prepared arrays on the way, and the bounds
of every range are ordered, also for values that are not numbers.
-/

namespace LayerPipeline.Planning

variable {α : Type}

/-! ## Parameter counts -/

/-- How many parameters the layers have together. -/
def parameterTotal (layers : List (LayerCost α)) : Nat :=
  (layers.map fun l => l.numParameters.toNat).sum

theorem parameterSum?_eq (layers : List (LayerCost α)) :
    parameterSum? layers =
      if parameterTotal layers < UInt64.size then some (UInt64.ofNat (parameterTotal layers))
      else none := by
  have hfold : ∀ start, layers.foldl (fun n l => n + l.numParameters.toNat) start =
      start + parameterTotal layers := by
    intro start
    induction layers generalizing start with
    | nil => simp [parameterTotal]
    | cons l rest ih =>
      rw [List.foldl_cons, ih]
      simp [parameterTotal, Nat.add_assoc]
  rw [parameterSum?, hfold 0, Nat.zero_add]

theorem parameterTotal_slice_le (layers : List (LayerCost α)) (start stop : Nat) :
    parameterTotal (slice layers start stop) ≤ parameterTotal layers := by
  have hpart : List.Sublist (slice layers start stop) layers :=
    (List.take_sublist _ _).trans (List.drop_sublist _ _)
  exact (hpart.map _).sum_le_sum fun _ _ => Nat.zero_le _

variable [Scalar α]

/-! ## Stages of accepted blocks -/

section Stages

variable {config : PlannerConfig α} {layers : List (LayerCost α)} {nodes : List (Node α)}
  {strategy : Strategy}

/-- A device that computes something computes everything. -/
theorem computeOn_ok {device : Capability α} {cost time : α}
    (h : computeOn config device cost = .ok time) (other : α) :
    ∃ t, computeOn config device other = .ok t := by
  unfold computeOn Capability.executionTime at h ⊢
  dsimp only at h ⊢
  split at h
  · cases h
  · rename_i hidle
    rw [if_neg hidle]
    exact ⟨_, rfl⟩

theorem buildStage_of_accepts {b : Block} {node : Node α} (position : Nat)
    (hparameters : parameterTotal layers < UInt64.size) (hnode : nodes[b.node]? = some node)
    (hacc : Accepts config layers node b.start b.stop) :
    ∃ s, buildStage config layers nodes strategy position b = .ok s := by
  obtain ⟨_, hcompute⟩ := hacc.computes
  obtain ⟨expected, hexpected⟩ := computeOn_ok hcompute
    (Scalar.sum (((layers.drop b.start).take (b.stop - b.start)).map (·.latencyMs)))
  have hpart : parameterTotal ((layers.drop b.start).take (b.stop - b.start)) < UInt64.size :=
    Nat.lt_of_le_of_lt (parameterTotal_slice_le layers b.start b.stop) hparameters
  simp only [buildStage, hnode, hexpected, parameterSum?_eq, hpart, if_true]
  exact ⟨_, rfl⟩

/-- Blocks that their nodes have accepted become stages. -/
theorem buildStages_of_accepts {blocks : List Block} (position : Nat)
    (hparameters : parameterTotal layers < UInt64.size)
    (hacc : ∀ b ∈ blocks, ∃ node, nodes[b.node]? = some node ∧
      Accepts config layers node b.start b.stop) :
    ∃ stages, buildStages config layers nodes strategy position blocks = .ok stages := by
  induction blocks generalizing position with
  | nil => exact ⟨[], rfl⟩
  | cons b rest ih =>
    obtain ⟨node, hnode, hb⟩ := hacc b (by simp)
    have hfirst : ∃ s, buildStage config layers nodes strategy position b = .ok s :=
      buildStage_of_accepts position hparameters hnode hb
    obtain ⟨s, hs⟩ := hfirst
    obtain ⟨ss, hss⟩ := ih (position + 1) fun c hc => hacc c (by simp [hc])
    exact ⟨s :: ss, by simp only [buildStages, hs, hss]⟩

/-! ## Partitions behind the outcome -/

theorem Admissible.ne_nil {blocks : List Block} (h : Admissible config layers nodes blocks) :
    layers ≠ [] ∧ nodes ≠ [] := by
  have hpos := h.length_pos
  have hlimit := h.length_le
  rw [← List.length_pos_iff, ← List.length_pos_iff]
  simp only [stageLimit] at hlimit
  omega

/-- Where an admissible partition exists, every layer that needs half precision lies in a block on a
node that has it. -/
theorem Admissible.unhostable?_eq_none {blocks : List Block}
    (h : Admissible config layers nodes blocks) : unhostable? layers nodes = none := by
  rw [unhostable?, List.find?_eq_none]
  intro l hl hneeds
  rw [← h.placement.endToEnd.flatMap_slice_all, List.mem_flatMap] at hl
  obtain ⟨b, hb, hlb⟩ := hl
  obtain ⟨node, hnode, hacc⟩ := h.placement.accepted b hb
  have hfp16 := ((suits_requirement_iff node l).mp (hacc.suits l hlb)).2
  simp only [Bool.and_eq_true, Bool.not_eq_true', List.any_eq_false] at hneeds
  exact hneeds.2 node (List.mem_of_getElem? hnode) (hfp16 hneeds.1)

/-- An admissible partition over the eligible nodes becomes a plan. -/
theorem generate_of_admissible {blocks : List Block} {modelName createdAt : String}
    (hparameters : parameterTotal layers < UInt64.size)
    (hsolve : solve config layers (eligibleNodes nodes) strategy = .ok blocks)
    (hadm : Admissible config layers (eligibleNodes nodes) blocks) :
    ∃ plan, generate config layers nodes modelName strategy createdAt = .ok plan := by
  obtain ⟨hlayers, heligible⟩ := hadm.ne_nil
  have hnodes : nodes ≠ [] := by
    rintro rfl
    simp [eligibleNodes] at heligible
  have hbuild : ∃ stages, buildStages config layers (eligibleNodes nodes) strategy 0 blocks =
      .ok stages := buildStages_of_accepts 0 hparameters hadm.placement.accepted
  obtain ⟨stages, hstages⟩ := hbuild
  refine ⟨finish config stages (eligibleNodes nodes).length modelName createdAt strategy, ?_⟩
  simp [generate, hlayers, hnodes, heligible, hadm.unhostable?_eq_none, hsolve, hstages, bind,
    Except.bind, pure, Except.pure]

/-- Planning names the first thing that is missing: layers, nodes, or a partition. -/
theorem generate_cases (config : PlannerConfig α) (layers : List (LayerCost α))
    (nodes : List (Node α)) (modelName : String) (strategy : Strategy) (createdAt : String)
    (hparameters : parameterTotal layers < UInt64.size) :
    layers = [] ∧ generate config layers nodes modelName strategy createdAt = .error .noLayers ∨
    layers ≠ [] ∧ nodes = [] ∧
      generate config layers nodes modelName strategy createdAt = .error .noNodes ∨
    layers ≠ [] ∧ nodes ≠ [] ∧
      ((∃ plan, generate config layers nodes modelName strategy createdAt = .ok plan) ∨
        ∃ reason, generate config layers nodes modelName strategy createdAt =
          .error (.infeasible reason)) := by
  by_cases hlayers : layers = []
  · subst hlayers
    exact .inl ⟨rfl, rfl⟩
  by_cases hnodes : nodes = []
  · subst hnodes
    refine .inr (.inl ⟨hlayers, rfl, ?_⟩)
    simp [generate, hlayers, bind, Except.bind, throw, throwThe, MonadExceptOf.throw]
  refine .inr (.inr ⟨hlayers, hnodes, ?_⟩)
  rcases solve_cases config layers (eligibleNodes nodes) strategy with
    ⟨blocks, hsolve, hadm, -⟩ | ⟨hsolve, -⟩
  · exact .inl (generate_of_admissible hparameters hsolve hadm)
  · right
    by_cases heligible : eligibleNodes nodes = []
    · simp [generate, hlayers, hnodes, heligible, bind, Except.bind, throw, throwThe,
        MonadExceptOf.throw]
    · cases hhostable : unhostable? layers (eligibleNodes nodes) with
      | none => simp [generate, hlayers, hnodes, heligible, hhostable, hsolve, bind, Except.bind]
      | some l =>
        simp [generate, hlayers, hnodes, heligible, hhostable, bind, Except.bind, throw, throwThe,
          MonadExceptOf.throw]

end Stages

/-! ## Reads of the search -/

/-- A row with a place for every number of layers up to `n` and of stages up to `maxK`. -/
def Row.Spans (r : Row α) (n maxK : Nat) : Prop :=
  ∀ i ≤ n, ∀ k ≤ maxK, ∃ places cell, r.cells[i]? = some places ∧ places[k]? = some cell

omit [Scalar α] in
theorem Row.spans_ofFn (n maxK : Nat) (f : Nat → Nat → Option (Cell α)) :
    (Row.ofFn n maxK f).Spans n maxK := by
  intro i hi k hk
  have hi' : i < n + 1 := by omega
  have hk' : k < maxK + 1 := by omega
  simp [Row.ofFn, hi', hk']

section Reads

variable (config : PlannerConfig α) (strategy : Strategy) (layers : List (LayerCost α))
  (nodes : List (Node α))

theorem rows_spans (maxK : Nat) :
    ∀ row ∈ rows config strategy (Sequence.ofLayers layers) maxK nodes,
      row.Spans layers.length maxK := by
  induction nodes using List.reverseRecOn with
  | nil =>
    intro row hrow
    rw [List.mem_singleton.mp hrow]
    exact Row.spans_ofFn _ _ _
  | append_singleton nodes node ih =>
    intro row hrow
    rw [rows_concat] at hrow
    rcases List.mem_cons.mp hrow with rfl | hrow
    · rw [lastRow, List.foldl_append]
      exact Row.spans_ofFn _ _ _
    · exact ih row hrow

/-- A cell for `i` layers and `k` stages depends only on the sums and counts for up to `i` layers
and on the cells for up to `i` layers and `k` stages of the row before. -/
theorem nextCell?_congr (tol : α) {s t : Sequence α} {host other : Host α} {prev before : Row α}
    {i k : Nat} (hs : ∀ a ≤ i, s.latency[a]? = t.latency[a]? ∧ s.memory[a]? = t.memory[a]?)
    (hother : other = { host with unsuitable := other.unsuitable })
    (hcounts : ∀ a ≤ i, host.unsuitable[a]? = other.unsuitable[a]?)
    (hcells : ∀ a ≤ i, ∀ b ≤ k, prev.cell? a b = before.cell? a b) :
    nextCell? config tol strategy s host prev i k =
      nextCell? config tol strategy t other before i k := by
  cases k with
  | zero => simp only [nextCell?, hcells i (Nat.le_refl _) 0 (Nat.le_refl _)]
  | succ k =>
    simp only [nextCell?, hcells i (Nat.le_refl _) (k + 1) (Nat.le_refl _)]
    apply List.foldl_ext
    intro best start hstart
    have hle : start ≤ i := Nat.le_of_lt (List.mem_range.mp hstart)
    have hlatency : s.blockLatency start i = t.blockLatency start i := by
      simp only [Sequence.blockLatency, (hs i (Nat.le_refl _)).1, (hs start hle).1]
    have hmemory : s.blockMemory start i = t.blockMemory start i := by
      simp only [Sequence.blockMemory, (hs i (Nat.le_refl _)).2, (hs start hle).2]
    have htime : blockTime? config tol s host start i = blockTime? config tol t other start i := by
      rw [hother]
      simp only [blockTime?, hlatency, hmemory, hcounts i (Nat.le_refl _), hcounts start hle]
    have hplace : placeBlock? config tol s host start i =
        placeBlock? config tol t other start i := by
      funext tally
      simp only [placeBlock?, htime, hmemory]
      rw [hother]
    simp only [candidate?, hcells start hle k (by omega), hplace]

/-- The number of stages depends only on the cells for all layers and up to the limit on it. -/
theorem bestCount?_congr {n maxK : Nat} {last other : Row α}
    (h : ∀ k ≤ maxK, last.cell? n k = other.cell? n k) :
    bestCount? strategy n maxK last = bestCount? strategy n maxK other := by
  unfold bestCount?
  apply List.foldl_ext
  intro best k hk
  rw [h (k + 1) (List.mem_range.mp hk)]

/-- The search reads only what it has prepared: there is a sum and a count for every number of
layers, every row has a place for every number of layers and of stages, and whatever stands beyond
the place of a cell does not matter to it. -/
structure ReadsInside : Prop where
  latency : (Sequence.ofLayers layers).latency.size = layers.length + 1
  memory : (Sequence.ofLayers layers).memory.size = layers.length + 1
  unsuitable : ∀ node, (Host.ofNode config (Sequence.ofLayers layers) node).unsuitable.size =
    layers.length + 1
  rows : ∀ row ∈ rows config strategy (Sequence.ofLayers layers)
      (stageLimit config nodes.length layers.length) nodes,
    row.Spans layers.length (stageLimit config nodes.length layers.length)
  cell : ∀ (s t : Sequence α) (host other : Host α) (prev before : Row α) (i k : Nat),
    (∀ a ≤ i, s.latency[a]? = t.latency[a]? ∧ s.memory[a]? = t.memory[a]?) →
    other = { host with unsuitable := other.unsuitable } →
    (∀ a ≤ i, host.unsuitable[a]? = other.unsuitable[a]?) →
    (∀ a ≤ i, ∀ b ≤ k, prev.cell? a b = before.cell? a b) →
      nextCell? config tolerance strategy s host prev i k =
        nextCell? config tolerance strategy t other before i k
  count : ∀ (n maxK : Nat) (last other : Row α),
    (∀ k ≤ maxK, last.cell? n k = other.cell? n k) →
      bestCount? strategy n maxK last = bestCount? strategy n maxK other

theorem readsInside : ReadsInside config strategy layers nodes where
  latency := (size_foldl_push ..).trans (by simp)
  memory := (size_foldl_push ..).trans (by simp)
  unsuitable node := by
    have hsize := size_foldl_push
      (fun n r => n + if !node.toCapability.suits r then 1 else 0) 0
      (Sequence.ofLayers layers).requirements
    rw [Sequence.ofLayers, List.length_map] at hsize
    exact hsize
  rows := rows_spans config strategy layers nodes _
  cell _ _ _ _ _ _ _ _ hs hother hcounts hcells :=
    nextCell?_congr config strategy _ hs hother hcounts hcells
  count _ _ _ _ h := bestCount?_congr strategy h

end Reads

/-! ## The outcome -/

/-- The memory of a node as a device lies in a range with ordered bounds, whatever the figures of
the node are. -/
theorem clamp?_toCapability (n : Node Binary64) :
    Scalar.clamp? n.availableGb 0.0 (max n.capacityGb 0.0) = some n.toCapability.availableGb := by
  rw [Scalar.clamp?, if_pos (Binary64.zero_le_max_zero n.capacityGb)]
  rfl

/-- Planning ends with a plan or in one of three ways that say what is missing, and each of its
steps is defined: the search fails only for want of a partition, its blocks lie inside the roster
and the sequence and become stages, arrays are read where they have entries, nodes are sorted by a
total order, and the bounds of ranges are ordered. -/
structure Concludes (config : PlannerConfig Binary64) (layers : List (LayerCost Binary64))
    (nodes : List (Node Binary64)) (modelName : String) (strategy : Strategy) (createdAt : String) :
    Prop where
  ends : (∃ plan, generate config layers nodes modelName strategy createdAt = .ok plan) ∨
    generate config layers nodes modelName strategy createdAt = .error .noLayers ∨
    generate config layers nodes modelName strategy createdAt = .error .noNodes ∨
    ∃ reason, generate config layers nodes modelName strategy createdAt =
      .error (.infeasible reason)
  noLayers_iff : generate config layers nodes modelName strategy createdAt = .error .noLayers ↔
    layers = []
  noNodes_iff : generate config layers nodes modelName strategy createdAt = .error .noNodes ↔
    layers ≠ [] ∧ nodes = []
  plan_iff : (∃ plan, generate config layers nodes modelName strategy createdAt = .ok plan) ↔
    ∃ blocks, Admissible config layers (eligibleNodes nodes) blocks
  search : ∀ e, solve config layers (eligibleNodes nodes) strategy = .error e →
    ∃ reason, e = .infeasible reason ∧ reason ≠ "partition table inconsistent"
  blocks : ∀ blocks, solve config layers (eligibleNodes nodes) strategy = .ok blocks →
    ∀ b ∈ blocks, b.node < (eligibleNodes nodes).length ∧ b.start < b.stop ∧
      b.stop ≤ layers.length
  stages : ∀ blocks, solve config layers (eligibleNodes nodes) strategy = .ok blocks →
    ∃ stages, buildStages config layers (eligibleNodes nodes) strategy 0 blocks = .ok stages
  bottleneck : ∀ plan, generate config layers nodes modelName strategy createdAt = .ok plan →
    plan.bottleneckStageId.toNat < plan.stages.length
  reads : ReadsInside config strategy layers (eligibleNodes nodes)
  order : (∀ a b : Node Binary64, (rosterLE a b || rosterLE b a) = true) ∧
    ∀ a b c : Node Binary64, rosterLE a b = true → rosterLE b c = true → rosterLE a c = true
  memory : ∀ n : Node Binary64,
    Scalar.clamp? n.availableGb 0.0 (max n.capacityGb 0.0) = some n.toCapability.availableGb
  balance : ∀ share : Binary64, Scalar.clamp? share 0.0 1.0 = some (Scalar.clamp share 0.0 1.0)

/-- As long as the layers together have fewer than `2 ^ 64` parameters, planning concludes, for
every number of stages that is allowed and for all figures of layers, nodes and configuration, those
that are not numbers included. -/
theorem generate_concludes (config : PlannerConfig Binary64) (layers : List (LayerCost Binary64))
    (nodes : List (Node Binary64)) (modelName : String) (strategy : Strategy) (createdAt : String)
    (hparameters : (layers.map fun l => l.numParameters.toNat).sum < 2 ^ 64) :
    Concludes config layers nodes modelName strategy createdAt := by
  have hcases := generate_cases config layers nodes modelName strategy createdAt hparameters
  have hsolve := solve_cases config layers (eligibleNodes nodes) strategy
  constructor
  case ends => grind
  case noLayers_iff => grind
  case noNodes_iff => grind
  case plan_iff =>
    constructor
    · rintro ⟨plan, hplan⟩
      obtain ⟨blocks, -, hok, -⟩ := generate_eq_ok hplan
      exact ⟨blocks, admissible_of_solve hok⟩
    · rintro ⟨blocks, hadm⟩
      rcases hsolve with ⟨found, hok, hfound, -⟩ | ⟨-, hnone⟩
      · exact generate_of_admissible hparameters hok hfound
      · exact absurd ⟨blocks, hadm⟩ hnone
  case search =>
    rcases hsolve with ⟨blocks, hok, -⟩ | ⟨herr, -⟩
    · simp [hok]
    · rintro e he
      obtain rfl := Except.error.inj (herr.symm.trans he)
      exact ⟨_, rfl, infeasibleReason_ne _ _ _ _ (by decide)⟩
  case blocks =>
    intro blocks hok b hb
    have hplace := (admissible_of_solve hok).placement
    exact ⟨hplace.node_lt b hb, hplace.endToEnd.bounds b hb⟩
  case stages =>
    intro blocks hok
    exact buildStages_of_accepts 0 hparameters (admissible_of_solve hok).placement.accepted
  case bottleneck =>
    intro plan hplan
    obtain ⟨blocks, stages, hok, hbuild, rfl⟩ := generate_eq_ok hplan
    apply finish_bottleneck_lt
    exact (stagesOf_buildStages hbuild).ne_nil (admissible_of_solve hok)
  case reads => exact readsInside config strategy layers (eligibleNodes nodes)
  case order => exact ⟨rosterLE_total, rosterLE_trans⟩
  case memory => exact clamp?_toCapability
  case balance =>
    intro share
    rw [Scalar.clamp?, if_pos (by decide +kernel)]

private def unmeasuredNodes : List (Node Binary64) :=
  [{ (Node.basic "n" .gpu 100.0).withVram 1.0 with utilization := ⟨0x7ff8000000000000⟩ }]

private def unmeasuredLayers : List (LayerCost Binary64) :=
  [{ LayerCost.basic "a" ⟨0x7ff8000000000000⟩ 0.0 with numParameters := 0xfffffffffffffffe },
    { LayerCost.basic "b" Binary64.infinity 0.0 with numParameters := 1 }]

/-- The load of the only node and the time of a layer are not numbers, another time is infinite, no
stage is allowed, and the parameters just fit: there is a plan of one stage. -/
theorem generate_concludes_unmeasured :
    (unmeasuredLayers.map fun l => l.numParameters.toNat).sum < 2 ^ 64 ∧
      Concludes { PlannerConfig.standard with maxStages := 0 } unmeasuredLayers unmeasuredNodes "m"
        .balanced "" ∧
      (generate { PlannerConfig.standard with maxStages := 0 } unmeasuredLayers unmeasuredNodes "m"
        .balanced "").toOption.map (fun plan => plan.stages.length) = some 1 := by
  have hparameters : (unmeasuredLayers.map fun l => l.numParameters.toNat).sum < 2 ^ 64 := by
    decide +kernel
  have horder : eligibleNodes unmeasuredNodes = unmeasuredNodes :=
    eligibleNodes_of_ordered (by decide +kernel) (by decide +kernel)
  refine ⟨hparameters, generate_concludes _ _ _ _ _ _ hparameters, ?_⟩
  simp only [generate, horder]
  decide +kernel

end LayerPipeline.Planning
