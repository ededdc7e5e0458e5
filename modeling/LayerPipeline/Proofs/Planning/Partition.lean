import LayerPipeline.Planning.Search
import Mathlib.Data.List.Basic
import Mathlib.Data.List.Induction

/-!
# Partitions of a layer sequence

What the search looks for, said without its table: blocks that lie end to end over the layers, on
nodes at increasing positions, each of which passes the tests of its node. The search asks the same
tests through sums and counts prepared in advance, and both readings agree on every block.
-/

namespace LayerPipeline.Planning

variable {α : Type}

/-! ## Blocks of layers -/

/-- The layers from `start` up to `stop`. -/
def slice (layers : List (LayerCost α)) (start stop : Nat) : List (LayerCost α) :=
  (layers.drop start).take (stop - start)

/-- The blocks lie end to end from one layer to another, and none of them is empty. -/
def EndToEnd : Nat → Nat → List Block → Prop
  | first, last, [] => first = last
  | first, last, b :: rest => b.start = first ∧ first < b.stop ∧ EndToEnd b.stop last rest

instance decidableEndToEnd : ∀ first last blocks, Decidable (EndToEnd first last blocks)
  | first, last, [] => inferInstanceAs (Decidable (first = last))
  | first, last, b :: rest =>
    have := decidableEndToEnd b.stop last rest
    inferInstanceAs (Decidable (b.start = first ∧ first < b.stop ∧ EndToEnd b.stop last rest))

theorem take_append_slice (layers : List (LayerCost α)) {start stop : Nat} (h : start ≤ stop) :
    layers.take start ++ slice layers start stop = layers.take stop := by
  obtain ⟨length, rfl⟩ := Nat.exists_eq_add_of_le h
  rw [slice, Nat.add_sub_cancel_left, ← List.take_add]

theorem endToEnd_concat (first last : Nat) (blocks : List Block) (b : Block) :
    EndToEnd first last (blocks ++ [b]) ↔
      EndToEnd first b.start blocks ∧ b.start < b.stop ∧ b.stop = last := by
  induction blocks generalizing first with
  | nil => grind [EndToEnd]
  | cons c rest ih => simp only [List.cons_append, EndToEnd, ih, and_assoc]

theorem EndToEnd.le {first last : Nat} {blocks : List Block} (h : EndToEnd first last blocks) :
    first ≤ last := by
  induction blocks generalizing first with
  | nil => exact Nat.le_of_eq h
  | cons b rest ih => exact Nat.le_trans (Nat.le_of_lt h.2.1) (ih h.2.2)

variable [Scalar α]

/-- Sum of the first `count` values, rounded like the summation from the left. -/
def prefixSum (xs : List α) (count : Nat) : α :=
  (xs.take count).foldl (· + ·) 0.0

/-- Reference latency of a block, as the search measures it. -/
def latencyOf (layers : List (LayerCost α)) (start stop : Nat) : α :=
  prefixSum (layers.map (·.latencyMs)) stop - prefixSum (layers.map (·.latencyMs)) start

/-- Memory of a block, as the search measures it. -/
def memoryOf (layers : List (LayerCost α)) (start stop : Nat) : α :=
  prefixSum (layers.map (·.memoryMb)) stop - prefixSum (layers.map (·.memoryMb)) start

/-- Compute time of a block on a node. -/
def computeMs (config : PlannerConfig α) (layers : List (LayerCost α)) (node : Node α)
    (start stop : Nat) : α :=
  latencyOf layers start stop * config.referenceScore /
    (node.computeScore * (1.0 - node.utilization))

/-- Compute time of a block on a node, and the hand-off into it unless it is the first one. -/
def blockMs (config : PlannerConfig α) (layers : List (LayerCost α)) (node : Node α)
    (start stop : Nat) : α :=
  computeMs config layers node start stop + if 0 < start then transferMs config node else 0.0

/-- Share of a node's available memory that a block takes. -/
def blockShare (layers : List (LayerCost α)) (node : Node α) (start stop : Nat) : α :=
  if (0.0 : α) < node.availableGb * 1024.0 then
    memoryOf layers start stop / (node.availableGb * 1024.0)
  else 1.0

/-- The tests that a block has to pass on its node. -/
structure Accepts (config : PlannerConfig α) (layers : List (LayerCost α)) (node : Node α)
    (start stop : Nat) : Prop where
  suits : ∀ l ∈ slice layers start stop, node.toCapability.suits l.requirement = true
  fits : ¬ node.availableGb * 1024.0 + tolerance < memoryOf layers start stop
  computes : ∃ time, computeOn config node.toCapability (latencyOf layers start stop) = .ok time

instance (config : PlannerConfig α) (layers : List (LayerCost α)) (node : Node α)
    (start stop : Nat) : Decidable (Accepts config layers node start stop) :=
  decidable_of_iff
    ((∀ l ∈ slice layers start stop, node.toCapability.suits l.requirement = true) ∧
      ¬ node.availableGb * 1024.0 + tolerance < memoryOf layers start stop ∧
      (computeOn config node.toCapability (latencyOf layers start stop)).toOption.isSome = true)
    ⟨fun ⟨hsuits, hfits, hcomputes⟩ => ⟨hsuits, hfits, by
        cases h : computeOn config node.toCapability (latencyOf layers start stop) with
        | error e => simp [h, Except.toOption] at hcomputes
        | ok time => exact ⟨time, rfl⟩⟩,
      fun ⟨hsuits, hfits, time, hcomputes⟩ => ⟨hsuits, hfits, by rw [hcomputes]; rfl⟩⟩

/-! ## Sums and counts prepared in advance -/

theorem size_foldl_push {β γ : Type} (f : γ → β → γ) (d : γ) (xs : List β) :
    (xs.foldl (fun acc x => acc.push (f (acc.back?.getD d) x)) #[d]).size = xs.length + 1 := by
  induction xs using List.reverseRecOn with
  | nil => rfl
  | append_singleton xs x ih => simp [ih]

/-- An array that grows by what follows from its last entry holds the folds over all initial parts
of the list. -/
theorem getElem?_foldl_push {β γ : Type} (f : γ → β → γ) (d : γ) (xs : List β) (i : Nat)
    (hi : i ≤ xs.length) :
    (xs.foldl (fun acc x => acc.push (f (acc.back?.getD d) x)) #[d])[i]? =
      some ((xs.take i).foldl f d) := by
  induction xs using List.reverseRecOn generalizing i with
  | nil => simp_all
  | append_singleton xs x ih =>
    have hsize := size_foldl_push f d xs
    rw [List.foldl_append, List.foldl_cons, List.foldl_nil, Array.getElem?_push]
    split
    · rename_i h
      have hlast := ih xs.length (Nat.le_refl _)
      rw [h, hsize, Array.back?_eq_getElem?, hsize, Nat.add_sub_cancel, hlast]
      simp [List.take_of_length_le]
    · rename_i h
      have hi' : i ≤ xs.length := by simp at hi; omega
      rw [ih i hi', List.take_append_of_le_length hi']

theorem getElem?_prefixSums (xs : List α) (i : Nat) (hi : i ≤ xs.length) :
    (prefixSums xs)[i]? = some (prefixSum xs i) :=
  getElem?_foldl_push (· + ·) 0.0 xs i hi

theorem getElem?_prefixCounts {β : Type} (p : β → Bool) (xs : List β) (i : Nat)
    (hi : i ≤ xs.length) : (prefixCounts p xs)[i]? = some ((xs.take i).countP p) := by
  have h := getElem?_foldl_push (fun n x => n + if p x then 1 else 0) 0 xs i hi
  rw [prefixCounts, h]
  congr 1
  generalize xs.take i = ys
  induction ys using List.reverseRecOn with
  | nil => rfl
  | append_singleton ys y ih => simp [ih, List.countP_append, List.countP_singleton]

section Tests

variable (config : PlannerConfig α) (layers : List (LayerCost α)) (node : Node α)
  {start stop : Nat}

theorem blockLatency_ofLayers (h : start ≤ stop) (hn : stop ≤ layers.length) :
    (Sequence.ofLayers layers).blockLatency start stop = latencyOf layers start stop := by
  simp only [Sequence.blockLatency, Sequence.ofLayers, latencyOf]
  rw [getElem?_prefixSums _ stop (by simpa), getElem?_prefixSums _ start (by simp; omega)]
  rfl

theorem blockMemory_ofLayers (h : start ≤ stop) (hn : stop ≤ layers.length) :
    (Sequence.ofLayers layers).blockMemory start stop = memoryOf layers start stop := by
  simp only [Sequence.blockMemory, Sequence.ofLayers, memoryOf]
  rw [getElem?_prefixSums _ stop (by simpa), getElem?_prefixSums _ start (by simp; omega)]
  rfl

/-- The counts of unsuitable layers differ exactly when an unsuitable layer lies between. -/
theorem unsuitable_ofNode (h : start ≤ stop) (hn : stop ≤ layers.length) :
    ¬ (Host.ofNode config (Sequence.ofLayers layers) node).unsuitable[start]?.getD 0 <
        (Host.ofNode config (Sequence.ofLayers layers) node).unsuitable[stop]?.getD 0 ↔
      ∀ l ∈ slice layers start stop, node.toCapability.suits l.requirement = true := by
  simp only [Host.ofNode, Sequence.ofLayers]
  rw [getElem?_prefixCounts _ _ start (by simp; omega), getElem?_prefixCounts _ _ stop (by simpa)]
  simp only [Option.getD_some, ← List.map_take, List.countP_map]
  rw [← take_append_slice layers h, List.countP_append]
  simp

theorem computeOn_eq_ok {cost time : α}
    (h : computeOn config node.toCapability cost = .ok time) :
    time = cost * config.referenceScore / (node.computeScore * (1.0 - node.utilization)) := by
  simp only [computeOn, Capability.executionTime] at h
  split at h
  · cases h
  · simpa [Node.toCapability] using h.symm

theorem blockTime?_eq_some_iff (h : start ≤ stop) (hn : stop ≤ layers.length) (time : α) :
    blockTime? config tolerance (Sequence.ofLayers layers)
        (Host.ofNode config (Sequence.ofLayers layers) node) start stop = some time ↔
      Accepts config layers node start stop ∧ time = computeMs config layers node start stop := by
  have hsuits := unsuitable_ofNode config layers node h hn
  rw [blockTime?, blockMemory_ofLayers layers h hn, blockLatency_ofLayers layers h hn]
  change (if _ then none else if node.availableGb * 1024.0 + tolerance < _ then none
    else (computeOn config node.toCapability _).toOption) = _ ↔ _
  split
  · rename_i hlt
    refine ⟨by simp, fun hacc => ?_⟩
    exact absurd hlt (hsuits.mpr hacc.1.suits)
  · rename_i hlt
    split
    · rename_i hmem
      refine ⟨by simp, fun hacc => ?_⟩
      exact absurd hmem hacc.1.fits
    · rename_i hmem
      cases hcompute : computeOn config node.toCapability (latencyOf layers start stop) with
      | error e =>
        refine ⟨by simp [Except.toOption], fun hacc => ?_⟩
        obtain ⟨t, ht⟩ := hacc.1.computes
        simp [hcompute] at ht
      | ok t =>
        have ht := computeOn_eq_ok config node hcompute
        have hacc : Accepts config layers node start stop := ⟨hsuits.mp hlt, hmem, t, hcompute⟩
        simp only [Except.toOption, Option.some.injEq, hacc, true_and]
        rw [ht]
        exact eq_comm

/-- One more block on a node is possible exactly when the node accepts it, and then adds its time
and its share of the memory. -/
theorem placeBlock?_eq_some_iff (h : start ≤ stop) (hn : stop ≤ layers.length) (t u : Tally α) :
    placeBlock? config tolerance (Sequence.ofLayers layers)
        (Host.ofNode config (Sequence.ofLayers layers) node) start stop t = some u ↔
      Accepts config layers node start stop ∧
        u = t.extend (blockMs config layers node start stop)
          (blockShare layers node start stop) := by
  rw [placeBlock?, Option.map_eq_some_iff]
  simp only [blockTime?_eq_some_iff config layers node h hn, blockMemory_ofLayers layers h hn]
  constructor
  · rintro ⟨time, ⟨hacc, rfl⟩, rfl⟩
    exact ⟨hacc, rfl⟩
  · rintro ⟨hacc, rfl⟩
    exact ⟨_, ⟨hacc, rfl⟩, rfl⟩

end Tests

/-! ## Placements -/

/-- The blocks cut the first `count` layers into contiguous nonempty pieces, placed on nodes at
increasing positions of the roster, and every node accepts its block. -/
structure Placement (config : PlannerConfig α) (layers : List (LayerCost α))
    (nodes : List (Node α)) (count : Nat) (blocks : List Block) : Prop where
  endToEnd : EndToEnd 0 count blocks
  increasing : blocks.Pairwise (fun a b => a.node < b.node)
  accepted : ∀ b ∈ blocks, ∃ node, nodes[b.node]? = some node ∧
    Accepts config layers node b.start b.stop

/-- A placement of the whole sequence that respects the limit on the number of stages. -/
structure Admissible (config : PlannerConfig α) (layers : List (LayerCost α))
    (nodes : List (Node α)) (blocks : List Block) : Prop where
  placement : Placement config layers nodes layers.length blocks
  length_pos : 1 ≤ blocks.length
  length_le : blocks.length ≤ stageLimit config nodes.length layers.length

instance (config : PlannerConfig α) (layers : List (LayerCost α)) (nodes : List (Node α))
    (blocks : List Block) : Decidable (Admissible config layers nodes blocks) :=
  decidable_of_iff
    ((EndToEnd 0 layers.length blocks ∧ blocks.Pairwise (fun a b => a.node < b.node) ∧
      ∀ b ∈ blocks, ∃ node ∈ nodes[b.node]?, Accepts config layers node b.start b.stop) ∧
      1 ≤ blocks.length ∧ blocks.length ≤ stageLimit config nodes.length layers.length)
    ⟨fun ⟨⟨hends, hincreasing, haccepted⟩, hpos, hle⟩ =>
        ⟨⟨hends, hincreasing, haccepted⟩, hpos, hle⟩,
      fun ⟨⟨hends, hincreasing, haccepted⟩, hpos, hle⟩ =>
        ⟨⟨hends, hincreasing, haccepted⟩, hpos, hle⟩⟩

section Placements

variable {config : PlannerConfig α} {layers : List (LayerCost α)} {nodes : List (Node α)}
  {node : Node α} {count start : Nat} {blocks : List Block}

theorem Placement.nil : Placement config layers nodes 0 [] :=
  ⟨rfl, .nil, by simp⟩

theorem Placement.node_lt (h : Placement config layers nodes count blocks) :
    ∀ b ∈ blocks, b.node < nodes.length := by
  intro b hb
  obtain ⟨node, hnode, _⟩ := h.accepted b hb
  exact (List.getElem?_eq_some_iff.mp hnode).1

theorem Placement.append (h : Placement config layers nodes count blocks)
    (more : List (Node α)) : Placement config layers (nodes ++ more) count blocks := by
  refine ⟨h.endToEnd, h.increasing, fun b hb => ?_⟩
  rw [List.getElem?_append_left (h.node_lt b hb)]
  exact h.accepted b hb

theorem Placement.concat (h : Placement config layers nodes start blocks) (hlt : start < count)
    (hacc : Accepts config layers node start count) :
    Placement config layers (nodes ++ [node]) count
      (blocks ++ [⟨nodes.length, start, count⟩]) := by
  refine ⟨(endToEnd_concat _ _ _ _).mpr ⟨h.endToEnd, hlt, rfl⟩, ?_, ?_⟩
  · refine List.pairwise_append.mpr ⟨h.increasing, by simp, fun a ha b hb => ?_⟩
    rw [List.mem_singleton.mp hb]
    exact h.node_lt a ha
  · intro b hb
    rcases List.mem_append.mp hb with hb | hb
    · exact (h.append [node]).accepted b hb
    · rw [List.mem_singleton.mp hb]
      exact ⟨node, by simp, hacc⟩

/-- A placement on one more node leaves that node out, or ends with a block on it. -/
theorem Placement.concat_cases (h : Placement config layers (nodes ++ [node]) count blocks) :
    Placement config layers nodes count blocks ∨
      ∃ before start, blocks = before ++ [⟨nodes.length, start, count⟩] ∧ start < count ∧
        Placement config layers nodes start before ∧ Accepts config layers node start count := by
  rcases List.eq_nil_or_concat' blocks with rfl | ⟨before, last, rfl⟩
  · left
    exact ⟨h.endToEnd, .nil, by simp⟩
  · obtain ⟨hends, hlt, rfl⟩ := (endToEnd_concat _ _ _ _).mp h.endToEnd
    obtain ⟨hbefore, _, hlast⟩ := List.pairwise_append.mp h.increasing
    have hbound := h.node_lt last (by simp)
    rw [List.length_append, List.length_singleton] at hbound
    -- blocks that stay below the new node were accepted by nodes that were there before
    have hold : ∀ b ∈ before ++ [last], b.node < nodes.length → ∃ node, nodes[b.node]? = some node ∧
        Accepts config layers node b.start b.stop := by
      intro b hb hnode
      have hacc := h.accepted b hb
      rwa [List.getElem?_append_left hnode] at hacc
    have hrest : ∀ b ∈ before, b.node < nodes.length := by
      intro b hb
      have := hlast b hb last (by simp)
      omega
    by_cases hnew : last.node = nodes.length
    · right
      obtain ⟨host, hhost, hacc⟩ := h.accepted last (by simp)
      rw [hnew, List.getElem?_concat_length, Option.some.injEq] at hhost
      subst hhost
      refine ⟨before, last.start, by rw [← hnew], hlt, ⟨hends, hbefore, ?_⟩, hacc⟩
      exact fun b hb => hold b (by simp [hb]) (hrest b hb)
    · left
      refine ⟨h.endToEnd, h.increasing, fun b hb => hold b hb ?_⟩
      rcases List.mem_append.mp hb with hb | hb
      · exact hrest b hb
      · rw [List.mem_singleton.mp hb]
        omega

end Placements

/-! ## What a placement amounts to -/

section Objective

variable (config : PlannerConfig α) (layers : List (LayerCost α)) (nodes : List (Node α))

/-- Times of the blocks, hand-offs included. -/
def blockTimes (blocks : List Block) : List α :=
  blocks.filterMap fun b => nodes[b.node]?.map fun node => blockMs config layers node b.start b.stop

/-- Shares of memory that the blocks take of their nodes. -/
def blockShares (blocks : List Block) : List α :=
  blocks.filterMap fun b => nodes[b.node]?.map fun node => blockShare layers node b.start b.stop

/-- What a strategy minimises first: the longest time of a block, the time of all blocks, or the
largest share of memory. -/
def objective (blocks : List Block) : Strategy → α
  | .balanced => (blockTimes config layers nodes blocks).foldl max 0.0
  | .latency => (blockTimes config layers nodes blocks).foldl (· + ·) 0.0
  | .memory => (blockShares layers nodes blocks).foldl max 0.0

/-- All that the search records about a placement. -/
def tallyOf (blocks : List Block) : Tally α where
  maxLatency := objective config layers nodes blocks .balanced
  totalLatency := objective config layers nodes blocks .latency
  maxUtilization := objective config layers nodes blocks .memory

theorem key_tallyOf (blocks : List Block) (strategy : Strategy) :
    ((tallyOf config layers nodes blocks).key strategy).1 =
      objective config layers nodes blocks strategy := by
  cases strategy <;> rfl

variable {config layers nodes}

theorem tallyOf_append {count : Nat} {blocks : List Block}
    (h : Placement config layers nodes count blocks) (more : List (Node α)) :
    tallyOf config layers (nodes ++ more) blocks = tallyOf config layers nodes blocks := by
  have hnodes : ∀ b ∈ blocks, (nodes ++ more)[b.node]? = nodes[b.node]? :=
    fun b hb => List.getElem?_append_left (h.node_lt b hb)
  have htimes : blockTimes config layers (nodes ++ more) blocks =
      blockTimes config layers nodes blocks :=
    List.filterMap_congr fun b hb => by rw [hnodes b hb]
  have hshares : blockShares layers (nodes ++ more) blocks = blockShares layers nodes blocks :=
    List.filterMap_congr fun b hb => by rw [hnodes b hb]
  simp only [tallyOf, objective, htimes, hshares]

theorem tallyOf_concat (blocks : List Block) {b : Block} {node : Node α}
    (h : nodes[b.node]? = some node) :
    tallyOf config layers nodes (blocks ++ [b]) =
      (tallyOf config layers nodes blocks).extend (blockMs config layers node b.start b.stop)
        (blockShare layers node b.start b.stop) := by
  simp [tallyOf, objective, blockTimes, blockShares, List.filterMap_append, h, Tally.extend]

end Objective

end LayerPipeline.Planning
