import LayerPipeline.Number.Decimal
import LayerPipeline.Planning.Generate
import LayerPipeline.Proofs.Planning.Feasibility
import Mathlib.Data.List.Forall2
import Mathlib.Data.List.Perm.Subperm

/-!
# Coverage of the layers by a plan

A plan holds every layer once and in order, its stages are numbered from zero and not empty, and
they stand on nodes at increasing positions of the ordered roster.
-/

namespace LayerPipeline.Planning

variable {α : Type}

/-! ## Blocks end to end -/

theorem slice_append_slice (layers : List (LayerCost α)) {a b c : Nat} (hab : a ≤ b)
    (hbc : b ≤ c) : slice layers a b ++ slice layers b c = slice layers a c := by
  have hlength : c - a = (b - a) + (c - b) := by omega
  have hstart : a + (b - a) = b := by omega
  rw [slice, slice, slice, hlength, List.take_add, List.drop_drop, hstart]

theorem slice_ne_nil (layers : List (LayerCost α)) {start stop : Nat} (h : start < stop)
    (hn : stop ≤ layers.length) : slice layers start stop ≠ [] := by
  intro hnil
  have hlength := congrArg List.length hnil
  simp only [slice, List.length_take, List.length_drop, List.length_nil] at hlength
  omega

theorem EndToEnd.bounds {first last : Nat} {blocks : List Block}
    (h : EndToEnd first last blocks) : ∀ b ∈ blocks, b.start < b.stop ∧ b.stop ≤ last := by
  induction blocks generalizing first with
  | nil => simp
  | cons c rest ih =>
    obtain ⟨rfl, hlt, hrest⟩ := h
    intro b hb
    rcases List.mem_cons.mp hb with rfl | hb
    · exact ⟨hlt, hrest.le⟩
    · exact ih hrest b hb

theorem EndToEnd.flatMap_slice (layers : List (LayerCost α)) {first last : Nat}
    {blocks : List Block} (h : EndToEnd first last blocks) :
    blocks.flatMap (fun b => slice layers b.start b.stop) = slice layers first last := by
  induction blocks generalizing first with
  | nil =>
    obtain rfl : first = last := h
    simp [slice]
  | cons b rest ih =>
    obtain ⟨rfl, hlt, hrest⟩ := h
    rw [List.flatMap_cons, ih hrest, slice_append_slice layers (Nat.le_of_lt hlt) hrest.le]

/-- Blocks end to end over the whole sequence hold all of it, in order. -/
theorem EndToEnd.flatMap_slice_all {layers : List (LayerCost α)} {blocks : List Block}
    (h : EndToEnd 0 layers.length blocks) :
    blocks.flatMap (fun b => slice layers b.start b.stop) = layers := by
  rw [h.flatMap_slice]
  simp [slice]

/-! ## Stages of blocks -/

variable [Scalar α]

/-- What the stage of a block at a position consists of. -/
structure StageOf (config : PlannerConfig α) (layers : List (LayerCost α))
    (nodes : List (Node α)) (position : Nat) (b : Block) (s : Stage α) : Prop where
  node : nodes[b.node]? = some s.node
  stageId : s.stageId = UInt64.ofNat position
  names : s.layers = (slice layers b.start b.stop).map (·.name)
  memory : s.memoryMb = Scalar.sum ((slice layers b.start b.stop).map (·.memoryMb))
  expected : computeOn config s.node.toCapability
    (Scalar.sum ((slice layers b.start b.stop).map (·.latencyMs))) = .ok s.expectedMs
  transfer : s.transferMs = if 0 < position then transferMs config s.node else 0.0

/-- Stages that belong to blocks, one to each, from a position on. -/
def StagesOf (config : PlannerConfig α) (layers : List (LayerCost α)) (nodes : List (Node α))
    (position : Nat) (blocks : List Block) (stages : List (Stage α)) : Prop :=
  List.Forall₂ (fun p s => StageOf config layers nodes p.2 p.1 s) (blocks.zipIdx position) stages

section Stages

variable {config : PlannerConfig α} {layers : List (LayerCost α)} {nodes : List (Node α)}
  {strategy : Strategy}

theorem stageOf_buildStage {position : Nat} {b : Block} {s : Stage α}
    (h : buildStage config layers nodes strategy position b = .ok s) :
    StageOf config layers nodes position b s := by
  unfold buildStage at h
  split at h
  · cases h
  · rename_i node hnode
    dsimp only at h
    split at h
    · cases h
    · rename_i expected hexpected
      split at h
      · cases h
      · obtain rfl := Except.ok.inj h
        exact ⟨hnode, rfl, rfl, rfl, hexpected, rfl⟩

theorem stagesOf_buildStages {position : Nat} {blocks : List Block} {stages : List (Stage α)}
    (h : buildStages config layers nodes strategy position blocks = .ok stages) :
    StagesOf config layers nodes position blocks stages := by
  induction blocks generalizing position stages with
  | nil =>
    obtain rfl := Except.ok.inj h
    exact .nil
  | cons b rest ih =>
    unfold buildStages at h
    split at h
    · cases h
    · rename_i s hs
      split at h
      · cases h
      · rename_i ss hss
        obtain rfl := Except.ok.inj h
        exact .cons (stageOf_buildStage hs) (ih hss)

theorem finish_stages (config : PlannerConfig α) (stages : List (Stage α)) (eligible : Nat)
    (modelName createdAt : String) (strategy : Strategy) :
    (finish config stages eligible modelName createdAt strategy).stages = stages := rfl

/-- A plan is made of the stages of the partition that the search found for the ordered roster. -/
theorem generate_eq_ok {modelName createdAt : String} {plan : Plan α}
    (h : generate config layers nodes modelName strategy createdAt = .ok plan) :
    ∃ blocks stages, solve config layers (eligibleNodes nodes) strategy = .ok blocks ∧
      buildStages config layers (eligibleNodes nodes) strategy 0 blocks = .ok stages ∧
      plan = finish config stages (eligibleNodes nodes).length modelName createdAt strategy := by
  unfold generate at h
  simp only [bind, Except.bind, pure, Except.pure, throw, throwThe, MonadExceptOf.throw] at h
  split at h
  · cases h
  split at h
  · cases h
  split at h
  · cases h
  split at h
  · cases h
  split at h
  · cases h
  rename_i blocks hblocks
  split at h
  · cases h
  rename_i stages hstages
  exact ⟨blocks, stages, hblocks, hstages, (Except.ok.inj h).symm⟩

end Stages

section Plans

variable {config : PlannerConfig α} {layers : List (LayerCost α)} {nodes : List (Node α)}
  {blocks : List Block} {stages : List (Stage α)}

theorem StagesOf.map_eq {β : Type} (f : Block → β) (g : Stage α → β)
    (hfg : ∀ position b s, StageOf config layers nodes position b s → g s = f b)
    (h : StagesOf config layers nodes 0 blocks stages) : stages.map g = blocks.map f := by
  have hmap : List.Forall₂ Eq ((blocks.zipIdx 0).map (fun p => f p.1)) (stages.map g) := by
    rw [List.forall₂_map_left_iff, List.forall₂_map_right_iff]
    exact List.Forall₂.imp (fun p s hs => (hfg p.2 p.1 s hs).symm) h
  rw [List.forall₂_eq_eq_eq] at hmap
  rw [← hmap, ← List.zipIdx_map_fst 0 blocks, List.map_map]
  simp [Function.comp_def]

theorem StagesOf.length_eq (h : StagesOf config layers nodes 0 blocks stages) :
    stages.length = blocks.length := by
  have hlength := List.Forall₂.length_eq h
  rw [List.length_zipIdx] at hlength
  exact hlength.symm

theorem StagesOf.stageOf (h : StagesOf config layers nodes 0 blocks stages) {i : Nat}
    {s : Stage α} (hs : stages[i]? = some s) :
    ∃ b ∈ blocks, StageOf config layers nodes i b s := by
  obtain ⟨hi, rfl⟩ := List.getElem?_eq_some_iff.mp hs
  have hi' : i < (blocks.zipIdx 0).length := by rwa [List.length_zipIdx, ← h.length_eq]
  have hstage := List.Forall₂.get h hi' hi
  simp only [List.get_eq_getElem, List.getElem_zipIdx, Nat.zero_add] at hstage
  exact ⟨_, List.getElem_mem _, hstage⟩

/-- The stages of a placement of the whole sequence hold the layers in order. -/
theorem StagesOf.flatMap_layers (h : StagesOf config layers nodes 0 blocks stages)
    (hplace : Placement config layers nodes layers.length blocks) :
    stages.flatMap (·.layers) = layers.map (·.name) := by
  have hnames := h.map_eq (fun b => (slice layers b.start b.stop).map (·.name)) (·.layers)
    (fun _ _ _ hs => hs.names)
  rw [List.flatMap_def, hnames, ← List.flatMap_def, ← List.map_flatMap,
    hplace.endToEnd.flatMap_slice_all]

theorem StagesOf.layers_ne_nil (h : StagesOf config layers nodes 0 blocks stages)
    (hplace : Placement config layers nodes layers.length blocks) :
    ∀ s ∈ stages, s.layers ≠ [] := by
  intro s hs
  obtain ⟨i, hi⟩ := List.getElem?_of_mem hs
  obtain ⟨b, hb, hstage⟩ := h.stageOf hi
  obtain ⟨hlt, hle⟩ := hplace.endToEnd.bounds b hb
  rw [hstage.names]
  simpa using slice_ne_nil layers hlt hle

theorem StagesOf.ne_nil (h : StagesOf config layers nodes 0 blocks stages)
    (hadm : Admissible config layers nodes blocks) : stages ≠ [] := by
  have hpos := hadm.length_pos
  rw [← h.length_eq] at hpos
  exact List.length_pos_iff.mp hpos

/-- Stages can be counted in 64 bits, because the limit on their number is one of these. -/
theorem StagesOf.length_lt (h : StagesOf config layers nodes 0 blocks stages)
    (hadm : Admissible config layers nodes blocks) : stages.length < UInt64.size := by
  have hlimit := hadm.length_le
  have hmax := config.maxStages.toNat_lt_size
  simp only [stageLimit, ← h.length_eq] at hlimit
  simp only [UInt64.size] at hmax ⊢
  omega

theorem StagesOf.stageId_toNat (h : StagesOf config layers nodes 0 blocks stages)
    (hadm : Admissible config layers nodes blocks) {i : Nat} {s : Stage α}
    (hs : stages[i]? = some s) : s.stageId.toNat = i := by
  obtain ⟨b, _, hstage⟩ := h.stageOf hs
  have hi : i < stages.length := (List.getElem?_eq_some_iff.mp hs).1
  rw [hstage.stageId, UInt64.toNat_ofNat_of_lt' (Nat.lt_trans hi (h.length_lt hadm))]

end Plans

/-! ## Plans -/

/-- Entries at increasing positions of a list form a part of it. -/
theorem sublist_of_positions {β : Type} (xs ys : List β) (positions : List Nat) (first : Nat)
    (hfirst : ∀ p ∈ positions, first ≤ p) (hlt : positions.Pairwise (· < ·))
    (h : xs.map some = positions.map (fun p => ys[p]?)) : List.Sublist xs (ys.drop first) := by
  induction positions generalizing xs first with
  | nil => simp_all
  | cons p positions ih =>
    cases xs with
    | nil => simp
    | cons x xs =>
      simp only [List.map_cons, List.cons.injEq] at h
      obtain ⟨hp, hx⟩ := List.getElem?_eq_some_iff.mp h.1.symm
      obtain ⟨hhead, htail⟩ := List.pairwise_cons.mp hlt
      have hrest := ih xs (p + 1) hhead htail h.2
      have hcons : List.Sublist (x :: xs) (ys.drop p) := by
        rw [List.drop_eq_getElem_cons hp, hx]
        exact hrest.cons_cons x
      exact hcons.trans (List.drop_sublist_drop_left ys (hfirst p (by simp)))

/-- The stages of a plan hold the layers in order, are numbered by their positions, are not empty,
respect the limits on their number, and stand on different entries of the roster in its order. -/
structure Covers (config : PlannerConfig α) (layers : List (LayerCost α)) (nodes : List (Node α))
    (plan : Plan α) : Prop where
  sequence : plan.layerSequence = layers.map (·.name)
  ids : ∀ (i : Nat) (s : Stage α), plan.stages[i]? = some s → s.stageId.toNat = i
  nonempty : ∀ s ∈ plan.stages, s.layers ≠ []
  stages_pos : 1 ≤ plan.stages.length
  stages_le : plan.stages.length ≤
    min (max 1 config.maxStages.toNat) (min (eligibleNodes nodes).length layers.length)
  positions : ∃ positions : List Nat, positions.Pairwise (· < ·) ∧
    plan.stages.map (fun s => some s.node) = positions.map (fun p => (eligibleNodes nodes)[p]?)
  roster : (plan.stages.map (·.node)).Subperm nodes

/-- Whatever the comparisons of the scalars answer, a plan that is returned covers the layers. -/
theorem generate_covers {config : PlannerConfig α} {layers : List (LayerCost α)}
    {nodes : List (Node α)} {modelName createdAt : String} {strategy : Strategy} {plan : Plan α}
    (h : generate config layers nodes modelName strategy createdAt = .ok plan) :
    Covers config layers nodes plan := by
  obtain ⟨blocks, stages, hsolve, hbuild, rfl⟩ := generate_eq_ok h
  have hadm := admissible_of_solve hsolve
  have hstages := stagesOf_buildStages hbuild
  have hlength := hstages.length_eq
  have hlimit := hadm.length_le
  have hpos := hadm.length_pos
  have hnodes := hstages.map_eq (fun b => (eligibleNodes nodes)[b.node]?) (fun s => some s.node)
    (fun _ _ _ hs => hs.node.symm)
  have hsome : (stages.map (·.node)).map some = (blocks.map (·.node)).map
      (fun p => (eligibleNodes nodes)[p]?) := by
    simpa [List.map_map, Function.comp_def] using hnodes
  have hincreasing : (blocks.map (·.node)).Pairwise (· < ·) :=
    List.pairwise_map.mpr hadm.placement.increasing
  have hsub := sublist_of_positions _ _ _ 0 (by simp) hincreasing hsome
  have hroster : (eligibleNodes nodes).Subperm nodes :=
    (List.mergeSort_perm _ _).subperm.trans List.filter_sublist.subperm
  simp only [stageLimit] at hlimit
  constructor
  · exact hstages.flatMap_layers hadm.placement
  · exact fun i s hs => hstages.stageId_toNat hadm hs
  · exact hstages.layers_ne_nil hadm.placement
  · rw [finish_stages]
    omega
  · rw [finish_stages]
    omega
  · refine ⟨blocks.map (·.node), hincreasing, ?_⟩
    rw [finish_stages, hnodes, List.map_map]
    rfl
  · exact hsub.subperm.trans hroster

private def threeLayers : List (LayerCost Binary64) :=
  [.basic "embed" 40.0 300.0, .basic "block" 80.0 500.0, .basic "head" 40.0 200.0]

private def twoNodes : List (Node Binary64) :=
  [(Node.basic "left" .gpu 100.0).withVram 1.0, (Node.basic "right" .gpu 100.0).withVram 1.0]

theorem generate_covers_two_stages :
    ∃ plan, generate PlannerConfig.standard threeLayers twoNodes "model" .balanced "" = .ok plan ∧
      plan.stages.length = 2 ∧ Covers PlannerConfig.standard threeLayers twoNodes plan := by
  have horder : eligibleNodes twoNodes = twoNodes := by
    have hfilter : twoNodes.filter isEligible = twoNodes := by decide +kernel
    rw [eligibleNodes, hfilter, List.mergeSort_of_pairwise (by decide +kernel)]
  have hlength : (generate PlannerConfig.standard threeLayers twoNodes "model" .balanced
      "").toOption.map (fun plan => plan.stages.length) = some 2 := by
    simp only [generate, horder]
    decide +kernel
  cases h : generate PlannerConfig.standard threeLayers twoNodes "model" .balanced "" with
  | error e => simp [h, Except.toOption] at hlength
  | ok plan => exact ⟨plan, rfl, by simpa [h, Except.toOption] using hlength, generate_covers h⟩

end LayerPipeline.Planning
