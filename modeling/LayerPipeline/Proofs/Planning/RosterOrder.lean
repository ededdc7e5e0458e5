import LayerPipeline.Number.Decimal
import LayerPipeline.Planning.Generate
import Mathlib.Data.List.Nodup
import Mathlib.Data.Prod.Lex
import Mathlib.Data.String.Basic

/-!
# Independence of the order of the roster

Nodes are compared by kind, then by the total order of their scores, then by name. Names that differ
leave no ties, so sorting forgets the order in which the nodes were listed, and nothing else in
planning looks at it.
-/

namespace LayerPipeline.Planning

/-! ## Eligible nodes -/

section Eligible

variable {α : Type} [Scalar α] {nodes : List (Node α)}

theorem isEligible_iff (n : Node α) :
    isEligible n = true ↔
      n.isSaturated = false ∧ (0.0 : α) < n.computeScore ∧ (0.0 : α) < n.capacityGb := by
  simp [isEligible, and_assoc]

theorem mem_eligibleNodes {n : Node α} :
    n ∈ eligibleNodes nodes ↔ n ∈ nodes ∧ isEligible n = true := by
  rw [eligibleNodes, List.mem_mergeSort, List.mem_filter]

theorem eligibleNodes_of_ordered (heligible : ∀ n ∈ nodes, isEligible n = true)
    (horder : nodes.Pairwise fun a b => rosterLE a b = true) : eligibleNodes nodes = nodes := by
  rw [eligibleNodes, List.filter_eq_self.mpr heligible, List.mergeSort_of_pairwise horder]

end Eligible

/-! ## The comparison of nodes -/

/-- What nodes are ordered by: their kind and their score, both falling, and their name. -/
def rosterKey (n : Node Binary64) : ℤ ×ₗ ℤ ×ₗ String :=
  toLex (-(n.kind.priority : ℤ), toLex (-n.computeScore.rank, n.nodeId))

theorem rosterLE_iff (a b : Node Binary64) : rosterLE a b = true ↔ rosterKey a ≤ rosterKey b := by
  have hscore : ∀ x y : Binary64, Scalar.totalLE x y = decide (x.rank ≤ y.rank) := fun _ _ => rfl
  simp only [rosterLE, rosterKey, Prod.Lex.toLex_le_toLex, hscore]
  by_cases hkind : a.kind.priority = b.kind.priority
  · rcases lt_trichotomy a.computeScore.rank b.computeScore.rank with hlt | heq | hgt
    · simp [hkind, hlt.le, hlt.not_ge, hlt.ne]
    · simp [hkind, heq]
    · simp [hkind, hgt, hgt.not_ge]
  · have hcast : (a.kind.priority : ℤ) ≠ b.kind.priority := by exact_mod_cast hkind
    simp [hkind, hcast]

theorem rosterLE_total (a b : Node Binary64) : (rosterLE a b || rosterLE b a) = true := by
  rw [Bool.or_eq_true, rosterLE_iff, rosterLE_iff]
  exact le_total _ _

theorem rosterLE_trans (a b c : Node Binary64) (hab : rosterLE a b = true)
    (hbc : rosterLE b c = true) : rosterLE a c = true := by
  rw [rosterLE_iff] at *
  exact hab.trans hbc

/-- Nodes that are not told apart have the same name. -/
theorem nodeId_eq_of_rosterLE {a b : Node Binary64} (hab : rosterLE a b = true)
    (hba : rosterLE b a = true) : a.nodeId = b.nodeId := by
  rw [rosterLE_iff] at hab hba
  have hkey := le_antisymm hab hba
  exact congrArg (fun k => (ofLex (ofLex k).2).2) hkey

/-! ## Sorting -/

theorem eligibleNodes_pairwise (nodes : List (Node Binary64)) :
    (eligibleNodes nodes).Pairwise fun a b => rosterLE a b = true :=
  List.pairwise_mergeSort rosterLE_trans rosterLE_total _

/-- Listing the nodes in another order leaves the ordered roster as it is. -/
theorem eligibleNodes_of_perm {nodes others : List (Node Binary64)} (h : nodes.Perm others)
    (hids : (nodes.map (·.nodeId)).Nodup) : eligibleNodes nodes = eligibleNodes others := by
  have hperm : (eligibleNodes nodes).Perm (eligibleNodes others) :=
    (List.mergeSort_perm _ _).trans ((h.filter isEligible).trans (List.mergeSort_perm _ _).symm)
  refine hperm.eq_of_pairwise ?_ (eligibleNodes_pairwise nodes) (eligibleNodes_pairwise others)
  intro a b ha hb hab hba
  have hlisted := (mem_eligibleNodes.mp ha).1
  have hlisted' := (mem_eligibleNodes.mp (hperm.mem_iff.mpr hb)).1
  exact List.inj_on_of_nodup_map hids hlisted hlisted' (nodeId_eq_of_rosterLE hab hba)

/-! ## Planning -/

section Planning

variable {config : PlannerConfig Binary64} {layers : List (LayerCost Binary64)}
  {nodes others : List (Node Binary64)} {modelName : String} {strategy : Strategy}

/-- The time that a plan notes is all that depends on when it was made. -/
theorem generate_createdAt (before after : String) :
    generate config layers nodes modelName strategy after =
      (generate config layers nodes modelName strategy before).map
        fun plan => { plan with createdAt := after } := by
  unfold generate
  simp only [bind, Except.bind, pure, Except.pure, throw, throwThe, MonadExceptOf.throw]
  split
  · rfl
  split
  · rfl
  split
  · rfl
  split
  · rfl
  split
  · rfl
  split <;> rfl

/-- Two listings of the same differently named nodes give the same plan, apart from the times that
the plans note, or the same failure in the same words. -/
theorem generate_of_perm (h : nodes.Perm others) (hids : (nodes.map (·.nodeId)).Nodup)
    (before after : String) :
    generate config layers others modelName strategy after =
      (generate config layers nodes modelName strategy before).map
        fun plan => { plan with createdAt := after } := by
  have hroster := eligibleNodes_of_perm h hids
  rw [← generate_createdAt]
  unfold generate
  rw [hroster, h.length_eq, h.isEmpty_eq]

end Planning

private def tiedNode (name : String) (vramGb : Binary64) : Node Binary64 :=
  (Node.basic name .gpu 100.0).withVram vramGb

private def tiedNodes : List (Node Binary64) :=
  [tiedNode "left" 1.0, tiedNode "middle" 0.1, tiedNode "right" 2.0]

private def tiedNodesTurned : List (Node Binary64) :=
  [tiedNode "right" 2.0, tiedNode "left" 1.0, tiedNode "middle" 0.1]

private def evenLayers : List (LayerCost Binary64) :=
  [.basic "a" 40.0 300.0, .basic "b" 80.0 500.0, .basic "c" 40.0 200.0]

/-- Three nodes of one kind and score, one of them too small for any layer, in two orders. -/
theorem generate_of_perm_tied :
    tiedNodes.Perm tiedNodesTurned ∧ (tiedNodes.map (·.nodeId)).Nodup ∧
      ∃ plan, generate .standard evenLayers tiedNodes "m" .balanced "noon" = .ok plan ∧
        plan.stages.map (·.node.nodeId) = ["left", "right"] ∧
        generate .standard evenLayers tiedNodesTurned "m" .balanced "night" =
          .ok { plan with createdAt := "night" } := by
  have hperm : tiedNodes.Perm tiedNodesTurned := by decide +kernel
  have hids : (tiedNodes.map (·.nodeId)).Nodup := by decide +kernel
  have horder : eligibleNodes tiedNodes = tiedNodes :=
    eligibleNodes_of_ordered (by decide +kernel) (by decide +kernel)
  have hplan : (generate .standard evenLayers tiedNodes "m" .balanced "noon").toOption.map
      (fun plan => plan.stages.map (·.node.nodeId)) = some ["left", "right"] := by
    simp only [generate, horder]
    decide +kernel
  refine ⟨hperm, hids, ?_⟩
  rw [generate_of_perm hperm hids "noon" "night"]
  cases h : generate .standard evenLayers tiedNodes "m" .balanced "noon" with
  | error e => simp [h, Except.toOption] at hplan
  | ok plan => exact ⟨plan, rfl, by simpa [h, Except.toOption] using hplan, rfl⟩

end LayerPipeline.Planning
