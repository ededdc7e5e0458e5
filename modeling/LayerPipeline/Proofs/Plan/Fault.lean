import LayerPipeline.Plan.Basic
import Mathlib.Data.List.Nodup

/-!
# Faults of a plan

Stages that are numbered by their positions, not empty and free of repeated layer names can only
fail the memory check, and the first of them that does so decides.
-/

namespace LayerPipeline.Plan

theorem repeated?_eq_none_iff (seen names : List String) :
    repeated? seen names = none ↔ names.Nodup ∧ ∀ x ∈ names, x ∉ seen := by
  induction names generalizing seen with
  | nil => simp [repeated?]
  | cons x xs ih =>
    rw [repeated?]
    by_cases hx : x ∈ seen
    · simp [hx]
    · simp only [List.contains_iff_mem, hx, if_false, ih, List.nodup_cons, List.mem_cons]
      grind

variable {α : Type} [Scalar α]

/-- The fault of a stage that needs more memory than its node has. -/
def overcommit (s : Stage α) : PlanFault α :=
  .overcommitted s.stageId s.memoryMb s.node.nodeId (s.node.availableGb * 1024.0)

/-- Every stage fits the memory that its node has available. -/
def StagesFit (p : Plan α) : Prop :=
  ∀ s ∈ p.stages, s.memoryMb / 1024.0 ≤ s.node.availableGb

instance (p : Plan α) : Decidable p.StagesFit :=
  inferInstanceAs (Decidable (∀ s ∈ p.stages, s.memoryMb / 1024.0 ≤ s.node.availableGb))

/-- Stages that are numbered from a position on, hold layers, and repeat no name among themselves
or of those seen before. -/
structure Orderly (position : Nat) (seen : List String) (stages : List (Stage α)) : Prop where
  ids : ∀ (i : Nat) (s : Stage α), stages[i]? = some s → s.stageId.toNat = position + i
  nonempty : ∀ s ∈ stages, s.layers ≠ []
  nodup : (seen ++ stages.flatMap (·.layers)).Nodup

omit [Scalar α] in
theorem Orderly.cons {position : Nat} {seen : List String} {s : Stage α} {rest : List (Stage α)}
    (h : Orderly position seen (s :: rest)) :
    s.stageId.toNat = position ∧ s.layers ≠ [] ∧ repeated? seen s.layers = none ∧
      Orderly (position + 1) (seen ++ s.layers) rest := by
  have hnodup := h.nodup
  rw [List.flatMap_cons, ← List.append_assoc] at hnodup
  have hseen := (List.nodup_append.mp (List.nodup_append.mp hnodup).1)
  refine ⟨h.ids 0 s rfl, h.nonempty s (by simp), ?_, ?_, ?_, hnodup⟩
  · refine (repeated?_eq_none_iff _ _).mpr ⟨hseen.2.1, fun x hx hmem => ?_⟩
    exact hseen.2.2 x hmem x hx rfl
  · intro i t ht
    have hid := h.ids (i + 1) t ht
    omega
  · exact fun t ht => h.nonempty t (by simp [ht])

theorem stagesFault?_of_orderly {position : Nat} {seen : List String} {stages : List (Stage α)}
    (h : Orderly position seen stages) :
    stagesFault? position seen stages =
      (stages.find? fun s => !s.node.canFit s.memoryMb).map overcommit := by
  induction stages generalizing position seen with
  | nil => rfl
  | cons s rest ih =>
    obtain ⟨hid, hne, hfresh, hrest⟩ := h.cons
    have hempty : s.layers.isEmpty = false := by simpa using hne
    by_cases hfit : s.node.canFit s.memoryMb = true
    · simp [stagesFault?, stageFault?, hid, hempty, hfresh, hfit, ih hrest]
    · simp [stagesFault?, stageFault?, hid, hempty, hfresh, hfit, overcommit]

/-- A plan of orderly stages with a bottleneck among them is refused only for the first stage that
does not fit its node. -/
theorem fault?_of_orderly {p : Plan α} (h : Orderly 0 [] p.stages) (hne : p.stages ≠ [])
    (hbottleneck : p.bottleneckStageId.toNat < p.stages.length) :
    p.fault? = (p.stages.find? fun s => !s.node.canFit s.memoryMb).map overcommit := by
  have hempty : p.stages.isEmpty = false := by simpa using hne
  rw [fault?, hempty, stagesFault?_of_orderly h]
  cases hfind : p.stages.find? fun s => !s.node.canFit s.memoryMb with
  | none => simp [Nat.not_le.mpr hbottleneck]
  | some s => simp

theorem validate_eq_ok_iff (p : Plan α) : p.validate = .ok () ↔ p.fault? = none := by
  unfold validate
  cases p.fault? <;> simp

end LayerPipeline.Plan
