import LayerPipeline.Proofs.Plan.Fault
import Mathlib.Data.Prod.Lex

/-!
# Validation of plans

A plan is accepted just if it is well-formed. A plan that is not is refused for the first check that
fails, in the order of its stages: a stage is checked for its number, for having layers, for each of
its layers being new, and for its memory. The bottleneck is checked behind all stages. Each check has
words of its own, with the stage, the layer or the figures that it fails for.
-/

namespace LayerPipeline.Plan

variable {α : Type} [Scalar α]

/-- A plan that something can be run by. -/
structure WellFormed (p : Plan α) : Prop where
  staged : p.stages ≠ []
  numbered : ∀ (i : Nat) (s : Stage α), p.stages[i]? = some s → s.stageId.toNat = i
  filled : ∀ s ∈ p.stages, s.layers ≠ []
  distinct : p.layerSequence.Nodup
  fitting : ∀ s ∈ p.stages, s.node.canFit s.memoryMb = true
  bottleneck : p.bottleneckStageId.toNat < p.stages.length

/-- The checks of a stage; each of its layers has one of its own. -/
inductive Check where
  | number
  | filled
  | fresh (layer : Nat)
  | memory

/-- The order of checks within a stage. -/
def Check.rank : Check → ℕ ×ₗ ℕ
  | .number => toLex (0, 0)
  | .filled => toLex (1, 0)
  | .fresh layer => toLex (2, layer)
  | .memory => toLex (3, 0)

/-- A stage at a position, behind stages with the layers `seen`, does not pass a check, and these are
the words for it. Figures of memory are in whole megabytes. -/
inductive Violates (position : Nat) (seen : List String) (s : Stage α) : Check → String → Prop
  | number : s.stageId.toNat ≠ position →
      Violates position seen s .number s!"expected stage id {position}, got {s.stageId}"
  | filled : s.layers = [] → Violates position seen s .filled s!"stage {s.stageId} is empty"
  | fresh {j : Nat} {name : String} : s.layers[j]? = some name → name ∈ seen ++ s.layers.take j →
      Violates position seen s (.fresh j) s!"layer {name} appears more than once"
  | memory : s.node.canFit s.memoryMb = false →
      Violates position seen s .memory
        ("stage " ++ toString s.stageId ++ " needs " ++ Scalar.fixed 0 s.memoryMb ++
          " MB but node " ++ s.node.nodeId ++ " has " ++
          Scalar.fixed 0 (s.node.availableGb * 1024.0) ++ " MB")

/-- The stage at position `i` does not pass a check. -/
def ViolatesAt (stages : List (Stage α)) (i : Nat) (c : Check) (text : String) : Prop :=
  ∃ s, stages[i]? = some s ∧ Violates i ((stages.take i).flatMap (·.layers)) s c text

/-- The stage at position `i` does not pass a check, and no check before it fails. -/
structure FirstViolation (stages : List (Stage α)) (i : Nat) (c : Check) (text : String) :
    Prop where
  violates : ViolatesAt stages i c text
  first : ∀ i' c' text', ViolatesAt stages i' c' text' →
    toLex (i, c.rank) ≤ toLex (i', c'.rank)

/-- What a plan is to be refused for, in words. -/
inductive FirstFault (p : Plan α) : String → Prop
  | noStages : p.stages = [] → FirstFault p "plan has no stages"
  | stage {i : Nat} {c : Check} {text : String} :
      FirstViolation p.stages i c text → FirstFault p text
  | bottleneck : p.stages ≠ [] → (∀ i c text, ¬ ViolatesAt p.stages i c text) →
      p.stages.length ≤ p.bottleneckStageId.toNat →
      FirstFault p s!"bottleneck stage {p.bottleneckStageId} out of range"

/-! ## At most one fault is the first -/

theorem Check.rank_injective : Function.Injective Check.rank := by
  intro c c' h
  cases c <;> cases c' <;> simp_all [Check.rank]

theorem Violates.unique {position : Nat} {seen : List String} {s : Stage α} {c : Check}
    {text other : String} (hf : Violates position seen s c text)
    (hg : Violates position seen s c other) : text = other := by
  cases hf with
  | number _ => cases hg with | number _ => rfl
  | filled _ => cases hg with | filled _ => rfl
  | fresh hname _ =>
    cases hg with
    | fresh hname' _ => rw [Option.some.inj (hname.symm.trans hname')]
  | memory _ => cases hg with | memory _ => rfl

theorem FirstViolation.unique {stages : List (Stage α)} {i i' : Nat} {c c' : Check}
    {text other : String} (hf : FirstViolation stages i c text)
    (hg : FirstViolation stages i' c' other) : text = other := by
  have hsite : toLex (i, c.rank) = toLex (i', c'.rank) :=
    le_antisymm (hf.first i' c' other hg.violates) (hg.first i c text hf.violates)
  obtain ⟨rfl, hrank⟩ := Prod.mk.inj (toLex_inj.mp hsite)
  obtain rfl := Check.rank_injective hrank
  obtain ⟨s, hs, hviolates⟩ := hf.violates
  obtain ⟨t, ht, hviolates'⟩ := hg.violates
  obtain rfl := Option.some.inj (hs.symm.trans ht)
  exact hviolates.unique hviolates'

theorem not_violatesAt_nil (i : Nat) (c : Check) (text : String) :
    ¬ ViolatesAt ([] : List (Stage α)) i c text := by
  rintro ⟨s, hs, -⟩
  simp at hs

theorem FirstFault.unique {p : Plan α} {text other : String} (hf : p.FirstFault text)
    (hg : p.FirstFault other) : text = other := by
  cases hf with
  | noStages hnil =>
    cases hg with
    | noStages => rfl
    | stage hfirst => exact absurd (hnil ▸ hfirst.violates) (not_violatesAt_nil _ _ _)
    | bottleneck hne => exact absurd hnil hne
  | stage hfirst =>
    cases hg with
    | noStages hnil => exact absurd (hnil ▸ hfirst.violates) (not_violatesAt_nil _ _ _)
    | stage hfirst' => exact hfirst.unique hfirst'
    | bottleneck _ hsound => exact absurd hfirst.violates (hsound _ _ _)
  | bottleneck hne hsound =>
    cases hg with
    | noStages hnil => exact absurd hnil hne
    | stage hfirst => exact absurd hfirst.violates (hsound _ _ _)
    | bottleneck => rfl

/-! ## One stage -/

theorem stageFault?_eq_none_iff {position : Nat} {seen : List String} {s : Stage α} :
    stageFault? position seen s = none ↔
      s.stageId.toNat = position ∧ s.layers ≠ [] ∧ repeated? seen s.layers = none ∧
        s.node.canFit s.memoryMb = true := by
  unfold stageFault?
  by_cases hid : s.stageId.toNat = position
  · by_cases hempty : s.layers = []
    · simp [hid, hempty]
    · cases hname : repeated? seen s.layers <;> simp [hid, hempty]
  · simp [hid]

/-- The name that is reported is that of the first layer that is not new. -/
theorem repeated?_first {seen names : List String} {name : String}
    (h : repeated? seen names = some name) :
    ∃ j, names[j]? = some name ∧ name ∈ seen ++ names.take j ∧
      ∀ k x, names[k]? = some x → x ∈ seen ++ names.take k → j ≤ k := by
  induction names generalizing seen with
  | nil => simp [repeated?] at h
  | cons y ys ih =>
    rw [repeated?] at h
    by_cases hy : y ∈ seen
    · rw [if_pos (List.contains_iff_mem.mpr hy)] at h
      obtain rfl := Option.some.inj h
      exact ⟨0, rfl, by simpa using hy, fun k _ _ _ => Nat.zero_le k⟩
    · rw [if_neg (by simpa using hy)] at h
      obtain ⟨j, hj, hmem, hfirst⟩ := ih h
      refine ⟨j + 1, hj, by simpa [or_left_comm] using hmem, fun k x hk hx => ?_⟩
      cases k with
      | zero =>
        obtain rfl := Option.some.inj hk
        exact absurd (by simpa using hx) hy
      | succ k =>
        exact Nat.succ_le_succ (hfirst k x hk (by simpa [or_left_comm] using hx))

theorem fresh_of_repeated?_eq_none {seen names : List String} (h : repeated? seen names = none)
    {j : Nat} {name : String} (hj : names[j]? = some name) : name ∉ seen ++ names.take j := by
  induction names generalizing seen j with
  | nil => simp at hj
  | cons y ys ih =>
    rw [repeated?] at h
    by_cases hy : y ∈ seen
    · simp [hy] at h
    · rw [if_neg (by simpa using hy)] at h
      cases j with
      | zero =>
        obtain rfl := Option.some.inj hj
        simpa using hy
      | succ j => simpa [or_left_comm] using ih h hj

theorem not_violates_of_stageFault? {position : Nat} {seen : List String} {s : Stage α}
    (h : stageFault? position seen s = none) (c : Check) (text : String) :
    ¬ Violates position seen s c text := by
  obtain ⟨hid, hfilled, hfresh, hfits⟩ := stageFault?_eq_none_iff.mp h
  intro hviolates
  cases hviolates with
  | number hne => exact hne hid
  | filled hempty => exact hfilled hempty
  | fresh hname hmem => exact fresh_of_repeated?_eq_none hfresh hname hmem
  | memory hunfit => simp [hfits] at hunfit

/-- The ways in which a stage can be at fault, with the checks that it has passed by then. -/
theorem stageFault?_eq_some {position : Nat} {seen : List String} {s : Stage α} {f : PlanFault α}
    (h : stageFault? position seen s = some f) :
    (s.stageId.toNat ≠ position ∧ f = .wrongStageId position s.stageId) ∨
    (s.stageId.toNat = position ∧ s.layers = [] ∧ f = .emptyStage s.stageId) ∨
    (s.stageId.toNat = position ∧ s.layers ≠ [] ∧
      ∃ name, repeated? seen s.layers = some name ∧ f = .duplicateLayer name) ∨
    (s.stageId.toNat = position ∧ s.layers ≠ [] ∧ repeated? seen s.layers = none ∧
      s.node.canFit s.memoryMb = false ∧ f = overcommit s) := by
  unfold stageFault? at h
  by_cases hid : s.stageId.toNat = position
  · by_cases hempty : s.layers = []
    · simp_all
    · cases hname : repeated? seen s.layers with
      | some name => simp_all
      | none => cases hfits : s.node.canFit s.memoryMb <;> simp_all [overcommit]
  · simp_all

/-- A stage is reported for the first of its checks that fails. -/
theorem violates_of_stageFault? {position : Nat} {seen : List String} {s : Stage α}
    {f : PlanFault α} (h : stageFault? position seen s = some f) :
    ∃ c, Violates position seen s c f.reason ∧
      ∀ c' text, Violates position seen s c' text → c.rank ≤ c'.rank := by
  rcases stageFault?_eq_some h with ⟨hid, rfl⟩ | ⟨hid, hempty, rfl⟩ |
    ⟨hid, hfilled, name, hname, rfl⟩ | ⟨hid, hfilled, hfresh, hunfit, rfl⟩
  · refine ⟨.number, .number hid, fun c' text _ => ?_⟩
    cases c' <;> simp [Check.rank, Prod.Lex.toLex_le_toLex]
  · refine ⟨.filled, .filled hempty, fun c' text hviolates => ?_⟩
    cases hviolates with
    | number hne => exact absurd hid hne
    | filled _ => exact le_refl _
    | fresh hname _ => simp [hempty] at hname
    | memory _ => decide
  · obtain ⟨j, hj, hmem, hfirst⟩ := repeated?_first hname
    refine ⟨.fresh j, .fresh hj hmem, fun c' text hviolates => ?_⟩
    cases hviolates with
    | number hne => exact absurd hid hne
    | filled hnil => exact absurd hnil hfilled
    | fresh hk hmem' => exact Prod.Lex.toLex_le_toLex.mpr (.inr ⟨rfl, hfirst _ _ hk hmem'⟩)
    | memory _ => simp [Check.rank, Prod.Lex.toLex_le_toLex]
  · refine ⟨.memory, .memory hunfit, fun c' text hviolates => ?_⟩
    cases hviolates with
    | number hne => exact absurd hid hne
    | filled hnil => exact absurd hnil hfilled
    | fresh hk hmem => exact absurd hmem (fresh_of_repeated?_eq_none hfresh hk)
    | memory _ => exact le_refl _

/-! ## All stages -/

/-- The stage behind a front is checked against the length and the layers of that front. -/
theorem violatesAt_append_cons {front rest : List (Stage α)} {s : Stage α} {c : Check}
    {text : String} :
    ViolatesAt (front ++ s :: rest) front.length c text ↔
      Violates front.length (front.flatMap (·.layers)) s c text := by
  simp [ViolatesAt]

theorem not_violatesAt_of_stagesFault? (front : List (Stage α)) {rest : List (Stage α)}
    (h : stagesFault? front.length (front.flatMap (·.layers)) rest = none) {i : Nat}
    (hi : front.length ≤ i) (c : Check) (text : String) :
    ¬ ViolatesAt (front ++ rest) i c text := by
  induction rest generalizing front with
  | nil =>
    rintro ⟨s, hs, -⟩
    simp [List.getElem?_eq_none hi] at hs
  | cons s rest ih =>
    rw [stagesFault?] at h
    cases hstage : stageFault? front.length (front.flatMap (·.layers)) s with
    | some g => simp [hstage] at h
    | none =>
      simp only [hstage] at h
      rcases Nat.eq_or_lt_of_le hi with rfl | hlater
      · rw [violatesAt_append_cons]
        exact not_violates_of_stageFault? hstage c text
      · have hrest := ih (front ++ [s]) (by simpa using h) (by simp; omega)
        simpa using hrest

/-- Behind a front that passes, the stages that are left are reported for the first check of theirs
that fails. -/
theorem firstViolation_of_stagesFault? (front : List (Stage α)) {rest : List (Stage α)}
    {f : PlanFault α}
    (hfront : ∀ i c text, i < front.length → ¬ ViolatesAt (front ++ rest) i c text)
    (h : stagesFault? front.length (front.flatMap (·.layers)) rest = some f) :
    ∃ i c, FirstViolation (front ++ rest) i c f.reason := by
  induction rest generalizing front with
  | nil => simp [stagesFault?] at h
  | cons s rest ih =>
    rw [stagesFault?] at h
    cases hstage : stageFault? front.length (front.flatMap (·.layers)) s with
    | some g =>
      simp only [hstage] at h
      obtain rfl := Option.some.inj h
      obtain ⟨c, hviolates, hfirst⟩ := violates_of_stageFault? hstage
      refine ⟨front.length, c, violatesAt_append_cons.mpr hviolates, fun i' c' text hother => ?_⟩
      rw [Prod.Lex.toLex_le_toLex]
      rcases Nat.lt_trichotomy front.length i' with hlt | rfl | hgt
      · exact .inl hlt
      · exact .inr ⟨rfl, hfirst c' text (violatesAt_append_cons.mp hother)⟩
      · exact absurd hother (hfront i' c' text hgt)
    | none =>
      simp only [hstage] at h
      -- The stage passes, so it joins the front.
      have hpassed : ∀ i c text, i < (front ++ [s]).length →
          ¬ ViolatesAt (front ++ [s] ++ rest) i c text := by
        intro i c text hi
        rw [List.append_assoc, List.singleton_append]
        rcases Nat.lt_succ_iff_lt_or_eq.mp (by simpa using hi) with hlt | rfl
        · exact hfront i c text hlt
        · rw [violatesAt_append_cons]
          exact not_violates_of_stageFault? hstage c text
      have hrest := ih (front ++ [s]) hpassed (by simpa using h)
      simpa using hrest

/-- Stages without a fault are orderly and fit their nodes. -/
theorem orderly_of_stagesFault? {position : Nat} {seen : List String} {stages : List (Stage α)}
    (hseen : seen.Nodup) (h : stagesFault? position seen stages = none) :
    Orderly position seen stages ∧ ∀ s ∈ stages, s.node.canFit s.memoryMb = true := by
  induction stages generalizing position seen with
  | nil => exact ⟨⟨by simp, by simp, by simpa using hseen⟩, by simp⟩
  | cons s rest ih =>
    rw [stagesFault?] at h
    cases hstage : stageFault? position seen s with
    | some g => simp [hstage] at h
    | none =>
      simp only [hstage] at h
      obtain ⟨hid, hfilled, hfresh, hfits⟩ := stageFault?_eq_none_iff.mp hstage
      obtain ⟨hnodup, hnew⟩ := (repeated?_eq_none_iff _ _).mp hfresh
      have hseen' : (seen ++ s.layers).Nodup :=
        List.nodup_append.mpr ⟨hseen, hnodup, fun x hx y hy heq => hnew y hy (heq ▸ hx)⟩
      obtain ⟨horderly, hrest⟩ := ih hseen' h
      refine ⟨⟨fun i t ht => ?_, ?_, ?_⟩, List.forall_mem_cons.mpr ⟨hfits, hrest⟩⟩
      · cases i with
        | zero =>
          obtain rfl := Option.some.inj ht
          exact hid
        | succ i =>
          have hlater := horderly.ids i t ht
          omega
      · exact List.forall_mem_cons.mpr ⟨hfilled, horderly.nonempty⟩
      · simpa using horderly.nodup

/-! ## Plans -/

theorem fault?_eq_none_iff (p : Plan α) :
    p.fault? = none ↔ p.stages ≠ [] ∧ stagesFault? 0 [] p.stages = none ∧
      p.bottleneckStageId.toNat < p.stages.length := by
  unfold fault?
  by_cases hempty : p.stages = []
  · simp [hempty]
  · cases hstages : stagesFault? 0 [] p.stages <;> simp [hempty]

theorem WellFormed.orderly {p : Plan α} (h : p.WellFormed) : Orderly 0 [] p.stages :=
  ⟨by simpa using h.numbered, h.filled, h.distinct⟩

theorem fault?_eq_none_iff_wellFormed (p : Plan α) : p.fault? = none ↔ p.WellFormed := by
  constructor
  · intro h
    obtain ⟨hstaged, hstages, hbottleneck⟩ := (fault?_eq_none_iff p).mp h
    obtain ⟨horderly, hfits⟩ := orderly_of_stagesFault? List.nodup_nil hstages
    exact ⟨hstaged, by simpa using horderly.ids, horderly.nonempty, horderly.nodup, hfits,
      hbottleneck⟩
  · intro h
    rw [fault?_of_orderly h.orderly h.staged h.bottleneck, Option.map_eq_none_iff,
      List.find?_eq_none]
    simpa using h.fitting

theorem firstFault_of_fault? {p : Plan α} {f : PlanFault α} (h : p.fault? = some f) :
    p.FirstFault f.reason := by
  unfold fault? at h
  by_cases hempty : p.stages = []
  · simp only [hempty, List.isEmpty_nil, if_true] at h
    obtain rfl := Option.some.inj h
    exact .noStages hempty
  · simp only [List.isEmpty_iff, hempty, if_false] at h
    cases hstages : stagesFault? 0 [] p.stages with
    | some g =>
      simp only [hstages] at h
      obtain rfl := Option.some.inj h
      obtain ⟨i, c, hfirst⟩ := firstViolation_of_stagesFault? [] (by simp) hstages
      exact .stage hfirst
    | none =>
      simp only [hstages] at h
      have hsound (i : Nat) := not_violatesAt_of_stagesFault? [] hstages (Nat.zero_le i)
      by_cases hrange : p.stages.length ≤ p.bottleneckStageId.toNat
      · rw [if_pos hrange] at h
        obtain rfl := Option.some.inj h
        exact .bottleneck hempty hsound hrange
      · simp [hrange] at h

theorem not_firstFault_of_fault? {p : Plan α} (h : p.fault? = none) (text : String) :
    ¬ p.FirstFault text := by
  obtain ⟨hstaged, hstages, hbottleneck⟩ := (fault?_eq_none_iff p).mp h
  intro hfirst
  cases hfirst with
  | noStages hnil => exact hstaged hnil
  | stage hviolation =>
    exact not_violatesAt_of_stagesFault? [] hstages (Nat.zero_le _) _ _ hviolation.violates
  | bottleneck _ _ hrange => exact absurd hbottleneck (Nat.not_lt_of_le hrange)

/-- Faults are found just as they are defined. -/
theorem exists_fault?_iff {p : Plan α} {text : String} :
    (∃ f, p.fault? = some f ∧ text = f.reason) ↔ p.FirstFault text := by
  constructor
  · rintro ⟨f, hf, rfl⟩
    exact firstFault_of_fault? hf
  · intro h
    cases hfault : p.fault? with
    | none => exact absurd h (not_firstFault_of_fault? hfault text)
    | some f => exact ⟨f, rfl, h.unique (firstFault_of_fault? hfault)⟩

/-- Just the well-formed plans are accepted, and any other is refused with the words for the first
check that it does not pass. -/
theorem validate_first_fault (p : Plan α) :
    (p.validate = .ok () ↔ p.WellFormed) ∧
    ∀ e, p.validate = .error e ↔
      ∃ text, p.FirstFault text ∧ e = .invalidPlan text ∧ e.message = "invalid plan: " ++ text := by
  refine ⟨by rw [validate_eq_ok_iff, fault?_eq_none_iff_wellFormed], fun e => ?_⟩
  simp only [← exists_fault?_iff, validate]
  cases p.fault? with
  | none => simp
  | some f =>
    constructor
    · intro h
      cases h
      exact ⟨f.reason, ⟨f, rfl, rfl⟩, rfl, rfl⟩
    · rintro ⟨text, ⟨g, hg, rfl⟩, rfl, -⟩
      cases hg
      rfl

end LayerPipeline.Plan
