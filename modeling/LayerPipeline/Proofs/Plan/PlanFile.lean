import LayerPipeline.Planning.PlanFile
import LayerPipeline.Proofs.Json.Legible

/-!
# Plans survive their files

A plan is read back from its file as it was written, or refused for the reason for which it is no
plan to run by. All that is asked is that the numbers in it are finite and that each of them is read
back from its numeral.
-/

namespace LayerPipeline

open JsonCodec

section Numbers

variable {α : Type}

/-- The figures of a node. -/
def Node.numbers (n : Node α) : List α :=
  [n.computeScore, n.vramGb, n.ramGb, n.memoryBandwidthGbs, n.latencyMs, n.bandwidthMbps,
    n.utilization]

/-- The figures of a stage and of its node. -/
def Stage.numbers (s : Stage α) : List α :=
  s.node.numbers ++ [s.expectedMs, s.transferMs, s.memoryMb]

/-- The figures of a plan and of its stages. -/
def Plan.numbers (p : Plan α) : List α :=
  p.stages.flatMap (·.numbers) ++ [p.totalExpectedMs, p.totalTransferMs, p.bottleneckMs,
    p.loadBalance]

variable [JsonCodec α] {s : Json.Spacing}

theorem legible_node (hs : s.Loose) {n : Node α} (h : ∀ x ∈ n.numbers, Legible s x) :
    Legible s n := by
  simp only [Node.numbers, List.forall_mem_cons] at h
  obtain ⟨hscore, hvram, hram, hmemory, hlatency, hbandwidth, hutilization, -⟩ := h
  have plain {β : Type} [JsonCodec β] [Lawful β] (b : β) : Legible s b := Lawful.legible hs b
  exact legible_record hs (by simp) <| .cons (plain _) <| .cons (plain _) <| .cons hscore <|
    .cons hvram <| .cons hram <| .cons hmemory <| .cons hlatency <| .cons hbandwidth <|
    .cons (plain _) <| .cons hutilization <| .cons (plain _) Members.legible_done

theorem legible_stage (hs : s.Loose) {stage : Stage α} (h : ∀ x ∈ stage.numbers, Legible s x) :
    Legible s stage := by
  simp only [Stage.numbers, List.forall_mem_append, List.forall_mem_cons] at h
  obtain ⟨hnode, hexpected, htransfer, hmemory, -⟩ := h
  have plain {β : Type} [JsonCodec β] [Lawful β] (b : β) : Legible s b := Lawful.legible hs b
  exact legible_record hs (by simp) <| .cons (plain _) <| .cons (legible_node hs hnode) <|
    .cons (plain _) <| .cons hexpected <| .cons htransfer <| .cons hmemory <| .cons (plain _) <|
    .cons (plain _) Members.legible_done

theorem legible_plan (hs : s.Loose) {p : Plan α} (h : ∀ x ∈ p.numbers, Legible s x) :
    Legible s p := by
  simp only [Plan.numbers, List.forall_mem_append, List.forall_mem_cons] at h
  obtain ⟨hstages, hexpected, htransfer, hbottleneck, hbalance, -⟩ := h
  have plain {β : Type} [JsonCodec β] [Lawful β] (b : β) : Legible s b := Lawful.legible hs b
  have hlist : Legible s p.stages := legible_list hs fun stage hstage =>
    legible_stage hs fun x hx => hstages x (List.mem_flatMap.mpr ⟨stage, hstage, hx⟩)
  exact legible_record hs (by simp) <| .cons (plain _) <| .cons (plain _) <| .cons (plain _) <|
    .cons (plain _) <| .cons hlist <| .cons hexpected <| .cons htransfer <| .cons (plain _) <|
    .cons hbottleneck <| .cons (plain _) <| .cons hbalance <| .cons (plain _) Members.legible_done

end Numbers

namespace Plan

theorem validate_cases (p : Plan Binary64) :
    p.validate = .ok () ∨ ∃ reason, p.validate = .error (.invalidPlan reason) := by
  unfold validate
  split
  · exact .inr ⟨_, rfl⟩
  · exact .inl rfl

/-- The file of a plan of finite numbers, whose numerals are read back, is read as the plan itself
if the plan can be run by, and refused for what is wrong with the plan if not. -/
theorem ofFileText_toFileText (p : Plan Binary64) (hfinite : ∀ x ∈ p.numbers, x.isFinite = true)
    (hnumerals : ∀ x ∈ p.numbers, x.isFinite = true → x.ReadsBack) :
    p.validate = .ok () ∧ ofFileText p.toFileText = .ok p ∨
    ∃ reason, p.validate = .error (.invalidPlan reason) ∧
      (ofFileText p.toFileText : Except PlanningError (Plan Binary64)) =
        .error (.invalidPlan reason) := by
  have hlegible : Legible .indented p := legible_plan Json.loose_indented fun x hx =>
    legible_binary64 (hfinite x hx) (hnumerals x hx (hfinite x hx))
  have hread : (Json.parse? p.toFileText).bind JsonCodec.read = some p := hlegible.read_parse? 0
  rcases p.validate_cases with hvalid | ⟨reason, hinvalid⟩
  · exact .inl ⟨hvalid, by simp only [ofFileText, hread, hvalid]⟩
  · exact .inr ⟨reason, hinvalid, by simp only [ofFileText, hread, hinvalid]; rfl⟩

private def strangeNode : Node Binary64 :=
  { Node.basic "n\"\\\x01é😀" .integratedGpu 0.1 with
    ramGb := 64.0
    latencyMs := .ofParts true 0
    bandwidthMbps := 1e300
    address := some "\n\t:1" }

private def strangePlan (layers : List String) : Plan Binary64 where
  planName := "\x08\x0c\r\x1f"
  modelName := ""
  createdAt := "日本語"
  strategy := .memory
  stages := [⟨0, strangeNode, layers, 0.25, 5e-324, 1234.5, 18446744073709551615, "/"⟩]
  totalExpectedMs := 123456789.0
  totalTransferMs := 1e16
  bottleneckStageId := 0
  bottleneckMs := 1e-7
  bottleneckReason := .networkBound
  loadBalance := 1.0
  notes := ["", "a"]

/-- Controls, quotes, characters beyond ASCII, extreme numbers, and a layer that occurs twice. -/
theorem ofFileText_toFileText_strange :
    (∀ x ∈ (strangePlan ["a", "b"]).numbers, x.isFinite = true ∧ x.ReadsBack) ∧
    ofFileText (strangePlan ["a", "b"]).toFileText = .ok (strangePlan ["a", "b"]) ∧
    (ofFileText (strangePlan ["a", "a"]).toFileText : Except PlanningError (Plan Binary64)) =
      .error (.invalidPlan "layer a appears more than once") := by
  have hnumbers : ∀ x ∈ (strangePlan []).numbers, x.isFinite = true ∧ x.ReadsBack := by
    decide +kernel
  have hvalid : (strangePlan ["a", "b"]).validate = .ok () := by decide +kernel
  have hinvalid : (strangePlan ["a", "a"]).validate =
      .error (.invalidPlan "layer a appears more than once") := by decide +kernel
  have hread (layers : List String) := ofFileText_toFileText (strangePlan layers)
    (fun x hx => (hnumbers x hx).1) (fun x hx _ => (hnumbers x hx).2)
  refine ⟨hnumbers, ?_, ?_⟩
  · rcases hread ["a", "b"] with ⟨-, hok⟩ | ⟨reason, herror, -⟩
    · exact hok
    · rw [hvalid] at herror
      cases herror
  · rcases hread ["a", "a"] with ⟨hok, -⟩ | ⟨reason, herror, hread⟩
    · rw [hinvalid] at hok
      cases hok
    · rw [hinvalid] at herror
      cases herror
      exact hread

end Plan

end LayerPipeline
