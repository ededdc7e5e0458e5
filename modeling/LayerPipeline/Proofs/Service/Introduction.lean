import LayerPipeline.Proofs.Number.Machine
import LayerPipeline.Proofs.Service.Roster
import LayerPipeline.Service.Worker

/-!
# Introduction of a worker

A worker tells what it is twice: once when it registers, as a descriptor, and once when it is asked,
as a report. The registry makes a node of the first, a device of the node, and corrects the device
by the second. What it has of the worker in the end is what the worker has of itself.
-/

namespace LayerPipeline

/-! ## Descriptors -/

/-- The planner's view of a node that has a certain capability. -/
structure Node.Views {α : Type} [Scalar α] (n : Node α) (c : Capability α) : Prop where
  kind : n.kind = c.kind
  computeScore : n.computeScore = c.computeScore
  capacityGb : n.capacityGb = c.memoryGb
  supportsFp16 : n.supportsFp16 = c.hasFp16
  bandwidthMbps : n.bandwidthMbps = c.bandwidthMbps
  latencyMs : n.latencyMs = c.latencyMs

namespace Capability

variable {c : Capability Binary64}

/-- What a worker has to have to be worth a registration. -/
theorem validate_descriptor (hid : c.deviceId ≠ "") (hscore : 0.0 < c.computeScore)
    (hmemory : 0.0 < c.memoryGb) (address : String) :
    (c.descriptor address).validate = .ok () := by
  have hnone : ¬ c.memoryGb ≤ 0.0 := by grind [Binary64.lt_iff, Binary64.le_iff]
  have hfault : (c.descriptor address).fault? = none := by
    cases hkind : c.kind <;>
      simp [Descriptor.fault?, descriptor, DeviceKind.isGpu, hkind, hid, hscore, hnone]
  rw [Descriptor.validate, hfault]

/-- The memory of a worker is the memory of one pool, and is taken from that pool again. -/
theorem views_fresh (hmemory : 0.0 < c.memoryGb) (address : String) :
    (RegisteredNode.fresh (c.descriptor address)).toNode.Views c where
  kind := rfl
  computeScore := rfl
  capacityGb := by
    cases hkind : c.kind <;>
      simp [Node.capacityGb, RegisteredNode.toNode, RegisteredNode.fresh, Descriptor.toNode,
        descriptor, Node.withVram, Node.withRam, Node.basic, DeviceKind.isGpu, hkind,
        Binary64.max_zero hmemory, hmemory]
  supportsFp16 := rfl
  bandwidthMbps := rfl
  latencyMs := rfl

theorem contains_supportedDtypes (c : Capability Binary64) :
    c.supportedDtypes.contains .f16 = c.hasFp16 := by
  unfold supportedDtypes
  cases c.hasFp16 <;> rfl

/-- A node that has just registered is idle. -/
theorem utilization_fresh (d : Descriptor Binary64) :
    (RegisteredNode.fresh d).toNode.utilization = 0.0 := by
  change Scalar.clamp (0.0 : Binary64) 0.0 1.0 = 0.0
  decide +kernel

/-- A report corrects the device that was made of the descriptor to the capability itself. -/
theorem reportedCapability?_fresh (hmemory : 0.0 < c.memoryGb) (hfree : 0.0 ≤ c.availableGb)
    (hfits : c.availableGb ≤ c.memoryGb) (address : String) :
    Registry.reportedCapability? (.fresh (c.descriptor address)) c.report =
      some { c with hasInt8 := false, load := 0.0 } := by
  have hdevice : (RegisteredNode.fresh (c.descriptor address)).toNode.toCapability.memoryGb =
      c.memoryGb := by
    change max (RegisteredNode.fresh (c.descriptor address)).toNode.capacityGb 0.0 = c.memoryGb
    rw [(views_fresh hmemory address).capacityGb, Binary64.max_zero hmemory]
  have hload : (RegisteredNode.fresh (c.descriptor address)).toNode.toCapability.load = 0.0 :=
    utilization_fresh (c.descriptor address)
  have hclamp : Scalar.clamp? (c.availableGb - 0.0) 0.0 c.memoryGb = some c.availableGb := by
    have hnumber : c.availableGb.isNaN = false := (Binary64.le_iff.mp hfree).2.1
    have hbounds : 0.0 ≤ c.memoryGb := by grind [Binary64.lt_iff, Binary64.le_iff]
    rw [Binary64.sub_zero hnumber]
    exact Binary64.clamp?_eq_some_iff.mpr ⟨hbounds, Binary64.clamp_of_between hfree hfits⟩
  unfold Registry.reportedCapability?
  simp only [hdevice, hload, report, Binary64.max_self, contains_supportedDtypes]
  rw [show (RegisteredNode.fresh (c.descriptor address)).reservedGb = 0.0 from rfl, hclamp]
  rfl

end Capability

/-! ## Registration and report -/

/-- A worker with a name, throughput and memory of its own registers and reports without being
refused, whatever was registered before. The matcher then has its capability, idle and with nothing
said of small integers, and the planner sees the same device. -/
theorem Registry.introduction_faithful (r : Registry Binary64) (c : Capability Binary64)
    (address : String) (hid : c.deviceId ≠ "") (hscore : 0.0 < c.computeScore)
    (hmemory : 0.0 < c.memoryGb) (hfree : 0.0 ≤ c.availableGb)
    (hfits : c.availableGb ≤ c.memoryGb) :
    ∃ registered reported, r.register (c.descriptor address) = .ok registered ∧
      registered.applyCapabilities c.report = .ok reported ∧
      reported.matcher.get? c.deviceId = some { c with hasInt8 := false, load := 0.0 } ∧
      ∃ n, reported.get? c.deviceId = some n ∧ n.toNode.Views c := by
  obtain ⟨registered, hregistered⟩ : ∃ r', r.register (c.descriptor address) = .ok r' := by
    simp only [register, Capability.validate_descriptor hid hscore hmemory address]
    exact ⟨_, rfl⟩
  have hentry : registered.get? c.deviceId = some (.fresh (c.descriptor address)) :=
    (get?_register hregistered _).trans (if_pos rfl)
  have hrecord := Capability.reportedCapability?_fresh hmemory hfree hfits address
  refine ⟨registered, { registered with
    matcher := registered.matcher.register { c with hasInt8 := false, load := 0.0 } },
    hregistered, ?_, ?_, _, hentry, Capability.views_fresh hmemory address⟩
  · rw [applyCapabilities, show registered.get? c.report.nodeId = _ from hentry]
    simp only [hrecord]
  · rw [Matcher.get?_register, if_pos rfl]

private def laptop : Capability Binary64 where
  deviceId := "laptop"
  kind := .integratedGpu
  deviceName := "graphics"
  computeScore := 2.5
  memoryGb := 16.0
  availableGb := 9.5
  hasFp16 := true
  hasInt8 := true
  bandwidthMbps := 400.0
  latencyMs := 3.0
  load := 0.75

/-- A worker that comes back as another device than it was, while memory is still reserved on it. -/
theorem introduction_faithful_again :
    let before := Registry.run .standard [.register ({ laptop with kind := .cpu }.descriptor "a:1"),
      .reserve "laptop" 4.0]
    ∃ registered reported, before.register (laptop.descriptor "b:1") = .ok registered ∧
      registered.applyCapabilities laptop.report = .ok reported ∧
      reported.matcher.get? "laptop" = some { laptop with hasInt8 := false, load := 0.0 } ∧
      ∃ n, reported.get? "laptop" = some n ∧ n.toNode.Views laptop :=
  Registry.introduction_faithful _ laptop "b:1" (by decide) (by decide +kernel) (by decide +kernel)
    (by decide +kernel) (by decide +kernel)

end LayerPipeline
