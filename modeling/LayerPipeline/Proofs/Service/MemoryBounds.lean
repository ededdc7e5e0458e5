import LayerPipeline.Proofs.Matching.Devices
import LayerPipeline.Proofs.Service.Roster

/-!
# Memory bounds of registered devices

A clamp needs bounds that are numbers in their order, and the bounds of a registry come from what
nodes say of themselves. Every total is cut at zero before it becomes a bound, so that no operation
can fail for its bounds, whatever was said before. The memory that is counted as available stays
between zero and the total, or is not a number.
-/

namespace LayerPipeline

/-! ## Checked views

The views of a node, with every clamp refused unless its bounds are numbers in their order. -/

section Checked

variable {α : Type} [Scalar α]

/-- `withMemory`, refused unless the bounds of the clamp are ordered. -/
def Capability.withMemory? (c : Capability α) (totalGb availableGb : α) : Option (Capability α) :=
  let total := max totalGb 0.0
  (Scalar.clamp? availableGb 0.0 total).map fun available =>
    { c with memoryGb := total, availableGb := available }

/-- `toCapability`, refused unless the bounds of the clamp are ordered. -/
def Node.toCapability? (n : Node α) : Option (Capability α) :=
  ((Capability.basic n.nodeId n.kind).withMemory? n.capacityGb n.availableGb).map fun c =>
    { c with
      deviceName := n.nodeId
      computeScore := n.computeScore
      hasFp16 := n.supportsFp16
      load := n.utilization
      bandwidthMbps := n.bandwidthMbps
      latencyMs := n.latencyMs }

/-- `toNode`, refused unless the bounds of the clamp are ordered. -/
def RegisteredNode.toNode? (n : RegisteredNode α) : Option (Node α) :=
  (Scalar.clamp? n.loadFactor 0.0 1.0).map fun utilization =>
    { n.descriptor.toNode with utilization }

end Checked

theorem Capability.withMemory?_eq (c : Capability Binary64) (totalGb availableGb : Binary64) :
    c.withMemory? totalGb availableGb = some (c.withMemory totalGb availableGb) := by
  have hclamp := Binary64.clamp?_eq_some_iff.mpr
    ⟨Binary64.zero_le_max_zero totalGb, (rfl : Scalar.clamp availableGb 0.0 _ = _)⟩
  simp only [withMemory?, hclamp, Option.map_some, withMemory]

theorem Node.toCapability?_eq (n : Node Binary64) : n.toCapability? = some n.toCapability := by
  rw [toCapability?, Capability.withMemory?_eq, Option.map_some]
  rfl

theorem RegisteredNode.toNode?_eq (n : RegisteredNode Binary64) : n.toNode? = some n.toNode := by
  have hbounds : (0.0 : Binary64) ≤ 1.0 :=
    Binary64.le_iff.mpr ⟨Binary64.isNaN_zero, Binary64.isNaN_one,
      Binary64.position_zero ▸ Binary64.position_one.le⟩
  have hclamp := Binary64.clamp?_eq_some_iff.mpr
    ⟨hbounds, (rfl : Scalar.clamp n.loadFactor 0.0 1.0 = _)⟩
  rw [toNode?, hclamp, Option.map_some]
  rfl

/-! ## Devices -/

/-- The memory of a device is a size, and what is available of it lies between nothing and all. -/
structure Capability.InBounds (d : Capability Binary64) : Prop where
  memory : 0.0 ≤ d.memoryGb
  available : d.availableGb.isNaN = true ∨ 0.0 ≤ d.availableGb ∧ d.availableGb ≤ d.memoryGb

theorem Node.inBounds_toCapability (n : Node Binary64) : n.toCapability.InBounds where
  memory := Binary64.zero_le_max_zero _
  available := Binary64.clamp_between _ (Binary64.zero_le_max_zero _)

theorem Registry.inBounds_reportedCapability {n : RegisteredNode Binary64}
    {report : CapabilityReport Binary64} {c : Capability Binary64}
    (h : reportedCapability? n report = some c) : c.InBounds := by
  obtain ⟨available, hclamp, rfl⟩ := Option.map_eq_some_iff.mp h
  obtain ⟨hbounds, rfl⟩ := Binary64.clamp?_eq_some_iff.mp hclamp
  exact ⟨hbounds, Binary64.clamp_between _ hbounds⟩

namespace Matcher

variable {m : Matcher Binary64}

/-- Whether the device that a change brings, if it brings one, is within its bounds. -/
def Change.InBounds : Change Binary64 → Prop
  | register c => c.InBounds
  | remove _ | setLoad .. | setAvailable .. => True

/-- A change keeps the devices within their bounds, if it brings none that is not. -/
theorem inBounds_after (hm : ∀ d ∈ m.devices, d.InBounds) {change : Change Binary64}
    (hchange : change.InBounds) : ∀ d ∈ (m.after change).devices, d.InBounds := by
  intro d hd
  have hbefore : ∀ old, m.get? d.deviceId = some old → old.InBounds := by
    intro old hold
    rw [get?_eq_find?] at hold
    exact hm old (List.mem_of_find?_eq_some hold)
  have hrecord := get?_of_mem hd
  rw [get?_after] at hrecord
  generalize d.deviceId = id at hbefore hrecord
  cases change with
  | register c =>
    simp only [Change.record] at hrecord
    split at hrecord
    · cases hrecord
      exact hchange
    · exact hbefore d hrecord
  | remove k =>
    simp only [Change.record] at hrecord
    split at hrecord
    · cases hrecord
    · exact hbefore d hrecord
  | setLoad k load =>
    simp only [Change.record] at hrecord
    split at hrecord
    · obtain ⟨old, hold, rfl⟩ := Option.map_eq_some_iff.mp hrecord
      exact ⟨(hbefore old hold).memory, (hbefore old hold).available⟩
    · exact hbefore d hrecord
  | setAvailable k gb =>
    simp only [Change.record] at hrecord
    split at hrecord
    · obtain ⟨old, hold, rfl⟩ := Option.map_eq_some_iff.mp hrecord
      have hmemory := (hbefore old hold).memory
      rw [Binary64.clamp?_eq_some_iff.mpr ⟨hmemory, rfl⟩]
      exact ⟨hmemory, Binary64.clamp_between gb hmemory⟩
    · exact hbefore d hrecord

end Matcher

namespace Registry

/-! ## One operation -/

/-- An operation makes at most one change to the matcher, and a device that it brings there is within
its bounds. -/
theorem matcher_after (r : Registry Binary64) (op : Operation Binary64) :
    (r.after op).matcher = r.matcher ∨
      ∃ change, (r.after op).matcher = r.matcher.after change ∧ change.InBounds := by
  unfold after
  cases op with
  | register d =>
    simp only [perform]
    cases hresult : r.register d with
    | error err => exact .inl rfl
    | ok r' =>
      exact .inr ⟨.register _, (register_eq_ok hresult).1, Node.inBounds_toCapability _⟩
  | applyCapabilities report =>
    simp only [perform]
    rcases r.applyCapabilities_cases report with ⟨record, hheard, hresult⟩ | ⟨-, err, hresult⟩
    · obtain ⟨n, -, hrecord⟩ := Option.bind_eq_some_iff.mp hheard
      rw [hresult]
      exact .inr ⟨.register record, rfl, inBounds_reportedCapability hrecord⟩
    · rw [hresult]
      exact .inl rfl
  | markUnhealthy id reason => exact .inl rfl
  | recordSuccess id => exact .inl rfl
  | updateLoad id load activeSessions =>
    simp only [perform, updateLoad]
    split
    · exact .inr ⟨.setLoad id (max load 0.0), rfl, trivial⟩
    · exact .inl rfl
  | reserve id gb =>
    simp only [perform, reserve]
    by_cases hcontains : r.contains id = true
    · rw [if_pos hcontains]
      cases hset : r.matcher.setAvailable id (r.availableGb id - gb) with
      | error err => exact .inl rfl
      | ok matcher =>
        refine .inr ⟨.setAvailable id (r.availableGb id - gb), ?_, trivial⟩
        rw [Matcher.after, hset]
        rfl
    · rw [if_neg hcontains]
      exact .inl rfl
  | release id gb =>
    simp only [perform, release]
    cases r.get? id with
    | none => exact .inl rfl
    | some n =>
      simp only
      cases hset : r.matcher.setAvailable id (r.availableGb id + min gb n.reservedGb) with
      | error err =>
        cases err <;> exact .inl rfl
      | ok matcher =>
        refine .inr ⟨.setAvailable id (r.availableGb id + min gb n.reservedGb), ?_, trivial⟩
        rw [Matcher.after, hset]
        rfl
  | remove id =>
    simp only [perform, remove]
    split
    · exact .inr ⟨.remove id, rfl, trivial⟩
    · exact .inl rfl

theorem inBounds_step {r : Registry Binary64} (hr : ∀ d ∈ r.matcher.devices, d.InBounds)
    (op : Operation Binary64) : ∀ d ∈ (r.after op).matcher.devices, d.InBounds := by
  rcases r.matcher_after op with hsame | ⟨change, hafter, hchange⟩
  · rwa [hsame]
  · rw [hafter]
    exact Matcher.inBounds_after hr hchange

theorem inBounds_run (config : MatcherConfig Binary64) (ops : List (Operation Binary64)) :
    ∀ d ∈ (run config ops).matcher.devices, d.InBounds := by
  unfold run
  induction ops using List.reverseRecOn with
  | nil =>
    intro d hd
    cases hd
  | append_singleton ops op ih =>
    rw [List.foldl_concat]
    exact inBounds_step ih op

/-! ## Every sequence of operations -/

/-- No clamp of a registry is called with bounds that are not numbers in their order. -/
structure WithinBounds (r : Registry Binary64) : Prop where
  /-- The total memory of a device is a number, and not below zero. -/
  memory : ∀ d ∈ r.matcher.devices, d.memoryGb.isNaN = false ∧ 0.0 ≤ d.memoryGb
  /-- The available memory of a device lies between zero and its total, or is not a number. -/
  available : ∀ d ∈ r.matcher.devices,
    d.availableGb.isNaN = true ∨ 0.0 ≤ d.availableGb ∧ d.availableGb ≤ d.memoryGb
  /-- The planner's view of a node is not refused for its bounds, and neither is the device that is
  made of it. -/
  viewed : ∀ n ∈ r.nodes,
    n.toNode? = some n.toNode ∧ n.toNode.toCapability? = some n.toNode.toCapability
  /-- Neither are those of a node that registers. -/
  introduced : ∀ d : Descriptor Binary64,
    (RegisteredNode.fresh d).toNode? = some (RegisteredNode.fresh d).toNode ∧
      (RegisteredNode.fresh d).toNode.toCapability? =
        some (RegisteredNode.fresh d).toNode.toCapability
  /-- Whatever operation comes next, it is not broken off. -/
  performed : ∀ op a, r.perform op ≠ .error (.aborted a)

/-- What is refused is refused in words. -/
theorem refusal?_eq_some {r : Registry Binary64} {op : Operation Binary64} {err : ServiceError}
    (h : r.refusal? op = some err) : ∃ reason, err = .session reason := by
  cases op with
  | register d =>
    simp only [refusal?] at h
    split at h
    · cases h
      exact ⟨_, rfl⟩
    · cases h
  | applyCapabilities report =>
    simp only [refusal?] at h
    split at h
    · cases h
    · cases h
      exact ⟨_, rfl⟩
  | reserve id gb =>
    simp only [refusal?] at h
    split at h
    · cases h
    · cases h
      exact ⟨_, rfl⟩
  | markUnhealthy id reason | recordSuccess id | updateLoad id load activeSessions | release id gb
  | remove id => cases h

theorem InStep.not_aborted {r : Registry Binary64} (hr : r.InStep) (op : Operation Binary64)
    (a : Abort) : r.perform op ≠ .error (.aborted a) := by
  intro haborted
  rcases hr.perform op with ⟨r', hresult, -, -⟩ | ⟨err, hresult, hrefusal⟩
  · cases haborted.symm.trans hresult
  · cases haborted.symm.trans hresult
    obtain ⟨reason, hreason⟩ := refusal?_eq_some hrefusal
    cases hreason

/-- After any sequence of operations, with any arguments, every clamp has its bounds in order. -/
theorem withinBounds_run (config : MatcherConfig Binary64) (ops : List (Operation Binary64)) :
    (run config ops).WithinBounds := by
  have hbounds := inBounds_run config ops
  constructor
  case memory =>
    intro d hd
    have hmemory := (hbounds d hd).memory
    exact ⟨(Binary64.le_iff.mp hmemory).2.1, hmemory⟩
  case available => exact fun d hd => (hbounds d hd).available
  case viewed => exact fun n _ => ⟨n.toNode?_eq, n.toNode.toCapability?_eq⟩
  case introduced =>
    exact fun d => ⟨RegisteredNode.toNode?_eq _, Node.toCapability?_eq _⟩
  case performed => exact (inStep_run config ops).not_aborted

end Registry

end LayerPipeline
