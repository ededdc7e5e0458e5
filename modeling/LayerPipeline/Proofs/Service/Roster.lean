import LayerPipeline.Proofs.Number.Order
import LayerPipeline.Proofs.Service.Enrolment

/-!
# The roster and its matcher

The entries, the order of registration and the matcher are three things that every operation changes
one by one. After any number of operations, with any arguments, they have the same nodes, the order
and the matcher list them alike, and the entries and the matcher agree on which of them have no
capacity left.
-/

namespace LayerPipeline

namespace Registry

/-! ## Operations -/

/-- What can be asked of a roster. -/
inductive Operation (α : Type) where
  | register (d : Descriptor α)
  | applyCapabilities (report : CapabilityReport α)
  | markUnhealthy (id reason : String)
  | recordSuccess (id : String)
  | updateLoad (id : String) (load : α) (activeSessions : UInt32)
  | reserve (id : String) (gb : α)
  | release (id : String) (gb : α)
  | remove (id : String)

section

variable {α : Type}

/-- The node that an operation is about. -/
def Operation.node : Operation α → String
  | register d => d.nodeId
  | applyCapabilities report => report.nodeId
  | markUnhealthy id _ | recordSuccess id | updateLoad id _ _ | reserve id _ | release id _
  | remove id => id

/-- Whether an operation may be about a node that is not there yet. -/
def Operation.admits : Operation α → Bool
  | register _ => true
  | _ => false

variable [Scalar α]

/-- The roster after an operation, or why the operation is refused. -/
def perform (r : Registry α) : Operation α → Except ServiceError (Registry α)
  | .register d => r.register d
  | .applyCapabilities report => r.applyCapabilities report
  | .markUnhealthy id reason => .ok (r.markUnhealthy id reason)
  | .recordSuccess id => .ok (r.recordSuccess id)
  | .updateLoad id load activeSessions => .ok (r.updateLoad id load activeSessions)
  | .reserve id gb => r.reserve id gb
  | .release id gb => r.release id gb
  | .remove id => .ok (r.remove id)

/-- The roster after an operation that was tried. -/
def after (r : Registry α) (op : Operation α) : Registry α :=
  match r.perform op with
  | .ok r' => r'
  | .error _ => r

/-- The roster after operations that were tried one after the other, from no nodes on. -/
def run (config : MatcherConfig α) (ops : List (Operation α)) : Registry α :=
  ops.foldl after (empty config)

/-- Why an operation is refused, if it is: a registration for its descriptor, a report and a
reservation because the node is unknown, and nothing else ever. -/
def refusal? (r : Registry α) : Operation α → Option ServiceError
  | .register d =>
    match d.validate with
    | .error e => some (.session e.message)
    | .ok _ => none
  | .applyCapabilities report =>
    if report.nodeId ∈ r.ids then none else some (.session ("unknown node " ++ report.nodeId))
  | .reserve id _ => if id ∈ r.ids then none else some (.session ("unknown node " ++ id))
  | _ => none

end

/-! ## Nodes and devices -/

/-- A device is the record of a node: it has the node's id, is saturated when the node is, and has
no less memory than none. -/
structure Mirrors (n : RegisteredNode Binary64) (d : Capability Binary64) : Prop where
  id : d.deviceId = n.descriptor.nodeId
  saturated : d.isSaturated = n.toNode.isSaturated
  memory : 0.0 ≤ d.memoryGb

/-- The roster and the matcher have the same nodes in the same order. -/
structure InStep (r : Registry Binary64) : Prop where
  mirrored : List.Forall₂ Mirrors r.nodes r.matcher.devices

/-- What an operation does to the planner's view of a node and leaves alone of its id decides
whether the record of the node stays one. -/
theorem Mirrors.of_same {n n' : RegisteredNode Binary64} {d : Capability Binary64}
    (h : Mirrors n d) (hdescriptor : n'.descriptor = n.descriptor)
    (hload : n'.loadFactor = n.loadFactor) : Mirrors n' d where
  id := by rw [h.id, hdescriptor]
  saturated := by
    rw [h.saturated]
    simp only [RegisteredNode.toNode, hdescriptor, hload]
  memory := h.memory

theorem mirrors_toCapability (n : RegisteredNode Binary64) : Mirrors n n.toNode.toCapability where
  id := rfl
  saturated := rfl
  memory := Binary64.zero_le_max_zero _

theorem mirrors_reportedCapability {n : RegisteredNode Binary64} {c : Capability Binary64}
    {report : CapabilityReport Binary64} (h : reportedCapability? n report = some c) :
    Mirrors n c := by
  obtain ⟨available, -, rfl⟩ := Option.map_eq_some_iff.mp h
  exact ⟨rfl, rfl, Binary64.zero_le_max _ (mirrors_toCapability n).memory⟩

/-- A load is kept as reported in the roster, at least zero, and between zero and one in the
planner's view. It reaches one in both or in neither. -/
theorem Mirrors.updateLoad {n : RegisteredNode Binary64} {d : Capability Binary64}
    (h : Mirrors n d) (load : Binary64) (activeSessions : UInt32) :
    Mirrors { n with loadFactor := max load 0.0, activeSessions }
      { d with load := max (max load 0.0) 0.0 } where
  id := h.id
  saturated := by
    refine decide_eq_decide.mpr ?_
    exact (Binary64.one_le_max_zero _).trans (Binary64.one_le_clamp _).symm
  memory := h.memory

/-- What a report says of a registered node can always be reconciled with its entry. -/
theorem reportedCapability?_isSome (n : RegisteredNode Binary64)
    (report : CapabilityReport Binary64) : (reportedCapability? n report).isSome := by
  have hbounds : 0.0 ≤ max report.hardware.totalMemoryGb n.toNode.toCapability.memoryGb :=
    Binary64.zero_le_max _ (mirrors_toCapability n).memory
  simp [reportedCapability?, Scalar.clamp?, hbounds]

/-! ## Both lists under one change -/

section Lists

variable {ns : List (RegisteredNode Binary64)} {ds : List (Capability Binary64)} {id : String}

theorem mirrored_ids (h : List.Forall₂ Mirrors ns ds) :
    ds.map (·.deviceId) = ns.map fun n => n.descriptor.nodeId := by
  induction h with
  | nil => rfl
  | cons hhead _ ih => rw [List.map_cons, List.map_cons, hhead.id, ih]

theorem mirrored_find? (h : List.Forall₂ Mirrors ns ds) (id : String) :
    Option.Rel Mirrors (ns.find? fun n => n.descriptor.nodeId = id)
      (ds.find? fun d => d.deviceId = id) := by
  induction h with
  | nil => exact .none
  | cons hhead _ ih =>
    simp only [List.find?_cons, hhead.id]
    split
    · exact .some hhead
    · exact ih

/-- A change of one node and of its record keeps the lists in step, if it keeps the two in step. -/
theorem mirrored_modify {f : RegisteredNode Binary64 → RegisteredNode Binary64}
    {g : Capability Binary64 → Capability Binary64} (h : List.Forall₂ Mirrors ns ds)
    (hchange : ∀ n ∈ ns, ∀ d, Mirrors n d → n.descriptor.nodeId = id → Mirrors (f n) (g d)) :
    List.Forall₂ Mirrors (ns.map fun n => if n.descriptor.nodeId = id then f n else n)
      (ds.map fun d => if d.deviceId = id then g d else d) := by
  have hlisted : List.Forall₂ (fun n d => n ∈ ns ∧ Mirrors n d) ns ds :=
    (List.forall₂_and_left ns ds).mpr ⟨fun _ hn => hn, h⟩
  refine List.rel_map ?_ hlisted
  rintro n d ⟨hn, hmirrors⟩
  simp only [hmirrors.id]
  split
  · next hid => exact hchange n hn d hmirrors hid
  · exact hmirrors

theorem mirrored_filter (h : List.Forall₂ Mirrors ns ds) (id : String) :
    List.Forall₂ Mirrors (ns.filter fun n => n.descriptor.nodeId ≠ id)
      (ds.filter fun d => d.deviceId ≠ id) := by
  refine List.rel_filter ?_ h
  intro n d hmirrors
  simp [hmirrors.id]

end Lists

namespace InStep

variable {r : Registry Binary64} {id : String}

theorem device_ids (hr : r.InStep) : r.matcher.devices.map (·.deviceId) = r.ids :=
  mirrored_ids hr.mirrored

theorem contains_matcher (hr : r.InStep) : r.matcher.contains id = r.contains id := by
  rw [Bool.eq_iff_iff, contains_eq_true_iff, ← hr.device_ids, Matcher.contains_eq_true_iff]

/-- Every registered node has its device. -/
theorem device (hr : r.InStep) (hid : id ∈ r.ids) :
    ∃ n d, r.get? id = some n ∧ r.matcher.get? id = some d ∧ Mirrors n d := by
  have hrel := mirrored_find? hr.mirrored id
  rw [← Matcher.get?_eq_find?, ← get?_eq_find?] at hrel
  cases hnode : r.get? id with
  | none => exact absurd hid (get?_eq_none_iff.mp hnode)
  | some n =>
    cases hdevice : r.matcher.get? id with
    | none => rw [hnode, hdevice] at hrel; cases hrel
    | some d =>
      rw [hnode, hdevice] at hrel
      cases hrel with
      | some hmirrors => exact ⟨n, d, rfl, rfl, hmirrors⟩

/-- The memory of a registered node can be set. -/
theorem setAvailable (hr : r.InStep) (hid : id ∈ r.ids) (gb : Binary64) :
    ∃ available, r.matcher.setAvailable id gb =
      .ok (r.matcher.modify id (fun d => { d with availableGb := available }) fun _ h => h) := by
  obtain ⟨n, d, -, hdevice, hmirrors⟩ := hr.device hid
  have hclamp : Scalar.clamp? gb 0.0 d.memoryGb = some (Scalar.clamp gb 0.0 d.memoryGb) :=
    if_pos hmirrors.memory
  refine ⟨Scalar.clamp gb 0.0 d.memoryGb, ?_⟩
  simp only [Matcher.setAvailable, hdevice]
  rw [show Scalar.clamp? gb _ d.memoryGb = _ from hclamp]

theorem setLoad (hr : r.InStep) (hid : id ∈ r.ids) (load : Binary64) :
    r.matcher.setLoad id load =
      .ok (r.matcher.modify id (fun d => { d with load := max load 0.0 }) fun _ h => h) :=
  if_pos (hr.contains_matcher.trans (contains_eq_true_iff.mpr hid))

/-- One node and its device changed, with nothing said about the others. -/
theorem modify (hr : r.InStep) {r' : Registry Binary64}
    {f : RegisteredNode Binary64 → RegisteredNode Binary64}
    {g : Capability Binary64 → Capability Binary64}
    (hnodes : r'.nodes = r.nodes.map fun n => if n.descriptor.nodeId = id then f n else n)
    (hdevices : r'.matcher.devices =
      r.matcher.devices.map fun d => if d.deviceId = id then g d else d)
    (hchange : ∀ n ∈ r.nodes, ∀ d, Mirrors n d → n.descriptor.nodeId = id → Mirrors (f n) (g d)) :
    r'.InStep := by
  constructor
  rw [hnodes, hdevices]
  exact mirrored_modify hr.mirrored hchange

/-- The same, where the entry and the record are changed in place. -/
theorem modify_both (hr : r.InStep) (id : String)
    (f : RegisteredNode Binary64 → RegisteredNode Binary64)
    (g : Capability Binary64 → Capability Binary64) (hf : ∀ n, (f n).descriptor = n.descriptor)
    (hid : ∀ n, n.descriptor.nodeId = id → (f n).descriptor.nodeId = id)
    (hg : ∀ d, d.deviceId = id → (g d).deviceId = id)
    (hchange : ∀ n d, Mirrors n d → Mirrors (f n) (g d)) :
    InStep { r.modify id f hid with matcher := r.matcher.modify id g hg } :=
  hr.modify (nodes_eq_map_of_modify rfl hf) (Matcher.devices_modify hg r.matcher)
    fun n _ d hmirrors _ => hchange n d hmirrors

/-- A change that the matcher does not see. -/
theorem modify_node (hr : r.InStep) (id : String)
    {f : RegisteredNode Binary64 → RegisteredNode Binary64}
    (hf : ∀ n, (f n).descriptor = n.descriptor ∧ (f n).loadFactor = n.loadFactor)
    (hid : ∀ n, n.descriptor.nodeId = id → (f n).descriptor.nodeId = id) :
    (r.modify id f hid).InStep := by
  have hafter := hr.modify_both id f (fun d => d) (fun n => (hf n).1) hid (fun _ h => h)
    fun n d hmirrors => hmirrors.of_same (hf n).1 (hf n).2
  rw [Matcher.modify_id] at hafter
  exact hafter

/-! ## One operation -/

theorem register (hr : r.InStep) {d : Descriptor Binary64} {r' : Registry Binary64}
    (h : r.register d = .ok r') : r'.InStep := by
  have hmatcher := (register_eq_ok h).1
  rcases nodes_register h with ⟨hid, hnodes⟩ | ⟨hid, hnodes⟩
  · have hdevice : r.matcher.contains d.nodeId = true :=
      hr.contains_matcher.trans (contains_eq_true_iff.mpr hid)
    refine hr.modify hnodes ?_ fun _ _ _ _ _ => mirrors_toCapability (.fresh d)
    rw [hmatcher]
    exact Matcher.devices_register_of_contains rfl hdevice
  · have hdevice : r.matcher.contains d.nodeId = false := by
      rw [hr.contains_matcher, ← Bool.not_eq_true, contains_eq_true_iff]
      exact hid
    have hdevices : r'.matcher.devices =
        r.matcher.devices ++ [(RegisteredNode.fresh d).toNode.toCapability] := by
      rw [hmatcher]
      exact Matcher.devices_register_of_absent hdevice
    constructor
    rw [hnodes, hdevices]
    exact List.rel_append hr.mirrored (.cons (mirrors_toCapability _) .nil)

/-- A report is refused only for a node that is not there. -/
theorem applyCapabilities (hr : r.InStep) (report : CapabilityReport Binary64) :
    (∃ r', r.applyCapabilities report = .ok r' ∧ report.nodeId ∈ r.ids ∧ r'.InStep) ∨
      report.nodeId ∉ r.ids ∧
        r.applyCapabilities report = .error (.session ("unknown node " ++ report.nodeId)) := by
  unfold Registry.applyCapabilities
  by_cases hid : report.nodeId ∈ r.ids
  · left
    obtain ⟨n, d, hn, -, -⟩ := hr.device hid
    obtain ⟨record, hrecord⟩ := Option.isSome_iff_exists.mp (reportedCapability?_isSome n report)
    simp only [hn, hrecord]
    refine ⟨_, rfl, hid, ?_⟩
    have hrecordId : record.deviceId = report.nodeId :=
      deviceId_of_heard? (r := r) (by rw [heard?, hn, Option.bind_some, hrecord])
    have hdevices := Matcher.devices_register_of_contains hrecordId
      (hr.contains_matcher.trans (contains_eq_true_iff.mpr hid))
    have hnodes : r.nodes = r.nodes.map fun n =>
        if n.descriptor.nodeId = report.nodeId then n else n := by simp
    refine hr.modify hnodes hdevices ?_
    rintro n' hn' _ _ hid'
    -- the record was made from the entry of the node, and this is that entry
    have hfound := mem_nodes_iff.mp hn'
    rw [hid'] at hfound
    cases hn.symm.trans hfound
    exact mirrors_reportedCapability hrecord
  · right
    exact ⟨hid, by simp only [get?_eq_none_iff.mpr hid]⟩

theorem updateLoad (hr : r.InStep) (id : String) (load : Binary64) (activeSessions : UInt32) :
    (r.updateLoad id load activeSessions).InStep := by
  unfold Registry.updateLoad
  split
  · next hcontains =>
    have hid := contains_eq_true_iff.mp hcontains
    simp only [matcher_modify, hr.setLoad hid]
    exact hr.modify_both id (fun n => { n with loadFactor := max load 0.0, activeSessions })
      (fun d => { d with load := max (max load 0.0) 0.0 }) (fun _ => rfl) (fun _ h => h)
      (fun _ h => h) fun _ _ hmirrors => hmirrors.updateLoad load activeSessions
  · exact hr

/-- Memory set aside on a node and taken off its device. -/
theorem setReserved (hr : r.InStep) (id : String) (f : Binary64 → Binary64) (gb : Binary64) :
    InStep { r.modify id (fun n => { n with reservedGb := f n.reservedGb }) fun _ h => h with
      matcher := r.matcher.modify id (fun d => { d with availableGb := gb }) fun _ h => h } :=
  hr.modify_both id (fun n => { n with reservedGb := f n.reservedGb })
    (fun d => { d with availableGb := gb }) (fun _ => rfl) (fun _ h => h) (fun _ h => h)
    fun _ _ hmirrors => ⟨hmirrors.id, hmirrors.saturated, hmirrors.memory⟩

/-- A reservation is refused only for a node that is not there. -/
theorem reserve (hr : r.InStep) (id : String) (gb : Binary64) :
    (∃ r', r.reserve id gb = .ok r' ∧ id ∈ r.ids ∧ r'.InStep) ∨
      id ∉ r.ids ∧ r.reserve id gb = .error (.session ("unknown node " ++ id)) := by
  unfold Registry.reserve
  by_cases hid : id ∈ r.ids
  · left
    obtain ⟨available, hset⟩ := hr.setAvailable hid (r.availableGb id - gb)
    rw [if_pos (contains_eq_true_iff.mpr hid), hset]
    exact ⟨_, rfl, hid, hr.setReserved id (· + gb) available⟩
  · right
    rw [if_neg fun h => hid (contains_eq_true_iff.mp h)]
    exact ⟨hid, rfl⟩

/-- A release always succeeds. -/
theorem release (hr : r.InStep) (id : String) (gb : Binary64) :
    ∃ r', r.release id gb = .ok r' ∧ r'.InStep ∧ (id ∉ r.ids → r' = r) := by
  unfold Registry.release
  by_cases hid : id ∈ r.ids
  · obtain ⟨n, d, hn, -, -⟩ := hr.device hid
    obtain ⟨available, hset⟩ :=
      hr.setAvailable hid (r.availableGb id + min gb n.reservedGb)
    simp only [hn]
    rw [show r.matcher.setAvailable id _ = _ from hset]
    exact ⟨_, rfl, hr.setReserved id (· - min gb n.reservedGb) available,
      fun habsent => absurd hid habsent⟩
  · simp only [get?_eq_none_iff.mpr hid]
    exact ⟨r, rfl, hr, fun _ => rfl⟩

theorem remove (hr : r.InStep) (id : String) : (r.remove id).InStep := by
  have hdevices : (r.remove id).matcher.devices =
      r.matcher.devices.filter fun d => d.deviceId ≠ id := by
    by_cases hid : id ∈ r.ids
    · rw [Registry.remove, if_pos (contains_eq_true_iff.mpr hid)]
      exact Matcher.devices_remove r.matcher id
    · rw [remove_of_absent hid, ← Matcher.devices_remove,
        Matcher.remove_of_absent (hr.device_ids ▸ hid)]
  constructor
  rw [nodes_remove, hdevices]
  exact mirrored_filter hr.mirrored id

/-- An operation keeps roster and matcher in step, and is refused for the stated reasons only. -/
theorem perform (hr : r.InStep) (op : Operation Binary64) :
    (∃ r', r.perform op = .ok r' ∧ r.refusal? op = none ∧ r'.InStep) ∨
      ∃ err, r.perform op = .error err ∧ r.refusal? op = some err := by
  cases op with
  | register d =>
    cases hvalid : d.validate with
    | error e =>
      refine .inr ⟨.session e.message, ?_, by simp only [refusal?, hvalid]⟩
      simp only [Registry.perform, Registry.register, hvalid]
    | ok u =>
      cases hresult : r.register d with
      | ok r' => exact .inl ⟨r', hresult, by simp only [refusal?, hvalid], hr.register hresult⟩
      | error err =>
        simp only [Registry.register, hvalid] at hresult
        cases hresult
  | applyCapabilities report =>
    rcases hr.applyCapabilities report with ⟨r', hresult, hid, hafter⟩ | ⟨hid, hresult⟩
    · exact .inl ⟨r', hresult, if_pos hid, hafter⟩
    · exact .inr ⟨_, hresult, if_neg hid⟩
  | markUnhealthy id reason | recordSuccess id =>
    refine .inl ⟨_, rfl, rfl, hr.modify_node id ?_ ?_⟩
    · exact fun _ => ⟨rfl, rfl⟩
    · exact fun _ h => h
  | updateLoad id load activeSessions =>
    exact .inl ⟨_, rfl, rfl, hr.updateLoad id load activeSessions⟩
  | reserve id gb =>
    rcases hr.reserve id gb with ⟨r', hresult, hid, hafter⟩ | ⟨hid, hresult⟩
    · exact .inl ⟨r', hresult, if_pos hid, hafter⟩
    · exact .inr ⟨_, hresult, if_neg hid⟩
  | release id gb =>
    obtain ⟨r', hresult, hafter, -⟩ := hr.release id gb
    exact .inl ⟨r', hresult, rfl, hafter⟩
  | remove id => exact .inl ⟨_, rfl, rfl, hr.remove id⟩

theorem after (hr : r.InStep) (op : Operation Binary64) : (r.after op).InStep := by
  unfold Registry.after
  rcases hr.perform op with ⟨r', hresult, -, hafter⟩ | ⟨err, hresult, -⟩
  · rw [hresult]
    exact hafter
  · rw [hresult]
    exact hr

/-- An operation about a node that is not there changes nothing, unless it brings the node. -/
theorem after_of_absent (hr : r.InStep) {op : Operation Binary64} (hop : op.admits = false)
    (hid : op.node ∉ r.ids) : r.after op = r := by
  unfold Registry.after
  cases op with
  | register d => cases hop
  | applyCapabilities report =>
    rcases hr.applyCapabilities report with ⟨_, _, hknown, _⟩ | ⟨-, hresult⟩
    · exact absurd hknown hid
    · simp only [Registry.perform, hresult]
  | markUnhealthy id reason | recordSuccess id => exact modify_of_absent _ hid
  | updateLoad id load activeSessions =>
    exact if_neg fun hcontains => hid (contains_eq_true_iff.mp hcontains)
  | reserve id gb =>
    rcases hr.reserve id gb with ⟨_, _, hknown, _⟩ | ⟨-, hresult⟩
    · exact absurd hknown hid
    · simp only [Registry.perform, hresult]
  | release id gb =>
    obtain ⟨r', hresult, -, hsame⟩ := hr.release id gb
    simp only [Registry.perform, hresult]
    exact hsame hid
  | remove id => exact remove_of_absent hid

end InStep

theorem inStep_run (config : MatcherConfig Binary64) (ops : List (Operation Binary64)) :
    (run config ops).InStep := by
  suffices h : ∀ r : Registry Binary64, r.InStep → (ops.foldl after r).InStep from
    h _ ⟨.nil⟩
  induction ops with
  | nil => exact fun _ hr => hr
  | cons op ops ih => exact fun r hr => ih (r.after op) (hr.after op)

/-! ## The order of registration -/

section Order

variable {α : Type}

theorem order_of_modify {r r' : Registry α} {id : String}
    {f : RegisteredNode α → RegisteredNode α} (h : r'.roster = r.roster.modify id f) :
    r'.roster.order = r.roster.order := by
  rw [h, OrderedDictionary.order_modify]

variable [Scalar α]

/-- The order after an operation. A node that registers goes behind the others or keeps its place, a
node that is removed leaves no gap, and nothing else moves a node. -/
def Operation.arranged (op : Operation α) (order : List String) : List String :=
  match op with
  | .register d =>
    match d.validate with
    | .error _ => order
    | .ok _ => if d.nodeId ∈ order then order else order ++ [d.nodeId]
  | .remove id => order.filter (· ≠ id)
  | _ => order

theorem order_of_perform {r r' : Registry α} {op : Operation α} (h : r.perform op = .ok r') :
    r'.roster.order = op.arranged r.roster.order := by
  cases op with
  | register d =>
    have hroster := (register_eq_ok h).2
    cases hvalid : d.validate with
    | error e => simp [perform, register, hvalid] at h
    | ok _ =>
      simp only [Operation.arranged, hvalid, hroster, OrderedDictionary.order_insert,
        OrderedDictionary.mem_order_iff]
  | applyCapabilities report =>
    rcases r.applyCapabilities_cases report with ⟨record, -, hok⟩ | ⟨-, err, herror⟩
    · cases hok.symm.trans h
      rfl
    · cases herror.symm.trans h
  | markUnhealthy id reason | recordSuccess id =>
    cases h
    exact order_of_modify rfl
  | updateLoad id load activeSessions =>
    cases h
    unfold updateLoad
    split
    · exact order_of_modify rfl
    · rfl
  | reserve id gb =>
    simp only [perform, reserve] at h
    split at h
    · split at h
      · cases h
      · cases h
        exact order_of_modify rfl
    · cases h
  | release id gb =>
    simp only [perform, release] at h
    split at h
    · cases h
      rfl
    · split at h
      · cases h
        exact order_of_modify rfl
      · cases h
      · cases h
        exact order_of_modify rfl
  | remove id =>
    cases h
    unfold remove
    split
    · rfl
    · next hcontains =>
      have habsent : id ∉ r.roster.order := by
        rw [← ids_eq_order, ← contains_eq_true_iff]
        exact hcontains
      refine (List.filter_eq_self.mpr fun k hk => decide_eq_true ?_).symm
      rintro rfl
      exact habsent hk

theorem order_after (r : Registry α) (op : Operation α) :
    (r.after op).roster.order = op.arranged r.roster.order := by
  unfold Registry.after
  cases hresult : r.perform op with
  | ok r' => exact order_of_perform hresult
  | error err =>
    cases op with
    | register d =>
      cases hvalid : d.validate with
      | error e => simp only [Operation.arranged, hvalid]
      | ok _ => simp [perform, register, hvalid] at hresult
    | remove id => cases hresult
    | _ => rfl

end Order

/-! ## Every sequence of operations -/

/-- Entries, order and matcher agree: on the nodes there are, on their order, and on those without
capacity left. -/
structure Agrees (r : Registry Binary64) : Prop where
  /-- No node is listed twice. -/
  distinct : r.roster.order.Nodup
  /-- The listed ids are those under which there is an entry. -/
  keys : ∀ id, id ∈ r.roster.order ↔ ∃ n, r.roster.entries.get? id = some n
  /-- Every entry is stored under the id of its own descriptor. -/
  keyed : ∀ id n, r.roster.entries.get? id = some n → n.descriptor.nodeId = id
  /-- The devices have the listed ids, in the same order. -/
  devices : r.matcher.devices.map (·.deviceId) = r.roster.order
  /-- A node has no capacity left for the matcher when it has none for the planner: when its load
  has reached one. -/
  saturated : ∀ id n, r.roster.entries.get? id = some n → ∃ d, r.matcher.get? id = some d ∧
    d.isSaturated = n.toNode.isSaturated ∧ (n.toNode.isSaturated ↔ 1.0 ≤ n.loadFactor)
  /-- The matcher finds every listed node, whatever is to be set. -/
  found : ∀ id ∈ r.roster.order, ∀ x : Binary64,
    (∃ m, r.matcher.setLoad id x = .ok m) ∧ ∃ m, r.matcher.setAvailable id x = .ok m
  /-- An operation leaves the nodes in the order that it is to leave them in. -/
  arranged : ∀ op, (r.after op).roster.order = op.arranged r.roster.order
  /-- An operation is refused for the stated reasons only. -/
  refused : ∀ op err, r.perform op = .error err ↔ r.refusal? op = some err
  /-- An operation that is refused changes nothing, and neither does one about a node that is not
  there, unless it brings the node. -/
  unchanged : ∀ op,
    (r.refusal? op).isSome ∨ op.admits = false ∧ r.roster.entries.get? op.node = none →
      r.after op = r

/-- After any sequence of operations, with any arguments, entries, order and matcher agree. -/
theorem agrees_run (config : MatcherConfig Binary64) (ops : List (Operation Binary64)) :
    (run config ops).Agrees := by
  have hr := inStep_run config ops
  generalize run config ops = r at hr
  have hrefused : ∀ op err, r.perform op = .error err ↔ r.refusal? op = some err := by
    intro op err
    rcases hr.perform op with ⟨r', hresult, hnone, -⟩ | ⟨err', hresult, hsome⟩
    · simp [hresult, hnone]
    · simp [hresult, hsome]
  constructor
  case distinct => exact r.roster.distinct
  case keys =>
    intro id
    rw [r.roster.listed, Option.isSome_iff_exists]
  case keyed => exact r.keyed
  case devices => rw [hr.device_ids, ids_eq_order]
  case saturated =>
    intro id n hn
    obtain ⟨n', d, hn', hd, hmirrors⟩ := hr.device (isSome_get?_iff.mp (Option.isSome_of_eq_some hn))
    cases hn.symm.trans hn'
    exact ⟨d, hd, hmirrors.saturated, decide_eq_true_iff.trans (Binary64.one_le_clamp _)⟩
  case found =>
    intro id hid x
    rw [← ids_eq_order] at hid
    obtain ⟨available, hset⟩ := hr.setAvailable hid x
    exact ⟨⟨_, hr.setLoad hid x⟩, _, hset⟩
  case arranged => exact r.order_after
  case refused => exact hrefused
  case unchanged =>
    rintro op (hrefusal | ⟨hop, habsent⟩)
    · obtain ⟨err, herr⟩ := Option.isSome_iff_exists.mp hrefusal
      rw [after, (hrefused op err).mpr herr]
    · exact hr.after_of_absent hop (get?_eq_none_iff.mp habsent)

end Registry

end LayerPipeline
