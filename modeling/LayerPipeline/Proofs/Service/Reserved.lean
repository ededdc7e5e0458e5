import LayerPipeline.Proofs.Matching.Devices
import LayerPipeline.Proofs.Planning.Exact
import LayerPipeline.Proofs.Service.Calm
import LayerPipeline.Proofs.Service.SessionTable
import Mathlib.Algebra.Order.BigOperators.Group.List

/-!
# Reserved memory in exact arithmetic

Over the rationals a reservation adds the memory of its stages to their nodes, and a release takes
the same off again, as long as that much is reserved. A node that registers starts from zero.
-/

namespace LayerPipeline

open Planning

/-! ## Devices -/

namespace Matcher

/-- There is a device whose memory can be counted. -/
def HasDevice (m : Matcher ℚ) (id : String) : Prop := ∃ d, m.get? id = some d ∧ 0 ≤ d.memoryGb

theorem hasDevice_register {m : Matcher ℚ} {c : Capability ℚ} (hc : 0 ≤ c.memoryGb) {k : String}
    (h : k = c.deviceId ∨ m.HasDevice k) : (m.register c).HasDevice k := by
  unfold HasDevice
  rw [get?_register]
  split
  · exact ⟨c, rfl, hc⟩
  · next hne => exact h.resolve_left hne

theorem HasDevice.modify {m : Matcher ℚ} {k : String} (h : m.HasDevice k) {id : String}
    {f : Capability ℚ → Capability ℚ}
    (hid : ∀ d, d.deviceId = id → (f d).deviceId = id) (hf : ∀ d, (f d).memoryGb = d.memoryGb) :
    (m.modify id f hid).HasDevice k := by
  obtain ⟨d, hd, hmemory⟩ := h
  refine ⟨if d.deviceId = id then f d else d, ?_, ?_⟩
  · rw [get?_modify hid, hd, Option.map_some]
  · split
    · rw [hf d]
      exact hmemory
    · exact hmemory

theorem HasDevice.setLoad {m : Matcher ℚ} {k : String} (h : m.HasDevice k) (id : String)
    (load : ℚ) : ((m.setLoad id load).toOption.getD m).HasDevice k := by
  unfold Matcher.setLoad
  split
  · simp only [Except.toOption, Option.getD_some]
    exact h.modify _ fun _ => rfl
  · exact h

/-- Where there is a device, its available memory can be set. -/
theorem HasDevice.setAvailable {m : Matcher ℚ} {id : String} (h : m.HasDevice id) (gb : ℚ) :
    ∃ m', m.setAvailable id gb = .ok m' ∧ ∀ k, m.HasDevice k → m'.HasDevice k := by
  obtain ⟨d, hd, hmemory⟩ := h
  have hbounds : (Scalar.toOfScientific.ofScientific 0 true 1 : ℚ) ≤ d.memoryGb := by
    rw [zero_exact]
    exact hmemory
  have hclamp : Scalar.clamp? gb (Scalar.toOfScientific.ofScientific 0 true 1) d.memoryGb =
      some (Scalar.clamp gb (Scalar.toOfScientific.ofScientific 0 true 1) d.memoryGb) :=
    if_pos hbounds
  simp only [Matcher.setAvailable, hd, hclamp]
  exact ⟨_, rfl, fun k hk => hk.modify _ fun _ => rfl⟩

end Matcher

/-! ## Nodes -/

namespace Registry

/-- Nodes have different ids, and a device each. -/
structure Sound (r : Registry ℚ) : Prop where
  ids_nodup : (r.reserved.map (·.1)).Nodup
  devices : ∀ e ∈ r.reserved, r.matcher.HasDevice e.1

theorem contains_iff {α : Type} {r : Registry α} {id : String} :
    r.contains id = true ↔ ∃ x, (id, x) ∈ r.reserved := by
  simp only [contains_eq_true_iff, ids, reserved, List.mem_map, Prod.mk.injEq]
  constructor
  · rintro ⟨n, hn, hid⟩
    exact ⟨n.reservedGb, n, hn, hid, rfl⟩
  · rintro ⟨x, n, hn, hid, -⟩
    exact ⟨n, hn, hid⟩

/-- The reserved memory of one node changed. -/
def adjusted (id : String) (f : ℚ → ℚ) (e : String × ℚ) : String × ℚ :=
  (e.1, if e.1 = id then f e.2 else e.2)

theorem reserved_adjust (r : Registry ℚ) (id : String) (f : ℚ → ℚ) :
    (r.modify id (fun n => { n with reservedGb := f n.reservedGb }) fun _ h => h).reserved =
      r.reserved.map (adjusted id f) := by
  rw [reserved, nodes_modify, reserved, List.map_map, List.map_map]
  refine List.map_congr_left fun n _ => ?_
  by_cases hid : n.descriptor.nodeId = id <;> simp [hid, adjusted]

theorem map_adjusted_of_absent {r : Registry ℚ} {id : String} (h : ∀ x, (id, x) ∉ r.reserved)
    (f : ℚ → ℚ) : r.reserved.map (adjusted id f) = r.reserved := by
  refine (List.map_congr_left fun e he => ?_).trans (List.map_id _)
  have hne : e.1 ≠ id := fun heq => h e.2 (heq ▸ he)
  simp [adjusted, hne]

theorem Sound.of_reserved {r r' : Registry ℚ} (hr : r.Sound) {id : String} {f : ℚ → ℚ}
    (hreserved : r'.reserved = r.reserved.map (adjusted id f))
    (hdevices : ∀ k, r.matcher.HasDevice k → r'.matcher.HasDevice k) : r'.Sound := by
  constructor
  · rw [hreserved, List.map_map]
    exact hr.ids_nodup
  · intro e he
    rw [hreserved] at he
    obtain ⟨e', he', rfl⟩ := List.mem_map.mp he
    exact hdevices _ (hr.devices e' he')

theorem Sound.of_same {r r' : Registry ℚ} (hr : r.Sound) (hreserved : r'.reserved = r.reserved)
    (hmatcher : r'.matcher = r.matcher) : r'.Sound :=
  ⟨hreserved ▸ hr.ids_nodup, by rw [hreserved, hmatcher]; exact hr.devices⟩

/-- A reservation adds to what is reserved, on a node that is registered. -/
theorem Sound.reserve {r : Registry ℚ} (hr : r.Sound) (id : String) (gb : ℚ) :
    let r' := (r.reserve id gb).toOption.getD r
    r'.Sound ∧ r'.reserved = r.reserved.map (adjusted id (· + gb)) := by
  by_cases hcontains : r.contains id = true
  · obtain ⟨x, hx⟩ := contains_iff.mp hcontains
    obtain ⟨m, hset, hdevices⟩ := (hr.devices _ hx).setAvailable (r.availableGb id - gb)
    have hreserved := r.reserved_adjust id (· + gb)
    simp only [Registry.reserve, hcontains, if_true]
    rw [show r.matcher.setAvailable id _ = .ok m from hset]
    exact ⟨hr.of_reserved hreserved hdevices, hreserved⟩
  · have habsent : ∀ x, (id, x) ∉ r.reserved := fun x hx => hcontains (contains_iff.mpr ⟨x, hx⟩)
    have hsame : (r.reserve id gb).toOption.getD r = r := by
      simp [Registry.reserve, hcontains, Except.toOption]
    rw [hsame]
    exact ⟨hr, (map_adjusted_of_absent habsent _).symm⟩

/-- A release takes off at most what is reserved. -/
theorem Sound.release {r : Registry ℚ} (hr : r.Sound) (id : String) (gb : ℚ) :
    let r' := (r.release id gb).toOption.getD r
    r'.Sound ∧ r'.reserved = r.reserved.map (adjusted id fun x => x - min gb x) := by
  cases hfound : r.get? id with
  | none =>
    have habsent : ∀ x, (id, x) ∉ r.reserved := by
      intro x hx
      exact get?_eq_none_iff.mp hfound (contains_eq_true_iff.mp (contains_iff.mpr ⟨x, hx⟩))
    have hsame : (r.release id gb).toOption.getD r = r := by
      simp [Registry.release, hfound, Except.toOption]
    rw [hsame]
    exact ⟨hr, (map_adjusted_of_absent habsent _).symm⟩
  | some n =>
    have hmem : (id, n.reservedGb) ∈ r.reserved := by
      obtain ⟨hn, hid⟩ := get?_eq_some hfound
      exact List.mem_map.mpr ⟨n, hn, by rw [hid]⟩
    obtain ⟨m, hset, hdevices⟩ :=
      (hr.devices _ hmem).setAvailable (r.availableGb id + min gb n.reservedGb)
    have hreserved : (r.modify id
        (fun x => { x with reservedGb := x.reservedGb - min gb n.reservedGb }) fun _ h =>
          h).reserved = r.reserved.map (adjusted id fun x => x - min gb x) := by
      rw [r.reserved_adjust id (· - min gb n.reservedGb)]
      refine List.map_congr_left fun e he => ?_
      by_cases hid : e.1 = id
      · have heq := List.inj_on_of_nodup_map hr.ids_nodup he hmem hid
        simp [adjusted, heq]
      · simp [adjusted, hid]
    simp only [Registry.release, hfound, min_exact]
    rw [show r.matcher.setAvailable id _ = .ok m from hset]
    exact ⟨hr.of_reserved hreserved hdevices, hreserved⟩

/-! ## Registration and reports -/

theorem toCapability_memory_nonneg (n : RegisteredNode ℚ) : 0 ≤ n.toNode.toCapability.memoryGb := by
  change (0 : ℚ) ≤
    Scalar.toMax.max n.toNode.capacityGb (Scalar.toOfScientific.ofScientific 0 true 1)
  rw [max_exact, zero_exact]
  exact le_max_right _ _

/-- A node that registers has nothing reserved, whatever was reserved on it before. -/
theorem Sound.register {r r' : Registry ℚ} (hr : r.Sound) {d : Descriptor ℚ}
    (h : r.register d = .ok r') :
    r'.Sound ∧ ∀ e, e ∈ r'.reserved ↔ e = (d.nodeId, 0) ∨ (e ∈ r.reserved ∧ e.1 ≠ d.nodeId) := by
  have hmatcher := (register_eq_ok h).1
  have hdevices : ∀ k, k = d.nodeId ∨ r.matcher.HasDevice k → r'.matcher.HasDevice k := by
    intro k hk
    rw [hmatcher]
    exact Matcher.hasDevice_register (toCapability_memory_nonneg _) hk
  have hzero : (RegisteredNode.fresh d).reservedGb = 0 := zero_exact
  rcases nodes_register h with ⟨hid, hnodes⟩ | ⟨hid, hnodes⟩
  · have hreserved : r'.reserved = r.reserved.map (adjusted d.nodeId fun _ => 0) := by
      rw [reserved, hnodes, reserved, List.map_map, List.map_map]
      refine List.map_congr_left fun n _ => ?_
      by_cases hid : n.descriptor.nodeId = d.nodeId
      · simp only [Function.comp_apply, hid, if_true, hzero, adjusted]
        rfl
      · simp [hid, adjusted]
    refine ⟨hr.of_reserved hreserved fun k hk => hdevices k (.inr hk), fun e => ?_⟩
    obtain ⟨x, hx⟩ := contains_iff.mp (contains_eq_true_iff.mpr hid)
    rw [hreserved]
    constructor
    · intro he
      obtain ⟨e', he', rfl⟩ := List.mem_map.mp he
      by_cases hid : e'.1 = d.nodeId
      · exact .inl (by simp [adjusted, hid])
      · exact .inr (by simpa [adjusted, hid] using he')
    · rintro (rfl | ⟨he, hid⟩)
      · exact List.mem_map.mpr ⟨_, hx, by simp [adjusted]⟩
      · exact List.mem_map.mpr ⟨e, he, by simp [adjusted, hid]⟩
  · have hreserved : r'.reserved = r.reserved ++ [(d.nodeId, 0)] := by
      rw [reserved, hnodes, List.map_append, List.map_singleton, hzero]
      rfl
    have habsent : ∀ e ∈ r.reserved, e.1 ≠ d.nodeId := by
      intro e he heq
      exact hid (contains_eq_true_iff.mp (contains_iff.mpr ⟨e.2, heq ▸ he⟩))
    refine ⟨⟨?_, ?_⟩, fun e => ?_⟩
    · rw [hreserved, List.map_append]
      refine List.Nodup.append hr.ids_nodup (List.nodup_singleton _) ?_
      simpa [List.disjoint_singleton] using fun x hx => habsent (d.nodeId, x) hx rfl
    · rw [hreserved]
      intro e he
      rcases List.mem_append.mp he with hold | hnew
      · exact hdevices _ (.inr (hr.devices e hold))
      · rw [List.mem_singleton.mp hnew]
        exact hdevices _ (.inl rfl)
    · rw [hreserved, List.mem_append, List.mem_singleton]
      constructor
      · rintro (hold | hnew)
        · exact .inr ⟨hold, habsent e hold⟩
        · exact .inl hnew
      · rintro (hnew | ⟨hold, -⟩)
        · exact .inr hnew
        · exact .inl hold

/-- A report of a node changes what is known of its device, and nothing that is reserved. -/
theorem Sound.applyCapabilities {r r' : Registry ℚ} (hr : r.Sound) {report : CapabilityReport ℚ}
    (h : r.applyCapabilities report = .ok r') : r'.Sound ∧ r'.reserved = r.reserved := by
  unfold Registry.applyCapabilities at h
  split at h
  · cases h
  · next n _ =>
    split at h
    · cases h
    · next c hc =>
      cases h
      obtain ⟨available, -, rfl⟩ := Option.map_eq_some_iff.mp hc
      refine ⟨⟨hr.ids_nodup, fun e he => ?_⟩, rfl⟩
      refine Matcher.hasDevice_register ?_ (.inr (hr.devices e he))
      change (0 : ℚ) ≤ Scalar.toMax.max _ _
      rw [max_exact]
      exact (toCapability_memory_nonneg n).trans (le_max_right _ _)

theorem Sound.updateLoad {r : Registry ℚ} (hr : r.Sound) (id : String) (load : ℚ)
    (activeSessions : UInt32) : (r.updateLoad id load activeSessions).Sound ∧
      (r.updateLoad id load activeSessions).reserved = r.reserved := by
  unfold Registry.updateLoad
  split
  · have hreserved : ∀ x, (r.modify id (fun n => { n with loadFactor := x, activeSessions })
        fun _ h => h).reserved = r.reserved := by
      intro x
      refine reserved_modify ?_ r
      exact fun _ => ⟨rfl, rfl⟩
    refine ⟨⟨?_, ?_⟩, hreserved _⟩
    · exact (congrArg (List.map Prod.fst) (hreserved _)).symm ▸ hr.ids_nodup
    · intro e he
      have hdevice := hr.devices e (hreserved _ ▸ he)
      exact hdevice.setLoad id _
  · exact ⟨hr, rfl⟩

theorem Sound.markUnhealthy {r : Registry ℚ} (hr : r.Sound) (id reason : String) :
    (r.markUnhealthy id reason).Sound :=
  hr.of_same (r.reserved_markUnhealthy id reason) rfl

end Registry

/-! ## Plans -/

/-- What stages take of a node. -/
def shareOf (id : String) (stages : List (Stage ℚ)) : ℚ :=
  ((stages.filter fun s => s.node.nodeId = id).map fun s => s.memoryMb / 1024).sum

theorem shareOf_cons (id : String) (s : Stage ℚ) (stages : List (Stage ℚ)) :
    shareOf id (s :: stages) =
      (if s.node.nodeId = id then s.memoryMb / 1024 else 0) + shareOf id stages := by
  by_cases hid : s.node.nodeId = id <;> simp [shareOf, hid]

theorem shareOf_nonneg {stages : List (Stage ℚ)} (h : ∀ s ∈ stages, 0 ≤ s.memoryMb) (id : String) :
    0 ≤ shareOf id stages := by
  refine List.sum_nonneg fun x hx => ?_
  obtain ⟨s, hs, rfl⟩ := List.mem_map.mp hx
  exact div_nonneg (h s (List.mem_of_mem_filter hs)) (by norm_num)

namespace Coordinator

open Registry

theorem stageGb_exact (s : Stage ℚ) : stageGb s = s.memoryMb / 1024 := by
  unfold stageGb
  rw [gigabyte_exact]

theorem reserveStages_exact {r : Registry ℚ} (hr : r.Sound) (stages : List (Stage ℚ)) :
    (reserveStages r stages).Sound ∧ (reserveStages r stages).reserved =
      r.reserved.map fun e => (e.1, e.2 + shareOf e.1 stages) := by
  induction stages generalizing r with
  | nil => exact ⟨hr, by simp [reserveStages, shareOf]⟩
  | cons s stages ih =>
    obtain ⟨hsound, hreserved⟩ := hr.reserve s.node.nodeId (stageGb s)
    obtain ⟨hsound', hreserved'⟩ := ih hsound
    refine ⟨hsound', hreserved'.trans ?_⟩
    rw [hreserved, List.map_map]
    refine List.map_congr_left fun e _ => ?_
    simp only [Function.comp_apply, adjusted, shareOf_cons, stageGb_exact]
    by_cases hid : e.1 = s.node.nodeId
    · simp [hid, add_assoc]
    · simp [hid, Ne.symm hid]

theorem sound_releaseStages {r : Registry ℚ} (hr : r.Sound) (stages : List (Stage ℚ)) :
    (releaseStages r stages).Sound := by
  induction stages generalizing r with
  | nil => exact hr
  | cons s stages ih => exact ih (hr.release s.node.nodeId (stageGb s)).1

/-- Where at least the memory of the stages is reserved, exactly that is returned. -/
theorem releaseStages_exact {r : Registry ℚ} (hr : r.Sound) {stages : List (Stage ℚ)}
    (hmemory : ∀ s ∈ stages, 0 ≤ s.memoryMb)
    (hcovered : ∀ e ∈ r.reserved, shareOf e.1 stages ≤ e.2) :
    (releaseStages r stages).reserved =
      r.reserved.map fun e => (e.1, e.2 - shareOf e.1 stages) := by
  induction stages generalizing r with
  | nil => simp [releaseStages, shareOf]
  | cons s stages ih =>
    have hrest : ∀ x ∈ stages, 0 ≤ x.memoryMb := fun x hx => hmemory x (List.mem_cons_of_mem _ hx)
    obtain ⟨hsound, hreserved⟩ := hr.release s.node.nodeId (stageGb s)
    -- what the first stage gives back is reserved in full, so the cap does not apply
    have hfirst : ((r.release s.node.nodeId (stageGb s)).toOption.getD r).reserved =
        r.reserved.map (adjusted s.node.nodeId (· - s.memoryMb / 1024)) := by
      rw [hreserved, stageGb_exact]
      refine List.map_congr_left fun e he => ?_
      by_cases hid : e.1 = s.node.nodeId
      · have hshare := hcovered e he
        rw [shareOf_cons, if_pos hid.symm] at hshare
        have hle : s.memoryMb / 1024 ≤ e.2 := by linarith [shareOf_nonneg hrest e.1]
        simp [adjusted, hid, min_eq_left hle]
      · simp [adjusted, hid]
    have hcovered' : ∀ e ∈ ((r.release s.node.nodeId (stageGb s)).toOption.getD r).reserved,
        shareOf e.1 stages ≤ e.2 := by
      rw [hfirst]
      intro e' he'
      obtain ⟨e, he, rfl⟩ := List.mem_map.mp he'
      have hshare := hcovered e he
      rw [shareOf_cons] at hshare
      by_cases hid : e.1 = s.node.nodeId
      · simp only [adjusted, hid, if_true] at hshare ⊢
        linarith
      · simp only [adjusted, hid, Ne.symm hid, if_false] at hshare ⊢
        linarith
    refine (ih hsound hrest hcovered').trans ?_
    rw [hfirst, List.map_map]
    refine List.map_congr_left fun e _ => ?_
    simp only [Function.comp_apply, adjusted, shareOf_cons]
    by_cases hid : e.1 = s.node.nodeId
    · simp [hid, sub_sub]
    · simp [hid, Ne.symm hid]

end Coordinator

end LayerPipeline
