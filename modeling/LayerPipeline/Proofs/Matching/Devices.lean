import LayerPipeline.Matcher
import Mathlib.Data.List.Nodup

/-!
# Devices of a matcher

The index of a matcher is a shortcut: what is found through it is what a walk over the devices would
find, and a change through it changes the list at that place only. Over any sequence of changes the
matcher is a map from ids to records that remembers the order in which the ids came.
-/

namespace LayerPipeline.Matcher

variable {α : Type}

/-! ## The list behind the index -/

section Lookup

variable {m : Matcher α} {id k : String}

theorem nodup_deviceIds (m : Matcher α) : (m.devices.map (·.deviceId)).Nodup := m.located.nodup

/-- The device of an id stands where the index says, and nowhere else. -/
theorem deviceId_getElem_iff {i : Fin m.devices.length} (hi : m.position? id = some i) {j : ℕ}
    (hj : j < m.devices.length) : m.devices[j].deviceId = id ↔ j = i := by
  have hat : m.position? id = some ⟨j, hj⟩ ↔ m.devices[j].deviceId = id := position?_eq_some_iff
  rw [← hat, hi, Option.some.injEq, Fin.ext_iff]
  exact eq_comm

theorem get?_eq_find? (m : Matcher α) (id : String) :
    m.get? id = m.devices.find? fun d => d.deviceId = id := by
  unfold get?
  cases hposition : m.position? id with
  | none =>
    have habsent := position?_eq_none_iff.mp hposition
    symm
    simpa using habsent
  | some i =>
    symm
    rw [Option.map_some, List.find?_eq_some_iff_getElem]
    refine ⟨by simpa using position?_eq_some_iff.mp hposition, i, i.isLt, rfl, fun j hj => ?_⟩
    rw [Bool.not_eq_true', decide_eq_false_iff_not, deviceId_getElem_iff hposition]
    exact Nat.ne_of_lt hj

theorem get?_eq_some {d : Capability α} (h : m.get? k = some d) : d.deviceId = k := by
  rw [get?_eq_find?] at h
  simpa using List.find?_some h

theorem get?_of_mem {d : Capability α} (h : d ∈ m.devices) : m.get? d.deviceId = some d := by
  obtain ⟨i, hi, rfl⟩ := List.mem_iff_getElem.mp h
  have hposition : m.position? (m.devices[i]).deviceId = some ⟨i, hi⟩ :=
    position?_eq_some_iff.mpr rfl
  rw [get?, hposition]
  rfl

theorem contains_eq_isSome (m : Matcher α) (k : String) : m.contains k = (m.get? k).isSome := by
  rw [contains, get?, Option.isSome_map]

theorem contains_eq_true_iff : m.contains k = true ↔ k ∈ m.devices.map (·.deviceId) := by
  rw [contains, Option.isSome_iff_ne_none, Ne, position?_eq_none_iff, not_not]

/-! ## Changes -/

/-- A place of the list is changed, and the index stays as it is. -/
theorem modify_eq {f : Capability α → Capability α}
    (hf : ∀ d, d.deviceId = id → (f d).deviceId = id) {i : Fin m.devices.length}
    (hi : m.position? id = some i) :
    (m.modify id f hf).devices = m.devices.set i (f (m.devices.get i)) := by
  unfold modify
  split
  · next hnone => cases hi.symm.trans hnone
  · next j hj =>
    cases hi.symm.trans hj
    rfl

theorem modify_of_absent {f : Capability α → Capability α}
    (hf : ∀ d, d.deviceId = id → (f d).deviceId = id) (h : m.position? id = none) :
    m.modify id f hf = m := by
  unfold modify
  split
  · rfl
  · next j hj => cases h.symm.trans hj

theorem devices_modify {f : Capability α → Capability α}
    (hf : ∀ d, d.deviceId = id → (f d).deviceId = id) (m : Matcher α) :
    (m.modify id f hf).devices = m.devices.map fun d => if d.deviceId = id then f d else d := by
  cases hposition : m.position? id with
  | none =>
    have habsent := position?_eq_none_iff.mp hposition
    rw [modify_of_absent hf hposition]
    conv_lhs => rw [← List.map_id m.devices]
    refine List.map_congr_left fun d hd => ?_
    rw [if_neg fun hid : d.deviceId = id => habsent (hid ▸ List.mem_map_of_mem hd)]
    rfl
  | some i =>
    rw [modify_eq hf hposition]
    refine List.ext_getElem (by simp) fun j hj hj' => ?_
    rw [List.length_set] at hj
    simp only [List.getElem_set, List.getElem_map, deviceId_getElem_iff hposition hj]
    by_cases hij : j = i
    · subst hij
      rw [if_pos rfl, if_pos rfl]
      rfl
    · rw [if_neg (Ne.symm hij), if_neg hij]

theorem map_deviceId_modify {f : Capability α → Capability α}
    (hf : ∀ d, d.deviceId = id → (f d).deviceId = id) (m : Matcher α) :
    (m.modify id f hf).devices.map (·.deviceId) = m.devices.map (·.deviceId) := by
  rw [devices_modify, List.map_map]
  refine List.map_congr_left fun d _ => ?_
  simp only [Function.comp_apply]
  split
  · next hid => rw [hf d hid, hid]
  · rfl

theorem modify_id (m : Matcher α) (id : String) : m.modify id (fun d => d) (fun _ h => h) = m := by
  cases hposition : m.position? id with
  | none => exact modify_of_absent _ hposition
  | some i =>
    unfold modify
    split
    · rfl
    · simp [put]

theorem get?_modify {f : Capability α → Capability α}
    (hf : ∀ d, d.deviceId = id → (f d).deviceId = id) (m : Matcher α) (k : String) :
    (m.modify id f hf).get? k = (m.get? k).map fun d => if d.deviceId = id then f d else d := by
  rw [get?_eq_find?, get?_eq_find?, devices_modify, List.find?_map]
  congr 2
  funext d
  by_cases hd : d.deviceId = id <;> simp [hd, hf d]

theorem get?_modify_eq_ite {f : Capability α → Capability α}
    (hf : ∀ d, d.deviceId = id → (f d).deviceId = id) (m : Matcher α) (k : String) :
    (m.modify id f hf).get? k = if k = id then (m.get? k).map f else m.get? k := by
  rw [get?_modify]
  cases hk : m.get? k with
  | none => simp
  | some d =>
    simp only [Option.map_some, get?_eq_some hk]
    split <;> rfl

/-- A device that is there is replaced in its place. -/
theorem register_of_contains {c : Capability α} (hc : c.deviceId = id)
    (h : m.contains id = true) : m.register c = m.modify id (fun _ => c) fun _ _ => hc := by
  subst hc
  obtain ⟨i, hi⟩ := Option.isSome_iff_exists.mp h
  unfold register modify
  split
  · next j hj =>
    split
    · next hnone => cases hj.symm.trans hnone
    · next j' hj' =>
      cases hj.symm.trans hj'
      rfl
  · next hnone => cases hi.symm.trans hnone

/-- A new device stands behind all others. -/
theorem devices_register_of_contains {c : Capability α} (hc : c.deviceId = id)
    (h : m.contains id = true) :
    (m.register c).devices = m.devices.map fun d => if d.deviceId = id then c else d := by
  rw [register_of_contains hc h, devices_modify]

theorem devices_register_of_absent {c : Capability α} (h : m.contains c.deviceId = false) :
    (m.register c).devices = m.devices ++ [c] := by
  unfold register
  split
  · next i hi =>
    rw [contains, hi] at h
    cases h
  · rfl

theorem get?_register (m : Matcher α) (c : Capability α) (k : String) :
    (m.register c).get? k = if k = c.deviceId then some c else m.get? k := by
  cases hfound : m.get? c.deviceId with
  | some old =>
    have hcontains : m.contains c.deviceId = true := by rw [contains_eq_isSome, hfound]; rfl
    rw [register_of_contains rfl hcontains, get?_modify_eq_ite]
    split
    · next heq => simp [heq, hfound]
    · rfl
  | none =>
    have habsent : m.contains c.deviceId = false := by rw [contains_eq_isSome, hfound]; rfl
    rw [get?_eq_find?, devices_register_of_absent habsent, List.find?_append, ← get?_eq_find?]
    split
    · next heq =>
      subst heq
      simp [hfound]
    · next hne => simp [Ne.symm hne]

theorem remove_of_absent (h : id ∉ m.devices.map (·.deviceId)) : m.remove id = m := by
  have hposition := position?_eq_none_iff.mpr h
  unfold remove
  split
  · rfl
  · next i hi => cases hposition.symm.trans hi

theorem devices_remove (m : Matcher α) (id : String) :
    (m.remove id).devices = m.devices.filter fun d => d.deviceId ≠ id := by
  by_cases hid : id ∈ m.devices.map (·.deviceId)
  · obtain ⟨i, hi⟩ := Option.ne_none_iff_exists'.mp fun hnone => position?_eq_none_iff.mp hnone hid
    have herase : (m.remove id).devices = m.devices.eraseIdx i := by
      unfold remove
      split
      · next hnone => cases hi.symm.trans hnone
      · next j hj =>
        cases hi.symm.trans hj
        rfl
    have hat := position?_eq_some_iff.mp hi
    -- a part of the list without that place is not touched by the filter
    have hkept : ∀ part : List (Capability α),
        (∀ d ∈ part, ∃ j, ∃ hj : j < m.devices.length, j ≠ i ∧ m.devices[j] = d) →
          part.filter (fun d => d.deviceId ≠ id) = part := by
      intro part hpart
      refine List.filter_eq_self.mpr fun d hd => decide_eq_true fun hsame => ?_
      obtain ⟨j, hj, hne, rfl⟩ := hpart d hd
      exact hne ((deviceId_getElem_iff hi hj).mp hsame)
    rw [herase, List.eraseIdx_eq_take_drop_succ]
    conv_rhs => rw [← List.take_append_drop i.val m.devices, List.drop_eq_getElem_cons i.isLt]
    rw [List.filter_append, List.filter_cons_of_neg (by simpa using hat), hkept, hkept]
    · intro d hd
      obtain ⟨j, hj, rfl⟩ := List.mem_drop_iff_getElem.mp hd
      exact ⟨_, _, by omega, rfl⟩
    · intro d hd
      obtain ⟨j, hj, rfl⟩ := List.mem_take_iff_getElem.mp hd
      exact ⟨j, by omega, by omega, rfl⟩
  · rw [remove_of_absent hid]
    symm
    refine List.filter_eq_self.mpr fun d hd => decide_eq_true fun hsame => hid ?_
    exact hsame ▸ List.mem_map_of_mem hd

theorem get?_remove (m : Matcher α) (id k : String) :
    (m.remove id).get? k = if k = id then none else m.get? k := by
  rw [get?_eq_find?, get?_eq_find?, devices_remove, List.find?_filter]
  split
  · next heq =>
    subst heq
    simp
  · next hne =>
    congr 1
    funext d
    by_cases hd : d.deviceId = k <;> simp [hd, hne]

end Lookup

/-! ## Every sequence of changes -/

/-- What can be asked of the devices of a matcher. -/
inductive Change (α : Type) where
  | register (c : Capability α)
  | remove (id : String)
  | setLoad (id : String) (load : α)
  | setAvailable (id : String) (gb : α)

/-- The ids that are registered after a change, in the order in which they came: a new one comes
last, and one that goes leaves the others in their order. -/
def Change.ids (ids : List String) : Change α → List String
  | register c => if c.deviceId ∈ ids then ids else ids ++ [c.deviceId]
  | remove id => ids.filter (· ≠ id)
  | setLoad .. | setAvailable .. => ids

variable [Scalar α]

/-- The record under an id after a change, from the record before it. Memory that cannot be set,
because the total is below zero, stays as it was. -/
def Change.record (id : String) (record : Option (Capability α)) :
    Change α → Option (Capability α)
  | register c => if id = c.deviceId then some c else record
  | remove k => if id = k then none else record
  | setLoad k load =>
    if id = k then record.map fun d => { d with load := max load 0.0 } else record
  | setAvailable k gb =>
    if id = k then
      record.map fun d =>
        { d with availableGb := (Scalar.clamp? gb 0.0 d.memoryGb).getD d.availableGb }
    else record

/-- The matcher after a change that was tried. -/
def after (m : Matcher α) : Change α → Matcher α
  | .register c => m.register c
  | .remove id => m.remove id
  | .setLoad id load => (m.setLoad id load).toOption.getD m
  | .setAvailable id gb => (m.setAvailable id gb).toOption.getD m

/-- The matcher after changes that were tried one after the other, from no devices on. -/
def run (config : MatcherConfig α) (changes : List (Change α)) : Matcher α :=
  changes.foldl after (empty config)

/-- Setting the load of a device changes its record, if there is one. -/
theorem after_setLoad (m : Matcher α) (id : String) (load : α) :
    m.after (.setLoad id load) =
      m.modify id (fun d => { d with load := max load 0.0 }) fun _ h => h := by
  simp only [after, setLoad]
  split
  · rfl
  · next habsent =>
    rw [modify_of_absent _ (Option.not_isSome_iff_eq_none.mp habsent)]
    rfl

/-- Setting the memory of a device changes its record, if there is one and its total allows it. -/
theorem after_setAvailable (m : Matcher α) (id : String) (gb : α) :
    m.after (.setAvailable id gb) = m ∧
        (∀ d, m.get? id = some d → Scalar.clamp? gb 0.0 d.memoryGb = none) ∨
      ∃ d available, m.get? id = some d ∧ Scalar.clamp? gb 0.0 d.memoryGb = some available ∧
        m.after (.setAvailable id gb) =
          m.modify id (fun d => { d with availableGb := available }) fun _ h => h := by
  simp only [after, setAvailable]
  cases hd : m.get? id with
  | none => exact .inl ⟨rfl, by simp⟩
  | some d =>
    cases hclamp : Scalar.clamp? gb 0.0 d.memoryGb with
    | none =>
      simp only [hclamp]
      exact .inl ⟨rfl, by simpa using hclamp⟩
    | some available =>
      simp only [hclamp]
      exact .inr ⟨d, available, rfl, hclamp, rfl⟩

theorem deviceIds_after (m : Matcher α) (change : Change α) :
    (m.after change).devices.map (·.deviceId) = change.ids (m.devices.map (·.deviceId)) := by
  cases change with
  | register c =>
    by_cases hc : m.contains c.deviceId = true
    · rw [after, register_of_contains rfl hc, map_deviceId_modify, Change.ids,
        if_pos (contains_eq_true_iff.mp hc)]
    · rw [after, devices_register_of_absent (Bool.not_eq_true _ ▸ hc), List.map_append, Change.ids,
        if_neg fun hmem => hc (contains_eq_true_iff.mpr hmem)]
      rfl
  | remove id =>
    rw [after, devices_remove, Change.ids, List.filter_map]
    rfl
  | setLoad id load => rw [after_setLoad, map_deviceId_modify, Change.ids]
  | setAvailable id gb =>
    rcases after_setAvailable m id gb with ⟨hafter, -⟩ | ⟨_, _, -, -, hafter⟩
    · rw [hafter, Change.ids]
    · rw [hafter, map_deviceId_modify, Change.ids]

theorem get?_after (m : Matcher α) (change : Change α) (id : String) :
    (m.after change).get? id = change.record id (m.get? id) := by
  cases change with
  | register c => exact get?_register m c id
  | remove k => exact get?_remove m k id
  | setLoad k load => rw [after_setLoad, get?_modify_eq_ite, Change.record]
  | setAvailable k gb =>
    rw [Change.record]
    rcases after_setAvailable m k gb with ⟨hafter, hrefused⟩ | ⟨d, available, hd, hclamp, hafter⟩
    · rw [hafter]
      split
      · next heq =>
        subst heq
        cases hd : m.get? id with
        | none => rfl
        | some d => simp [hrefused d hd]
      · rfl
    · rw [hafter, get?_modify_eq_ite]
      split
      · next heq =>
        subst heq
        simp [hd, hclamp]
      · rfl

theorem deviceIds_run (config : MatcherConfig α) (changes : List (Change α)) :
    (run config changes).devices.map (·.deviceId) = changes.foldl Change.ids [] := by
  refine (List.foldl_hom (fun m : Matcher α => m.devices.map (·.deviceId)) ?_).symm
  exact fun m change => (deviceIds_after m change).symm

theorem get?_run (config : MatcherConfig α) (changes : List (Change α)) (id : String) :
    (run config changes).get? id = changes.foldl (Change.record id) none := by
  refine (List.foldl_hom (fun m : Matcher α => m.get? id) ?_).symm
  exact fun m change => (get?_after m change id).symm

/-- A matcher is the map from ids to records, ordered by the arrival of the ids, that a sequence of
changes makes. -/
structure Remembers (changes : List (Change α)) (m : Matcher α) : Prop where
  /-- The devices stand in the order in which their ids came. -/
  order : m.devices.map (·.deviceId) = changes.foldl Change.ids []
  /-- No id stands twice. -/
  distinct : (m.devices.map (·.deviceId)).Nodup
  /-- The index leads from an id to the place of its arrival, and from other ids nowhere. -/
  indexed : ∀ id i, m.index.get? id = some i ↔ (changes.foldl Change.ids [])[i]? = some id
  /-- Every position that the index can lead to is inside the list, and the record with the id
  stands there. -/
  inside : ∀ id i, m.index.get? id = some i →
    ∃ h : i < m.devices.length, m.devices[i].deviceId = id ∧ m.get? id = some m.devices[i]
  /-- The record of an id is the one last written, and there is none for an id that was removed or
  never came. -/
  record : ∀ id, m.get? id = changes.foldl (Change.record id) none
  /-- A device that comes again takes the place it had. -/
  replaced : ∀ c i, m.index.get? c.deviceId = some i →
    (m.register c).devices = m.devices.set i c ∧ (m.register c).index = m.index
  /-- A device that is new comes last. -/
  appended : ∀ c, m.index.get? c.deviceId = none → (m.register c).devices = m.devices ++ [c]
  /-- The devices that are left after a removal keep their order. -/
  removed : ∀ id, (m.remove id).devices = m.devices.filter fun d => d.deviceId ≠ id

/-- After any sequence of changes, with any ids, a matcher is the ordered map that they make. -/
theorem remembers_run (config : MatcherConfig α) (changes : List (Change α)) :
    (run config changes).Remembers changes := by
  have horder := deviceIds_run config changes
  have hrecord := get?_run config changes
  generalize run config changes = m at horder hrecord
  have hposition : ∀ id i, m.index.get? id = some i →
      ∃ h : i < m.devices.length, m.position? id = some ⟨i, h⟩ := by
    intro id i hi
    rw [← val_position?] at hi
    obtain ⟨position, hposition, rfl⟩ := Option.map_eq_some_iff.mp hi
    exact ⟨position.isLt, hposition⟩
  constructor
  case order => exact horder
  case distinct => exact m.nodup_deviceIds
  case indexed =>
    intro id i
    rw [← horder]
    exact m.located id i
  case inside =>
    intro id i hi
    obtain ⟨h, hposition⟩ := hposition id i hi
    refine ⟨h, position?_eq_some_iff.mp hposition, ?_⟩
    rw [get?, hposition]
    rfl
  case record => exact hrecord
  case replaced =>
    intro c i hi
    obtain ⟨h, hposition⟩ := hposition c.deviceId i hi
    unfold register
    split
    · next j hj =>
      cases hposition.symm.trans hj
      exact ⟨rfl, rfl⟩
    · next hnone => cases hposition.symm.trans hnone
  case appended =>
    intro c hc
    refine devices_register_of_absent ?_
    rw [contains, ← Option.isSome_map (f := Fin.val), val_position?, hc]
    rfl
  case removed => exact m.devices_remove

end LayerPipeline.Matcher
