import LayerPipeline.Proofs.OrderedDictionary
import LayerPipeline.Service.Registry

/-!
# Entries of the roster

What is found under an id, and the entries in the order of registration, after each operation. Every
entry stands under the id of its own descriptor, so the list tells as much as the dictionary.
-/

namespace LayerPipeline

namespace Registry

open OrderedDictionary

variable {α : Type} {r r' : Registry α} {id : String}

/-- The ids of the nodes, in the order of their registration. -/
def ids (r : Registry α) : List String := r.nodes.map fun n => n.descriptor.nodeId

theorem nodeId_of_mem_items {e : String × RegisteredNode α} (he : e ∈ r.roster.items) :
    e.2.descriptor.nodeId = e.1 :=
  r.keyed e.1 e.2 (mem_items_iff.mp he)

theorem ids_eq_order (r : Registry α) : r.ids = r.roster.order := by
  rw [ids, nodes, values, List.map_map, ← map_fst_items]
  exact List.map_congr_left fun e he => nodeId_of_mem_items he

theorem isSome_get?_iff : (r.get? id).isSome ↔ id ∈ r.ids := by
  rw [ids_eq_order]
  exact mem_order_iff.symm

theorem contains_eq_true_iff : r.contains id = true ↔ id ∈ r.ids := isSome_get?_iff

theorem get?_eq_none_iff : r.get? id = none ↔ id ∉ r.ids := by
  rw [← isSome_get?_iff, Option.not_isSome_iff_eq_none]

theorem get?_eq_some {entry : RegisteredNode α} (h : r.get? id = some entry) :
    entry ∈ r.nodes ∧ entry.descriptor.nodeId = id :=
  ⟨List.mem_map.mpr ⟨(id, entry), mem_items_iff.mpr h, rfl⟩, r.keyed id entry h⟩

theorem mem_nodes_iff {n : RegisteredNode α} :
    n ∈ r.nodes ↔ r.get? n.descriptor.nodeId = some n := by
  constructor
  · intro hn
    obtain ⟨e, he, rfl⟩ := List.mem_map.mp hn
    rw [nodeId_of_mem_items he]
    exact mem_items_iff.mp he
  · exact fun h => (get?_eq_some h).1

/-- The list tells what the dictionary does. -/
theorem get?_eq_find? (r : Registry α) (id : String) :
    r.get? id = r.nodes.find? fun n => n.descriptor.nodeId = id := by
  cases hfound : r.nodes.find? fun n => n.descriptor.nodeId = id with
  | none =>
    rw [get?_eq_none_iff]
    intro hid
    obtain ⟨n, hn, hnid⟩ := List.mem_map.mp hid
    exact List.find?_eq_none.mp hfound n hn (decide_eq_true hnid)
  | some n =>
    have hid : n.descriptor.nodeId = id := by simpa using List.find?_some hfound
    rw [← hid]
    exact mem_nodes_iff.mp (List.mem_of_find?_eq_some hfound)

@[simp] theorem nodes_empty (config : MatcherConfig α) : (empty config).nodes = [] := rfl

/-! ## One entry changed -/

theorem get?_of_modify {f : RegisteredNode α → RegisteredNode α}
    (h : r'.roster = r.roster.modify id f) (k : String) :
    r'.get? k = if k = id then (r.get? id).map f else r.get? k := by
  rw [get?, h, OrderedDictionary.get?_modify]
  split
  · next hk => rw [hk]; rfl
  · rfl

theorem get?_of_modify_of_ne {f : RegisteredNode α → RegisteredNode α}
    (h : r'.roster = r.roster.modify id f) {k : String} (hk : k ≠ id) : r'.get? k = r.get? k := by
  rw [get?_of_modify h, if_neg hk]

section Modify

variable {f : RegisteredNode α → RegisteredNode α}
  (hf : ∀ n, n.descriptor.nodeId = id → (f n).descriptor.nodeId = id)

theorem get?_modify (r : Registry α) (k : String) :
    (r.modify id f hf).get? k = if k = id then (r.get? id).map f else r.get? k :=
  get?_of_modify rfl k

@[simp] theorem matcher_modify (r : Registry α) : (r.modify id f hf).matcher = r.matcher := rfl

theorem nodes_modify (r : Registry α) :
    (r.modify id f hf).nodes =
      r.nodes.map fun n => if n.descriptor.nodeId = id then f n else n := by
  rw [nodes, modify, values, items_modify, nodes, values, List.map_map, List.map_map]
  refine List.map_congr_left fun e he => ?_
  simp only [Function.comp_apply, nodeId_of_mem_items he]
  split <;> rfl

/-- The same of a roster of which only the entries are known. -/
theorem nodes_eq_map_of_modify (h : r'.roster = r.roster.modify id f)
    (hf : ∀ n, (f n).descriptor = n.descriptor) :
    r'.nodes = r.nodes.map fun n => if n.descriptor.nodeId = id then f n else n := by
  rw [nodes, h]
  exact nodes_modify (fun n hn => (hf n).symm ▸ hn) r

theorem ids_modify (r : Registry α) : (r.modify id f hf).ids = r.ids := by
  rw [ids_eq_order, ids_eq_order]
  exact order_modify r.roster id f

theorem modify_of_absent (h : id ∉ r.ids) : r.modify id f hf = r := by
  have hroster : r.roster.modify id f = r.roster := modify_of_none (get?_eq_none_iff.mpr h) f
  simp only [modify, hroster]

end Modify

theorem get?_markUnhealthy_of_ne {k : String} (hk : k ≠ id) (r : Registry α) (reason : String) :
    (r.markUnhealthy id reason).get? k = r.get? k :=
  get?_of_modify_of_ne rfl hk

/-! ## Entries that come and go -/

theorem remove_of_absent (h : id ∉ r.ids) : r.remove id = r :=
  if_neg fun hcontains => h (contains_eq_true_iff.mp hcontains)

theorem nodes_remove (r : Registry α) (id : String) :
    (r.remove id).nodes = r.nodes.filter fun n => n.descriptor.nodeId ≠ id := by
  unfold remove
  split
  · rw [nodes, values, items_erase, nodes, values, List.filter_map]
    refine congrArg _ (List.filter_congr fun e he => ?_)
    simp only [Function.comp_apply, nodeId_of_mem_items he]
  · next hcontains =>
    refine (List.filter_eq_self.mpr fun n hn => ?_).symm
    rw [decide_eq_true_iff]
    rintro rfl
    exact hcontains (contains_eq_true_iff.mpr (List.mem_map_of_mem hn))

section Scalar

variable [Scalar α] {d : Descriptor α}

theorem register_eq_ok (h : r.register d = .ok r') :
    r'.matcher = r.matcher.register (RegisteredNode.fresh d).toNode.toCapability ∧
      r'.roster = r.roster.insert d.nodeId (.fresh d) := by
  unfold register at h
  split at h
  · cases h
  · cases h
    exact ⟨rfl, rfl⟩

/-- A registration appends an entry, or puts it in the place of the one with the same id. -/
theorem nodes_register (h : r.register d = .ok r') :
    d.nodeId ∈ r.ids ∧
        r'.nodes = r.nodes.map (fun n => if n.descriptor.nodeId = d.nodeId then .fresh d else n) ∨
      d.nodeId ∉ r.ids ∧ r'.nodes = r.nodes ++ [.fresh d] := by
  have hroster := (register_eq_ok h).2
  by_cases hid : d.nodeId ∈ r.ids
  · have hid' : ∀ n : RegisteredNode α, n.descriptor.nodeId = d.nodeId →
        (RegisteredNode.fresh d).descriptor.nodeId = d.nodeId := fun _ _ => rfl
    refine .inl ⟨hid, ?_⟩
    rw [← nodes_modify hid', nodes, hroster, insert_of_some (isSome_get?_iff.mpr hid)]
    rfl
  · refine .inr ⟨hid, ?_⟩
    rw [nodes, hroster, values, items_insert_of_none (get?_eq_none_iff.mpr hid), List.map_append]
    rfl

theorem get?_register (h : r.register d = .ok r') (k : String) :
    r'.get? k = if k = d.nodeId then some (.fresh d) else r.get? k := by
  rw [get?, (register_eq_ok h).2, OrderedDictionary.get?_insert]
  rfl

theorem get?_register_of_ne (h : r.register d = .ok r') {k : String} (hk : k ≠ d.nodeId) :
    r'.get? k = r.get? k := by
  rw [get?_register h, if_neg hk]

end Scalar

end Registry

end LayerPipeline
