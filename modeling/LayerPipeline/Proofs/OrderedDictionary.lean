import LayerPipeline.OrderedDictionary
import Mathlib.Data.List.Nodup

/-!
# The entries of an ordered dictionary

Listed in order, the entries of a dictionary change one by one: a name that is new comes last, a
value that is replaced or changed stays in its place, and a name that is taken out is left out.
-/

namespace LayerPipeline

/-- Dictionaries that find the same are the same. -/
theorem Dictionary.ext_get? {β : Type} {d d' : Dictionary β} (h : ∀ k, d.get? k = d'.get? k) :
    d = d' := by
  have hperm : d.entries.Perm d'.entries := by
    refine (List.perm_ext_iff_of_nodup (d.nodup_keys.of_map _) (d'.nodup_keys.of_map _)).mpr ?_
    rintro ⟨k, v⟩
    rw [mem_entries_iff, mem_entries_iff, h]
  have hentries : d.entries = d'.entries :=
    hperm.eq_of_pairwise (fun _ _ _ _ hab hba => absurd hba (String.lt_asymm hab)) d.sorted d'.sorted
  cases d
  cases d'
  simpa using hentries

namespace OrderedDictionary

variable {β : Type}

@[simp] theorem items_empty : (empty : OrderedDictionary β).items = [] := rfl

theorem mem_items_iff {d : OrderedDictionary β} {e : String × β} :
    e ∈ d.items ↔ d.get? e.1 = some e.2 := by
  simp only [items, List.mem_filterMap, Option.map_eq_some_iff]
  constructor
  · rintro ⟨name, -, value, hget, rfl⟩
    exact hget
  · intro hget
    exact ⟨e.1, mem_order_iff.mpr (hget ▸ rfl), e.2, hget, rfl⟩

theorem map_fst_items (d : OrderedDictionary β) : d.items.map (·.1) = d.order := by
  have hall : ∀ name ∈ d.order,
      ((d.get? name).map fun value => (name, value)).map (·.1) = some name := by
    intro name hname
    obtain ⟨value, hvalue⟩ := Option.isSome_iff_exists.mp (mem_order_iff.mp hname)
    rw [hvalue]
    rfl
  rw [items, List.map_filterMap, List.filterMap_congr hall, List.filterMap_some]

theorem lookup_items (d : OrderedDictionary β) (name : String) :
    d.items.lookup name = d.get? name := by
  cases hget : d.get? name with
  | some value =>
    have hnodup : (d.items.map (·.1)).Nodup := d.map_fst_items ▸ d.distinct
    exact lookup_of_mem hnodup (mem_items_iff (e := (name, value)).mpr hget)
  | none =>
    refine List.lookup_eq_none_iff.mpr fun e he => ?_
    rw [bne_iff_ne]
    rintro rfl
    cases hget.symm.trans (mem_items_iff.mp he)

/-- Dictionaries with the same entries in the same order are the same. -/
theorem ext_items {d d' : OrderedDictionary β} (h : d.items = d'.items) : d = d' := by
  have horder : d.order = d'.order := by rw [← map_fst_items, h, map_fst_items]
  have hentries : d.entries = d'.entries := by
    refine Dictionary.ext_get? fun k => ?_
    change d.get? k = d'.get? k
    rw [← lookup_items, h, lookup_items]
  cases d
  cases d'
  simp_all

theorem items_map {γ : Type} (d : OrderedDictionary β) (f : β → γ) :
    (d.map f).items = d.items.map fun e => (e.1, f e.2) := by
  rw [items, items, List.map_filterMap]
  refine List.filterMap_congr fun k _ => ?_
  rw [get?_map]
  cases d.get? k <;> rfl

theorem items_modify (d : OrderedDictionary β) (name : String) (f : β → β) :
    (d.modify name f).items = d.items.map fun e => if e.1 = name then (e.1, f e.2) else e := by
  rw [items, order_modify, items, List.map_filterMap]
  refine List.filterMap_congr fun k _ => ?_
  rw [get?_modify]
  split
  · next hk => cases d.get? k <;> simp [hk]
  · next hk => cases d.get? k <;> simp [hk]

theorem modify_of_none {d : OrderedDictionary β} {name : String} (h : d.get? name = none)
    (f : β → β) : d.modify name f = d := by
  unfold modify
  split
  · rfl
  · next hsome => cases h.symm.trans hsome

/-- A value that is replaced is a value that is changed. -/
theorem insert_of_some {d : OrderedDictionary β} {name : String} (h : (d.get? name).isSome)
    (value : β) : d.insert name value = d.modify name fun _ => value := by
  unfold insert modify
  rw [dif_pos h]
  split
  · next hnone => simp [hnone] at h
  · rfl

theorem items_insert_of_none {d : OrderedDictionary β} {name : String} (h : d.get? name = none)
    (value : β) : (d.insert name value).items = d.items ++ [(name, value)] := by
  have hnone : ¬(d.get? name).isSome := by simp [h]
  rw [items, order_insert, if_neg hnone, List.filterMap_append]
  congr 1
  · refine List.filterMap_congr fun k hk => ?_
    have hne : k ≠ name := by
      rintro rfl
      exact hnone (mem_order_iff.mp hk)
    rw [get?_insert, if_neg hne]
  · simp

theorem items_erase (d : OrderedDictionary β) (name : String) :
    (d.erase name).items = d.items.filter fun e => e.1 ≠ name := by
  have horder : (d.erase name).order = d.order.filter (· ≠ name) := rfl
  rw [items, horder, List.filterMap_filter, items, List.filter_filterMap]
  refine List.filterMap_congr fun k _ => ?_
  rw [get?_erase]
  by_cases hk : k = name
  · cases d.get? k <;> simp [hk, Option.filter]
  · cases d.get? k <;> simp [hk, Option.filter]

end OrderedDictionary

end LayerPipeline
