/-!
# Dictionaries

Finite maps from names, held as a list in strictly increasing order of the names, so equal maps are
equal values.
-/

namespace LayerPipeline

/-- Inserts a pair into a list ordered by name, replacing the pair of the same name. -/
def insertByName {β : Type} (name : String) (value : β) :
    List (String × β) → List (String × β)
  | [] => [(name, value)]
  | (k, v) :: rest =>
    if name < k then (name, value) :: (k, v) :: rest
    else if name = k then (name, value) :: rest
    else (k, v) :: insertByName name value rest

theorem insertByName_keys {β : Type} (name : String) (value : β) (entries : List (String × β)) :
    ∀ p ∈ insertByName name value entries, p.1 = name ∨ ∃ q ∈ entries, q.1 = p.1 := by
  induction entries with
  | nil => simp [insertByName]
  | cons e rest ih =>
    intro p hp
    simp only [insertByName] at hp
    split at hp
    · rcases List.mem_cons.mp hp with rfl | hp
      · exact Or.inl rfl
      · exact Or.inr ⟨p, hp, rfl⟩
    · split at hp
      · rcases List.mem_cons.mp hp with rfl | hp
        · exact Or.inl rfl
        · exact Or.inr ⟨p, List.mem_cons_of_mem _ hp, rfl⟩
      · rcases List.mem_cons.mp hp with rfl | hp
        · exact Or.inr ⟨e, List.mem_cons_self, rfl⟩
        · rcases ih p hp with h | ⟨q, hq, h⟩
          · exact Or.inl h
          · exact Or.inr ⟨q, List.mem_cons_of_mem _ hq, h⟩

theorem insertByName_sorted {β : Type} (name : String) (value : β) (entries : List (String × β))
    (h : entries.Pairwise fun a b => a.1 < b.1) :
    (insertByName name value entries).Pairwise fun a b => a.1 < b.1 := by
  induction entries with
  | nil => simp [insertByName]
  | cons e rest ih =>
    obtain ⟨hhead, htail⟩ := List.pairwise_cons.mp h
    simp only [insertByName]
    split
    · next hlt =>
      refine List.pairwise_cons.mpr ⟨fun p hp => ?_, h⟩
      rcases List.mem_cons.mp hp with rfl | hp
      · exact hlt
      · exact String.lt_trans hlt (hhead p hp)
    · next hnlt =>
      split
      · next heq =>
        subst heq
        exact List.pairwise_cons.mpr ⟨hhead, htail⟩
      · next hne =>
        refine List.pairwise_cons.mpr ⟨fun p hp => ?_, ih htail⟩
        rcases insertByName_keys name value rest p hp with hp | ⟨q, hq, hp⟩
        · rw [hp]
          apply Classical.byContradiction
          intro hle
          exact hne (String.le_antisymm (String.not_lt.mp hle) (String.not_lt.mp hnlt))
        · rw [← hp]
          exact hhead q hq

theorem lookup_cons_eq_ite {β : Type} (e : String × β) (rest : List (String × β)) (k : String) :
    (e :: rest).lookup k = if k = e.1 then some e.2 else rest.lookup k := by
  rw [List.lookup_cons]
  by_cases hk : k = e.1
  · rw [if_pos hk, beq_iff_eq.mpr hk]
  · rw [if_neg hk, beq_eq_false_iff_ne.mpr hk]

/-- Where no name occurs twice, every pair is found under its name. -/
theorem lookup_of_mem {β : Type} {entries : List (String × β)}
    (hnodup : (entries.map (·.1)).Nodup) {e : String × β} (hmem : e ∈ entries) :
    entries.lookup e.1 = some e.2 := by
  induction entries with
  | nil => simp at hmem
  | cons first rest ih =>
    rw [List.map_cons, List.nodup_cons] at hnodup
    rw [lookup_cons_eq_ite]
    rcases List.mem_cons.mp hmem with rfl | hlater
    · exact if_pos rfl
    · have hother : e.1 ≠ first.1 := fun heq => hnodup.1 (heq ▸ List.mem_map_of_mem hlater)
      rw [if_neg hother, ih hnodup.2 hlater]

theorem lookup_insertByName {β : Type} (name : String) (value : β) (entries : List (String × β))
    (k : String) :
    (insertByName name value entries).lookup k =
      if k = name then some value else entries.lookup k := by
  induction entries with
  | nil => exact lookup_cons_eq_ite (name, value) [] k
  | cons e rest ih =>
    simp only [insertByName]
    split
    · exact lookup_cons_eq_ite (name, value) (e :: rest) k
    · split
      · next heq =>
        rw [lookup_cons_eq_ite, lookup_cons_eq_ite, heq]
        split <;> rfl
      · next hne =>
        rw [lookup_cons_eq_ite, lookup_cons_eq_ite, ih]
        by_cases hk : k = name
        · simp [hk, hne]
        · simp [hk]

/-- A finite map from names to `β`. -/
structure Dictionary (β : Type) where
  /-- The pairs in increasing order of the names. -/
  entries : List (String × β)
  /-- No name occurs twice, and the names increase. -/
  sorted : entries.Pairwise fun a b => a.1 < b.1
deriving DecidableEq

namespace Dictionary

variable {β : Type}

/-- The dictionary without entries. -/
def empty : Dictionary β := ⟨[], .nil⟩

instance : Inhabited (Dictionary β) := ⟨empty⟩

/-- The dictionary with one entry set. -/
def insert (d : Dictionary β) (name : String) (value : β) : Dictionary β :=
  ⟨insertByName name value d.entries, insertByName_sorted name value d.entries d.sorted⟩

/-- The value under a name. -/
def get? (d : Dictionary β) (name : String) : Option β :=
  d.entries.lookup name

/-- The dictionary without the entry under a name. -/
def erase (d : Dictionary β) (name : String) : Dictionary β :=
  ⟨d.entries.filter fun e => e.1 ≠ name, d.sorted.filter _⟩

theorem nodup_keys (d : Dictionary β) : (d.entries.map (·.1)).Nodup := by
  rw [List.Nodup, List.pairwise_map]
  refine d.sorted.imp fun {a b} hlt heq => ?_
  exact String.lt_irrefl b.1 (heq ▸ hlt)

theorem mem_entries_iff (d : Dictionary β) (k : String) (v : β) :
    (k, v) ∈ d.entries ↔ d.get? k = some v := by
  refine ⟨fun hmem => lookup_of_mem d.nodup_keys hmem, fun hget => ?_⟩
  obtain ⟨before, after, hsplit, -⟩ := List.lookup_eq_some_iff.mp hget
  simp [hsplit]

theorem mem_keys_iff (d : Dictionary β) (k : String) :
    k ∈ d.entries.map (·.1) ↔ ∃ v, d.get? k = some v := by
  simp [← mem_entries_iff]

/-- The dictionary with every value changed. -/
def map {γ : Type} (d : Dictionary β) (f : β → γ) : Dictionary γ :=
  ⟨d.entries.map fun e => (e.1, f e.2), List.pairwise_map.mpr d.sorted⟩

@[simp] theorem get?_empty (k : String) : (empty : Dictionary β).get? k = none := rfl

@[simp] theorem get?_map {γ : Type} (d : Dictionary β) (f : β → γ) (k : String) :
    (d.map f).get? k = (d.get? k).map f := by
  simp only [get?, map]
  induction d.entries with
  | nil => rfl
  | cons e rest ih =>
    rw [List.map_cons, lookup_cons_eq_ite, lookup_cons_eq_ite, ih]
    split <;> rfl

@[simp] theorem get?_insert (d : Dictionary β) (name : String) (value : β) (k : String) :
    (d.insert name value).get? k = if k = name then some value else d.get? k :=
  lookup_insertByName name value d.entries k

@[simp] theorem get?_erase (d : Dictionary β) (name k : String) :
    (d.erase name).get? k = if k = name then none else d.get? k := by
  simp only [get?, erase]
  induction d.entries with
  | nil => simp
  | cons e rest ih =>
    by_cases he : e.1 = name
    · rw [List.filter_cons_of_neg (by simp [he]), ih, lookup_cons_eq_ite, he]
      split <;> rfl
    · rw [List.filter_cons_of_pos (by simp [he]), lookup_cons_eq_ite, lookup_cons_eq_ite, ih]
      by_cases hk : k = name
      · simp [hk, Ne.symm he]
      · simp [hk]

/-- The entries of a list, a later one replacing an earlier one of the same name. -/
def ofList (entries : List (String × β)) : Dictionary β :=
  entries.foldl (fun d e => d.insert e.1 e.2) empty

/-- How often each name occurs. -/
def tally (names : List String) : Dictionary UInt64 :=
  names.foldl (fun d n => d.insert n ((d.get? n).getD 0 + 1)) empty

end Dictionary

end LayerPipeline
