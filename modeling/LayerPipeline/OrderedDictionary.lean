import LayerPipeline.Dictionary

/-!
# Dictionaries with an order

A dictionary, and beside it its names in the order in which they came. A value that is replaced
keeps its place; a name that is taken out leaves no gap.
-/

namespace LayerPipeline

/-- A finite map from names to `β` that remembers in which order the names came. -/
structure OrderedDictionary (β : Type) where
  entries : Dictionary β
  /-- The names in the order in which they came. -/
  order : List String
  /-- No name is listed twice. -/
  distinct : order.Nodup
  /-- The listed names are those with an entry. -/
  listed : ∀ name, name ∈ order ↔ (entries.get? name).isSome
deriving DecidableEq

namespace OrderedDictionary

variable {β : Type}

/-- No entries. -/
def empty : OrderedDictionary β := ⟨.empty, [], .nil, by simp⟩

instance : Inhabited (OrderedDictionary β) := ⟨empty⟩

/-- The value under a name. -/
def get? (d : OrderedDictionary β) (name : String) : Option β := d.entries.get? name

/-- Whether there is an entry under a name. -/
def contains (d : OrderedDictionary β) (name : String) : Bool := (d.get? name).isSome

theorem mem_order_iff {d : OrderedDictionary β} {name : String} :
    name ∈ d.order ↔ (d.get? name).isSome := d.listed name

/-! ## Changes -/

section Listed

variable (d : OrderedDictionary β) {name : String}

theorem listed_insert_of_some (h : (d.get? name).isSome) (value : β) (k : String) :
    k ∈ d.order ↔ ((d.entries.insert name value).get? k).isSome := by
  rw [Dictionary.get?_insert]
  split
  · next hk => simpa [hk, mem_order_iff] using h
  · exact d.listed k

theorem listed_insert_of_none (value : β) (k : String) :
    k ∈ d.order ++ [name] ↔ ((d.entries.insert name value).get? k).isSome := by
  rw [Dictionary.get?_insert, List.mem_append, List.mem_singleton, d.listed]
  split
  · next hk => simp [hk]
  · next hk => simp [hk]

theorem distinct_concat (h : ¬(d.get? name).isSome) : (d.order ++ [name]).Nodup := by
  refine List.nodup_append.mpr ⟨d.distinct, by simp, ?_⟩
  rintro k hk _ hname rfl
  rw [List.mem_singleton.mp hname] at hk
  exact h (mem_order_iff.mp hk)

theorem listed_erase (name k : String) :
    k ∈ d.order.filter (· ≠ name) ↔ ((d.entries.erase name).get? k).isSome := by
  rw [Dictionary.get?_erase, List.mem_filter, d.listed, decide_eq_true_iff]
  split
  · next hk => simp [hk]
  · next hk => simp [hk]

end Listed

/-- Sets the value under a name. A name that is new goes behind the others. -/
def insert (d : OrderedDictionary β) (name : String) (value : β) : OrderedDictionary β :=
  if h : (d.get? name).isSome then
    { d with
      entries := d.entries.insert name value
      listed := d.listed_insert_of_some h value }
  else
    { entries := d.entries.insert name value
      order := d.order ++ [name]
      distinct := d.distinct_concat h
      listed := d.listed_insert_of_none value }

/-- Changes the value under a name, if there is one. -/
def modify (d : OrderedDictionary β) (name : String) (f : β → β) : OrderedDictionary β :=
  match h : d.get? name with
  | none => d
  | some value =>
    { d with
      entries := d.entries.insert name (f value)
      listed := d.listed_insert_of_some (h ▸ rfl) (f value) }

/-- Takes a name out. -/
def erase (d : OrderedDictionary β) (name : String) : OrderedDictionary β :=
  { entries := d.entries.erase name
    order := d.order.filter (· ≠ name)
    distinct := d.distinct.filter _
    listed := d.listed_erase name }

/-- Changes every value. -/
def map {γ : Type} (d : OrderedDictionary β) (f : β → γ) : OrderedDictionary γ :=
  { entries := d.entries.map f
    order := d.order
    distinct := d.distinct
    listed := fun name => by simp [d.listed] }

@[simp] theorem get?_empty (k : String) : (empty : OrderedDictionary β).get? k = none := rfl

theorem entries_insert (d : OrderedDictionary β) (name : String) (value : β) :
    (d.insert name value).entries = d.entries.insert name value := by
  unfold insert
  split <;> rfl

theorem order_insert (d : OrderedDictionary β) (name : String) (value : β) :
    (d.insert name value).order =
      if (d.get? name).isSome then d.order else d.order ++ [name] := by
  unfold insert
  split <;> rfl

@[simp] theorem get?_insert (d : OrderedDictionary β) (name : String) (value : β) (k : String) :
    (d.insert name value).get? k = if k = name then some value else d.get? k := by
  rw [get?, entries_insert, Dictionary.get?_insert]
  rfl

@[simp] theorem order_modify (d : OrderedDictionary β) (name : String) (f : β → β) :
    (d.modify name f).order = d.order := by
  unfold modify
  split <;> rfl

@[simp] theorem get?_modify (d : OrderedDictionary β) (name : String) (f : β → β) (k : String) :
    (d.modify name f).get? k = if k = name then (d.get? k).map f else d.get? k := by
  unfold modify
  split
  · next h =>
    split
    · next hk => rw [hk, h, Option.map_none]
    · rfl
  · next value h =>
    rw [get?, Dictionary.get?_insert]
    split
    · next hk => rw [hk, h, Option.map_some]
    · rfl

@[simp] theorem get?_erase (d : OrderedDictionary β) (name k : String) :
    (d.erase name).get? k = if k = name then none else d.get? k :=
  Dictionary.get?_erase d.entries name k

@[simp] theorem get?_map {γ : Type} (d : OrderedDictionary β) (f : β → γ) (k : String) :
    (d.map f).get? k = (d.get? k).map f :=
  Dictionary.get?_map d.entries f k

/-! ## The entries in order -/

/-- The entries in the order in which their names came. -/
def items (d : OrderedDictionary β) : List (String × β) :=
  d.order.filterMap fun name => (d.get? name).map fun value => (name, value)

/-- The values in the order in which their names came. -/
def values (d : OrderedDictionary β) : List β := d.items.map (·.2)

end OrderedDictionary

end LayerPipeline
