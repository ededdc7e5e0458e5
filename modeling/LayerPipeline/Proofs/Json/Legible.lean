import LayerPipeline.Proofs.Json.Reading
import LayerPipeline.Proofs.Wire.RoundTrip
import Mathlib.Data.List.Nodup

/-!
# Values that are read back from their text

A value is legible if its document, written at any depth of a text, is read as the value. Texts,
integers and names always are, and a composite is if its parts are. A floating-point number is if
the reader takes its numeral for the number it was written for, which not every numeral with many
digits is.
-/

namespace LayerPipeline

/-- The numeral of a number is read as that number. -/
def Binary64.ReadsBack (x : Binary64) : Prop :=
  (Json.parse? (JsonCodec.write x).compact).bind JsonCodec.read = some x

instance (x : Binary64) : Decidable x.ReadsBack :=
  inferInstanceAs (Decidable (_ = some x))

-- Of two neighbours the reader takes the wrong one.
example : ¬ (Decimal.nearest ⟨false, 9375354028804983, -12⟩).ReadsBack := by decide +kernel

namespace JsonCodec

open Json

variable {α β : Type} {s : Spacing}

/-- Wherever the document of a value is written, it is read as the value. -/
def Legible [JsonCodec α] (s : Spacing) (a : α) : Prop :=
  ∀ depth, ∃ j, Denotes (render s depth (write a)) j ∧ read j = some a

/-- All values of a type are legible. -/
class Lawful (α : Type) [JsonCodec α] : Prop where
  legible {s : Spacing} : s.Loose → ∀ a : α, Legible s a

/-- No value is written as null, so a value that may be absent can be. -/
class Definite (α : Type) [JsonCodec α] : Prop where
  read_null : read .null = (none : Option α)

theorem Legible.read_parse? [JsonCodec α] {a : α} (h : Legible s a) (depth : Nat) :
    (parse? (render s depth (write a))).bind read = some a := by
  obtain ⟨j, hdenotes, hread⟩ := h depth
  rw [parse?_of_denotes hdenotes, Option.bind_some, hread]

/-! ## Single values -/

instance : Lawful Bool where
  legible _ b _ := ⟨.bool b, denotes_bool b, rfl⟩

instance : Lawful String where
  legible _ text _ := ⟨.str text, denotes_quoted text, rfl⟩

theorem readBelow_nat {n bound : Nat} (h : n < bound) : readBelow bound (.nat n) = some n := by
  simp [readBelow, nat, h]

instance : Lawful UInt32 where
  legible _ n _ := by
    refine ⟨.nat n.toNat, denotes_nat (Nat.lt_trans n.toNat_lt (by decide)), ?_⟩
    simp [read, readBelow_nat n.toNat_lt]

instance : Lawful UInt64 where
  legible _ n _ := by
    refine ⟨.nat n.toNat, denotes_nat n.toNat_lt, ?_⟩
    simp [read, readBelow_nat n.toNat_lt]

instance : Definite UInt32 := ⟨rfl⟩

instance : Definite String := ⟨rfl⟩

instance : Definite Binary64 := ⟨rfl⟩

theorem legible_binary64 {x : Binary64} (hfinite : x.isFinite = true) (h : x.ReadsBack) :
    Legible s x := by
  obtain ⟨j, hparse, hread⟩ := Option.bind_eq_some_iff.mp h
  exact fun _ => ⟨j, denotes_of_parse? (numeric_write hfinite) hparse, hread⟩

/-- A value of an enumeration is read from its name. -/
theorem legible_name {name : α → String} {table : List (String × α)} {a : α}
    (h : table.lookup (name a) = some a) :
    @Legible α ⟨fun a => .str (name a), ofTag table⟩ s a :=
  fun _ => ⟨.str (name a), denotes_quoted (name a), by simp [ofTag, str, tagged, isBare, h]⟩

instance : Lawful Strategy where
  legible _ a := legible_name (by cases a <;> rfl)

instance : Lawful BottleneckReason where
  legible _ a := legible_name (by cases a <;> rfl)

instance : Lawful DeviceKind where
  legible _ a := legible_name (by cases a <;> rfl)

/-! ## Composites -/

section Composite

variable [JsonCodec α]

theorem legible_none : Legible s (none : Option α) := fun _ => ⟨.null, denotes_null, rfl⟩

theorem legible_some [Definite α] {a : α} (h : Legible s a) : Legible s (some a) := by
  intro depth
  obtain ⟨j, hdenotes, hread⟩ := h depth
  refine ⟨j, hdenotes, ?_⟩
  cases j with
  | null => exact absurd (Definite.read_null (α := α)) (by rw [hread]; simp)
  | _ => simp [read, hread]

theorem legible_list (hs : s.Loose) {xs : List α} (h : ∀ a ∈ xs, Legible s a) : Legible s xs := by
  intro depth
  have hitems : ∃ ys, List.Forall₂ (fun x y => Denotes (render s (depth + 1) x) y)
      (xs.map write) ys ∧ ys.mapM read = some xs := by
    induction xs with
    | nil => exact ⟨[], .nil, rfl⟩
    | cons x xs ih =>
      obtain ⟨j, hdenotes, hread⟩ := h x List.mem_cons_self (depth + 1)
      obtain ⟨ys, hys, hmany⟩ := ih fun a ha => h a (List.mem_cons_of_mem _ ha)
      exact ⟨j :: ys, .cons hdenotes hys, by simp [hread, hmany]⟩
  obtain ⟨ys, hys, hmany⟩ := hitems
  exact ⟨.array ys, denotes_array hs hys, hmany⟩

theorem legible_dictionary (hs : s.Loose) {d : Dictionary α}
    (h : ∀ e ∈ d.entries, Legible s e.2) : Legible s d := by
  intro depth
  have hmembers : ∀ es : List (String × α), (∀ e ∈ es, Legible s e.2) →
      ∃ ms, List.Forall₂ (DenotesMember s (depth + 1)) (es.map fun e => (e.1, write e.2)) ms ∧
        (named ms).mapM (fun m => do return (← m.1, ← (read m.2 : Option α))) = some es := by
    intro es hes
    induction es with
    | nil => exact ⟨[], .nil, rfl⟩
    | cons e es ih =>
      obtain ⟨j, hdenotes, hread⟩ := hes e List.mem_cons_self (depth + 1)
      obtain ⟨ms, hms, hmany⟩ := ih fun a ha => hes a (List.mem_cons_of_mem _ ha)
      refine ⟨(e.1, j) :: ms, .cons ⟨rfl, hdenotes⟩ hms, ?_⟩
      rw [named_cons, List.mapM_cons, hmany]
      simp [hread]
  obtain ⟨ms, hms, hmany⟩ := hmembers d.entries h
  refine ⟨.obj ms, denotes_obj hs hms, ?_⟩
  simp only [read, obj_eq, hmany, Option.map_some, Dictionary.ofList_entries]

instance [Lawful α] : Lawful (List α) where
  legible hs _ := legible_list hs fun a _ => Lawful.legible hs a

instance [Lawful α] [Definite α] : Lawful (Option α) where
  legible hs a := by
    cases a with
    | none => exact legible_none
    | some a => exact legible_some (Lawful.legible hs a)

end Composite

/-! ## Records -/

section Names

variable [JsonCodec α] (name : String) (rest : Members β)

@[simp]
theorem Members.names_done : Members.done.names = [] := rfl

@[simp]
theorem Members.names_field : (Members.field name rest : Members (α × β)).names =
    name :: rest.names :=
  rfl

@[simp]
theorem Members.names_optional : (Members.optional name rest : Members (Option α × β)).names =
    name :: rest.names :=
  rfl

@[simp]
theorem Members.names_default (value : α) : (Members.default name value rest).names =
    name :: rest.names :=
  rfl

end Names

/-- The members of a record are read back: they read as members under the same names, and the
reader that looks these up finds the values. -/
def Members.Legible (s : Spacing) (m : Members β) (t : β) : Prop :=
  (m.write t).map (·.1) = m.names ∧
  ∀ depth, ∃ ms, List.Forall₂ (DenotesMember s depth) (m.write t) ms ∧
    ∀ all : List (String × Json), (∀ e ∈ ms, all.lookup e.1 = some e.2) →
      m.read (.named all) = some (t, .named all)

theorem Members.legible_done : Members.done.Legible s () :=
  ⟨rfl, fun _ => ⟨[], .nil, fun _ _ => rfl⟩⟩

theorem Members.Legible.cons [JsonCodec α] {name : String} {absent short : Option α} {a : α}
    {rest : Members β} {t : β} (ha : JsonCodec.Legible s a) (h : rest.Legible s t) :
    (Members.cons name absent short rest).Legible s (a, t) := by
  refine ⟨congrArg (name :: ·) h.1, fun depth => ?_⟩
  obtain ⟨j, hdenotes, hread⟩ := ha depth
  obtain ⟨ms, hms, hfound⟩ := h.2 depth
  refine ⟨(name, j) :: ms, .cons ⟨rfl, hdenotes⟩ hms, fun all hall => ?_⟩
  have hfirst := hall (name, j) List.mem_cons_self
  have hrest := hfound all fun e he => hall e (List.mem_cons_of_mem _ he)
  simp only at hfirst
  simp [Members.cons, hfirst, hread, hrest]

theorem namedMembers_named {known : List String} {ms : List (String × Json)} {closed : Bool}
    (hnames : ms.map (·.1) = known) (hnodup : known.Nodup) :
    namedMembers known closed (named ms) = some ms := by
  subst hnames
  have hall : (named ms).mapM (fun m => do return (← m.1, m.2)) = some ms := by
    induction ms with
    | nil => rfl
    | cons m ms ih =>
      rw [named_cons, List.mapM_cons, ih (List.nodup_cons.mp hnodup).2]
      simp
  have honce : ∀ name, ms.countP (fun m => m.1 = name) ≤ 1 := by
    intro name
    have hcount := List.nodup_iff_count_le_one.mp hnodup name
    rwa [List.count_eq_countP, List.countP_map] at hcount
  simp only [namedMembers, hall]
  simp [honce]

theorem map_fst_of_denotes {depth : Nat} {ws rs : List (String × Json)}
    (h : List.Forall₂ (DenotesMember s depth) ws rs) : rs.map (·.1) = ws.map (·.1) := by
  induction h with
  | nil => rfl
  | cons hw _ ih => rw [List.map_cons, List.map_cons, hw.1, ih]

/-- A record is read back if its members are, and no two of them have one name. -/
theorem legible_record (hs : s.Loose) {layout : Layout α β} {closed : Bool} {m : Members β} {a : α}
    (hnodup : m.names.Nodup) (h : m.Legible s (layout.split a)) :
    @Legible α (record layout closed m) s a := by
  intro depth
  obtain ⟨hnames, hwritten⟩ := h
  obtain ⟨ms, hms, hfound⟩ := hwritten (depth + 1)
  have hsame : ms.map (·.1) = m.names := by
    rw [← hnames]
    exact map_fst_of_denotes hms
  have hread := hfound ms fun e he => lookup_of_mem (hsame ▸ hnodup) he
  refine ⟨.obj ms, denotes_obj hs hms, ?_⟩
  simp only [read, obj_eq, readRecord, namedMembers_named hsame hnodup]
  simp [hread, layout.join_split]

end JsonCodec

end LayerPipeline
