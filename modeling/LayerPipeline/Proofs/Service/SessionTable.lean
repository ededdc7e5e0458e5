import LayerPipeline.Service.Session
import Mathlib.Data.List.Nodup
import Mathlib.Data.List.Perm.Basic

/-!
# Session tables

Every session that ever entered a table keeps a key of its own, also after it was taken from the
table, and at most one open session has a given id. Adding, changing and taking out sessions keeps
this up, and changes nothing about the sessions with other keys.
-/

namespace LayerPipeline.SessionTable

variable {α : Type}

/-- All sessions, those taken from the table included. -/
def all (t : SessionTable α) : List (Session α) := t.opened ++ t.detached

/-- Keys are given out in order and once, and open sessions have different ids. -/
structure Sound (t : SessionTable α) : Prop where
  keys_nodup : (t.all.map (·.key)).Nodup
  mem_keys : ∀ key, key ∈ t.all.map (·.key) ↔ key < t.nextKey
  ids_nodup : (t.opened.map (·.id)).Nodup

theorem sound_empty : (empty : SessionTable α).Sound := by
  constructor <;> simp [empty, all]

/-! ## Looking up -/

/-- Where no two members share a label, looking for a label finds the one that bears it. -/
theorem find?_label_iff {β κ : Type} [DecidableEq κ] {label : β → κ} {xs : List β}
    (hnodup : (xs.map label).Nodup) {l : κ} {x : β} :
    xs.find? (fun y => label y = l) = some x ↔ x ∈ xs ∧ label x = l := by
  constructor
  · intro h
    exact ⟨List.mem_of_find?_eq_some h, by simpa using List.find?_some h⟩
  · rintro ⟨hx, rfl⟩
    cases hfound : xs.find? fun y => label y = label x with
    | none => exact absurd (List.find?_eq_none.mp hfound x hx) (by simp)
    | some y =>
      have hlabel : label y = label x := by simpa using List.find?_some hfound
      rw [List.inj_on_of_nodup_map hnodup (List.mem_of_find?_eq_some hfound) hx hlabel]

theorem Sound.session?_eq_some_iff {t : SessionTable α} (ht : t.Sound) {key : Nat}
    {s : Session α} : t.session? key = some s ↔ s ∈ t.all ∧ s.key = key :=
  find?_label_iff ht.keys_nodup

theorem Sound.session?_eq_none_iff {t : SessionTable α} (ht : t.Sound) {key : Nat} :
    t.session? key = none ↔ t.nextKey ≤ key := by
  rw [← Nat.not_lt, ← ht.mem_keys]
  simp [session?, all]

theorem get?_eq_some {t : SessionTable α} {id : String} {s : Session α}
    (h : t.get? id = some s) : s ∈ t.opened ∧ s.id = id :=
  ⟨List.mem_of_find?_eq_some h, by simpa using List.find?_some h⟩

theorem Sound.session?_of_get? {t : SessionTable α} (ht : t.Sound) {id : String} {s : Session α}
    (h : t.get? id = some s) : t.session? s.key = some s :=
  ht.session?_eq_some_iff.mpr ⟨List.mem_append_left _ (get?_eq_some h).1, rfl⟩

theorem Sound.get?_of_mem {t : SessionTable α} (ht : t.Sound) {s : Session α}
    (hs : s ∈ t.opened) : t.get? s.id = some s :=
  (find?_label_iff ht.ids_nodup).mpr ⟨hs, rfl⟩

theorem get?_eq_none_iff {t : SessionTable α} {id : String} :
    t.get? id = none ↔ ∀ s ∈ t.opened, s.id ≠ id := by
  simp [get?]

theorem contains_eq_isSome (t : SessionTable α) (id : String) :
    t.contains id = (t.get? id).isSome := by
  rw [Bool.eq_iff_iff]
  simp [contains, get?]

/-! ## Adding -/

theorem insertWithin_eq_ok {t t' : SessionTable α} {s : Session α} {limit : Option Nat}
    (h : t.insertWithin s limit = .ok t') : t.get? s.id = none ∧ t' = t.add s := by
  unfold insertWithin at h
  split at h
  · cases h
  · next hid =>
    have hnone : t.get? s.id = none := by simpa [contains_eq_isSome] using hid
    refine ⟨hnone, ?_⟩
    split at h
    · split at h
      · cases h
      · exact (Except.ok.inj h).symm
    · exact (Except.ok.inj h).symm

theorem insertWithin_size {t t' : SessionTable α} {s : Session α} {limit : Nat}
    (h : t.insertWithin s (some limit) = .ok t') : t.size < limit := by
  unfold insertWithin at h
  split at h
  · cases h
  · simp only at h
    split at h
    · cases h
    · next hlimit => exact Nat.not_le.mp hlimit

theorem opened_add (t : SessionTable α) (s : Session α) :
    (t.add s).opened = t.opened ++ [{ s with key := t.nextKey }] := rfl

theorem all_add_perm (t : SessionTable α) (s : Session α) :
    (t.add s).all.Perm ({ s with key := t.nextKey } :: t.all) := by
  simp only [add, all, List.append_assoc, List.singleton_append]
  exact List.perm_middle

theorem Sound.add {t : SessionTable α} (ht : t.Sound) {s : Session α}
    (hid : t.get? s.id = none) : (t.add s).Sound := by
  have hperm := (all_add_perm t s).map (·.key)
  have hfresh : t.nextKey ∉ t.all.map (·.key) := by simp [ht.mem_keys]
  constructor
  · rw [hperm.nodup_iff, List.map_cons, List.nodup_cons]
    exact ⟨hfresh, ht.keys_nodup⟩
  · intro key
    rw [hperm.mem_iff, List.map_cons, List.mem_cons, ht.mem_keys]
    change _ ↔ key < t.nextKey + 1
    constructor <;> grind
  · have hnew : s.id ∉ t.opened.map (·.id) := by
      simp only [get?, List.find?_eq_none, decide_eq_true_eq] at hid
      simpa using hid
    rw [opened_add, List.map_append, List.map_singleton]
    exact List.Nodup.append ht.ids_nodup (List.nodup_singleton _)
      (by simpa [List.disjoint_singleton] using hnew)

theorem Sound.session?_add {t : SessionTable α} (ht : t.Sound) {s : Session α}
    (hid : t.get? s.id = none) (key : Nat) :
    (t.add s).session? key =
      if key = t.nextKey then some { s with key := t.nextKey } else t.session? key := by
  have hmem : ∀ x, x ∈ (t.add s).all ↔ x = { s with key := t.nextKey } ∨ x ∈ t.all := by
    intro x
    rw [(all_add_perm t s).mem_iff, List.mem_cons]
  split
  · next hkey =>
    subst hkey
    exact (ht.add hid).session?_eq_some_iff.mpr ⟨(hmem _).mpr (.inl rfl), rfl⟩
  · next hkey =>
    cases hold : t.session? key with
    | none =>
      rw [ht.session?_eq_none_iff] at hold
      rw [(ht.add hid).session?_eq_none_iff]
      change t.nextKey + 1 ≤ key
      omega
    | some old =>
      obtain ⟨hin, hold⟩ := ht.session?_eq_some_iff.mp hold
      exact (ht.add hid).session?_eq_some_iff.mpr ⟨(hmem _).mpr (.inr hin), hold⟩

theorem get?_add {t : SessionTable α} {s : Session α} (hid : t.get? s.id = none) (id : String) :
    (t.add s).get? id =
      if id = s.id then some { s with key := t.nextKey } else t.get? id := by
  rw [get?, opened_add, List.find?_append]
  split
  · next heq =>
    subst heq
    change (t.get? s.id).or _ = _
    simp [hid]
  · next hne =>
    change (t.get? id).or _ = _
    simp [Ne.symm hne]

/-! ## Changing -/

/-- A change of a session that leaves its key and its id alone. -/
def Keeps (f : Session α → Session α) : Prop := ∀ s, (f s).key = s.key ∧ (f s).id = s.id

theorem keeps_close (reason : Option String) : Keeps fun s : Session α => s.close reason := by
  intro s
  by_cases h : s.state = .closed <;> simp [Session.close, h]

theorem keeps_recordForward (token : UInt64) (now : Nat) :
    Keeps fun s : Session α => s.recordForward token now := fun _ => ⟨rfl, rfl⟩

/-- The change that `modify` makes to every session. -/
def change (key : Nat) (f : Session α → Session α) (s : Session α) : Session α :=
  if s.key = key then f s else s

theorem all_modify (t : SessionTable α) (key : Nat) (f : Session α → Session α) :
    (t.modify key f).all = t.all.map (change key f) := by
  simp only [modify, all, List.map_append]
  rfl

theorem opened_modify (t : SessionTable α) (key : Nat) (f : Session α → Session α) :
    (t.modify key f).opened = t.opened.map (change key f) := rfl

theorem keeps_change {f : Session α → Session α} (hf : Keeps f) (key : Nat) :
    Keeps (change key f) := by
  intro s
  unfold change
  split
  · exact hf s
  · exact ⟨rfl, rfl⟩

theorem map_key_change {f : Session α → Session α} (hf : Keeps f) (key : Nat)
    (xs : List (Session α)) : (xs.map (change key f)).map (·.key) = xs.map (·.key) := by
  simp [(keeps_change hf key _).1]

theorem map_id_change {f : Session α → Session α} (hf : Keeps f) (key : Nat)
    (xs : List (Session α)) : (xs.map (change key f)).map (·.id) = xs.map (·.id) := by
  simp [(keeps_change hf key _).2]

theorem Sound.modify {t : SessionTable α} (ht : t.Sound) (key : Nat)
    {f : Session α → Session α} (hf : Keeps f) : (t.modify key f).Sound := by
  constructor
  · rw [all_modify, map_key_change hf]
    exact ht.keys_nodup
  · intro k
    rw [all_modify, map_key_change hf]
    exact ht.mem_keys k
  · rw [opened_modify, map_id_change hf]
    exact ht.ids_nodup

theorem Sound.session?_modify {t : SessionTable α} (ht : t.Sound) (key : Nat)
    {f : Session α → Session α} (hf : Keeps f) (k : Nat) :
    (t.modify key f).session? k = (t.session? k).map (change key f) := by
  have hsound := ht.modify key hf
  cases hold : t.session? k with
  | none =>
    rw [ht.session?_eq_none_iff] at hold
    exact hsound.session?_eq_none_iff.mpr hold
  | some s =>
    obtain ⟨hmem, hkey⟩ := ht.session?_eq_some_iff.mp hold
    refine hsound.session?_eq_some_iff.mpr ⟨?_, (keeps_change hf key s).1.trans hkey⟩
    rw [all_modify]
    exact List.mem_map_of_mem hmem

theorem get?_modify (t : SessionTable α) (key : Nat) {f : Session α → Session α} (hf : Keeps f)
    (id : String) : (t.modify key f).get? id = (t.get? id).map (change key f) := by
  rw [get?, get?, opened_modify, List.find?_map]
  congr 2
  funext s
  simp [(keeps_change hf key s).2]

/-- A change of an open session shows under its id alone. -/
theorem Sound.get?_modify_key {t : SessionTable α} (ht : t.Sound) {f : Session α → Session α}
    (hf : Keeps f) {id : String} {s : Session α} (hs : t.get? id = some s) (other : String) :
    (t.modify s.key f).get? other = if other = id then some (f s) else t.get? other := by
  rw [get?_modify t s.key hf]
  split
  · next heq =>
    subst heq
    simp [hs, change]
  · next hne =>
    cases hother : t.get? other with
    | none => rfl
    | some x =>
      have hkey : x.key ≠ s.key := by
        intro hkey
        have hx := ht.session?_of_get? hother
        rw [hkey, ht.session?_of_get? hs] at hx
        obtain rfl := Option.some.inj hx
        exact hne ((get?_eq_some hother).2.symm.trans (get?_eq_some hs).2)
      simp [change, hkey]

/-- Only the session with the key matters to a change. -/
theorem Sound.modify_congr {t : SessionTable α} (ht : t.Sound) {key : Nat}
    {f g : Session α → Session α} (h : ∀ s, t.session? key = some s → f s = g s) :
    t.modify key f = t.modify key g := by
  have hchange : ∀ s ∈ t.all, change key f s = change key g s := by
    intro s hs
    unfold change
    split
    · next hkey => exact h s (ht.session?_eq_some_iff.mpr ⟨hs, hkey⟩)
    · rfl
  have hopened := List.map_congr_left fun s hs => hchange s (List.mem_append_left _ hs)
  have hdetached := List.map_congr_left fun s hs => hchange s (List.mem_append_right _ hs)
  rw [SessionTable.mk.injEq]
  exact ⟨hopened, hdetached, rfl⟩

/-! ## Taking out -/

theorem all_remove_perm (t : SessionTable α) (id : String) : (t.remove id).all.Perm t.all := by
  simp only [remove, all]
  rw [← List.append_assoc]
  refine List.Perm.append_right _ (List.perm_append_comm.trans ?_)
  have hsplit := List.filter_append_perm (fun s : Session α => decide (s.id = id)) t.opened
  simpa using hsplit

theorem Sound.remove {t : SessionTable α} (ht : t.Sound) (id : String) : (t.remove id).Sound := by
  have hperm := (all_remove_perm t id).map (·.key)
  constructor
  · exact hperm.nodup_iff.mpr ht.keys_nodup
  · intro key
    rw [hperm.mem_iff]
    exact ht.mem_keys key
  · exact ht.ids_nodup.sublist (List.filter_sublist.map _)

theorem Sound.session?_remove {t : SessionTable α} (ht : t.Sound) (id : String) (key : Nat) :
    (t.remove id).session? key = t.session? key := by
  have hsound := ht.remove id
  cases hold : t.session? key with
  | none =>
    rw [ht.session?_eq_none_iff] at hold
    exact hsound.session?_eq_none_iff.mpr hold
  | some s =>
    obtain ⟨hmem, hkey⟩ := ht.session?_eq_some_iff.mp hold
    exact hsound.session?_eq_some_iff.mpr ⟨(all_remove_perm t id).mem_iff.mpr hmem, hkey⟩

theorem get?_remove (t : SessionTable α) (id other : String) :
    (t.remove id).get? other = if other = id then none else t.get? other := by
  simp only [get?, remove]
  rw [List.find?_filter]
  split
  · next heq =>
    subst heq
    simp
  · next hne =>
    congr 1
    funext s
    by_cases hs : s.id = other <;> simp [hs, hne]

/-! ## Where a session is in its life -/

/-- The state of the session with a key. -/
def stateAt (t : SessionTable α) (key : Nat) : Option SessionState :=
  (t.session? key).map (·.state)

theorem Sound.stateAt_add {t : SessionTable α} (ht : t.Sound) {s : Session α}
    (hid : t.get? s.id = none) (key : Nat) :
    (t.add s).stateAt key = if key = t.nextKey then some s.state else t.stateAt key := by
  rw [stateAt, ht.session?_add hid]
  split <;> rfl

theorem Sound.stateAt_modify {t : SessionTable α} (ht : t.Sound) (key : Nat)
    {f : Session α → Session α} (hf : Keeps f) (k : Nat) :
    (t.modify key f).stateAt k =
      if k = key then (t.session? key).map fun s => (f s).state else t.stateAt k := by
  rw [stateAt, ht.session?_modify key hf, Option.map_map]
  cases hold : t.session? k with
  | none =>
    split
    · next heq =>
      rw [← heq, hold]
      rfl
    · simp [stateAt, hold]
  | some s =>
    obtain ⟨-, hkey⟩ := ht.session?_eq_some_iff.mp hold
    split
    · next heq =>
      subst heq
      simp [hold, change, hkey]
    · next hne => simp [stateAt, hold, change, hkey, hne]

theorem Sound.stateAt_remove {t : SessionTable α} (ht : t.Sound) (id : String) (key : Nat) :
    (t.remove id).stateAt key = t.stateAt key := by
  rw [stateAt, ht.session?_remove]
  rfl

theorem Sound.stateAt_eq_none_iff {t : SessionTable α} (ht : t.Sound) {key : Nat} :
    t.stateAt key = none ↔ t.nextKey ≤ key := by
  rw [stateAt, Option.map_eq_none_iff, ht.session?_eq_none_iff]

end LayerPipeline.SessionTable
