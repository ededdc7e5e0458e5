import LayerPipeline.Dictionary
import LayerPipeline.Proofs.Service.SessionTable

/-!
# Sessions behind handles

A session can stand behind a handle: the table then maps ids to handles, and a session whose handle
was taken from the map lives on for those who looked it up before. `SessionTable` is this table with
the map and the sessions in one list, where every session bears its own id. Whatever is done to the
two, they refuse the same things in the same words, find the same sessions and count as many.
-/

namespace LayerPipeline

variable {α : Type}

/-- Handles by id, and the sessions behind the handles. -/
structure HandleTable (α : Type) where
  handles : Dictionary Nat
  /-- Behind handle `k` is entry `k`. Handles are never given out twice. -/
  sessions : List (Session α)

namespace HandleTable

/-- No sessions. -/
def empty : HandleTable α := ⟨.empty, []⟩

/-- The handle under an id. -/
def get? (h : HandleTable α) (id : String) : Option Nat := h.handles.get? id

/-- The session behind a handle. -/
def behind? (h : HandleTable α) (key : Nat) : Option (Session α) := h.sessions[key]?

/-- Number of handles in the map. -/
def size (h : HandleTable α) : Nat := h.handles.entries.length

/-- Puts a session behind a handle of its own, and the handle under the session's id. -/
def add (h : HandleTable α) (s : Session α) : HandleTable α where
  handles := h.handles.insert s.id h.sessions.length
  sessions := h.sessions ++ [{ s with key := h.sessions.length }]

/-- Adds a session unless its id is in use or `limit` sessions are open. -/
def insertWithin (h : HandleTable α) (s : Session α) (limit : Option Nat) :
    Except ServiceError (HandleTable α) :=
  if (h.get? s.id).isSome then .error (.session ("session " ++ s.id ++ " already exists"))
  else
    match limit with
    | some n =>
      if n ≤ h.size then .error (.capacity (toString n ++ " sessions already open"))
      else .ok (h.add s)
    | none => .ok (h.add s)

/-- Changes the session behind a handle. -/
def modify (h : HandleTable α) (key : Nat) (f : Session α → Session α) : HandleTable α :=
  { h with sessions := h.sessions.modify key f }

/-- Takes the handle under an id from the map. The session stays behind it. -/
def remove (h : HandleTable α) (id : String) : HandleTable α :=
  { h with handles := h.handles.erase id }

/-- The ids under which a session has been idle for longer than a time, those in use apart. -/
def idle (h : HandleTable α) (now timeoutMicros : Nat) (busy : List String) : List String :=
  (h.handles.entries.filter fun e => !busy.contains e.1 &&
    (h.behind? e.2).any fun s => s.isIdle now timeoutMicros).map (·.1)

/-- The two tables hold the same sessions behind the same handles, under the same ids. -/
structure Represents (h : HandleTable α) (t : SessionTable α) : Prop where
  sound : t.Sound
  found : ∀ id, h.get? id = (t.get? id).map (·.key)
  behind : ∀ key, h.behind? key = t.session? key

variable {h : HandleTable α} {t : SessionTable α}

theorem represents_empty : Represents (empty : HandleTable α) .empty where
  sound := SessionTable.sound_empty
  found _ := rfl
  behind _ := rfl

/-! ## What the tables are asked -/

theorem Represents.length_sessions (hr : Represents h t) : h.sessions.length = t.nextKey := by
  have hbeyond : ∀ key, h.sessions.length ≤ key ↔ t.nextKey ≤ key := by
    intro key
    rw [← List.getElem?_eq_none_iff, ← hr.sound.session?_eq_none_iff, ← hr.behind key, behind?]
  exact Nat.le_antisymm ((hbeyond _).mpr (Nat.le_refl _)) ((hbeyond _).mp (Nat.le_refl _))

theorem Represents.mem_handles_iff (hr : Represents h t) (id : String) (key : Nat) :
    (id, key) ∈ h.handles.entries ↔ ∃ s ∈ t.opened, s.id = id ∧ s.key = key := by
  rw [Dictionary.mem_entries_iff]
  change h.get? id = some key ↔ _
  rw [hr.found, Option.map_eq_some_iff]
  constructor
  · rintro ⟨s, hs, hkey⟩
    obtain ⟨hmem, hid⟩ := SessionTable.get?_eq_some hs
    exact ⟨s, hmem, hid, hkey⟩
  · rintro ⟨s, hmem, rfl, hkey⟩
    exact ⟨s, hr.sound.get?_of_mem hmem, hkey⟩

theorem Represents.ids_perm (hr : Represents h t) :
    (h.handles.entries.map (·.1)).Perm (t.opened.map (·.id)) := by
  rw [List.perm_ext_iff_of_nodup h.handles.nodup_keys hr.sound.ids_nodup]
  intro id
  simp [hr.mem_handles_iff]

theorem Represents.size_eq (hr : Represents h t) : h.size = t.size := by
  simpa [size, SessionTable.size] using hr.ids_perm.length_eq

theorem Represents.behind?_of_mem (hr : Represents h t) {s : Session α} (hs : s ∈ t.opened) :
    h.behind? s.key = some s :=
  (hr.behind _).trans (hr.sound.session?_of_get? (hr.sound.get?_of_mem hs))

/-- The order of the ids is that of a map, which says nothing. -/
theorem Represents.idle_perm (hr : Represents h t) (now timeoutMicros : Nat)
    (busy : List String) :
    (h.idle now timeoutMicros busy).Perm (t.idle now timeoutMicros busy) := by
  rw [idle, SessionTable.idle, List.perm_ext_iff_of_nodup
    (h.handles.nodup_keys.sublist (List.filter_sublist.map _))
    (hr.sound.ids_nodup.sublist (List.filter_sublist.map _))]
  intro id
  simp only [List.mem_map, List.mem_filter, Prod.exists, exists_and_right, exists_eq_right,
    hr.mem_handles_iff]
  constructor
  · rintro ⟨key, ⟨s, hs, rfl, rfl⟩, hidle⟩
    exact ⟨s, ⟨hs, by simpa [hr.behind?_of_mem hs] using hidle⟩, rfl⟩
  · rintro ⟨s, ⟨hs, hidle⟩, rfl⟩
    exact ⟨s.key, ⟨s, hs, rfl, rfl⟩, by simpa [hr.behind?_of_mem hs] using hidle⟩

/-! ## What is done to the tables -/

theorem Represents.add (hr : Represents h t) {s : Session α} (hid : t.get? s.id = none) :
    Represents (h.add s) (t.add s) := by
  have hlength := hr.length_sessions
  refine ⟨hr.sound.add hid, fun id => ?_, fun key => ?_⟩
  · rw [SessionTable.get?_add hid]
    change (h.handles.insert s.id h.sessions.length).get? id = _
    rw [Dictionary.get?_insert, hlength]
    split
    · rfl
    · exact hr.found id
  · rw [hr.sound.session?_add hid, ← hr.behind]
    simp only [behind?, HandleTable.add, List.getElem?_append, ← hlength]
    grind

theorem Represents.modify (hr : Represents h t) (key : Nat) {f : Session α → Session α}
    (hf : SessionTable.Keeps f) : Represents (h.modify key f) (t.modify key f) := by
  refine ⟨hr.sound.modify key hf, fun id => ?_, fun k => ?_⟩
  · rw [SessionTable.get?_modify t key hf, Option.map_map]
    refine (hr.found id).trans ?_
    congr 1
    funext s
    exact (SessionTable.keeps_change hf key s).1.symm
  · rw [hr.sound.session?_modify key hf, ← hr.behind]
    simp only [behind?, HandleTable.modify, List.getElem?_modify]
    cases hold : h.sessions[k]? with
    | none => rfl
    | some s =>
      -- a session knows its own handle, which is how the other table finds the one to change
      have hkey : s.key = k :=
        (hr.sound.session?_eq_some_iff.mp ((hr.behind k).symm.trans hold)).2
      simp [SessionTable.change, hkey, eq_comm]

theorem Represents.remove (hr : Represents h t) (id : String) :
    Represents (h.remove id) (t.remove id) := by
  refine ⟨hr.sound.remove id, fun other => ?_, fun key => ?_⟩
  · rw [SessionTable.get?_remove]
    change (h.handles.erase id).get? other = _
    rw [Dictionary.get?_erase]
    split
    · rfl
    · exact hr.found other
  · exact (hr.behind key).trans (hr.sound.session?_remove id key).symm

/-- What two tables made of one operation: both refuse it in the same words, or what both have
become holds the same sessions. -/
inductive Tallies : Except ServiceError (HandleTable α) → Except ServiceError (SessionTable α) →
    Prop where
  | refused (err : ServiceError) : Tallies (.error err) (.error err)
  | accepted {h : HandleTable α} {t : SessionTable α} : Represents h t → Tallies (.ok h) (.ok t)

theorem Tallies.represents {x : Except ServiceError (HandleTable α)}
    {y : Except ServiceError (SessionTable α)} (hxy : Tallies x y) (hr : Represents h t) :
    Represents (x.toOption.getD h) (y.toOption.getD t) := by
  cases hxy with
  | refused err => exact hr
  | accepted hr' => exact hr'

theorem Represents.insertWithin (hr : Represents h t) (s : Session α) (limit : Option Nat) :
    Tallies (h.insertWithin s limit) (t.insertWithin s limit) := by
  have hused : (h.get? s.id).isSome = t.contains s.id := by
    rw [hr.found, Option.isSome_map, SessionTable.contains_eq_isSome]
  unfold HandleTable.insertWithin SessionTable.insertWithin
  rw [hused, hr.size_eq]
  split
  · exact .refused _
  · next hfree =>
    have hid : t.get? s.id = none := by simpa [SessionTable.contains_eq_isSome] using hfree
    cases limit with
    | none => exact .accepted (hr.add hid)
    | some n =>
      by_cases hfull : n ≤ t.size
      · simpa only [if_pos hfull] using .refused _
      · simpa only [if_neg hfull] using .accepted (hr.add hid)

/-! ## Runs -/

/-- What a node does to its table. -/
inductive Operation (α : Type) where
  | enter (s : Session α) (limit : Option Nat)
  /-- Sessions change in their state and their figures only. -/
  | change (key : Nat) (f : Session α → Session α) (keeps : SessionTable.Keeps f)
  | leave (id : String)

/-- What an operation makes of a table. -/
def perform (h : HandleTable α) : Operation α → Except ServiceError (HandleTable α)
  | .enter s limit => h.insertWithin s limit
  | .change key f _ => .ok (h.modify key f)
  | .leave id => .ok (h.remove id)

/-- The same operation on the one list. -/
def performOn (t : SessionTable α) : Operation α → Except ServiceError (SessionTable α)
  | .enter s limit => t.insertWithin s limit
  | .change key f _ => .ok (t.modify key f)
  | .leave id => .ok (t.remove id)

theorem Represents.perform (hr : Represents h t) (op : Operation α) :
    Tallies (h.perform op) (performOn t op) := by
  cases op with
  | enter s limit => exact hr.insertWithin s limit
  | change key f keeps => exact .accepted (hr.modify key keeps)
  | leave id => exact .accepted (hr.remove id)

/-- A table after a series of operations. One that is refused changes nothing. -/
def after (ops : List (Operation α)) : HandleTable α :=
  ops.foldl (fun h op => (h.perform op).toOption.getD h) empty

/-- The one list after a series of operations. -/
def listAfter (ops : List (Operation α)) : SessionTable α :=
  ops.foldl (fun t op => (performOn t op).toOption.getD t) .empty

/-- The two tables never part, and so they go on to answer alike. -/
theorem represents_after (ops : List (Operation α)) : Represents (after ops) (listAfter ops) := by
  suffices hrun : ∀ (h : HandleTable α) (t : SessionTable α), Represents h t →
      Represents (ops.foldl (fun h op => (h.perform op).toOption.getD h) h)
        (ops.foldl (fun t op => (performOn t op).toOption.getD t) t) from
    hrun empty .empty represents_empty
  induction ops with
  | nil => exact fun h t hr => hr
  | cons op ops ih =>
    intro h t hr
    exact ih _ _ ((hr.perform op).represents hr)

/-- A session always stands under the id that it bears, and behind the handle that it bears. -/
theorem bears_of_get? {ops : List (Operation α)} {id : String} {key : Nat}
    (h : (after ops).get? id = some key) :
    ∃ s, (after ops).behind? key = some s ∧ s.id = id ∧ s.key = key := by
  have hr := represents_after ops
  rw [hr.found, Option.map_eq_some_iff] at h
  obtain ⟨s, hs, rfl⟩ := h
  refine ⟨s, ?_, (SessionTable.get?_eq_some hs).2, rfl⟩
  rw [hr.behind, hr.sound.session?_of_get? hs]

end HandleTable

end LayerPipeline
