import LayerPipeline.Config
import LayerPipeline.Error.Planning
import LayerPipeline.Index

/-!
# Matching work to devices

The matcher keeps devices in the order of their registration, with an index of their positions. A
selection walks that order and replaces the best device only by a strictly better one, so that the
device registered first wins a draw.
-/

namespace LayerPipeline

/-- The registered devices. -/
structure Matcher (α : Type) where
  config : MatcherConfig α
  /-- In the order of registration. -/
  devices : List (Capability α)
  /-- Where the device of an id stands. -/
  index : Dictionary Nat
  /-- The index leads to every device, and nowhere else. -/
  located : Locates index (devices.map (·.deviceId))
deriving DecidableEq

namespace Matcher

variable {α : Type}

/-- No devices. -/
def empty (config : MatcherConfig α) : Matcher α := ⟨config, [], .empty, .nil⟩

instance [Inhabited α] : Inhabited (Matcher α) := ⟨empty default⟩

/-- Where the device of an id stands. -/
def position? (m : Matcher α) (id : String) : Option (Fin m.devices.length) :=
  match h : m.index.get? id with
  | none => none
  | some i => some ⟨i, by simpa using m.located.lt h⟩

theorem val_position? (m : Matcher α) (id : String) :
    (m.position? id).map Fin.val = m.index.get? id := by
  unfold position?
  split
  · next h => simp [h]
  · next i h => simp [h]

theorem position?_eq_none_iff {m : Matcher α} {id : String} :
    m.position? id = none ↔ id ∉ m.devices.map (·.deviceId) := by
  rw [← m.located.get?_eq_none_iff, ← val_position?, Option.map_eq_none_iff]

theorem position?_eq_some_iff {m : Matcher α} {id : String} {i : Fin m.devices.length} :
    m.position? id = some i ↔ (m.devices.get i).deviceId = id := by
  have hget : m.position? id = some i ↔ m.index.get? id = some i.val := by
    rw [← val_position?]
    cases m.position? id <;> simp [Fin.ext_iff]
  rw [hget, m.located id i.val, List.getElem?_map]
  simp

/-- The record of a device. -/
def get? (m : Matcher α) (id : String) : Option (Capability α) :=
  (m.position? id).map m.devices.get

/-- Whether a device is registered. -/
def contains (m : Matcher α) (id : String) : Bool :=
  (m.position? id).isSome

section Located

variable {index : Dictionary Nat} {devices : List (Capability α)} {c : Capability α}

theorem located_set (h : Locates index (devices.map (·.deviceId))) {i : Fin devices.length}
    (hc : c.deviceId = (devices.get i).deviceId) :
    Locates index ((devices.set i c).map (·.deviceId)) := by
  have hsame : (devices.set i c).map (·.deviceId) = devices.map (·.deviceId) := by
    rw [List.map_set, hc]
    exact (congrArg _ (List.getElem_map _).symm).trans (List.set_getElem_self (by simp))
  rwa [hsame]

theorem located_concat (h : Locates index (devices.map (·.deviceId)))
    (hc : c.deviceId ∉ devices.map (·.deviceId)) :
    Locates (index.insert c.deviceId devices.length) ((devices ++ [c]).map (·.deviceId)) := by
  have hlocated := h.concat hc
  rw [List.length_map] at hlocated
  rwa [List.map_append]

theorem located_eraseIdx (h : Locates index (devices.map (·.deviceId))) {i : Fin devices.length} :
    Locates (renumber (index.erase (devices.get i).deviceId) i
        (((devices.eraseIdx i).drop i).map (·.deviceId)))
      ((devices.eraseIdx i).map (·.deviceId)) := by
  have hmap : (devices.map (·.deviceId)).eraseIdx i = (devices.eraseIdx i).map (·.deviceId) := by
    refine List.ext_getElem? fun j => ?_
    simp only [List.getElem?_eraseIdx, List.getElem?_map]
    split <;> rfl
  have hid : (devices.map (·.deviceId))[i.val]? = some (devices.get i).deviceId := by simp
  have hlocated := h.eraseIdx hid
  rwa [hmap, ← List.map_drop] at hlocated

end Located

/-- Puts a record in the place of another one with the same id. -/
def put (m : Matcher α) (i : Fin m.devices.length) (c : Capability α)
    (h : c.deviceId = (m.devices.get i).deviceId) : Matcher α :=
  { m with devices := m.devices.set i c, located := located_set m.located h }

/-- Changes the record of a device, but not its id. -/
def modify (m : Matcher α) (id : String) (f : Capability α → Capability α)
    (hf : ∀ d, d.deviceId = id → (f d).deviceId = id) : Matcher α :=
  match h : m.position? id with
  | none => m
  | some i =>
    have hid := position?_eq_some_iff.mp h
    m.put i (f (m.devices.get i)) ((hf _ hid).trans hid.symm)

/-- Adds a device behind the others, or replaces its record in place. -/
def register (m : Matcher α) (c : Capability α) : Matcher α :=
  match h : m.position? c.deviceId with
  | some i => m.put i c (position?_eq_some_iff.mp h).symm
  | none =>
    { m with
      devices := m.devices ++ [c]
      index := m.index.insert c.deviceId m.devices.length
      located := located_concat m.located (position?_eq_none_iff.mp h) }

/-- Removes a device. Those behind it move up by one place. -/
def remove (m : Matcher α) (id : String) : Matcher α :=
  match h : m.position? id with
  | none => m
  | some i =>
    let devices := m.devices.eraseIdx i
    { m with
      devices
      index := renumber (m.index.erase id) i ((devices.drop i).map (·.deviceId))
      located := position?_eq_some_iff.mp h ▸ located_eraseIdx m.located }

variable [Scalar α]

/-- Sets the load of a device, at least zero. -/
def setLoad (m : Matcher α) (id : String) (load : α) : Except PlanningError (Matcher α) :=
  if m.contains id then .ok (m.modify id (fun d => { d with load := max load 0.0 }) fun _ h => h)
  else .error (.unknownDevice id)

/-- Sets the available memory of a device, between zero and its total memory. A total below zero
leaves no such value. -/
def setAvailable (m : Matcher α) (id : String) (gb : α) : Except PlanningError (Matcher α) :=
  match m.get? id with
  | none => .error (.unknownDevice id)
  | some d =>
    match Scalar.clamp? gb 0.0 d.memoryGb with
    | none => .error (.aborted .invertedBounds)
    | some available =>
      .ok (m.modify id (fun d => { d with availableGb := available }) fun _ h => h)

/-! ## Selection -/

/-- Time of a piece of work on an idle device of score 1. -/
def baselineMs (m : Matcher α) (r : Requirement α) : α :=
  r.computeMillions / m.config.unitsPerMs

/-- Whether a device may host a piece of work. -/
def isSuitable (r : Requirement α) (d : Capability α) : Bool :=
  !d.isSaturated && d.suits r

/-- The devices that may host a piece of work, restricted to the candidates if there are any
given. -/
def suitable (m : Matcher α) (r : Requirement α) (candidates : Option (List String)) :
    List (Capability α) :=
  m.devices.filter fun d =>
    (candidates.map fun ids => ids.contains d.deviceId).getD true && isSuitable r d

/-- A device that may host a piece of work, with the figures it is chosen by. -/
structure Offer (α : Type) where
  id : String
  timeMs : α
  headroomGb : α

/-- The offers of the suitable devices that have throughput left. -/
def offers (m : Matcher α) (r : Requirement α) (candidates : Option (List String)) :
    List (Offer α) :=
  let baseline := m.baselineMs r
  (m.suitable r candidates).filterMap fun d =>
    match d.executionTime baseline with
    | .ok time => some ⟨d.deviceId, time, d.headroomGb r⟩
    | .error _ => none

/-- Times below this are not told apart. -/
def leastTime : α := 1.0 / 4503599627370496.0

/-- How good an offer is under a strategy, given the shortest time and the largest headroom of all
offers. -/
def score (config : MatcherConfig α) (strategy : Strategy) (minTime maxHeadroom : α)
    (o : Offer α) : α :=
  match strategy with
  | .latency => 1.0 / max o.timeMs leastTime
  | .memory => o.headroomGb
  | .balanced =>
    let latency := if (0.0 : α) < o.timeMs then minTime / o.timeMs else 1.0
    let memory := if (0.0 : α) < maxHeadroom then o.headroomGb / maxHeadroom else 1.0
    config.latencyWeight * latency + config.memoryWeight * memory

/-- The first of the best scored ids; `best` is the best so far. -/
def firstBest (best : String × α) : List (String × α) → String × α
  | [] => best
  | x :: xs => firstBest (if best.2 < x.2 then x else best) xs

/-- The best device for a piece of work, with its score, if any device may host it. -/
def findBest? (m : Matcher α) (r : Requirement α) (strategy : Strategy)
    (candidates : Option (List String)) : Option (String × α) :=
  match m.offers r candidates with
  | [] => none
  | o :: os =>
    let minTime := (os.map (·.timeMs)).foldl min o.timeMs
    let maxHeadroom := (os.map (·.headroomGb)).foldl max o.headroomGb
    let scored (x : Offer α) := (x.id, score m.config strategy minTime maxHeadroom x)
    some (firstBest (scored o) (os.map scored))

/-- Layer names by device. -/
abbrev Assignment := Dictionary (List String)

/-- A device without the memory that a piece of work takes, at least zero. -/
def charge (r : Requirement α) (d : Capability α) : Capability α :=
  { d with availableGb := max (d.availableGb - r.memoryGb) 0.0 }

/-- Places pieces of work one after the other, each on the best device that its predecessors left
room on. The flag tells whether all were placed. -/
def placeAll (m : Matcher α) (strategy : Strategy) (done : Assignment) :
    List (Requirement α) → Bool × Assignment
  | [] => (true, done)
  | r :: rs =>
    match m.findBest? r strategy none with
    | none => (false, done)
    | some (id, _) =>
      placeAll (m.modify id (charge r) fun _ h => h) strategy
        (done.insert id ((done.get? id).getD [] ++ [r.layerName])) rs

/-- Places pieces of work without changing the registered devices. -/
def accommodate (m : Matcher α) (rs : List (Requirement α)) (strategy : Strategy) :
    Bool × Assignment :=
  placeAll m strategy .empty rs

/-- The devices in figures. -/
def summary (m : Matcher α) : DeviceSummary α where
  totalDevices := UInt64.ofNat m.devices.length
  byKind := .tally (m.devices.map fun d => d.kind.name)
  totalMemoryGb := Scalar.sum (m.devices.map (·.memoryGb))
  availableGb := Scalar.sum (m.devices.map (·.availableGb))
  averageScore :=
    if m.devices.isEmpty then 0.0
    else Scalar.sum (m.devices.map (·.computeScore)) / Scalar.ofNat m.devices.length

end Matcher

end LayerPipeline
