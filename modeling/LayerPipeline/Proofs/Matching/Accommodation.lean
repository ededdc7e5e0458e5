import LayerPipeline.Proofs.Matching.Devices
import LayerPipeline.Proofs.Matching.Selection

/-!
# Placement of pieces of work one after the other

The devices that a placement works on are the registered ones, less the memory of what was placed on
each of them. So a piece of work that still fits there fits together with all that went before it.
-/

namespace LayerPipeline.Matcher

open Planning

/-! ## What was placed where -/

/-- A piece of work and the device that it was placed on. -/
structure Placement where
  host : String
  work : Requirement ℚ

/-- The pieces of work that were placed on a device, in the order in which they came. -/
def workOn (placed : List Placement) (id : String) : List (Requirement ℚ) :=
  (placed.filter fun p => p.host = id).map (·.work)

/-- The memory of the pieces of work that were placed on a device. -/
def heldOn (placed : List Placement) (id : String) : ℚ :=
  ((workOn placed id).map (·.memoryGb)).sum

/-- The names that were placed on a device, if any were. -/
def namesOn (placed : List Placement) (id : String) : Option (List String) :=
  if workOn placed id = [] then none else some ((workOn placed id).map (·.layerName))

/-- A device with the memory that is left on it. -/
def remaining (placed : List Placement) (d : Capability ℚ) : Capability ℚ :=
  { d with availableGb := d.availableGb - heldOn placed d.deviceId }

section Concat

variable (placed : List Placement) (p : Placement) (id : String)

theorem workOn_concat : workOn (placed ++ [p]) id =
    if id = p.host then workOn placed id ++ [p.work] else workOn placed id := by
  by_cases hid : id = p.host
  · simp [workOn, hid]
  · simp [workOn, hid, Ne.symm hid]

theorem heldOn_concat : heldOn (placed ++ [p]) id =
    if id = p.host then heldOn placed id + p.work.memoryGb else heldOn placed id := by
  rw [heldOn, workOn_concat]
  split
  · simp [heldOn]
  · rfl

theorem namesOn_concat : namesOn (placed ++ [p]) id =
    if id = p.host then some ((namesOn placed id).getD [] ++ [p.work.layerName])
    else namesOn placed id := by
  rw [namesOn, workOn_concat]
  by_cases hid : id = p.host
  · rw [if_pos hid, if_pos hid, if_neg (by simp), namesOn]
    by_cases hnil : workOn placed id = []
    · simp [hnil]
    · simp [hnil]
  · rw [if_neg hid, if_neg hid, namesOn]

theorem remaining_concat (d : Capability ℚ) : remaining (placed ++ [p]) d =
    if d.deviceId = p.host then
      { remaining placed d with
        availableGb := (remaining placed d).availableGb - p.work.memoryGb }
    else remaining placed d := by
  simp only [remaining, heldOn_concat]
  split
  · rw [sub_sub]
  · rfl

end Concat

/-! ## One placement after the other -/

/-- An assignment commits no more than there is: it lists what was placed on each device in the
order in which it came, on devices that have what it needs and memory for all of it. -/
structure Committed (m : Matcher ℚ) (placed : List Placement) (assignment : Assignment) :
    Prop where
  names : ∀ id, assignment.get? id = namesOn placed id
  hosts : ∀ p ∈ placed, ∃ d ∈ m.devices, d.deviceId = p.host ∧ d.load < 1 ∧
    (p.work.requiresFp16 = true → d.hasFp16 = true) ∧ 0 < d.computeScore * (1 - d.load)
  memory : ∀ d ∈ m.devices, heldOn placed d.deviceId ≤ d.availableGb

/-- A placement under way: the devices it works on are those of the matcher with the memory that is
left on them. -/
structure UnderWay (m : Matcher ℚ) (placed : List Placement) (scratch : Matcher ℚ)
    (assignment : Assignment) : Prop extends m.Committed placed assignment where
  left : scratch.devices = m.devices.map (remaining placed)

variable {m scratch : Matcher ℚ} {placed : List Placement} {assignment : Assignment}
  {r : Requirement ℚ} {strategy : Strategy}

theorem underWay_nil (h : ∀ d ∈ m.devices, 0 ≤ d.availableGb) : m.UnderWay [] m .empty where
  names _ := rfl
  hosts := by simp
  memory := h
  left := by
    have hsame : remaining [] = id := by
      funext d
      simp [remaining, heldOn, workOn]
    rw [hsame, List.map_id]

/-- A device that has room for a piece of work is charged just what the piece takes: what is left is
not cut off at zero. -/
theorem charge_exact {d : Capability ℚ} (h : r.memoryGb ≤ d.availableGb) :
    charge r d = { d with availableGb := d.availableGb - r.memoryGb } := by
  rw [charge, max_exact, zero_exact, max_eq_left (sub_nonneg.mpr h)]

/-- What is chosen is a registered device, with room for the piece of work in what is left on it. -/
theorem UnderWay.exists_host (h : m.UnderWay placed scratch assignment) {id : String} {score : ℚ}
    (hbest : scratch.findBest? r strategy none = some (id, score)) :
    ∃ d ∈ m.devices, d.deviceId = id ∧ Eligible r none (remaining placed d) := by
  obtain ⟨_, _, chosen, hchosen, rfl, -⟩ := exists_chosen hbest
  have hmem := hchosen.mem
  rw [h.left, List.mem_map] at hmem
  obtain ⟨d, hd, rfl⟩ := hmem
  exact ⟨d, hd, rfl, hchosen.eligible⟩

theorem UnderWay.step (h : m.UnderWay placed scratch assignment) {id : String} {score : ℚ}
    (hbest : scratch.findBest? r strategy none = some (id, score)) :
    m.UnderWay (placed ++ [⟨id, r⟩]) (scratch.modify id (charge r) fun _ h => h)
      (assignment.insert id ((assignment.get? id).getD [] ++ [r.layerName])) := by
  obtain ⟨host, hhost, rfl, heligible⟩ := h.exists_host hbest
  -- the ids are distinct, so only the chosen device has the chosen id
  have hunique : ∀ d ∈ m.devices, d.deviceId = host.deviceId → d = host := fun d hd hid => by
    have hget := get?_of_mem hd
    rw [hid, get?_of_mem hhost] at hget
    exact (Option.some.inj hget).symm
  refine ⟨⟨?names, ?hosts, ?memory⟩, ?left⟩
  case names =>
    intro id
    rw [Dictionary.get?_insert, namesOn_concat, h.names, h.names]
    by_cases hid : id = host.deviceId
    · rw [if_pos hid, if_pos hid, hid]
    · rw [if_neg hid, if_neg hid]
  case hosts =>
    intro p hp
    rcases List.mem_append.mp hp with hp | hp
    · exact h.hosts p hp
    · obtain rfl := List.mem_singleton.mp hp
      exact ⟨host, hhost, rfl, heligible.unsaturated, heligible.precision, heligible.throughput⟩
  case memory =>
    intro d hd
    rw [heldOn_concat]
    split
    · next hid =>
      obtain rfl := hunique d hd hid
      exact le_sub_iff_add_le'.mp heligible.memory
    · exact h.memory d hd
  case left =>
    refine (devices_modify _ scratch).trans ?_
    rw [h.left, List.map_map]
    refine List.map_congr_left fun d hd => ?_
    rw [remaining_concat]
    by_cases hid : d.deviceId = host.deviceId
    · have hroom : r.memoryGb ≤ (remaining placed d).availableGb :=
        hunique d hd hid ▸ heligible.memory
      rw [if_pos hid, ← charge_exact hroom]
      exact if_pos hid
    · rw [if_neg hid]
      exact if_neg hid

/-- A placement that is under way ends with what was placed before, and with an initial part of the
sequence: all of it, or the part before a piece of work that no device has room for. -/
theorem UnderWay.placeAll (rs : List (Requirement ℚ))
    (h : m.UnderWay placed scratch assignment) :
    ∃ more, m.Committed (placed ++ more) (scratch.placeAll strategy assignment rs).2 ∧
      ((scratch.placeAll strategy assignment rs).1 = true → more.map (·.work) = rs) ∧
      ((scratch.placeAll strategy assignment rs).1 = false →
        ∃ r rest, rs = more.map (·.work) ++ r :: rest ∧
          ∀ d ∈ m.devices, ¬Eligible r none (remaining (placed ++ more) d)) := by
  induction rs generalizing placed scratch assignment with
  | nil =>
    refine ⟨[], ?_, fun _ => rfl, fun hflag => ?_⟩
    · rw [List.append_nil]
      exact h.toCommitted
    · cases hflag
  | cons r rs ih =>
    cases hbest : scratch.findBest? r strategy none with
    | none =>
      have hstop : scratch.placeAll strategy assignment (r :: rs) = (false, assignment) := by
        simp only [Matcher.placeAll, hbest]
      have hnone := findBest?_eq_none_iff.mp hbest
      rw [h.left, List.forall_mem_map] at hnone
      rw [hstop]
      refine ⟨[], by simpa using h.toCommitted, by simp, fun _ => ⟨r, rs, rfl, ?_⟩⟩
      simpa using hnone
    | some found =>
      obtain ⟨more, hcommitted, hall, hpart⟩ := ih (h.step hbest)
      rw [List.append_assoc] at hcommitted
      simp only [List.append_assoc] at hpart
      simp only [Matcher.placeAll, hbest]
      refine ⟨⟨found.1, r⟩ :: more, hcommitted, fun hflag => ?_, fun hflag => ?_⟩
      · rw [List.map_cons, hall hflag]
      · obtain ⟨r', rest, hrs, hfull⟩ := hpart hflag
        exact ⟨r', rest, by rw [hrs]; rfl, hfull⟩

/-- An assignment distributes an initial part of the pieces of work over devices that have what they
need and memory for all of it. The part is the whole sequence, or it ends before a piece of work
that no device can host with the memory that is left. -/
theorem accommodate_commits (m : Matcher ℚ) (hm : ∀ d ∈ m.devices, 0 ≤ d.availableGb)
    (rs : List (Requirement ℚ)) (strategy : Strategy) :
    ∃ placed, m.Committed placed (m.accommodate rs strategy).2 ∧
      ((m.accommodate rs strategy).1 = true → placed.map (·.work) = rs) ∧
      ((m.accommodate rs strategy).1 = false →
        ∃ r rest, rs = placed.map (·.work) ++ r :: rest ∧
          ∀ d ∈ m.devices, ¬Eligible r none (remaining placed d)) :=
  (underWay_nil hm).placeAll rs

private def fourAndTwo : Matcher ℚ :=
  run .standard [.register ((Capability.basic "a" .cpu).withMemory 4 4),
    .register ((Capability.basic "b" .cpu).withMemory 2 2)]

private def threeTwoTwo : List (Requirement ℚ) :=
  [.basic "x" "linear" 3 1, .basic "y" "linear" 2 1, .basic "z" "linear" 2 1]

/-- Devices of four and two gigabytes have room for three and two gigabytes. Then one gigabyte is
left, and the third piece of work goes nowhere. -/
theorem accommodate_commits_out_of_room :
    (fourAndTwo.accommodate threeTwoTwo .balanced).1 = false ∧
      (fourAndTwo.accommodate threeTwoTwo .balanced).2.entries = [("a", ["x"]), ("b", ["y"])] ∧
      ∃ placed, fourAndTwo.Committed placed (fourAndTwo.accommodate threeTwoTwo .balanced).2 ∧
        ∃ r rest, threeTwoTwo = placed.map (·.work) ++ r :: rest ∧
          ∀ d ∈ fourAndTwo.devices, ¬Eligible r none (remaining placed d) := by
  have hstopped : (fourAndTwo.accommodate threeTwoTwo .balanced).1 = false := by decide +kernel
  have hm : ∀ d ∈ fourAndTwo.devices, 0 ≤ d.availableGb := by decide +kernel
  obtain ⟨placed, hcommitted, -, hrest⟩ := accommodate_commits fourAndTwo hm threeTwoTwo .balanced
  exact ⟨hstopped, by decide +kernel, placed, hcommitted, hrest hstopped⟩

end LayerPipeline.Matcher
