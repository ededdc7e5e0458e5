import LayerPipeline.Proofs.Service.Reserved
import LayerPipeline.Proofs.Service.Roster
import Mathlib.Data.List.Induction

/-!
# Reservations beyond what is available

A node may be asked for more memory than it has left. Its entry counts what was asked for, while
its device never falls below nothing available. A release gives back what was asked for. In exact
arithmetic no memory is ever lost that way; but a release from a node that is overcommitted makes
memory available that other reservations still hold.
-/

namespace LayerPipeline

open Planning

namespace Registry

/-! ## The figures of a node -/

/-- The memory of a node: reserved by its entry, available and in all by its device. -/
structure Account where
  reservedGb : ℚ
  availableGb : ℚ
  memoryGb : ℚ
deriving DecidableEq

/-- The memory of a node that is registered and has a device. -/
def account? (r : Registry ℚ) (id : String) : Option Account := do
  let n ← r.get? id
  let d ← r.matcher.get? id
  return ⟨n.reservedGb, d.availableGb, d.memoryGb⟩

theorem account?_eq_some {r : Registry ℚ} {id : String} {account : Account} :
    r.account? id = some account ↔ ∃ n d, r.get? id = some n ∧ r.matcher.get? id = some d ∧
      ⟨n.reservedGb, d.availableGb, d.memoryGb⟩ = account := by
  simp [account?, Option.bind_eq_some_iff]

theorem setAvailable_exact {m : Matcher ℚ} {id : String} {d : Capability ℚ}
    (hd : m.get? id = some d) (hmemory : 0 ≤ d.memoryGb) (gb : ℚ) :
    m.setAvailable id gb = .ok (m.modify id
      (fun d' => { d' with availableGb := max 0 (min gb d.memoryGb) }) fun _ h => h) := by
  have hbounds : (Scalar.toOfScientific.ofScientific 0 true 1 : ℚ) ≤ d.memoryGb := by
    rw [zero_exact]
    exact hmemory
  have hclamp : Scalar.clamp? gb (Scalar.toOfScientific.ofScientific 0 true 1) d.memoryGb =
      some (max 0 (min gb d.memoryGb)) := by
    rw [← clamp_exact gb hmemory]
    exact if_pos hbounds
  simp only [Matcher.setAvailable, hd, hclamp]

/-- What is available on a node after an operation that reserves or releases memory. -/
def availableAfter (id : String) (memoryGb availableGb : ℚ) : Operation ℚ → ℚ
  | .reserve k gb => if k = id then max 0 (min (availableGb - gb) memoryGb) else availableGb
  | .release k gb => if k = id then max 0 (min (availableGb + gb) memoryGb) else availableGb
  | _ => availableGb

section Step

variable {r r' : Registry ℚ} {id k : String} {x a m : ℚ}

theorem account?_congr (hnode : r'.get? id = r.get? id)
    (hdevice : r'.matcher.get? id = r.matcher.get? id) : r'.account? id = r.account? id := by
  rw [account?, account?, hnode, hdevice]

theorem get?_setAvailable_of_ne (hk : id ≠ k) {matcher matcher' : Matcher ℚ} {gb : ℚ}
    (h : matcher.setAvailable k gb = .ok matcher') : matcher'.get? id = matcher.get? id := by
  unfold Matcher.setAvailable at h
  split at h
  · cases h
  · split at h
    · cases h
    · next available _ =>
      cases h
      rw [Matcher.get?_modify_eq_ite, if_neg hk]

theorem account?_reserve_of_ne (hk : id ≠ k) (gb : ℚ) :
    (r.after (.reserve k gb)).account? id = r.account? id := by
  simp only [after, perform]
  cases hreserve : r.reserve k gb with
  | error => rfl
  | ok r' =>
    unfold reserve at hreserve
    split at hreserve
    · split at hreserve
      · cases hreserve
      · next hset =>
        cases hreserve
        exact account?_congr (get?_of_modify_of_ne rfl hk) (get?_setAvailable_of_ne hk hset)
    · cases hreserve

theorem account?_release_of_ne (hk : id ≠ k) (gb : ℚ) :
    (r.after (.release k gb)).account? id = r.account? id := by
  simp only [after, perform]
  cases hrelease : r.release k gb with
  | error => rfl
  | ok r' =>
    unfold release at hrelease
    split at hrelease
    · cases hrelease
      rfl
    · next n _ =>
      simp only at hrelease
      split at hrelease
      · next hset =>
        cases hrelease
        exact account?_congr (get?_of_modify_of_ne rfl hk) (get?_setAvailable_of_ne hk hset)
      · cases hrelease
      · cases hrelease
        exact account?_congr (get?_of_modify_of_ne rfl hk) rfl

/-- Both figures of a node are set. -/
theorem account?_set (h : r.account? id = some ⟨x, a, m⟩) (f : ℚ → ℚ) (gb : ℚ) :
    account? { r.modify id (fun n => { n with reservedGb := f n.reservedGb }) fun _ h => h with
      matcher := r.matcher.modify id (fun d => { d with availableGb := gb }) fun _ h => h } id =
      some ⟨f x, gb, m⟩ := by
  obtain ⟨n, d, hn, hd, heq⟩ := account?_eq_some.mp h
  cases heq
  refine account?_eq_some.mpr
    ⟨{ n with reservedGb := f n.reservedGb }, { d with availableGb := gb }, ?_, ?_, rfl⟩
  · refine (get?_of_modify rfl id).trans ?_
    rw [if_pos rfl, hn]
    rfl
  · rw [Matcher.get?_modify_eq_ite, if_pos rfl, hd]
    rfl

theorem account?_reserve (h : r.account? id = some ⟨x, a, m⟩) (hm : 0 ≤ m) (gb : ℚ) :
    (r.after (.reserve id gb)).account? id = some ⟨x + gb, max 0 (min (a - gb) m), m⟩ := by
  have hset := account?_set h (· + gb) (max 0 (min (a - gb) m))
  obtain ⟨n, d, hn, hd, heq⟩ := account?_eq_some.mp h
  cases heq
  have hcontains : r.contains id = true := by
    obtain ⟨hmem, hid⟩ := get?_eq_some hn
    exact contains_eq_true_iff.mpr (hid ▸ List.mem_map_of_mem hmem)
  have havailable : r.availableGb id = d.availableGb := by simp [availableGb, hd]
  simp only [after, perform, reserve, hcontains, if_true, havailable,
    setAvailable_exact hd hm]
  exact hset

theorem account?_release (h : r.account? id = some ⟨x, a, m⟩) (hm : 0 ≤ m) {gb : ℚ}
    (hgb : gb ≤ x) :
    (r.after (.release id gb)).account? id = some ⟨x - gb, max 0 (min (a + gb) m), m⟩ := by
  have hset := account?_set h (· - gb) (max 0 (min (a + gb) m))
  obtain ⟨n, d, hn, hd, heq⟩ := account?_eq_some.mp h
  cases heq
  have hreturned : Scalar.toMin.min gb n.reservedGb = gb := by
    rw [min_exact, min_eq_left hgb]
  have havailable : r.availableGb id = d.availableGb := by simp [availableGb, hd]
  simp only [after, perform, release, hn, hreturned, havailable, setAvailable_exact hd hm]
  exact hset

end Step

/-! ## Outstanding reservations -/

/-- The outstanding reservations after an operation: a reservation becomes one, and a release ends
one of the same node and amount. Nothing else is meant. -/
def settle? (held : List (String × ℚ)) : Operation ℚ → Option (List (String × ℚ))
  | .reserve id gb => if 0 ≤ gb then some ((id, gb) :: held) else none
  | .release id gb => if (id, gb) ∈ held then some (held.erase (id, gb)) else none
  | _ => none

/-- The outstanding reservations after operations of which each release ends an earlier
reservation. -/
def held? (ops : List (Operation ℚ)) : Option (List (String × ℚ)) := ops.foldlM settle? []

/-- What reservations hold of a node. -/
def heldOn (id : String) (held : List (String × ℚ)) : ℚ :=
  ((held.filter fun e => e.1 = id).map (·.2)).sum

theorem heldOn_cons (id : String) (e : String × ℚ) (held : List (String × ℚ)) :
    heldOn id (e :: held) = (if e.1 = id then e.2 else 0) + heldOn id held := by
  by_cases hid : e.1 = id <;> simp [heldOn, hid]

theorem heldOn_erase {id : String} {e : String × ℚ} {held : List (String × ℚ)} (he : e ∈ held) :
    heldOn id (held.erase e) = heldOn id held - if e.1 = id then e.2 else 0 := by
  have hperm := (List.perm_cons_erase he).filter fun e => e.1 = id
  have hsum : heldOn id held = heldOn id (e :: held.erase e) := (hperm.map Prod.snd).sum_eq
  rw [hsum, heldOn_cons]
  ring

theorem heldOn_nonneg {held : List (String × ℚ)} (h : ∀ e ∈ held, 0 ≤ e.2) (id : String) :
    0 ≤ heldOn id held := by
  refine List.sum_nonneg fun x hx => ?_
  obtain ⟨e, he, rfl⟩ := List.mem_map.mp hx
  exact h e (List.mem_of_mem_filter he)

theorem held?_append (ops : List (Operation ℚ)) (op : Operation ℚ) :
    held? (ops ++ [op]) = (held? ops).bind fun held => settle? held op := by
  simp only [held?, List.foldlM_append, List.foldlM_cons, List.foldlM_nil]
  cases List.foldlM settle? [] ops with
  | none => rfl
  | some held => simp

theorem held?_initial {before ops : List (Operation ℚ)} (h : before <+: ops)
    (hops : (held? ops).isSome) : ∃ held, held? before = some held := by
  obtain ⟨later, rfl⟩ := h
  rw [held?, List.foldlM_append] at hops
  cases hbefore : held? before with
  | some held => exact ⟨held, rfl⟩
  | none =>
    rw [show before.foldlM settle? [] = none from hbefore] at hops
    cases hops

theorem settle?_cases {held held' : List (String × ℚ)} {op : Operation ℚ}
    (h : settle? held op = some held') :
    (∃ id gb, op = .reserve id gb ∧ 0 ≤ gb ∧ held' = (id, gb) :: held) ∨
    ∃ id gb, op = .release id gb ∧ (id, gb) ∈ held ∧ held' = held.erase (id, gb) := by
  cases op with
  | reserve id gb =>
    obtain ⟨hgb, heq⟩ := Option.ite_none_right_eq_some.mp h
    exact .inl ⟨id, gb, rfl, hgb, (Option.some.inj heq).symm⟩
  | release id gb =>
    obtain ⟨hmem, heq⟩ := Option.ite_none_right_eq_some.mp h
    exact .inr ⟨id, gb, rfl, hmem, (Option.some.inj heq).symm⟩
  | _ => cases h

theorem held?_nonneg {ops : List (Operation ℚ)} {held : List (String × ℚ)}
    (h : held? ops = some held) : ∀ e ∈ held, 0 ≤ e.2 := by
  induction ops using List.reverseRecOn generalizing held with
  | nil =>
    cases h
    simp
  | append_singleton ops op ih =>
    rw [held?_append, Option.bind_eq_some_iff] at h
    obtain ⟨before, hbefore, hsettle⟩ := h
    rcases settle?_cases hsettle with ⟨id, gb, -, hgb, rfl⟩ | ⟨id, gb, -, -, rfl⟩
    · exact List.forall_mem_cons.mpr ⟨hgb, ih hbefore⟩
    · exact fun e he => ih hbefore e (List.mem_of_mem_erase he)

theorem le_heldOn {id : String} {gb : ℚ} {held : List (String × ℚ)} (h : ∀ e ∈ held, 0 ≤ e.2)
    (hmem : (id, gb) ∈ held) : gb ≤ heldOn id held := by
  have hrest : 0 ≤ heldOn id (held.erase (id, gb)) :=
    heldOn_nonneg (fun e he => h e (List.mem_of_mem_erase he)) id
  rw [heldOn_erase hmem, if_pos rfl] at hrest
  linarith

/-! ## Sequences of reservations and releases -/

/-- An operation moves the figures of a node as its reservations and releases say. -/
theorem account?_step {r : Registry ℚ} {id : String} {a m : ℚ} {held held' : List (String × ℚ)}
    {op : Operation ℚ} (h : r.account? id = some ⟨heldOn id held, a, m⟩) (hm : 0 ≤ m)
    (hnonneg : ∀ e ∈ held, 0 ≤ e.2) (hsettle : settle? held op = some held') :
    (r.after op).account? id = some ⟨heldOn id held', availableAfter id m a op, m⟩ := by
  rcases settle?_cases hsettle with ⟨k, gb, rfl, -, rfl⟩ | ⟨k, gb, rfl, hmem, rfl⟩
  · by_cases hk : k = id
    · subst hk
      simp [account?_reserve h hm, heldOn_cons, availableAfter, add_comm]
    · simp [account?_reserve_of_ne (Ne.symm hk), h, heldOn_cons, availableAfter, hk]
  · by_cases hk : k = id
    · subst hk
      simp [account?_release h hm (le_heldOn hnonneg hmem), heldOn_erase hmem, availableAfter]
    · simp [account?_release_of_ne (Ne.symm hk), h, heldOn_erase hmem, availableAfter, hk]

/-! ## What is left of the memory -/

section Left

variable {a m s g : ℚ}

theorem reserve_left (ham : a ≤ m) (hs : 0 ≤ s) (hg : 0 ≤ g) :
    max 0 (min (max 0 (a - s) - g) m) = max 0 (a - (g + s)) := by
  grind

/-- A release restores what the other reservations leave, unless they exceed what there was. -/
theorem release_left_iff (ha : 0 ≤ a) (ham : a ≤ m) (hg : 0 ≤ g) (hgs : g ≤ s) :
    max 0 (min (max 0 (a - s) + g) m) = max 0 (a - (s - g)) ↔
      s ≤ a ∨ g = 0 ∨ m = 0 ∨ g = s ∧ a = m := by
  by_cases hover : s ≤ a
  · have hall : a - s + g ≤ m := by linarith
    rw [max_eq_right (sub_nonneg.mpr hover), min_eq_left hall, sub_sub_eq_add_sub,
      sub_add_eq_add_sub]
    simp [hover]
  · -- Nothing is available, and all of `g` becomes so, where only `g - (s - a)` is left.
    have hnone : max 0 (a - s) = 0 := max_eq_left (by linarith)
    rw [hnone, zero_add, max_eq_right (le_min hg (ha.trans ham))]
    grind

/-- No step makes less available than the outstanding reservations leave. -/
theorem left_le_availableAfter {id : String} {x : ℚ} {held held' : List (String × ℚ)}
    {op : Operation ℚ} (ham : a ≤ m) (hnonneg : ∀ e ∈ held', 0 ≤ e.2)
    (hsettle : settle? held op = some held') (hlow : max 0 (a - heldOn id held) ≤ x)
    (hhigh : x ≤ m) :
    max 0 (a - heldOn id held') ≤ availableAfter id m x op ∧ availableAfter id m x op ≤ m := by
  have hleft := heldOn_nonneg hnonneg id
  rcases settle?_cases hsettle with ⟨k, gb, rfl, hgb, rfl⟩ | ⟨k, gb, rfl, hmem, rfl⟩
  · rw [heldOn_cons] at hleft ⊢
    simp only [availableAfter]
    grind
  · rw [heldOn_erase hmem] at hleft ⊢
    simp only [availableAfter]
    grind

/-- What the outstanding reservations leave stays exactly what is available, except by a release
while they hold more than there was. -/
theorem availableAfter_left_iff (id : String) {held held' : List (String × ℚ)}
    {op : Operation ℚ} (ha : 0 ≤ a) (ham : a ≤ m) (hnonneg : ∀ e ∈ held, 0 ≤ e.2)
    (hsettle : settle? held op = some held') :
    availableAfter id m (max 0 (a - heldOn id held)) op = max 0 (a - heldOn id held') ↔
      ∀ gb, op = .release id gb →
        heldOn id held ≤ a ∨ gb = 0 ∨ m = 0 ∨ gb = heldOn id held ∧ a = m := by
  rcases settle?_cases hsettle with ⟨k, gb, rfl, hgb, rfl⟩ | ⟨k, gb, rfl, hmem, rfl⟩
  · by_cases hk : k = id
    · simp [availableAfter, heldOn_cons, hk, reserve_left ham (heldOn_nonneg hnonneg id) hgb]
    · simp [availableAfter, heldOn_cons, hk]
  · by_cases hk : k = id
    · subst hk
      rw [availableAfter, if_pos rfl, heldOn_erase hmem, if_pos rfl,
        release_left_iff ha ham (hnonneg _ hmem) (le_heldOn hnonneg hmem)]
      simp
    · simp [availableAfter, heldOn_erase hmem, hk]

end Left

section Run

variable {r : Registry ℚ} {id : String} {a m : ℚ} {ops : List (Operation ℚ)}
  {held : List (String × ℚ)}

theorem account?_run (hstart : r.account? id = some ⟨0, a, m⟩) (ha : 0 ≤ a) (ham : a ≤ m)
    (hheld : held? ops = some held) :
    ∃ x, (ops.foldl after r).account? id = some ⟨heldOn id held, x, m⟩ ∧
      max 0 (a - heldOn id held) ≤ x ∧ x ≤ m := by
  induction ops using List.reverseRecOn generalizing held with
  | nil =>
    cases hheld
    exact ⟨a, hstart, by simp [heldOn, ha], ham⟩
  | append_singleton ops op ih =>
    have hnonneg := held?_nonneg hheld
    rw [held?_append, Option.bind_eq_some_iff] at hheld
    obtain ⟨before, hbefore, hsettle⟩ := hheld
    obtain ⟨x, haccount, hlow, hhigh⟩ := ih hbefore
    refine ⟨availableAfter id m x op, ?_, left_le_availableAfter ham hnonneg hsettle hlow hhigh⟩
    rw [List.foldl_append]
    exact account?_step haccount (ha.trans ham) (held?_nonneg hbefore) hsettle

/-- After some operations exactly that much of a node is reserved as outstanding reservations hold,
and exactly that much is available as they leave. -/
def Reconciled (r : Registry ℚ) (id : String) (a m : ℚ) (ops : List (Operation ℚ)) : Prop :=
  ∃ held, held? ops = some held ∧ (ops.foldl after r).account? id =
    some ⟨heldOn id held, max 0 (a - heldOn id held), m⟩

/-- A release after some operations gives back nothing that was not there: the reservations hold no
more than was available at first, or nothing is given back, or the last of them gives back a whole
node. -/
def Covered (id : String) (a m : ℚ) (ops : List (Operation ℚ)) (gb : ℚ) : Prop :=
  ∃ held, held? ops = some held ∧
    (heldOn id held ≤ a ∨ gb = 0 ∨ m = 0 ∨ gb = heldOn id held ∧ a = m)

theorem reconciled_append_iff (ha : 0 ≤ a) (ham : a ≤ m) {op : Operation ℚ}
    (hops : (held? (ops ++ [op])).isSome) (h : r.Reconciled id a m ops) :
    r.Reconciled id a m (ops ++ [op]) ↔ ∀ gb, op = .release id gb → Covered id a m ops gb := by
  obtain ⟨held, hheld, haccount⟩ := h
  obtain ⟨held', hheld'⟩ := Option.isSome_iff_exists.mp hops
  have hsettle : settle? held op = some held' := by
    rw [← hheld', held?_append, hheld]
    rfl
  have hnext := account?_step haccount (ha.trans ham) (held?_nonneg hheld) hsettle
  have hleft := availableAfter_left_iff id ha ham (held?_nonneg hheld) hsettle
  simp only [Reconciled, Covered, hheld, hheld', Option.some.injEq, exists_eq_left',
    List.foldl_append, List.foldl_cons, List.foldl_nil, hnext]
  simpa using hleft

/-- The entry of a node counts exactly what the outstanding reservations hold, and its device never
less than they leave. It counts exactly what they leave, all the time, if and only if every release
is covered. -/
theorem reconciled_iff_covered (hstart : r.account? id = some ⟨0, a, m⟩) (ha : 0 ≤ a) (ham : a ≤ m)
    (hops : (held? ops).isSome) :
    (∀ before, before <+: ops → ∃ held x, held? before = some held ∧
      (before.foldl after r).account? id = some ⟨heldOn id held, x, m⟩ ∧
      max 0 (a - heldOn id held) ≤ x ∧ x ≤ m) ∧
    ((∀ before, before <+: ops → r.Reconciled id a m before) ↔
      ∀ before gb, before ++ [.release id gb] <+: ops → Covered id a m before gb) := by
  refine ⟨fun before hbefore => ?_, fun h before gb hbefore => ?_, fun h before => ?_⟩
  · obtain ⟨held, hheld⟩ := held?_initial hbefore hops
    obtain ⟨x, hx⟩ := account?_run hstart ha ham hheld
    exact ⟨held, x, hheld, hx⟩
  · have hfront := h before ((List.prefix_append _ _).trans hbefore)
    have hsome := Option.isSome_iff_exists.mpr (held?_initial hbefore hops)
    exact (reconciled_append_iff ha ham hsome hfront).mp (h _ hbefore) gb rfl
  · induction before using List.reverseRecOn with
    | nil => exact fun _ => ⟨[], rfl, by simpa [heldOn, ha] using hstart⟩
    | append_singleton before op ih =>
      intro hbefore
      have hfront := ih ((List.prefix_append _ _).trans hbefore)
      have hsome := Option.isSome_iff_exists.mpr (held?_initial hbefore hops)
      refine (reconciled_append_iff ha ham hsome hfront).mpr fun gb hop => ?_
      exact h before gb (hop ▸ hbefore)

end Run

private def eightGb : Registry ℚ :=
  run .standard [.register ⟨"w", .cpu, 100, none, some 8, 1 / 2, none, none, "w:1"⟩]

private def twiceSix : List (Operation ℚ) := [.reserve "w" 6, .reserve "w" 6, .release "w" 6]

/-- Two sessions of six gigabytes each on a node of eight: when one ends, six are available though
the other holds six of the eight. -/
theorem reconciled_iff_covered_twice_six :
    eightGb.account? "w" = some ⟨0, 8, 8⟩ ∧ held? twiceSix = some [("w", 6)] ∧
      (twiceSix.foldl after eightGb).account? "w" = some ⟨6, 6, 8⟩ ∧
      ¬ (∀ before, before <+: twiceSix → eightGb.Reconciled "w" 8 8 before) := by
  have hstart : eightGb.account? "w" = some ⟨0, 8, 8⟩ := by decide +kernel
  have hheld : held? twiceSix = some [("w", 6)] := by decide +kernel
  refine ⟨hstart, hheld, by decide +kernel, fun hall => ?_⟩
  have hiff := (reconciled_iff_covered hstart (by norm_num) le_rfl (by rw [hheld]; rfl)).2
  obtain ⟨held, hbefore, hcovered⟩ := hiff.mp hall [.reserve "w" 6, .reserve "w" 6] 6 ⟨[], rfl⟩
  have htwice : held? [.reserve "w" 6, .reserve "w" 6] = some [("w", 6), ("w", 6)] := by
    decide +kernel
  cases htwice.symm.trans hbefore
  norm_num [heldOn] at hcovered

end Registry

end LayerPipeline
