import LayerPipeline.Matcher
import LayerPipeline.Proofs.Planning.Exact
import Mathlib.Algebra.Order.Field.Basic
import Mathlib.Order.Bounds.Basic

/-!
# Selection of a device in exact arithmetic

A selection looks at the devices that may host a piece of work. It measures each of them against the
shortest time and the largest headroom among them, and keeps the first of the best.
-/

namespace LayerPipeline.Matcher

open Planning

/-! ## Devices that may host a piece of work -/

/-- A device may host a piece of work: it is among the candidates, if there are any given, it has
capacity, memory and throughput left, and half precision where it is needed. -/
structure Eligible (r : Requirement ℚ) (candidates : Option (List String)) (d : Capability ℚ) :
    Prop where
  candidate : ∀ ids, candidates = some ids → d.deviceId ∈ ids
  unsaturated : d.load < 1
  memory : r.memoryGb ≤ d.availableGb
  precision : r.requiresFp16 = true → d.hasFp16 = true
  throughput : 0 < d.computeScore * (1 - d.load)

/-- The estimated time of a piece of work on a device. -/
def timeOn (m : Matcher ℚ) (r : Requirement ℚ) (d : Capability ℚ) : ℚ :=
  r.computeMillions / m.config.unitsPerMs / (d.computeScore * (1 - d.load))

/-- The memory that a piece of work leaves on a device. -/
def headroomOn (r : Requirement ℚ) (d : Capability ℚ) : ℚ :=
  d.availableGb - r.memoryGb

/-- What a device is worth under a strategy, given the shortest time and the largest headroom of the
devices it competes with. -/
def worth (m : Matcher ℚ) (r : Requirement ℚ) (strategy : Strategy) (shortest largest : ℚ)
    (d : Capability ℚ) : ℚ :=
  match strategy with
  | .latency => 1 / max (m.timeOn r d) (1 / 2 ^ 52)
  | .memory => headroomOn r d
  | .balanced =>
    m.config.latencyWeight * (if 0 < m.timeOn r d then shortest / m.timeOn r d else 1) +
      m.config.memoryWeight * (if 0 < largest then headroomOn r d / largest else 1)

section Offers

variable {m : Matcher ℚ} {r : Requirement ℚ} {candidates : Option (List String)}
  {d : Capability ℚ}

theorem isSaturated_exact : d.isSaturated = true ↔ 1 ≤ d.load := by
  rw [Capability.isSaturated, decide_eq_true_iff, one_exact]

theorem suits_exact : d.suits r = true ↔
    r.memoryGb ≤ d.availableGb ∧ (r.requiresFp16 = true → d.hasFp16 = true) := by
  have hmemory : decide (d.availableGb < r.memoryGb) = false ↔ r.memoryGb ≤ d.availableGb :=
    decide_eq_false_iff_not.trans not_lt
  simp only [Capability.suits, Bool.and_eq_true, Bool.not_eq_true', Bool.or_eq_true]
  rw [← hmemory]
  cases r.requiresFp16 <;> simp

theorem executionTime_exact {baseline t : ℚ} : d.executionTime baseline = .ok t ↔
    d.load < 1 ∧ 0 < d.computeScore * (1 - d.load) ∧
      t = baseline / (d.computeScore * (1 - d.load)) := by
  have hstop : (d.isSaturated || decide (d.computeScore * (1 - d.load) ≤ 0)) = true ↔
      ¬(d.load < 1 ∧ 0 < d.computeScore * (1 - d.load)) := by
    simp only [Bool.or_eq_true, isSaturated_exact, decide_eq_true_eq, not_and_or, not_lt]
  simp only [Capability.executionTime]
  rw [one_exact, zero_exact]
  change (if (d.isSaturated || decide (d.computeScore * (1 - d.load) ≤ 0)) = true then _
    else Except.ok (baseline / (d.computeScore * (1 - d.load)))) = _ ↔ _
  split
  · next hsaturated =>
    have hnot := hstop.mp hsaturated
    simp only [reduceCtorEq, false_iff]
    exact fun h => hnot ⟨h.1, h.2.1⟩
  · next hfree =>
    obtain ⟨hload, hthroughput⟩ := not_not.mp fun h => hfree (hstop.mpr h)
    simp only [Except.ok.injEq, hload, hthroughput, true_and]
    exact eq_comm

/-- What a device offers for a piece of work, if it may host it. -/
def offer? (m : Matcher ℚ) (r : Requirement ℚ) (candidates : Option (List String))
    (d : Capability ℚ) : Option (Offer ℚ) :=
  if (candidates.map fun ids => ids.contains d.deviceId).getD true && isSuitable r d then
    match d.executionTime (m.baselineMs r) with
    | .ok time => some ⟨d.deviceId, time, d.headroomGb r⟩
    | .error _ => none
  else none

theorem offers_eq : m.offers r candidates = m.devices.filterMap (m.offer? r candidates) := by
  simp only [offers, suitable, List.filterMap_filter]
  congr 1
  funext d
  unfold offer?
  cases d.executionTime (m.baselineMs r) <;> rfl

theorem candidate_iff : (candidates.map fun ids => ids.contains d.deviceId).getD true = true ↔
    ∀ ids, candidates = some ids → d.deviceId ∈ ids := by
  cases candidates <;> simp

theorem offer?_eq_some_iff {o : Offer ℚ} : m.offer? r candidates d = some o ↔
    Eligible r candidates d ∧ o = ⟨d.deviceId, m.timeOn r d, headroomOn r d⟩ := by
  unfold offer?
  constructor
  · intro h
    split at h
    · next hsuitable =>
      simp only [isSuitable, Bool.and_eq_true, candidate_iff, suits_exact] at hsuitable
      obtain ⟨hcandidate, -, hmemory, hprecision⟩ := hsuitable
      split at h
      · next time htime =>
        obtain ⟨hload, hthroughput, rfl⟩ := executionTime_exact.mp htime
        cases h
        exact ⟨⟨hcandidate, hload, hmemory, hprecision, hthroughput⟩, rfl⟩
      · cases h
    · cases h
  · rintro ⟨h, rfl⟩
    have hload : d.isSaturated = false := by
      rw [← Bool.not_eq_true, isSaturated_exact, not_le]
      exact h.unsaturated
    have htime : d.executionTime (m.baselineMs r) = .ok (m.timeOn r d) :=
      executionTime_exact.mpr ⟨h.unsaturated, h.throughput, rfl⟩
    rw [if_pos, htime]
    · rfl
    · simp only [isSuitable, Bool.and_eq_true, candidate_iff, suits_exact]
      exact ⟨h.candidate, by simp [hload], h.memory, h.precision⟩

theorem offer?_eq_none_iff : m.offer? r candidates d = none ↔ ¬Eligible r candidates d := by
  rw [Option.eq_none_iff_forall_ne_some]
  simp only [Ne, offer?_eq_some_iff, not_and]
  constructor
  · exact fun h heligible => h _ heligible rfl
  · exact fun h o heligible => absurd heligible h

theorem mem_offers {o : Offer ℚ} : o ∈ m.offers r candidates ↔
    ∃ d ∈ m.devices, Eligible r candidates d ∧
      o = ⟨d.deviceId, m.timeOn r d, headroomOn r d⟩ := by
  simp only [offers_eq, List.mem_filterMap, offer?_eq_some_iff]

/-- The offers stand in the order of their devices. -/
theorem offers_split {before after : List (Offer ℚ)} {x : Offer ℚ}
    (h : m.offers r candidates = before ++ x :: after) :
    ∃ front d back, m.devices = front ++ d :: back ∧ Eligible r candidates d ∧
      x = ⟨d.deviceId, m.timeOn r d, headroomOn r d⟩ ∧ ∀ e ∈ front, Eligible r candidates e →
        ⟨e.deviceId, m.timeOn r e, headroomOn r e⟩ ∈ before := by
  rw [offers_eq, List.filterMap_eq_append_iff] at h
  obtain ⟨front, rest, hdevices, hbefore, hrest⟩ := h
  obtain ⟨skipped, d, back, rfl, hskipped, hd, -⟩ := List.filterMap_eq_cons_iff.mp hrest
  obtain ⟨heligible, hx⟩ := offer?_eq_some_iff.mp hd
  refine ⟨front ++ skipped, d, back, by simp [hdevices], heligible, hx, fun e he hhosts => ?_⟩
  rcases List.mem_append.mp he with he | he
  · rw [← hbefore, List.mem_filterMap]
    exact ⟨e, he, offer?_eq_some_iff.mpr ⟨hhosts, rfl⟩⟩
  · exact absurd hhosts (offer?_eq_none_iff.mp (hskipped e he))

/-- A figure of the offers is that figure of the devices that may host the piece of work. -/
theorem mem_map_offers (f : Offer ℚ → ℚ) {o : Offer ℚ} {os : List (Offer ℚ)}
    (h : m.offers r candidates = o :: os) (q : ℚ) :
    q ∈ f o :: os.map f ↔ ∃ e ∈ m.devices, Eligible r candidates e ∧
      f ⟨e.deviceId, m.timeOn r e, headroomOn r e⟩ = q := by
  rw [← List.map_cons, ← h, List.mem_map]
  simp only [mem_offers]
  constructor
  · rintro ⟨_, ⟨e, he, hhosts, rfl⟩, rfl⟩
    exact ⟨e, he, hhosts, rfl⟩
  · rintro ⟨e, he, hhosts, rfl⟩
    exact ⟨_, ⟨e, he, hhosts, rfl⟩, rfl⟩

theorem isLeast_times {o : Offer ℚ} {os : List (Offer ℚ)}
    (h : m.offers r candidates = o :: os) :
    IsLeast {t | ∃ e ∈ m.devices, Eligible r candidates e ∧ m.timeOn r e = t}
      ((os.map (·.timeMs)).foldl Scalar.toMin.min o.timeMs) := by
  have hmem := mem_map_offers (·.timeMs) h
  obtain ⟨hfound, hle⟩ := List.min?_eq_some_iff.mp (min?_cons_exact o.timeMs (os.map (·.timeMs)))
  exact ⟨(hmem _).mp hfound, fun t ht => hle t ((hmem t).mpr ht)⟩

theorem isGreatest_headrooms {o : Offer ℚ} {os : List (Offer ℚ)}
    (h : m.offers r candidates = o :: os) :
    IsGreatest {g | ∃ e ∈ m.devices, Eligible r candidates e ∧ headroomOn r e = g}
      ((os.map (·.headroomGb)).foldl Scalar.toMax.max o.headroomGb) := by
  have hmem := mem_map_offers (·.headroomGb) h
  obtain ⟨hfound, hle⟩ :=
    List.max?_eq_some_iff.mp (max?_cons_exact o.headroomGb (os.map (·.headroomGb)))
  exact ⟨(hmem _).mp hfound, fun g hg => hle g ((hmem g).mpr hg)⟩

/-! ## The first of the best -/

theorem score_exact (strategy : Strategy) (shortest largest : ℚ) :
    score m.config strategy shortest largest ⟨d.deviceId, m.timeOn r d, headroomOn r d⟩ =
      m.worth r strategy shortest largest d := by
  have hleast : (leastTime : ℚ) = 1 / 2 ^ 52 := by decide +kernel
  cases strategy with
  | latency =>
    simp only [score, worth]
    rw [max_exact, one_exact, hleast]
  | memory => rfl
  | balanced =>
    simp only [score, worth]
    rw [one_exact, zero_exact]

/-- What is kept stands somewhere in the list: all before it score less, and none scores more. -/
theorem exists_firstBest (f : Offer ℚ → String × ℚ) (o : Offer ℚ) (os : List (Offer ℚ)) :
    ∃ before x after, o :: os = before ++ x :: after ∧ firstBest (f o) (os.map f) = f x ∧
      (∀ y ∈ before, (f y).2 < (f x).2) ∧ ∀ y ∈ after, (f y).2 ≤ (f x).2 := by
  induction os generalizing o with
  | nil => exact ⟨[], o, [], by simp [firstBest]⟩
  | cons p os ih =>
    have hstep : firstBest (f o) ((p :: os).map f) =
        firstBest (if (f o).2 < (f p).2 then f p else f o) (os.map f) := rfl
    rw [hstep]
    by_cases hp : (f o).2 < (f p).2
    · rw [if_pos hp]
      obtain ⟨before, x, after, hsplit, hbest, hbefore, hafter⟩ := ih p
      have hle : (f p).2 ≤ (f x).2 := by
        have hmem : p ∈ before ++ x :: after := by simp [← hsplit]
        rcases List.mem_append.mp hmem with hmem | hmem
        · exact (hbefore p hmem).le
        · rcases List.mem_cons.mp hmem with rfl | hmem
          · exact le_rfl
          · exact hafter p hmem
      refine ⟨o :: before, x, after, by rw [hsplit, List.cons_append], hbest, ?_, hafter⟩
      exact List.forall_mem_cons.mpr ⟨hp.trans_le hle, hbefore⟩
    · rw [if_neg hp]
      have hle : (f p).2 ≤ (f o).2 := not_lt.mp hp
      obtain ⟨before, x, after, hsplit, hbest, hbefore, hafter⟩ := ih o
      -- the entry that was passed over stands right behind the one that was kept
      cases before with
      | nil =>
        obtain ⟨rfl, rfl⟩ := List.cons.inj hsplit
        exact ⟨[], o, p :: os, rfl, hbest, by simp, List.forall_mem_cons.mpr ⟨hle, hafter⟩⟩
      | cons o' before =>
        obtain ⟨rfl, rfl⟩ := List.cons.inj hsplit
        obtain ⟨hlt, hbefore⟩ := List.forall_mem_cons.mp hbefore
        refine ⟨o :: p :: before, x, after, rfl, hbest, ?_, hafter⟩
        simp only [List.forall_mem_cons]
        exact ⟨hlt, hle.trans_lt hlt, hbefore⟩

end Offers

/-! ## Results of a selection -/

variable (m : Matcher ℚ) (r : Requirement ℚ) (strategy : Strategy)
  (candidates : Option (List String))

/-- A device is the one to choose: it may host the piece of work, no other device that may is worth
more, and those of them registered before it are worth less. -/
structure Chosen (shortest largest : ℚ) (d : Capability ℚ) : Prop where
  eligible : Eligible r candidates d
  /-- The shortest time of all devices that may host the piece of work. -/
  least : IsLeast {t | ∃ e ∈ m.devices, Eligible r candidates e ∧ m.timeOn r e = t} shortest
  /-- The largest headroom of all devices that may host the piece of work. -/
  greatest : IsGreatest {g | ∃ e ∈ m.devices, Eligible r candidates e ∧ headroomOn r e = g} largest
  best : ∀ e ∈ m.devices, Eligible r candidates e →
    m.worth r strategy shortest largest e ≤ m.worth r strategy shortest largest d
  first : ∃ before after, m.devices = before ++ d :: after ∧ ∀ e ∈ before,
    Eligible r candidates e →
      m.worth r strategy shortest largest e < m.worth r strategy shortest largest d

variable {m r strategy candidates}

theorem Chosen.mem {shortest largest : ℚ} {d : Capability ℚ}
    (h : m.Chosen r strategy candidates shortest largest d) : d ∈ m.devices := by
  obtain ⟨before, after, hsplit, -⟩ := h.first
  simp [hsplit]

theorem findBest?_eq_none_iff : m.findBest? r strategy candidates = none ↔
    ∀ d ∈ m.devices, ¬Eligible r candidates d := by
  have hnone : m.findBest? r strategy candidates = none ↔ m.offers r candidates = [] := by
    unfold findBest?
    cases m.offers r candidates <;> simp
  rw [hnone, offers_eq, List.filterMap_eq_nil_iff]
  simp only [offer?_eq_none_iff]

theorem exists_chosen {id : String} {score : ℚ}
    (h : m.findBest? r strategy candidates = some (id, score)) :
    ∃ shortest largest d, m.Chosen r strategy candidates shortest largest d ∧
      d.deviceId = id ∧ score = m.worth r strategy shortest largest d := by
  unfold findBest? at h
  cases hoffers : m.offers r candidates with
  | nil => simp [hoffers] at h
  | cons o os =>
    simp only [hoffers, Option.some.injEq] at h
    have hleast := isLeast_times hoffers
    have hgreatest := isGreatest_headrooms hoffers
    generalize (os.map (·.timeMs)).foldl Scalar.toMin.min o.timeMs = shortest at h hleast
    generalize (os.map (·.headroomGb)).foldl Scalar.toMax.max o.headroomGb = largest
      at h hgreatest
    obtain ⟨before, x, after, hsplit, hbest, hbefore, hafter⟩ := exists_firstBest
      (fun x => (x.id, Matcher.score m.config strategy shortest largest x)) o os
    obtain ⟨front, d, back, hdevices, heligible, rfl, hfront⟩ :=
      offers_split (hoffers.trans hsplit)
    rw [hbest, Prod.mk.injEq] at h
    obtain ⟨rfl, rfl⟩ := h
    refine ⟨shortest, largest, d, ⟨heligible, hleast, hgreatest, fun e he hhosts => ?_,
      front, back, hdevices, fun e he hhosts => ?_⟩, rfl, score_exact ..⟩
    · have hoffer : (⟨e.deviceId, m.timeOn r e, headroomOn r e⟩ : Offer ℚ) ∈ o :: os := by
        rw [← hoffers, mem_offers]
        exact ⟨e, he, hhosts, rfl⟩
      rw [hsplit, List.mem_append, List.mem_cons] at hoffer
      rcases hoffer with hoffer | heq | hoffer
      · have hlt := hbefore _ hoffer
        simp only [score_exact] at hlt
        exact hlt.le
      · rw [← score_exact, heq, score_exact]
      · have hle := hafter _ hoffer
        simp only [score_exact] at hle
        exact hle
    · have hlt := hbefore _ (hfront e he hhosts)
      simp only [score_exact] at hlt
      exact hlt

/-- Whether there is a device to choose, which one it is, and what it is good for. -/
theorem findBest?_first_best (m : Matcher ℚ) (r : Requirement ℚ) (strategy : Strategy)
    (candidates : Option (List String)) :
    (m.findBest? r strategy candidates = none ↔ ∀ d ∈ m.devices, ¬Eligible r candidates d) ∧
      ∀ id score, m.findBest? r strategy candidates = some (id, score) →
        ∃ shortest largest d, m.Chosen r strategy candidates shortest largest d ∧
          d.deviceId = id ∧ score = m.worth r strategy shortest largest d ∧
          (strategy = .memory → ∀ e ∈ m.devices, Eligible r candidates e →
            headroomOn r e ≤ headroomOn r d) ∧
          (strategy = .latency →
            (∀ e ∈ m.devices, Eligible r candidates e → 1 / 2 ^ 52 ≤ m.timeOn r e) →
            ∀ e ∈ m.devices, Eligible r candidates e → m.timeOn r d ≤ m.timeOn r e) := by
  refine ⟨findBest?_eq_none_iff, fun id score h => ?_⟩
  obtain ⟨shortest, largest, d, hchosen, hid, hscore⟩ := exists_chosen h
  refine ⟨shortest, largest, d, hchosen, hid, hscore, ?_, ?_⟩
  · rintro rfl
    exact hchosen.best
  · rintro rfl hslow e he hhosts
    have hbest := hchosen.best e he hhosts
    have hpos : (0 : ℚ) < 1 / 2 ^ 52 := by norm_num
    have hd := hslow d hchosen.mem hchosen.eligible
    simp only [worth, max_eq_left (hslow e he hhosts), max_eq_left hd] at hbest
    exact le_of_one_div_le_one_div (hpos.trans_le (hslow e he hhosts)) hbest

end LayerPipeline.Matcher
