import LayerPipeline.Service.CentralMetrics
import Mathlib.Algebra.BigOperators.Group.List.Lemmas
import Mathlib.Algebra.Order.Ring.Nat
import Mathlib.Data.List.DropRight

/-!
# Collected metrics as a sliding window

However many reports have come in, the store holds the latest of them, as many as it has room for,
and counts all of them. A summary is about the reports that are held.
-/

namespace LayerPipeline

/-! ## Tallies -/

namespace Dictionary

theorem tally_append (names : List String) (name : String) :
    tally (names ++ [name]) =
      (tally names).insert name (((tally names).get? name).getD 0 + 1) :=
  List.foldl_append

/-- A tally has the names that occur, each with the number of its occurrences. -/
theorem get?_tally (names : List String) (k : String) :
    (tally names).get? k =
      if k ∈ names then some (UInt64.ofNat (names.count k)) else none := by
  induction names using List.reverseRecOn with
  | nil => rfl
  | append_singleton names name ih =>
    rw [tally_append, get?_insert]
    by_cases hk : k = name
    · subst hk
      rw [ih]
      by_cases hmem : k ∈ names
      · simp [hmem, UInt64.ofNat_add]
      · simp [hmem, List.count_eq_zero_of_not_mem hmem]
    · have hcount : [name].count k = 0 := List.count_eq_zero_of_not_mem (by simpa using hk)
      simp [hk, ih, hcount]

theorem keys_tally (names : List String) (k : String) :
    k ∈ (tally names).entries.map (·.1) ↔ k ∈ names := by
  rw [mem_keys_iff, get?_tally]
  by_cases hk : k ∈ names <;> simp [hk]

theorem toNat_of_mem_tally {names : List String} (h : names.length < UInt64.size)
    {e : String × UInt64} (he : e ∈ (tally names).entries) : e.2.toNat = names.count e.1 := by
  have hmem : e.1 ∈ names := (keys_tally names e.1).mp (List.mem_map_of_mem he)
  have hget := (mem_entries_iff _ e.1 e.2).mp he
  rw [get?_tally, if_pos hmem] at hget
  rw [← Option.some.inj hget]
  exact UInt64.toNat_ofNat_of_lt' (Nat.lt_of_le_of_lt List.count_le_length h)

theorem sum_tally {names : List String} (h : names.length < UInt64.size) :
    ((tally names).entries.map (·.2.toNat)).sum = names.length := by
  have hkeys : ((tally names).entries.map (·.1)).Perm names.dedup := by
    rw [List.perm_ext_iff_of_nodup (nodup_keys _) names.nodup_dedup]
    intro k
    rw [keys_tally, List.mem_dedup]
  calc ((tally names).entries.map (·.2.toNat)).sum
      = (((tally names).entries.map (·.1)).map (names.count ·)).sum := by
        rw [List.map_map]
        exact congrArg List.sum (List.map_congr_left fun e he => toNat_of_mem_tally h he)
    _ = (names.dedup.map (names.count ·)).sum := (hkeys.map _).sum_eq
    _ = names.length := names.sum_map_count_dedup_eq_length

end Dictionary

/-! ## The window -/

namespace CentralMetrics

variable {α : Type}

/-- The store after some reports have come in. -/
def pushAll (c : CentralMetrics α) (entries : List (MetricsRecord α)) : CentralMetrics α :=
  entries.foldl .push c

theorem pushAll_append (c : CentralMetrics α) (xs ys : List (MetricsRecord α)) :
    c.pushAll (xs ++ ys) = (c.pushAll xs).pushAll ys :=
  List.foldl_append

theorem totalReceived_pushAll (c : CentralMetrics α) (entries : List (MetricsRecord α)) :
    (c.pushAll entries).totalReceived = c.totalReceived + entries.length := by
  unfold pushAll
  induction entries generalizing c with
  | nil => rfl
  | cons entry entries ih =>
    simp only [List.foldl_cons, ih, List.length_cons, push]
    omega

theorem capacity_pushAll (c : CentralMetrics α) (entries : List (MetricsRecord α)) :
    (c.pushAll entries).capacity = c.capacity := by
  unfold pushAll
  induction entries generalizing c with
  | nil => rfl
  | cons entry entries ih => exact ih (c.push entry)

/-- A store that holds the latest of some reports still does so when one more comes in. -/
theorem records_push {c : CentralMetrics α} {entries : List (MetricsRecord α)}
    (h : c.records = entries.rtake c.capacity) (r : MetricsRecord α) :
    (c.push r).records = (entries ++ [r]).rtake c.capacity := by
  obtain ⟨n, hn⟩ := Nat.exists_eq_succ_of_ne_zero (Nat.ne_of_gt c.room)
  rw [hn, List.rtake_concat_succ]
  change c.kept ++ [r] = _
  congr 1
  -- Next to the new report there is room for one fewer of the others.
  rw [kept, h, hn]
  simp only [List.rtake, List.length_drop]
  by_cases hfull : n.succ ≤ entries.length
  · rw [if_pos (by omega), List.drop_drop]
    congr 1
    omega
  · rw [if_neg (by omega)]
    congr 1
    omega

/-- Behind the reports that a store holds come the new ones, and the latest of all are kept. -/
theorem records_pushAll (c : CentralMetrics α) (entries : List (MetricsRecord α)) :
    (c.pushAll entries).records = (c.records ++ entries).rtake c.capacity := by
  induction entries using List.reverseRecOn with
  | nil =>
    have hall : c.records.length - c.capacity = 0 := Nat.sub_eq_zero_of_le c.held
    rw [List.append_nil, List.rtake, hall, List.drop_zero]
    rfl
  | append_singleton entries r ih =>
    have hcapacity := capacity_pushAll c entries
    have hpush := records_push (c := c.pushAll entries) (by rw [ih, hcapacity]) r
    rw [pushAll_append, ← List.append_assoc, ← hcapacity]
    exact hpush

/-- Some reports have come in, and nothing else has changed: behind those that were stored before
come the new ones, in order, and the latest of all are stored, as many as there is room for. -/
structure Gains (c : CentralMetrics α) (entries : List (MetricsRecord α)) (c' : CentralMetrics α) :
    Prop where
  records : c'.records = (c.records ++ entries).rtake c.capacity
  capacity : c'.capacity = c.capacity
  totalReceived : c'.totalReceived = c.totalReceived + entries.length

theorem gains_iff {c c' : CentralMetrics α} {entries : List (MetricsRecord α)} :
    c.Gains entries c' ↔ c' = c.pushAll entries := by
  constructor
  · intro h
    ext1
    · rw [h.records, records_pushAll]
    · rw [h.capacity, capacity_pushAll]
    · rw [h.totalReceived, totalReceived_pushAll]
  · rintro rfl
    exact ⟨records_pushAll c entries, capacity_pushAll c entries, totalReceived_pushAll c entries⟩

theorem submit_pushAll {capacity : Nat} {front : List (MetricsRecord α)}
    (h : front.length + 1 < UInt64.size) (r : MetricsRecord α) :
    (((empty capacity).pushAll front).submit r).1.toNat = front.length + 1 := by
  have htotal : (((empty capacity).pushAll front).push r).totalReceived = front.length + 1 := by
    change ((empty capacity).pushAll front).totalReceived + 1 = _
    rw [totalReceived_pushAll]
    exact congrArg (· + 1) (Nat.zero_add _)
  change (UInt64.ofNat (((empty capacity).pushAll front).push r).totalReceived).toNat = _
  rw [htotal, UInt64.toNat_ofNat_of_lt' h]

/-! ## Summaries -/

/-- The reports of a source, or all of them. -/
def matching (source : Option String) (held : List (MetricsRecord α)) : List (MetricsRecord α) :=
  held.filter fun r => source.all (· = r.source)

theorem ofSource_eq_matching (c : CentralMetrics α) (source : Option String) :
    c.ofSource source = matching source c.records := by
  cases source with
  | none => simp [ofSource, matching]
  | some s => simp [ofSource, matching, eq_comm]

/-- What a summary says when some reports are held out of all that have come in. -/
structure Describes (total : Nat) (held : List (MetricsRecord α)) (source : Option String)
    (report : MetricsReport α) : Prop where
  total : report.totalRecords.toNat = total
  filtered : report.filteredRecords.toNat = (matching source held).length
  /-- One entry for each source that occurs. -/
  nodup : (report.bySource.entries.map (·.1)).Nodup
  sources : ∀ s, s ∈ report.bySource.entries.map (·.1) ↔ s ∈ held.map (·.source)
  counts : ∀ e ∈ report.bySource.entries, e.2.toNat = (held.map (·.source)).count e.1
  sum : (report.bySource.entries.map (·.2.toNat)).sum = held.length
  /-- The latest that match, oldest first. -/
  latest : report.recent <:+ matching source held
  recent : report.recent.length = min 10 (matching source held).length

variable [Scalar α]

theorem describes_report {c : CentralMetrics α} {total : Nat} (htotal : c.totalReceived = total)
    (hbound : total < UInt64.size) (hheld : c.records.length ≤ total) (source : Option String) :
    Describes total c.records source (c.report source) := by
  have hsources : (c.records.map (·.source)).length < UInt64.size := by
    rw [List.length_map]
    exact Nat.lt_of_le_of_lt hheld hbound
  have hmatching : (matching source c.records).length < UInt64.size :=
    Nat.lt_of_le_of_lt ((List.length_filter_le _ _).trans hheld) hbound
  refine ⟨?_, ?_, Dictionary.nodup_keys _, Dictionary.keys_tally _,
    fun e he => Dictionary.toNat_of_mem_tally hsources he, ?_, ?_, ?_⟩
  · change (UInt64.ofNat c.totalReceived).toNat = total
    rw [htotal, UInt64.toNat_ofNat_of_lt' hbound]
  · change (UInt64.ofNat (c.ofSource source).length).toNat = _
    rw [ofSource_eq_matching, UInt64.toNat_ofNat_of_lt' hmatching]
  · rw [← List.length_map (·.source)]
    exact Dictionary.sum_tally hsources
  · rw [← ofSource_eq_matching]
    exact List.drop_suffix _ _
  · rw [← ofSource_eq_matching]
    change ((c.ofSource source).drop ((c.ofSource source).length - recentLimit)).length = _
    rw [List.length_drop, recentLimit]
    omega

/-- However many reports come in, each is answered with their number so far, and the store holds the
latest of them, as many as it has room for but at least one. Its summary counts all that came in,
and describes those that it holds. -/
theorem sliding_window (capacity : Nat) (entries : List (MetricsRecord α))
    (hentries : entries.length < 2 ^ 64) :
    ((empty capacity).pushAll entries).records <:+ entries ∧
    ((empty capacity).pushAll entries).records.length =
      min entries.length (max capacity 1) ∧
    (∀ front r, front ++ [r] <+: entries →
      (((empty capacity).pushAll front).submit r).1.toNat = front.length + 1 ∧
      (((empty capacity).pushAll front).submit r).2 = (empty capacity).pushAll (front ++ [r])) ∧
    ∀ source, Describes entries.length ((empty capacity).pushAll entries).records source
      (((empty capacity).pushAll entries).report source) := by
  have hheld := records_pushAll (empty capacity) entries
  rw [show (empty capacity : CentralMetrics α).records ++ entries = entries from rfl] at hheld
  have hlength : ((empty capacity).pushAll entries).records.length =
      min entries.length (max capacity 1) := by
    rw [hheld, List.rtake, List.length_drop]
    change entries.length - (entries.length - max capacity 1) = _
    omega
  refine ⟨?_, hlength, fun front r hfront => ⟨submit_pushAll ?_ r, ?_⟩, fun source => ?_⟩
  · rw [hheld]
    exact List.drop_suffix _ _
  · have hcount := hfront.length_le
    rw [List.length_append, List.length_singleton] at hcount
    exact Nat.lt_of_le_of_lt hcount hentries
  · rw [pushAll_append]
    rfl
  · refine describes_report ?_ hentries (by omega) source
    rw [totalReceived_pushAll]
    exact Nat.zero_add _

private def reportOf (source : String) : MetricsRecord Binary64 :=
  ⟨source, none, some 0, .empty, ""⟩

/-- A store that was given no room holds the last of three reports, and reports nothing of the
source of the others. -/
theorem sliding_window_no_room :
    let reports := [reportOf "a", reportOf "a", reportOf "b"]
    let c := (empty 0 : CentralMetrics Binary64).pushAll reports
    c.records = [reportOf "b"] ∧
    (((empty 0).pushAll [reportOf "a", reportOf "a"]).submit (reportOf "b")).1.toNat = 3 ∧
    Describes 3 [reportOf "b"] (some "a") (c.report (some "a")) := by
  intro reports c
  obtain ⟨hlatest, hlength, hcounts, hdescribes⟩ := sliding_window 0 reports (by decide)
  have hheld : c.records = [reportOf "b"] :=
    List.suffix_iff_eq_drop.mp hlatest |>.trans (by rw [hlength]; rfl)
  refine ⟨hheld, (hcounts [reportOf "a", reportOf "a"] (reportOf "b") ⟨[], rfl⟩).1, ?_⟩
  rw [← hheld]
  exact hdescribes (some "a")

end CentralMetrics

end LayerPipeline
