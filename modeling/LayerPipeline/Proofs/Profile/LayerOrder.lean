import LayerPipeline.Proofs.Profile.ProfileFile
import Mathlib.Data.List.Induction
import Mathlib.Data.List.Nodup

/-!
# The order of layers in a profile

The planner is given the layers of a profile in the order of their latest indices, and layers of one
index in the order in which they were first seen. So it does not matter how the runs of different
layers took turns, unless two layers ended up with the same index.
-/

namespace LayerPipeline

/-! ## Sorting by an index -/

section Sorting

variable {β : Type} (key : β → UInt64)

private theorem le_key_trans (a b c : β) (hab : decide (key a ≤ key b) = true)
    (hbc : decide (key b ≤ key c) = true) : decide (key a ≤ key c) = true := by
  simp only [decide_eq_true_eq] at *
  exact UInt64.le_trans hab hbc

private theorem le_key_total (a b : β) :
    (decide (key a ≤ key b) || decide (key b ≤ key a)) = true := by
  simpa using UInt64.le_total (key a) (key b)

theorem pairwise_mergeSort_key (l : List β) :
    (l.mergeSort fun a b => key a ≤ key b).Pairwise fun a b => key a ≤ key b := by
  simpa using List.pairwise_mergeSort (le_key_trans key) (le_key_total key) l

/-- Entries of one index stay in their order. -/
theorem filter_mergeSort_key (l : List β) (k : UInt64) :
    (l.mergeSort fun a b => key a ≤ key b).filter (key · = k) = l.filter (key · = k) := by
  have hequal : (l.filter (key · = k)).Pairwise fun a b => decide (key a ≤ key b) = true := by
    refine List.pairwise_of_forall_mem_list fun a ha b hb => ?_
    have hka : key a = k := by simpa using (List.mem_filter.mp ha).2
    have hkb : key b = k := by simpa using (List.mem_filter.mp hb).2
    simp [hka, hkb]
  -- They are in order already, so sorting keeps them as a sublist; there are no others.
  have hsublist := (List.sublist_mergeSort (le_key_trans key) (le_key_total key) hequal
    List.filter_sublist).filter (key · = k)
  rw [List.filter_filter] at hsublist
  simp only [Bool.and_self] at hsublist
  refine (hsublist.eq_of_length ?_).symm
  exact ((List.mergeSort_perm l _).filter _).length_eq.symm

/-- Where no index occurs twice, the entries may come in any order. -/
theorem mergeSort_key_of_perm {l l' : List β} (h : l.Perm l')
    (hdistinct : ∀ a ∈ l, ∀ b ∈ l, key a = key b → a = b) :
    (l.mergeSort fun a b => key a ≤ key b) = l'.mergeSort fun a b => key a ≤ key b := by
  have hperm := (List.mergeSort_perm l fun a b => key a ≤ key b).trans
    (h.trans (List.mergeSort_perm l' fun a b => key a ≤ key b).symm)
  refine hperm.eq_of_pairwise ?_ (pairwise_mergeSort_key key l) (pairwise_mergeSort_key key l')
  intro a b ha hb hab hba
  exact hdistinct a (List.mem_mergeSort.mp ha) b (h.mem_iff.mpr (List.mem_mergeSort.mp hb))
    (UInt64.le_antisymm hab hba)

end Sorting

namespace Collector

variable {α : Type}

/-! ## Layers and their runs -/

theorem runs_file (c : Collector α) (r : LayerRecord α) (name : String) :
    (c.file r).runs name = c.runs name ++ if name = r.layerName then [r] else [] := by
  change ((c.layers.insert r.layerName (c.runs r.layerName ++ [r])).get? name).getD [] = _
  rw [OrderedDictionary.get?_insert]
  by_cases hname : name = r.layerName
  · rw [if_pos hname, if_pos hname, hname]
    rfl
  · rw [if_neg hname, if_neg hname, List.append_nil]
    rfl

theorem layerNames_file (c : Collector α) (r : LayerRecord α) :
    (c.file r).layerNames =
      c.layerNames ++ if r.layerName ∈ c.layerNames then [] else [r.layerName] := by
  change (c.layers.insert r.layerName (c.runs r.layerName ++ [r])).order = _
  rw [OrderedDictionary.order_insert, layerNames]
  simp only [OrderedDictionary.mem_order_iff]
  split
  · rw [List.append_nil]
  · rfl

variable [Scalar α]

theorem layerNames_finalize (c : Collector α) : c.finalize.layerNames = c.layerNames := rfl

theorem runs_finalize (c : Collector α) (name : String) :
    c.finalize.runs name = stamp (c.runs name) := by
  change ((c.layers.map stamp).get? name).getD [] = _
  rw [OrderedDictionary.get?_map, runs]
  cases c.layers.get? name <;> rfl

/-! ## Summaries -/

theorem summarize?_eq_none_iff {rs : List (LayerRecord α)} : summarize? rs = none ↔ rs = [] := by
  simp [summarize?]

theorem layerIndex_of_summarize? {rs : List (LayerRecord α)} {s : LayerSummary α}
    (h : summarize? rs = some s) : (rs.map (·.layerIndex)).getLast? = some s.layerIndex := by
  obtain ⟨latest, hlatest, rfl⟩ := Option.map_eq_some_iff.mp h
  rw [List.getLast?_map, hlatest]
  rfl

/-- The summaries are determined by the layers and their runs. -/
theorem summaries_eq (c : Collector α) :
    c.summaries = c.layerNames.filterMap fun name =>
      (summarize? (c.runs name)).map fun s => (name, s) := by
  rw [← map_fst_history, List.filterMap_map, summaries]
  refine List.filterMap_congr fun h hmem => ?_
  simp only [Function.comp_apply, runs_of_mem hmem]

theorem names_summaries {c : Collector α} (hran : ∀ h ∈ c.history, h.2 ≠ []) :
    c.summaries.map (·.1) = c.layerNames := by
  rw [summaries, ← map_fst_history]
  generalize c.history = history at hran
  induction history with
  | nil => rfl
  | cons h history ih =>
    rw [List.forall_mem_cons] at hran
    cases hsummary : summarize? h.2 with
    | none => exact absurd (summarize?_eq_none_iff.mp hsummary) hran.1
    | some s => simpa [hsummary] using ih hran.2

theorem names_layerCosts (c : Collector α) :
    c.layerCosts.map (·.name) =
      (c.summaries.mergeSort fun a b => a.2.layerIndex ≤ b.2.layerIndex).map (·.1) :=
  List.map_map

/-! ## Everything that was recorded -/

/-- A collector holds some records: their layers in the order in which they were first seen, each
with its own runs, of which `f` is kept. -/
structure Keeps {β : Type} (f : LayerRecord α → β) (rs : List (LayerRecord α)) (c : Collector α) :
    Prop where
  grouped : Grouped c.history
  names : c.layerNames = (rs.map (·.layerName)).eraseDups
  runs : ∀ name, (c.runs name).map f = (rs.filter (·.layerName = name)).map f

section Keeps

variable {β : Type} {f : LayerRecord α → β} {rs : List (LayerRecord α)} {c : Collector α}

omit [Scalar α] in
theorem keeps_empty : Keeps f [] (empty : Collector α) :=
  ⟨⟨List.nodup_nil, by simp, by simp⟩, rfl, fun _ => rfl⟩

omit [Scalar α] in
theorem Keeps.of_layers (h : Keeps f rs c) {c' : Collector α} (heq : c'.layers = c.layers) :
    Keeps f rs c' := by
  obtain ⟨layers, inFlight⟩ := c'
  obtain rfl := heq
  exact ⟨h.grouped, h.names, h.runs⟩

omit [Scalar α] in
theorem Keeps.file (h : Keeps f rs c) (r : LayerRecord α) : Keeps f (rs ++ [r]) (c.file r) := by
  refine ⟨c.history_file r ▸ h.grouped.fileRun r, ?_, fun name => ?_⟩
  · rw [layerNames_file, h.names, List.map_append, List.map_singleton, List.eraseDups_append,
      List.cons_removeAll]
    by_cases hseen : r.layerName ∈ rs.map (·.layerName)
    · rw [if_pos (List.mem_eraseDups.mpr hseen), if_neg (by simpa using hseen)]
      rfl
    · rw [if_neg (mt List.mem_eraseDups.mp hseen), if_pos (by simpa using hseen)]
      rfl
  · rw [runs_file, List.map_append, h.runs, List.filter_append, List.map_append]
    by_cases hname : name = r.layerName
    · simp [hname]
    · simp [hname, Ne.symm hname]

omit [Scalar α] in
theorem Keeps.files (h : Keeps f rs c) (rs' : List (LayerRecord α)) :
    Keeps f (rs ++ rs') (rs'.foldl Collector.file c) := by
  induction rs' generalizing rs c with
  | nil => simpa using h
  | cons r rs' ih => simpa using ih (h.file r)

theorem Keeps.finalize (h : Keeps f rs c) (hf : ∀ rs, (stamp rs).map f = rs.map f) :
    Keeps f rs c.finalize :=
  ⟨h.grouped.finalize, (layerNames_finalize c).trans h.names, fun name => by
    rw [runs_finalize, hf, h.runs]⟩

omit [Scalar α] in
theorem mem_names_iff {name : String} :
    name ∈ rs.map (·.layerName) ↔ rs.filter (·.layerName = name) ≠ [] := by
  simp [List.filter_eq_nil_iff]

omit [Scalar α] in
/-- Collectors that keep whole runs, the same for each layer in the same order, list the same
layers. -/
theorem Keeps.same_runs {rs' : List (LayerRecord α)} {c' : Collector α} (h : Keeps id rs c)
    (h' : Keeps id rs' c')
    (hsame : ∀ name, rs.filter (·.layerName = name) = rs'.filter (·.layerName = name)) :
    c.layerNames.Perm c'.layerNames ∧ ∀ name, c.runs name = c'.runs name := by
  constructor
  · refine (List.perm_ext_iff_of_nodup c.layers.distinct c'.layers.distinct).mpr fun name => ?_
    change name ∈ c.layerNames ↔ name ∈ c'.layerNames
    rw [h.names, h'.names, List.mem_eraseDups, List.mem_eraseDups, mem_names_iff, mem_names_iff,
      hsame]
  · intro name
    have hruns := h.runs name
    have hruns' := h'.runs name
    rw [List.map_id, List.map_id] at hruns hruns'
    rw [hruns, hruns', hsame]

end Keeps

/-! ## Costs -/

section Costs

/-- The index of the latest run of a layer. -/
def latestIndex? (rs : List (LayerRecord α)) (name : String) : Option UInt64 :=
  ((rs.filter (·.layerName = name)).map (·.layerIndex)).getLast?

/-- One cost for each layer that was recorded, in the order of their latest indices; among equal
ones, in the order in which they were first seen. -/
structure Arranged (rs : List (LayerRecord α)) (costs : List (LayerCost α)) : Prop where
  nodup : (costs.map (·.name)).Nodup
  complete : ∀ name, name ∈ costs.map (·.name) ↔ name ∈ rs.map (·.layerName)
  sorted : costs.Pairwise fun a b => ∃ i j,
    latestIndex? rs a.name = some i ∧ latestIndex? rs b.name = some j ∧ i ≤ j
  stable : ∀ k, (costs.map (·.name)).filter (latestIndex? rs · = some k) =
    (rs.map (·.layerName)).eraseDups.filter (latestIndex? rs · = some k)

variable {rs : List (LayerRecord α)} {c c' : Collector α}

theorem latestIndex?_of_mem (h : Keeps (·.layerIndex) rs c) {e : String × LayerSummary α}
    (he : e ∈ c.summaries) : latestIndex? rs e.1 = some e.2.layerIndex := by
  rw [summaries_eq] at he
  obtain ⟨name, -, hname⟩ := List.mem_filterMap.mp he
  obtain ⟨s, hs, rfl⟩ := Option.map_eq_some_iff.mp hname
  rw [latestIndex?, ← h.runs]
  exact layerIndex_of_summarize? hs

/-- Names are picked by the index of their layer as summaries are. -/
theorem filter_latestIndex? (h : Keeps (·.layerIndex) rs c)
    {entries : List (String × LayerSummary α)} (hentries : ∀ e ∈ entries, e ∈ c.summaries)
    (k : UInt64) :
    (entries.map (·.1)).filter (latestIndex? rs · = some k) =
      (entries.filter (·.2.layerIndex = k)).map (·.1) := by
  rw [List.filter_map]
  congr 1
  refine List.filter_congr fun e he => ?_
  simp [latestIndex?_of_mem h (hentries e he)]

theorem Keeps.arranged (h : Keeps (·.layerIndex) rs c) : Arranged rs c.layerCosts := by
  have hnames := names_summaries h.grouped.ran
  have hmem : ∀ e ∈ c.summaries.mergeSort fun a b => a.2.layerIndex ≤ b.2.layerIndex,
      e ∈ c.summaries := fun e => List.mem_mergeSort.mp
  have hperm : (c.layerCosts.map (·.name)).Perm c.layerNames := by
    rw [names_layerCosts, ← hnames]
    exact (List.mergeSort_perm _ _).map _
  refine ⟨hperm.nodup_iff.mpr c.layers.distinct, fun name => ?_, ?_, fun k => ?_⟩
  · rw [hperm.mem_iff, h.names, List.mem_eraseDups]
  · refine List.pairwise_map.mpr ?_
    refine (pairwise_mergeSort_key (fun e => e.2.layerIndex) c.summaries).imp_of_mem ?_
    intro a b ha hb hle
    exact ⟨_, _, latestIndex?_of_mem h (hmem a ha), latestIndex?_of_mem h (hmem b hb), hle⟩
  · rw [names_layerCosts, ← h.names, ← hnames, filter_latestIndex? h hmem,
      filter_latestIndex? h fun e he => he]
    exact congrArg (List.map (·.1)) (filter_mergeSort_key (·.2.layerIndex) c.summaries k)

/-- Collectors with the same runs of each layer give the same costs, if no two layers ended up with
the same index. -/
theorem layerCosts_congr (h : Keeps (·.layerIndex) rs c)
    (hnames : c.layerNames.Perm c'.layerNames) (hruns : ∀ name, c.runs name = c'.runs name)
    (hdistinct : ∀ a b i, latestIndex? rs a = some i → latestIndex? rs b = some i → a = b) :
    c.layerCosts = c'.layerCosts := by
  have hperm : c.summaries.Perm c'.summaries := by
    rw [summaries_eq, summaries_eq]
    simp only [hruns]
    exact hnames.filterMap _
  have hnodup : (c.summaries.map (·.1)).Nodup := names_summaries h.grouped.ran ▸ c.layers.distinct
  have hsorted := mergeSort_key_of_perm (fun e => e.2.layerIndex) hperm fun a ha b hb heq =>
    List.inj_on_of_nodup_map hnodup ha hb <| hdistinct _ _ _ (latestIndex?_of_mem h ha)
      ((latestIndex?_of_mem h hb).trans (congrArg some heq.symm))
  unfold layerCosts
  rw [hsorted]

end Costs

variable [JsonCodec α]

/-- The records on the lines of a file, up to one that cannot be read. -/
def recordsOfLines : List (List UInt8) → List (LayerRecord α)
  | [] => []
  | line :: rest =>
    match (Wire.textOfBytes? line).map recordOfLine with
    | some (.ok none) => recordsOfLines rest
    | some (.ok (some r)) => r :: recordsOfLines rest
    | _ => []

theorem importLines_eq (c : Collector α) (count : Nat) (lines : List (List UInt8)) :
    (importLines c count lines).2 = (recordsOfLines lines).foldl file c := by
  induction lines generalizing c count with
  | nil => rfl
  | cons line rest ih =>
    rw [importLines, recordsOfLines]
    cases Wire.textOfBytes? line with
    | none => rfl
    | some text =>
      simp only [Option.map_some]
      cases recordOfLine (α := α) text with
      | error e => rfl
      | ok found =>
        cases found with
        | none => exact ih c count
        | some r => exact ih (c.file r) (count + 1)

/-- What happens to a collector: a step of a profiling run, or a file that is taken in. -/
inductive Event (α : Type) where
  | step (a : Step α)
  | load (bytes : List UInt8)

/-- The collector after an event. -/
def apply (c : Collector α) : Event α → Collector α
  | .step a => c.step a
  | .load bytes => (c.importBytes bytes).2

/-- The runs that an event records. -/
def Event.records : Event α → List (LayerRecord α)
  | .step (.start ..) | .step .finalize => []
  | .step (.stop sample r latencyMs) => [closed sample r latencyMs]
  | .load bytes => recordsOfLines (Text.splitLines 10 13 [] bytes)

/-- The collector after some events, empty at first. -/
def after (events : List (Event α)) : Collector α := events.foldl apply empty

/-- The runs that are recorded by some events, in their order. -/
def recorded (events : List (Event α)) : List (LayerRecord α) := events.flatMap Event.records

theorem Keeps.apply {β : Type} {f : LayerRecord α → β} {rs : List (LayerRecord α)}
    {c : Collector α} (h : Keeps f rs c) (e : Event α)
    (hf : e = .step .finalize → ∀ rs, (stamp rs).map f = rs.map f) :
    Keeps f (rs ++ e.records) (c.apply e) := by
  cases e with
  | step a =>
    cases a with
    | start =>
      rw [Event.records, List.append_nil]
      exact h.of_layers rfl
    | stop sample r latencyMs =>
      have hopened : Keeps f rs { c with inFlight := c.inFlight - 1 } := h.of_layers rfl
      exact hopened.file (closed sample r latencyMs)
    | finalize =>
      rw [Event.records, List.append_nil]
      exact h.finalize (hf rfl)
  | load bytes =>
    change Keeps f _ (importLines c 0 _).2
    rw [importLines_eq]
    exact h.files _

/-- Runs are kept whole until a batch is complete, and then in all that stamping leaves alone. -/
theorem keeps_after {β : Type} {f : LayerRecord α → β} (events : List (Event α))
    (hf : .step .finalize ∈ events → ∀ rs, (stamp rs).map f = rs.map f) :
    Keeps f (recorded events) (after events) := by
  induction events using List.reverseRecOn with
  | nil => exact keeps_empty
  | append_singleton events e ih =>
    have hlast := (ih fun hmem => hf (List.mem_append_left _ hmem)).apply e fun he =>
      hf (by simp [he])
    simpa [recorded, after] using hlast

/-! ## Interleavings -/

/-- How the runs of different layers take turns does not show in the costs, completed or not, if
each layer has the same runs in the same order and no two layers end up with the same index. At any
time the costs have one entry for each layer that was recorded, in the order of the latest indices
and, where these are equal, in the order in which the layers were first seen. -/
theorem layerCosts_arranged :
    (∀ events events' : List (Event α), .step .finalize ∉ events → .step .finalize ∉ events' →
      (∀ name, (recorded events).filter (·.layerName = name) =
        (recorded events').filter (·.layerName = name)) →
      (∀ a b i, latestIndex? (recorded events) a = some i →
        latestIndex? (recorded events) b = some i → a = b) →
      (after events).layerCosts = (after events').layerCosts ∧
      (after events).finalize.layerCosts = (after events').finalize.layerCosts) ∧
    ∀ events : List (Event α), Arranged (recorded events) (after events).layerCosts := by
  have hstamp : ∀ rs : List (LayerRecord α),
      (stamp rs).map (·.layerIndex) = rs.map (·.layerIndex) := map_stamp fun _ _ _ _ => rfl
  refine ⟨fun events events' hopen hopen' hsame hdistinct => ?_,
    fun events => (keeps_after events fun _ => hstamp).arranged⟩
  have hkeeps : Keeps (·.layerIndex) (recorded events) (after events) :=
    keeps_after events fun _ => hstamp
  have hwhole' : Keeps id (recorded events') (after events') :=
    keeps_after events' fun hmem => absurd hmem hopen'
  -- Before a batch is completed the runs are kept whole, and completing it depends on them alone.
  obtain ⟨hnames, hruns⟩ :=
    (keeps_after events fun hmem => absurd hmem hopen).same_runs hwhole' hsame
  constructor
  · exact layerCosts_congr hkeeps hnames hruns hdistinct
  · refine layerCosts_congr (hkeeps.finalize hstamp) ?_ ?_ hdistinct
    · rwa [layerNames_finalize, layerNames_finalize]
    · intro name
      rw [runs_finalize, runs_finalize, hruns]

private def layerRun (name : String) (index : UInt64) (latencyMs : Binary64) : Event Binary64 :=
  .step (.stop ⟨0.0, 0.0, 0.0⟩ (.basic name "" index) latencyMs)

/-- A layer that moved behind another: it does not matter that one of its runs came first. -/
theorem layerCosts_arranged_moved :
    let events := [layerRun "a" 0 1.0, layerRun "b" 1 4.0, layerRun "a" 2 3.0]
    let events' := [layerRun "b" 1 4.0, layerRun "a" 0 1.0, layerRun "a" 2 3.0]
    (after events).layerCosts = (after events').layerCosts ∧
    (after events).finalize.layerCosts = (after events').finalize.layerCosts ∧
    Arranged (recorded events) (after events).layerCosts := by
  intro events events'
  obtain ⟨hinterleaved, harranged⟩ := layerCosts_arranged (α := Binary64)
  have hlatest : ∀ name i, latestIndex? (recorded events) name = some i →
      (name = "a" ∧ i = 2) ∨ (name = "b" ∧ i = 1) := by
    intro name i h
    by_cases ha : "a" = name
    · subst ha
      exact .inl ⟨rfl, Option.some.inj (h.symm.trans (by decide))⟩
    · by_cases hb : "b" = name
      · subst hb
        exact .inr ⟨rfl, Option.some.inj (h.symm.trans (by decide))⟩
      · simp [events, latestIndex?, recorded, layerRun, Event.records, closed, LayerRecord.basic,
          ha, hb] at h
  have hcosts := hinterleaved events events' (by simp [events, layerRun])
    (by simp [events', layerRun]) ?_ ?_
  · exact ⟨hcosts.1, hcosts.2, harranged events⟩
  · intro name
    by_cases ha : "a" = name
    · subst ha
      decide
    · by_cases hb : "b" = name <;>
        simp [events, events', recorded, layerRun, Event.records, closed, LayerRecord.basic, ha, hb]
  · intro a b i ha hb
    rcases hlatest a i ha with ⟨rfl, rfl⟩ | ⟨rfl, rfl⟩ <;>
      rcases hlatest b _ hb with ⟨rfl, h⟩ | ⟨rfl, h⟩ <;> simp_all

end Collector

end LayerPipeline
