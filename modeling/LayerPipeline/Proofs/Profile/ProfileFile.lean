import LayerPipeline.Profile.File
import LayerPipeline.Proofs.Json.Legible
import LayerPipeline.Proofs.Json.Line
import LayerPipeline.Proofs.Profile.History

/-!
# Profiles survive their files

A profile file lists the records layer by layer, so the order in which the layers took turns is
lost. What a collector holds is not: its layers are in the order in which they were first seen, each
with its own runs, and filing the listed records one after the other builds the same up again.
-/

namespace LayerPipeline

open JsonCodec

/-! ## Records -/

section Record

variable {α : Type}

/-- The figures of a record. -/
def LayerRecord.numbers (r : LayerRecord α) : List α :=
  [r.forwardLatencyMs, r.vramBeforeMb, r.vramAfterMb, r.vramPeakMb, r.vramIncreaseMb,
    r.ramBeforeMb, r.ramAfterMb, r.ramIncreaseMb, r.parameterSizeMb] ++
    (r.p50LatencyMs.toList ++ (r.p95LatencyMs.toList ++ (r.p99LatencyMs.toList ++
      r.customMetrics.entries.map (·.2))))

variable [JsonCodec α] {s : Json.Spacing}

theorem legible_option [Definite α] {a : Option α} (h : ∀ x ∈ a.toList, Legible s x) :
    Legible s a := by
  cases a with
  | none => exact legible_none
  | some x => exact legible_some (h x List.mem_cons_self)

theorem legible_layerRecord [Scalar α] [Definite α] (hs : s.Loose) {r : LayerRecord α}
    (h : ∀ x ∈ r.numbers, Legible s x) : Legible s r := by
  simp only [LayerRecord.numbers, List.forall_mem_append, List.forall_mem_cons] at h
  obtain ⟨⟨hlatency, hvram, hvramAfter, hvramPeak, hvramIncrease, hram, hramAfter, hramIncrease,
    hparameters, -⟩, hp50, hp95, hp99, hcustom⟩ := h
  have hmetrics : Legible s r.customMetrics := legible_dictionary hs fun e he =>
    hcustom e.2 (List.mem_map_of_mem he)
  have plain {β : Type} [JsonCodec β] [Lawful β] (b : β) : Legible s b := Lawful.legible hs b
  exact legible_record hs (by simp) <| .cons (plain _) <| .cons (plain _) <| .cons (plain _) <|
    .cons hlatency <| .cons (legible_option hp50) <| .cons (legible_option hp95) <|
    .cons (legible_option hp99) <| .cons hvram <| .cons hvramAfter <| .cons hvramPeak <|
    .cons hvramIncrease <| .cons hram <| .cons hramAfter <| .cons hramIncrease <|
    .cons (plain _) <| .cons (plain _) <| .cons (plain _) <| .cons (plain _) <|
    .cons (plain _) <| .cons hparameters <| .cons (plain _) <| .cons (plain _) <|
    .cons (plain _) <| .cons (plain _) <| .cons hmetrics Members.legible_done

end Record

namespace Collector

variable {α : Type}

/-! ## What a collector holds -/

/-- All records, layer by layer. -/
def records (c : Collector α) : List (LayerRecord α) := c.history.flatMap (·.2)

/-- No layer is listed twice, each has run, and its runs are under its name. -/
structure Grouped (history : List (String × List (LayerRecord α))) : Prop where
  nodup : (history.map (·.1)).Nodup
  ran : ∀ h ∈ history, h.2 ≠ []
  named : ∀ h ∈ history, ∀ r ∈ h.2, r.layerName = h.1

variable {history : List (String × List (LayerRecord α))} {r : LayerRecord α}

theorem Grouped.fileRun (h : Grouped history) (r : LayerRecord α) :
    Grouped (Collector.fileRun r history) := by
  obtain ⟨hnodup, hran, hnamed⟩ := h
  rcases fileRun_cases r history with ⟨hfresh, hfiled⟩ | ⟨before, rs, after, rfl, hfiled⟩
  · rw [hfiled]
    constructor
    · simpa [List.nodup_append, hnodup] using fun name runs hmem heq =>
        hfresh (List.mem_map.mpr ⟨(name, runs), hmem, heq⟩)
    · simpa [or_imp, forall_and] using hran
    · simpa [or_imp, forall_and] using hnamed
  · rw [hfiled]
    simp only [List.forall_mem_append, List.forall_mem_cons] at hran hnamed
    constructor
    · simpa using hnodup
    · simp only [List.forall_mem_append, List.forall_mem_cons]
      exact ⟨hran.1, by simp, hran.2.2⟩
    · simp only [List.forall_mem_append, List.forall_mem_cons]
      exact ⟨hnamed.1, ⟨hnamed.2.1, by simp⟩, hnamed.2.2⟩

/-! ## Filing the listed records -/

theorem fileRun_append {filed : List (String × List (LayerRecord α))}
    (h : r.layerName ∉ filed.map (·.1)) (rest : List (String × List (LayerRecord α))) :
    fileRun r (filed ++ rest) = filed ++ fileRun r rest := by
  induction filed with
  | nil => rfl
  | cons g filed ih =>
    rw [List.map_cons, List.mem_cons, not_or] at h
    rw [List.cons_append, fileRun, if_neg (Ne.symm h.1), ih h.2, List.cons_append]

/-- The runs of one layer gather behind the layers filed before. -/
theorem foldl_fileRun_runs {filed : List (String × List (LayerRecord α))} {name : String}
    (hfresh : name ∉ filed.map (·.1)) (before rs : List (LayerRecord α))
    (hnamed : ∀ r ∈ rs, r.layerName = name) :
    rs.foldl (fun h r => fileRun r h) (filed ++ [(name, before)]) =
      filed ++ [(name, before ++ rs)] := by
  induction rs generalizing before with
  | nil => simp
  | cons r rs ih =>
    have hname := hnamed r List.mem_cons_self
    rw [List.foldl_cons, fileRun_append (hname ▸ hfresh), fileRun, if_pos hname.symm,
      ih _ fun r hr => hnamed r (List.mem_cons_of_mem _ hr)]
    simp

theorem foldl_fileRun_layer {filed : List (String × List (LayerRecord α))} {name : String}
    (hfresh : name ∉ filed.map (·.1)) {rs : List (LayerRecord α)} (hran : rs ≠ [])
    (hnamed : ∀ r ∈ rs, r.layerName = name) :
    rs.foldl (fun h r => fileRun r h) filed = filed ++ [(name, rs)] := by
  cases rs with
  | nil => exact absurd rfl hran
  | cons r rs =>
    rw [List.forall_mem_cons] at hnamed
    obtain ⟨hname, hnamed⟩ := hnamed
    have hfirst : fileRun r filed = filed ++ [(name, [r])] := by
      simpa [fileRun, hname] using fileRun_append (hname ▸ hfresh : r.layerName ∉ _) []
    rw [List.foldl_cons, hfirst, foldl_fileRun_runs hfresh _ _ hnamed]
    rfl

/-- Filing the records of a history layer by layer builds it up again. -/
theorem foldl_fileRun_records (h : Grouped history)
    (filed : List (String × List (LayerRecord α)))
    (hfresh : ∀ g ∈ history, g.1 ∉ filed.map (·.1)) :
    (history.flatMap (·.2)).foldl (fun h r => fileRun r h) filed = filed ++ history := by
  induction history generalizing filed with
  | nil => simp
  | cons g history ih =>
    obtain ⟨hnodup, hran, hnamed⟩ := h
    rw [List.map_cons, List.nodup_cons] at hnodup
    rw [List.forall_mem_cons] at hran hnamed hfresh
    -- The layers that follow are new to what is filed by then.
    have hlater : ∀ g' ∈ history, g'.1 ∉ (filed ++ [g]).map (·.1) := by
      intro g' hg'
      have hother : g'.1 ≠ g.1 := fun heq => hnodup.1 (heq ▸ List.mem_map_of_mem hg')
      simpa [hother] using hfresh.2 g' hg'
    rw [List.flatMap_cons, List.foldl_append, foldl_fileRun_layer hfresh.1 hran.1 hnamed.1,
      ih ⟨hnodup.2, hran.2, hnamed.2⟩ _ hlater]
    simp

theorem history_foldl_file (c : Collector α) (rs : List (LayerRecord α)) :
    (rs.foldl file c).history = rs.foldl (fun h r => fileRun r h) c.history := by
  induction rs generalizing c with
  | nil => rfl
  | cons r rs ih => rw [List.foldl_cons, ih, history_file, List.foldl_cons]

theorem inFlight_foldl_file (c : Collector α) (rs : List (LayerRecord α)) :
    (rs.foldl file c).inFlight = c.inFlight := by
  induction rs generalizing c with
  | nil => rfl
  | cons r rs ih => exact ih (c.file r)

/-! ## Steps -/

variable [Scalar α]

/-- Stamping drops no record and changes nothing but percentiles. -/
theorem map_stamp {β : Type} {f : LayerRecord α → β}
    (hf : ∀ (r : LayerRecord α) (p50 p95 p99 : Option α), f { r with
      p50LatencyMs := p50, p95LatencyMs := p95, p99LatencyMs := p99 } = f r)
    (rs : List (LayerRecord α)) : (stamp rs).map f = rs.map f := by
  unfold stamp
  cases hlast : rs.getLast? with
  | none => rfl
  | some latest =>
    by_cases hfew : rs.length ≤ 1
    · simp only [if_pos hfew]
    · obtain ⟨front, rfl⟩ := List.getLast?_eq_some_iff.mp hlast
      simp only [if_neg hfew]
      simp [hf]

theorem names_stamp (rs : List (LayerRecord α)) :
    (stamp rs).map (·.layerName) = rs.map (·.layerName) :=
  map_stamp (fun _ _ _ _ => rfl) rs

theorem Grouped.finalize {c : Collector α} (h : Grouped c.history) :
    Grouped c.finalize.history := by
  rw [history_finalize]
  constructor
  · rw [List.map_map]
    exact h.nodup
  · intro _ hmem hnil
    obtain ⟨g, hg, rfl⟩ := List.mem_map.mp hmem
    have hnames := names_stamp g.2
    rw [show stamp g.2 = [] from hnil] at hnames
    exact h.ran g hg (by simpa using hnames.symm)
  · intro _ hmem r hr
    obtain ⟨g, hg, rfl⟩ := List.mem_map.mp hmem
    have hname : r.layerName ∈ g.2.map (·.layerName) :=
      names_stamp g.2 ▸ List.mem_map_of_mem hr
    obtain ⟨r', hr', heq⟩ := List.mem_map.mp hname
    rw [← heq]
    exact h.named g hg r' hr'

/-- What is done to a collector: a record is opened, any record is closed, or a batch ends. -/
inductive Step (α : Type) where
  | start (sample : MemorySample α) (device timestamp name type : String) (index : UInt64)
  | stop (sample : MemorySample α) (r : LayerRecord α) (latencyMs : α)
  | finalize

/-- The collector after a step. -/
def step (c : Collector α) : Step α → Collector α
  | .start sample device timestamp name type index =>
    (c.start sample device timestamp name type index).2
  | .stop sample r latencyMs => c.stop sample r latencyMs
  | .finalize => c.finalize

/-- The collector after a sequence of steps, empty at first. -/
def run (steps : List (Step α)) : Collector α := steps.foldl step .empty

theorem Grouped.step {c : Collector α} (h : Grouped c.history) (a : Step α) :
    Grouped (c.step a).history := by
  cases a with
  | start => exact h
  | stop =>
    rw [Collector.step, stop, history_file]
    exact h.fileRun _
  | finalize => exact h.finalize

theorem grouped_run (steps : List (Step α)) : Grouped (run steps).history := by
  have hfold (c : Collector α) (h : Grouped c.history) :
      Grouped (steps.foldl Collector.step c).history := by
    induction steps generalizing c with
    | nil => exact h
    | cons a steps ih => exact ih (c.step a) (h.step a)
  exact hfold .empty ⟨List.nodup_nil, by simp, by simp⟩

/-! ## Lines -/

variable [JsonCodec α]

/-- The bytes of the line of a record. -/
def lineBytes (r : LayerRecord α) : List UInt8 := Wire.bytesOfText (JsonCodec.write r).compact

theorem bytesOfText_exportText (c : Collector α) :
    Wire.bytesOfText c.exportText = (c.records.map lineBytes).flatMap (· ++ [10]) := by
  rw [exportText, ← List.map_flatMap, Wire.bytesOfText_join, List.flatMap_map, List.flatMap_map]
  simp only [Wire.bytesOfText_append, records]
  rfl

theorem splitLines_exportText (c : Collector α) :
    Text.splitLines 10 13 [] (Wire.bytesOfText c.exportText) = c.records.map lineBytes := by
  rw [bytesOfText_exportText]
  apply Text.splitLines_flatMap
  intro line hline
  obtain ⟨r, -, rfl⟩ := List.mem_map.mp hline
  have hinline := Json.inline_compact (JsonCodec.write r)
  exact ⟨Wire.not_mem_bytesOfText hinline (by decide), Wire.not_mem_bytesOfText hinline (by decide)⟩

theorem recordOfLine_write {r : LayerRecord α} (hnamed : r.layerName ≠ "")
    (hlegible : Legible .compact r) :
    recordOfLine (JsonCodec.write r).compact = .ok (some r) := by
  have hblank : (JsonCodec.write r).compact.toList.all Text.isBlank = false :=
    Json.not_blank_compact_obj _
  have hread : (Json.parse? (JsonCodec.write r).compact).bind JsonCodec.read = some r :=
    hlegible.read_parse? 0
  simp [recordOfLine, hblank, hread, hnamed]

/-- The lines of records that are read back are filed and counted one by one. -/
theorem importLines_map (c : Collector α) (count : Nat) (rs : List (LayerRecord α))
    (h : ∀ r ∈ rs, r.layerName ≠ "" ∧ Legible .compact r) :
    importLines c count (rs.map lineBytes) = (.ok (count + rs.length), rs.foldl file c) := by
  induction rs generalizing c count with
  | nil => rfl
  | cons r rs ih =>
    rw [List.forall_mem_cons] at h
    have hline := recordOfLine_write h.1.1 h.1.2
    rw [List.map_cons, importLines, lineBytes, Wire.textOfBytes?_bytesOfText]
    simp only [hline]
    rw [ih _ _ h.2]
    simp [Nat.add_comm, Nat.add_left_comm]

/-- The file of a collector brings back what it holds, but not which records are open. -/
theorem importBytes_of_grouped {c : Collector α} (hgrouped : Grouped c.history)
    (h : ∀ r ∈ c.records, r.layerName ≠ "" ∧ Legible .compact r) :
    (empty : Collector α).importBytes (Wire.bytesOfText c.exportText) =
      (.ok c.totalRecords, { c with inFlight := 0 }) := by
  have hfiled : c.records.foldl file empty = { c with inFlight := 0 } := by
    refine ext_history ?_ (inFlight_foldl_file empty _)
    rw [history_foldl_file, history_empty, records,
      foldl_fileRun_records hgrouped [] (by simp), List.nil_append]
    rfl
  rw [importBytes, splitLines_exportText, importLines_map _ _ _ h, hfiled, Nat.zero_add]
  rfl

/-- Whatever was recorded, under non-empty names, in finite numbers whose numerals are read back:
the file has a line for each record, and an empty collector that takes it in counts as many and then
holds the same layers in the same order with the same runs. -/
theorem importBytes_exportText (steps : List (Step Binary64))
    (hnamed : ∀ r ∈ (run steps).records, r.layerName ≠ "")
    (hfinite : ∀ r ∈ (run steps).records, ∀ x ∈ r.numbers, x.isFinite = true)
    (hnumerals : ∀ r ∈ (run steps).records, ∀ x ∈ r.numbers, x.isFinite = true → x.ReadsBack) :
    ∃ c : Collector Binary64,
      empty.importBytes (Wire.bytesOfText (run steps).exportText) =
        (.ok (run steps).totalRecords, c) ∧
      (Text.splitLines 10 13 [] (Wire.bytesOfText (run steps).exportText)).length =
        (run steps).totalRecords ∧
      c.layerNames = (run steps).layerNames ∧
      (∀ name, c.runs name = (run steps).runs name) ∧
      c.summaries = (run steps).summaries ∧
      c.layerCosts = (run steps).layerCosts := by
  have hreadable : ∀ r ∈ (run steps).records, r.layerName ≠ "" ∧ Legible .compact r :=
    fun r hr => ⟨hnamed r hr, legible_layerRecord Json.loose_compact fun x hx =>
      legible_binary64 (hfinite r hr x hx) (hnumerals r hr x hx (hfinite r hr x hx))⟩
  refine ⟨_, importBytes_of_grouped (grouped_run steps) hreadable, ?_, rfl, fun _ => rfl, rfl, rfl⟩
  rw [splitLines_exportText, List.length_map]
  rfl

private def turns : List (Step Binary64) :=
  let sample : MemorySample Binary64 := ⟨0.1, 2.0, 1e300⟩
  let stamped : LayerRecord Binary64 := { LayerRecord.basic "a\n" "t" 7 with
    p95LatencyMs := some 1.5
    customMetrics := .ofList [("\\", 5e-324)] }
  [.start sample "cpu" "" "a\n" "t" 7, .stop sample (.basic "a\n" "\"\x01" 7) 0.25,
    .stop sample (.basic "é" "" 0) 1e16, .finalize, .stop sample stamped 1.5]

/-- Two layers that took turns, one of them with a line feed in its name. -/
theorem importBytes_exportText_turns :
    (∀ r ∈ (run turns).records, r.layerName ≠ "" ∧ ∀ x ∈ r.numbers, x.isFinite = true ∧
      x.ReadsBack) ∧
    ∃ c : Collector Binary64,
      empty.importBytes (Wire.bytesOfText (run turns).exportText) = (.ok 3, c) ∧
      c.layerNames = ["a\n", "é"] ∧
      (c.runs "a\n").map (fun r => (r.forwardLatencyMs, r.p95LatencyMs)) =
        [(0.25, none), (1.5, some 1.5)] := by
  have hrecords : ∀ r ∈ (run turns).records, r.layerName ≠ "" ∧ ∀ x ∈ r.numbers,
      x.isFinite = true ∧ x.ReadsBack := by
    decide +kernel
  obtain ⟨c, hread, -, hnames, hruns, -⟩ := importBytes_exportText turns
    (fun r hr => (hrecords r hr).1) (fun r hr x hx => ((hrecords r hr).2 x hx).1)
    (fun r hr x hx _ => ((hrecords r hr).2 x hx).2)
  have hcount : (run turns).totalRecords = 3 := by decide +kernel
  refine ⟨hrecords, c, hcount ▸ hread, ?_, ?_⟩
  · rw [hnames]
    decide +kernel
  · rw [hruns]
    decide +kernel

end Collector

end LayerPipeline
