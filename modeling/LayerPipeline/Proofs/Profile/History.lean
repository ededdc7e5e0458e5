import LayerPipeline.Profile.Collector
import LayerPipeline.Proofs.OrderedDictionary

/-!
# The history of a collector

The layers with their runs, listed in the order in which they were first seen. The list tells all
that was recorded, and filing a record or completing a batch changes it entry by entry.
-/

namespace LayerPipeline

namespace Collector

open OrderedDictionary

variable {α : Type} {history : List (String × List (LayerRecord α))}

theorem ext_history {c c' : Collector α} (hhistory : c.history = c'.history)
    (hinFlight : c.inFlight = c'.inFlight) : c = c' := by
  have hlayers : c.layers = c'.layers := ext_items hhistory
  cases c
  cases c'
  simp_all

@[simp] theorem history_empty : (empty : Collector α).history = [] := rfl

theorem map_fst_history (c : Collector α) : c.history.map (·.1) = c.layerNames :=
  c.layers.map_fst_items

theorem nodup_history (c : Collector α) : (c.history.map (·.1)).Nodup :=
  c.map_fst_history ▸ c.layers.distinct

theorem runs_of_mem {c : Collector α} {h : String × List (LayerRecord α)} (hmem : h ∈ c.history) :
    c.runs h.1 = h.2 := by
  rw [runs, mem_items_iff.mp hmem, Option.getD_some]

/-! ## Filing a record -/

/-- Adds a run behind the others of its layer. -/
def fileRun (r : LayerRecord α) :
    List (String × List (LayerRecord α)) → List (String × List (LayerRecord α))
  | [] => [(r.layerName, [r])]
  | (name, rs) :: rest =>
    if name = r.layerName then (name, rs ++ [r]) :: rest else (name, rs) :: fileRun r rest

/-- Filing a record lists its layer behind the others, or adds to the runs of its layer. -/
theorem fileRun_cases (r : LayerRecord α) (history : List (String × List (LayerRecord α))) :
    (r.layerName ∉ history.map (·.1) ∧ fileRun r history = history ++ [(r.layerName, [r])]) ∨
    ∃ before rs after, history = before ++ (r.layerName, rs) :: after ∧
      fileRun r history = before ++ (r.layerName, rs ++ [r]) :: after := by
  induction history with
  | nil => exact .inl ⟨by simp, rfl⟩
  | cons h history ih =>
    obtain ⟨name, rs⟩ := h
    by_cases hname : name = r.layerName
    · subst hname
      exact .inr ⟨[], rs, history, rfl, by simp [fileRun]⟩
    · rcases ih with ⟨hfresh, hfiled⟩ | ⟨before, rs', after, hsplit, hfiled⟩
      · refine .inl ⟨?_, by simp [fileRun, hname, hfiled]⟩
        simpa [Ne.symm hname] using hfresh
      · refine .inr ⟨(name, rs) :: before, rs', after, by rw [hsplit]; rfl, ?_⟩
        simp [fileRun, hname, hfiled]

theorem map_of_absent {entries : List (String × List (LayerRecord α))} {name : String}
    (h : ∀ e ∈ entries, e.1 ≠ name) (rs : List (LayerRecord α)) :
    entries.map (fun e => if e.1 = name then (e.1, rs) else e) = entries :=
  (List.map_congr_left fun e he => if_neg (h e he)).trans (List.map_id entries)

theorem history_file (c : Collector α) (r : LayerRecord α) :
    (c.file r).history = fileRun r c.history := by
  change (c.layers.insert r.layerName (c.runs r.layerName ++ [r])).items = _
  rcases fileRun_cases r c.history with ⟨hfresh, hfiled⟩ | ⟨before, rs, after, hsplit, hfiled⟩
  · rw [map_fst_history] at hfresh
    have hnone : c.layers.get? r.layerName = none := by
      rw [← Option.not_isSome_iff_eq_none]
      exact fun hsome => hfresh (mem_order_iff.mpr hsome)
    rw [hfiled, items_insert_of_none hnone, runs, hnone]
    rfl
  · have hget : c.layers.get? r.layerName = some rs :=
      mem_items_iff.mp (show (r.layerName, rs) ∈ c.history by simp [hsplit])
    have hnodup := c.nodup_history
    rw [hsplit, List.map_append, List.map_cons] at hnodup
    obtain ⟨-, hlater, hapart⟩ := List.nodup_append.mp hnodup
    have hbefore : ∀ e ∈ before, e.1 ≠ r.layerName := fun e he =>
      hapart e.1 (List.mem_map_of_mem he) r.layerName List.mem_cons_self
    have hafter : ∀ e ∈ after, e.1 ≠ r.layerName := by
      intro e he heq
      exact (List.nodup_cons.mp hlater).1 (List.mem_map.mpr ⟨e, he, heq⟩)
    rw [hfiled, insert_of_some (hget ▸ rfl), items_modify, show c.layers.items = _ from hsplit,
      List.map_append, List.map_cons, if_pos rfl, runs, hget, Option.getD_some,
      map_of_absent hbefore, map_of_absent hafter]

theorem history_finalize [Scalar α] (c : Collector α) :
    c.finalize.history = c.history.map fun h => (h.1, stamp h.2) :=
  c.layers.items_map stamp

end Collector

end LayerPipeline
