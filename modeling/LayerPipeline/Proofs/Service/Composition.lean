import LayerPipeline.Proofs.Service.Consistency
import LayerPipeline.Proofs.Service.SlidingWindow

/-!
# Forward passes compose the stages

A forward pass that succeeds is what the engines of the selected stages make of its input, one after
the other in the order of the plan. Every stage is one call of the engine of the worker where it
runs, for the layers that the plan gives it; and every stage leaves one record with the coordinator.
An engine may be another one after every call, so what a stage makes of its input can depend on the
stages that ran at the same place before it.
-/

namespace LayerPipeline

open Procedure

namespace Network

variable {α : Type} {n n' m : Network α}

/-- The calls that were made at a place. -/
def callsAt (place : Place) (calls : List (Place × EngineCall)) : List EngineCall :=
  (calls.filter fun x => x.1 = place).map (·.2)

theorem callsAt_cons (place : Place) (x : Place × EngineCall) (calls : List (Place × EngineCall)) :
    callsAt place (x :: calls) =
      if x.1 = place then x.2 :: callsAt place calls else callsAt place calls := by
  by_cases h : x.1 = place <;> simp [callsAt, h]

/-- The engine at a place, as the calls that were made meanwhile have left it. -/
def engine? (n : Network α) (made : List (Place × EngineCall)) (place : Place) :
    Option (Engine α) :=
  (n.worker? place).map fun w => w.backend.after (w.calls ++ callsAt place made)

/-- Feeds an input through stages, each on the engine of the worker where it runs, after calls that
were made before. The result comes with the calls for these stages in order. -/
def feed (n : Network α) : List (Stage α) → (made : List (Place × EngineCall)) → Tensor →
    Option (Tensor × List (Place × EngineCall))
  | [], _, input => some (input, [])
  | s :: stages, made, input => do
    let place ← n.coordinator.placeOf? s
    let engine ← n.engine? made place
    let output ← (engine.compute (toString s.stageId) s.layers input).toOption
    let call : Place × EngineCall := (place, ⟨toString s.stageId, s.layers, input⟩)
    let (result, calls) ← n.feed stages (made ++ [call]) output
    return (result, call :: calls)

/-- It makes no difference whether calls were made before or are made first. -/
theorem feed_append {front : List (Place × EngineCall)}
    (hplace : ∀ s, n'.coordinator.placeOf? s = n.coordinator.placeOf? s)
    (hengine : ∀ made place, n'.engine? made place = n.engine? (front ++ made) place)
    (stages : List (Stage α)) (made : List (Place × EngineCall)) (input : Tensor) :
    n'.feed stages made input = n.feed stages (front ++ made) input := by
  induction stages generalizing made input with
  | nil => rfl
  | cons s stages ih => simp only [feed, hplace, hengine, ih, List.append_assoc]

/-- What the coordinator records of a stage that has run for a request. -/
structure Records (r : ExecuteForward) (s : Stage α) (entry : MetricsRecord α) : Prop where
  source : entry.source = s.node.nodeId
  session : entry.sessionId = some r.sessionId
  token : entry.tokenIndex = some r.tokenIndex
  stage : entry.report.stageIndex = s.stageId.toUInt32

/-- An input went through stages: what came of it, what every engine was called for, and what the
coordinator recorded. -/
structure Passes (n n' : Network α) (r : ExecuteForward) (stages : List (Stage α))
    (input output : Tensor) (calls : List (Place × EngineCall)) (entries : List (MetricsRecord α)) :
    Prop where
  result : n.feed stages [] input = some (output, calls)
  called : ∀ place, (n'.worker? place).map (·.calls) =
    (n.worker? place).map fun w => w.calls ++ callsAt place calls
  records : List.Forall₂ (Records r) stages entries
  metrics : n.coordinator.metrics.Gains entries n'.coordinator.metrics

theorem passes_nil (n : Network α) (r : ExecuteForward) (input : Tensor) :
    Passes n n r [] input input [] [] :=
  ⟨rfl, by simp [callsAt], .nil, CentralMetrics.gains_iff.mpr rfl⟩

/-- One stage, then the others. -/
theorem Passes.cons {r : ExecuteForward} {s : Stage α} {stages : List (Stage α)}
    {input between output : Tensor} {calls : List (Place × EngineCall)}
    {entry : MetricsRecord α} {entries : List (MetricsRecord α)} {place : Place} {w w' : Worker α}
    (hplace : n.coordinator.placeOf? s = some place) (hvisit : Visits n m place w w')
    (hcompute : w.engine.compute (toString s.stageId) s.layers input = .ok between)
    (hcalls : w'.calls = w.calls ++ [⟨toString s.stageId, s.layers, input⟩])
    (hentry : Records r s entry)
    (hmetrics : m.coordinator.metrics = n.coordinator.metrics.push entry)
    (hsame : m.feed stages [] between =
      n.feed stages [(place, ⟨toString s.stageId, s.layers, input⟩)] between)
    (hrest : Passes m n' r stages between output calls entries) :
    Passes n n' r (s :: stages) input output
      ((place, ⟨toString s.stageId, s.layers, input⟩) :: calls) (entry :: entries) where
  result := by
    have hengine : n.engine? [] place = some w.engine := by
      simp [engine?, hvisit.before, callsAt, Worker.engine]
    simp [feed, hplace, hengine, hcompute, Except.toOption, ← hsame, hrest.result]
  called other := by
    rw [hrest.called other, callsAt_cons]
    split
    · next heq =>
      subst heq
      simp [hvisit.before, hvisit.after, hcalls]
    · next hne => rw [hvisit.others other (Ne.symm hne)]
  records := .cons hentry hrest.records
  metrics := by
    rw [CentralMetrics.gains_iff, CentralMetrics.gains_iff.mp hrest.metrics, hmetrics]
    rfl

/-- A visit by work that binds nothing anew leaves all engines as they are, but for the call that
it makes. -/
theorem Visits.engine?_eq {place : Place} {w w' : Worker α} (h : Visits n n' place w w')
    {free : String → Prop} (hretains : Retains free n n') {call : EngineCall}
    (hcalls : w'.calls = w.calls ++ [call]) (made : List (Place × EngineCall)) (other : Place) :
    n'.engine? made other = n.engine? ([(place, call)] ++ made) other := by
  rw [engine?, engine?, List.singleton_append, callsAt_cons]
  split
  · next heq =>
    subst heq
    obtain ⟨x, hx, hworker⟩ := hretains.workers _ w' h.after
    obtain rfl : w = x := Option.some.inj (h.before.symm.trans hx)
    simp [h.before, h.after, hworker.backend, hcalls]
  · next hne => rw [h.others other (Ne.symm hne)]

variable [Scalar α] {e : Encoding α} {describe : Response α → String}

/-- A stage that has run for a session that is bound as the plan says. -/
theorem runStage_of_bound {r : ExecuteForward} {s : Stage α} {input output : Tensor}
    {report : ExecutionReport α} (hn : n.Consistent fun _ => False)
    (hbound : n.Bound r.sessionId [s])
    (hrun : Runs (Exchanged e) (ofCoordinator (Coordinator.runStage describe s r input)) n
      (.ok (output, report)) n') :
    ∃ place w w', n.coordinator.placeOf? s = some place ∧ Visits n n' place w w' ∧
      w.engine.compute (toString s.stageId) s.layers input = .ok output ∧
      w'.calls = w.calls ++ [⟨toString s.stageId, s.layers, input⟩] ∧
      report.stageIndex = s.stageId.toUInt32 ∧ n'.coordinator.metrics = n.coordinator.metrics := by
  obtain ⟨place, w, w', t, stage, hplace, hvisit, ht, hstage, hcompute, hcalls, hindex, hmetrics⟩ :=
    runStage_success hn.addresses hn.workers hrun
  obtain ⟨_, hserves, hstageId, hstageIndex, hlayers⟩ :=
    hbound s (List.mem_singleton_self s) place w t hplace hvisit.before ht
  cases hstage.symm.trans hserves
  rw [hstageId, hlayers] at hcompute hcalls
  exact ⟨place, w, w', hplace, hvisit, hcompute, hcalls, hindex.trans hstageIndex, hmetrics⟩

/-- Stages that have all run have passed the input on as the plan says. The induction goes over the
stages: each of them leaves the bindings of the others as they were. -/
theorem runStages_success {r : ExecuteForward} {stages : List (Stage α)} {input output : Tensor}
    {progress : Coordinator.Progress α} {report : ExecutionReport α}
    (hn : n.Consistent fun _ => False) (hbound : n.Bound r.sessionId stages)
    (hrun : Runs (Exchanged e) (ofCoordinator
      (Coordinator.runStages describe r stages input progress)) n (.ok (output, report)) n') :
    (∃ calls entries, Passes n n' r stages input output calls entries) ∧
      report.stageIndex =
        (stages.getLast?.map (·.stageId.toUInt32)).getD progress.total.stageIndex := by
  induction stages generalizing n input progress with
  | nil =>
    obtain ⟨hresult, rfl⟩ := hrun
    obtain ⟨rfl, rfl⟩ := Prod.mk.inj (Except.ok.inj hresult)
    exact ⟨⟨[], [], passes_nil _ r _⟩, rfl⟩
  | cons s stages ih =>
    rw [Coordinator.runStages, ofCoordinator_bind, runs_bind] at hrun
    obtain ⟨result, m, hstage, hrun⟩ := hrun
    split at hrun
    · cases hrun.1
    · next between report' =>
      simp only [ofCoordinator_bind, runs_bind, runs_ofCoordinator_update] at hrun
      obtain ⟨_, m', hm', hrun⟩ := hrun
      obtain ⟨place, w, w', hplace, hvisit, hcompute, hcalls, hindex, hmetrics⟩ :=
        runStage_of_bound hn (fun x hx => hbound x (by simp_all)) hstage
      have hretains : Retains (fun _ => False) n m' :=
        (retains_of_tame (Coordinator.calm_runStage describe s r input).tame hstage).trans
          (hm' ▸ retains_setCoordinator { Coordinator.Retains.refl m.coordinator with })
      have hvisit' : Visits n m' place w w' := hvisit.congr (hm' ▸ worker?_setCoordinator rfl)
      have hrecord : m'.coordinator.metrics = n.coordinator.metrics.push ⟨s.node.nodeId,
          some r.sessionId, some r.tokenIndex, report', m.coordinator.clock.text⟩ := by
        rw [hm', ← hmetrics]
        rfl
      -- the rest runs in a network where the bindings are still those of `n`, and the engines are
      -- those of `n` after one call
      have hothers : n.Bound r.sessionId stages := fun x hx => hbound x (List.mem_cons_of_mem _ hx)
      obtain ⟨⟨calls, entries, hpasses⟩, hlast⟩ :=
        ih (hn.retains hretains) (hothers.retains hretains not_false) hrun
      have hentry := hpasses.cons hplace hvisit' hcompute hcalls ⟨rfl, rfl, rfl, hindex⟩ hrecord
      refine ⟨⟨_, _, hentry ?_⟩, ?_⟩
      · exact feed_append
          (placeOf?_congr hretains.coordinator.config hretains.coordinator.capability)
          (hvisit'.engine?_eq hretains hcalls) stages [] between
      · rw [hlast, List.getLast?_cons]
        cases stages.getLast? with
        | none => exact hindex
        | some last => rfl

/-- The stages that a request selects from a plan, in the order of the plan. -/
def selected (r : ExecuteForward) (p : Plan α) : List (Stage α) :=
  p.stages.filter fun s => r.stageIds.isEmpty || r.stageIds.contains (toString s.stageId)

/-- A forward pass that succeeds runs the selected stages and then counts the token. -/
theorem executeForward_success {r : ExecuteForward} {output : Tensor} {report : ExecutionReport α}
    (hsound : n.coordinator.sessions.Sound)
    (hrun : Runs (Exchanged e) (ofCoordinator (Coordinator.executeForward describe r)) n
      (.ok (output, report)) n') :
    ∃ s p m now, n.coordinator.sessions.get? r.sessionId = some s ∧ s.plan = some p ∧
      selected r p ≠ [] ∧
      Runs (Exchanged e) (ofCoordinator
        (Coordinator.runStages describe r (selected r p) r.input .start)) n
        (.ok (output, report)) m ∧
      (∀ place, n'.worker? place = m.worker? place) ∧
      n'.coordinator.metrics = m.coordinator.metrics ∧
      n'.coordinator.sessions =
        m.coordinator.sessions.modify s.key fun x => x.recordForward r.tokenIndex now := by
  unfold Coordinator.executeForward at hrun
  split at hrun
  · cases hrun.1
  · simp only [ofCoordinator_bind, runs_bind, runs_ofCoordinator_read] at hrun
    obtain ⟨_, n, ⟨rfl, rfl⟩, hrun⟩ := hrun
    split at hrun
    · cases hrun.1
    · next key hkey =>
      obtain ⟨s, hs, rfl⟩ := Option.map_eq_some_iff.mp hkey
      simp only [ofCoordinator_bind, runs_bind, runs_ofCoordinator_acquire,
        runs_ofCoordinator_read] at hrun
      obtain ⟨_, _, rfl, _, n, ⟨rfl, rfl⟩, hrun⟩ := hrun
      split at hrun
      · simp only [ofCoordinator_bind, runs_bind, runs_ofCoordinator_release] at hrun
        obtain ⟨_, _, rfl, herror, -⟩ := hrun
        cases herror
      · next p stages hstages =>
        obtain ⟨s', hs', -, hplan, rfl, hne⟩ := Coordinator.stagesToRun_eq_ok hstages
        obtain rfl : s = s' := Option.some.inj ((hsound.session?_of_get? hs).symm.trans hs')
        rw [ofCoordinator_bind, runs_bind] at hrun
        obtain ⟨outcome, m, hpass, hrun⟩ := hrun
        split at hrun
        · simp only [ofCoordinator_bind, runs_bind, runs_ofCoordinator_release] at hrun
          obtain ⟨_, _, rfl, herror, -⟩ := hrun
          cases herror
        · simp only [ofCoordinator_bind, runs_bind] at hrun
          obtain ⟨_, _, -, _, _, -, _, _, -, _, _, -, _, _, -, _, _, -, herror, -⟩ := hrun
          cases herror
        · simp only [ofCoordinator_bind, ofCoordinator_pure, runs_bind, runs_ofCoordinator_update,
            runs_ofCoordinator_release, runs_pure] at hrun
          obtain ⟨_, _, rfl, _, _, rfl, _, _, rfl, hresult, rfl⟩ := hrun
          obtain ⟨rfl, rfl⟩ := Prod.mk.inj (Except.ok.inj hresult)
          refine ⟨s, p, m, _, hs, hplan, hne, hpass, ?_, rfl, rfl⟩
          exact worker?_setCoordinator rfl

/-- A forward pass that succeeds in a network that can be reached feeds its input through the stages
that it selects from the plan of its session. It counts as one more token of the session, and leaves
all other sessions alone. -/
theorem executeForward_passes {r : ExecuteForward} {output : Tensor} {report : ExecutionReport α}
    (hn : Reachable e n) (hperform : perform e (Coordinator.executeForward e.describe r) n =
      (.ok (output, report), n')) :
    ∃ s p calls entries now last,
      n.coordinator.sessions.get? r.sessionId = some s ∧ s.plan = some p ∧
      Passes n n' r (selected r p) r.input output calls entries ∧
      (∀ id, n'.coordinator.sessions.get? id =
        if id = r.sessionId then
          some { s with tokens := s.tokens + 1, lastToken := some r.tokenIndex, lastActive := now }
        else n.coordinator.sessions.get? id) ∧
      (selected r p).getLast? = some last ∧ report.stageIndex = last.stageId.toUInt32 := by
  have hconsistent := hn.consistent
  have hrun := runs_perform e (Coordinator.executeForward e.describe r) n
  rw [hperform] at hrun
  obtain ⟨s, p, m, now, hs, hplan, hne, hpass, hworkers, hmetrics, hsessions⟩ :=
    executeForward_success hconsistent.sessions hrun
  have hbound : n.Bound r.sessionId (selected r p) := by
    obtain ⟨hopen, hid⟩ := SessionTable.get?_eq_some hs
    intro x hx
    exact hid ▸ hconsistent.bound s hopen not_false p hplan x (List.mem_of_mem_filter hx)
  obtain ⟨⟨calls, entries, hpasses⟩, hlast⟩ := runStages_success hconsistent hbound hpass
  have hcalm : Coordinator.Undisturbed (fun _ => False) n.coordinator m.coordinator :=
    (Coordinator.calm_runStages e.describe r _ _ _).undisturbed (runs_coordinator hpass)
  have hcounted : Passes n n' r (selected r p) r.input output calls entries :=
    { hpasses with
      called := fun place => hworkers place ▸ hpasses.called place
      metrics := by rw [hmetrics]; exact hpasses.metrics }
  refine ⟨s, p, calls, entries, now, (selected r p).getLast hne, hs, hplan, hcounted, fun id => ?_,
    List.getLast?_eq_getLast_of_ne_nil hne, ?_⟩
  · rw [hsessions, hcalm.sessions]
    exact hconsistent.sessions.get?_modify_key (SessionTable.keeps_recordForward _ _) hs id
  · simpa [List.getLast?_eq_getLast_of_ne_nil hne] using hlast

private def bytewise (f : UInt8 → UInt8) : Engine Binary64 :=
  { Engine.passthrough "cpu" 0 with compute := fun _ _ t => .ok { t with data := t.data.map f } }

private def doublingPeer : Peer Binary64 where
  address := "w:1"
  worker := .start .standard (.basic "w" .cpu) (bytewise (2 * ·)) ⟨0, ""⟩ ⟨0, fun _ => "generated"⟩
  listening := true
  frameLimit := 134217728

private def stageOn (id : UInt64) (node : String) (layers : List String) : Stage Binary64 :=
  { (default : Stage Binary64) with
    stageId := id
    layers := layers
    node := { Node.basic node .cpu 100.0 with address := some (node ++ ":1") } }

private def mixedPlan : Plan Binary64 :=
  { (default : Plan Binary64) with
    stages := [stageOn 0 "w" ["a", "b"], stageOn 1 "c" ["d"]] }

private def incrementingCoordinator : Except ServiceError (Coordinator Binary64) :=
  Coordinator.start .standard ((Capability.basic "c" .cpu).withMemory 8.0 8.0) (bytewise (1 + ·)) []
    "c:1" ⟨0, ""⟩ ⟨0, fun _ => "generated"⟩ 0.0

private def mixedNetwork (c : Coordinator Binary64) : Network Binary64 :=
  let jobs : List (Coordinator.Job Binary64) :=
    [.install mixedPlan, .serve (.createSession ⟨"s", ⟨"", 0, "", false⟩, [], 0, .u8⟩)]
  jobs.foldl (fun n job => (perform .payload (job.procedure Encoding.payload.describe) n).2)
    ⟨c, "c:1", true, 134217728, [doublingPeer]⟩

private theorem reachable_mixedNetwork {c : Coordinator Binary64}
    (hstart : incrementingCoordinator = .ok c) : Reachable .payload (mixedNetwork c) := by
  have halone : Reachable .payload (⟨c, "c:1", true, 134217728, []⟩ : Network Binary64) :=
    .start hstart (fun _ => rfl) rfl
  have hjoined : Reachable .payload (⟨c, "c:1", true, 134217728, [doublingPeer]⟩ : Network _) := by
    refine halone.step (.rearrange rfl (List.nodup_singleton _) fun p hp => ?_)
    rw [List.mem_singleton.mp hp]
    exact .inl rfl
  exact (hjoined.step (.work _)).step (.work _)

private def mixedForward : ExecuteForward := ⟨"s", 5, ⟨.u8, [1], [3], 1⟩, ["1", "0"]⟩

/-- A stage on a worker that doubles, then one inside a coordinator that increments, whatever order
they are named in. -/
theorem executeForward_passes_mixed :
    ∃ n n' output report, Reachable .payload n ∧
      perform .payload (Coordinator.executeForward Encoding.payload.describe mixedForward) n =
        (.ok (output, report), n') ∧ output.data = [7] ∧
      ∃ s p calls entries now last,
        n.coordinator.sessions.get? "s" = some s ∧ s.plan = some p ∧
        Passes n n' mixedForward (selected mixedForward p) mixedForward.input output calls entries ∧
        (∀ id, n'.coordinator.sessions.get? id =
          if id = "s" then
            some { s with tokens := s.tokens + 1, lastToken := some 5, lastActive := now }
          else n.coordinator.sessions.get? id) ∧
        (selected mixedForward p).getLast? = some last ∧
        report.stageIndex = last.stageId.toUInt32 := by
  have houtcome : (incrementingCoordinator.toOption.map fun c =>
      (perform .payload (Coordinator.executeForward Encoding.payload.describe mixedForward)
        (mixedNetwork c)).1.toOption.map fun x => x.1.data) = some (some [7]) := by
    decide +kernel
  cases hstart : incrementingCoordinator with
  | error err => simp [hstart, Except.toOption] at houtcome
  | ok c =>
    simp only [hstart, Except.toOption, Option.map_some, Option.some.injEq] at houtcome
    have hreach := reachable_mixedNetwork hstart
    generalize mixedNetwork c = n at houtcome hreach
    cases hperform : perform .payload
        (Coordinator.executeForward Encoding.payload.describe mixedForward) n with
    | mk result n' =>
      rw [hperform] at houtcome
      rcases result with err | ⟨output, report⟩
      · cases houtcome
      · exact ⟨n, n', output, report, hreach, hperform, Option.some.inj houtcome,
          executeForward_passes hreach hperform⟩

end Network

end LayerPipeline
