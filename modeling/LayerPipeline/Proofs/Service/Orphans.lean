import LayerPipeline.Proofs.Service.Ready
import LayerPipeline.Proofs.Service.Teardown

/-!
# What a failed forward pass leaves on the workers

When a stage of a forward pass fails, the coordinator takes down the stages on all other nodes. It
leaves the node that failed to itself, and there the session is gone only if it was the engine that
failed. A worker that refuses its input, and one whose output the coordinator refuses, keep it.
-/

namespace LayerPipeline

open Procedure

namespace Network

variable {α : Type} {n n' : Network α} {id : String} {s : Stage α}

/-- Whether the worker at a place has a session with the id. -/
def holds (n : Network α) (id : String) (place : Place) : Bool :=
  (n.worker? place).any fun w => w.sessions.contains id

theorem Visits.holds_eq {place : Place} {w w' : Worker α} (h : Visits n n' place w w')
    (id : String) (other : Place) : n'.holds id other =
      if other = place then w'.sessions.contains id else n.holds id other := by
  unfold holds
  split
  · next heq => rw [heq, h.after, Option.any_some]
  · next hne => rw [h.others other hne]

theorem holds_setCoordinator {c : Coordinator α} (h : c.embedded = n.coordinator.embedded)
    (id : String) (place : Place) : (n.setCoordinator c).holds id place = n.holds id place :=
  congrArg (Option.any _) (worker?_setCoordinator h place)

variable [Scalar α] {e : Encoding α} {describe : Response α → String}

/-! ## Calls that are delivered and answered -/

/-- Whether a worker reads the call and the caller takes the answer. -/
def delivered (e : Encoding α) (q : Call α) (n : Network α) : Bool :=
  (n.peer? q.address).any (fun p => e.requestBytes q.request ≤ p.frameLimit) &&
    (exchange e q n).1.1.isOk

/-- The worker at the address has answered the call. -/
def Delivered (e : Encoding α) : Answers (Network α) (Call α) (Except LinkError (Response α)) :=
  fun q n a n' => Exchanged e q n a n' ∧ ∃ response p w, a = .ok response ∧
    n.peer? q.address = some p ∧
    Runs Worker.Unasked (Worker.handle q.request) p.worker (.ok response) w ∧
    n' = n.setWorker q.address w

theorem delivered_spec (q : Call α) (n : Network α) (h : delivered e q n = true) :
    Delivered e q n (surroundings e q n).1 (surroundings e q n).2.1 := by
  have hexchanged : Exchanged e q n (surroundings e q n).1 (surroundings e q n).2.1 := ⟨rfl, rfl⟩
  obtain ⟨hreads, hok⟩ := Bool.and_eq_true_iff.mp h
  change (surroundings e q n).1.isOk = true at hok
  refine ⟨hexchanged, ?_⟩
  have houtcome := hexchanged.outcome
  generalize (surroundings e q n).1 = a, (surroundings e q n).2.1 = n' at hok houtcome ⊢
  cases houtcome with
  | unsent err => cases hok
  | unread reason hp hlimit =>
    simp [hp] at hreads
    omega
  | @served p result w ms hp _ _ _ hrun =>
    cases ha : (receive e q.config q.address ⟨result.toOption, ms⟩).1 with
    | error err =>
      rw [ha] at hok
      cases hok
    | ok response =>
      have hresponse := receive_eq_ok ha
      cases result with
      | error a => cases hresponse
      | ok x =>
        cases Option.some.inj hresponse
        exact ⟨response, p, w, rfl, hp, Worker.runs_of_run hrun, rfl⟩
  | echo hp => simp [hp] at hreads
  | stuck hp => simp [hp] at hreads

/-! ## Running stages -/

/-- The stage ids that are named to the worker at a place. -/
def namedAt (s : Stage α) : Place → List String
  | .here => []
  | .there _ => [toString s.stageId]

/-- Whether the stage gets as far as the engine at the place and the engine fails. -/
def engineFails (n : Network α) (id : String) (s : Stage α) (input : Tensor) (place : Place) :
    Bool :=
  (n.worker? place).any fun w => w.engineFails id input (namedAt s place)

omit [Scalar α] in
theorem Visits.holds_iff {place : Place} {w w' : Worker α} (h : Visits n n' place w w')
    (hplace : n.coordinator.placeOf? s = some place) {input : Tensor}
    (hcontains : w'.sessions.contains id =
      (w.sessions.contains id && !w.engineFails id input (namedAt s place))) (other : Place) :
    n'.holds id other = true ↔ n.holds id other = true ∧
      ¬ (n.coordinator.placeOf? s = some other ∧ n.engineFails id s input other = true) := by
  rw [h.holds_eq]
  by_cases heq : other = place
  · subst heq
    simp [hcontains, holds, engineFails, h.before, hplace]
  · have hne : place ≠ other := fun h => heq h.symm
    simp [heq, hplace, hne]

/-- A stage takes its session from its worker when the engine fails, and else leaves all sessions
where they are. -/
theorem holds_runStage (haddresses : (n.peers.map (·.address)).Nodup) {r : ExecuteForward}
    {input : Tensor} {result : Except ServiceError (Tensor × ExecutionReport α)}
    (hrun : Runs (Delivered e) (ofCoordinator (Coordinator.runStage describe s r input)) n result
      n') :
    (∀ place, n'.holds r.sessionId place = true ↔ n.holds r.sessionId place = true ∧
      ¬ (n.coordinator.placeOf? s = some place ∧
        n.engineFails r.sessionId s input place = true)) ∧
    ∀ x, result = .ok x → ∀ place, n.coordinator.placeOf? s = some place →
      n.engineFails r.sessionId s input place = false := by
  simp only [Coordinator.runStage, ofCoordinator_bind, runs_bind, runs_ofCoordinator_read] at hrun
  obtain ⟨_, n, ⟨rfl, rfl⟩, hrun⟩ := hrun
  split at hrun
  · next hlocal =>
    obtain ⟨w, hforward, rfl⟩ := runs_onEmbedded hrun
    have houtcome := Worker.forward_outcome hforward
    have hplace : n.coordinator.placeOf? s = some .here := if_pos hlocal
    refine ⟨(visits_setEmbedded n w).holds_iff hplace houtcome.contains, ?_⟩
    rintro x rfl place hthere
    cases hplace.symm.trans hthere
    exact houtcome.engineFails_of_ok
  · next hremote =>
    simp only [ofCoordinator_bind, runs_bind, runs_ofCoordinator_read] at hrun
    obtain ⟨config, n, ⟨-, rfl⟩, hrun⟩ := hrun
    split at hrun
    · next err hway =>
      obtain ⟨rfl, rfl⟩ := hrun
      have hnone := Coordinator.placeOf?_eq_none hremote hway
      refine ⟨fun place => by simp [hnone], ?_⟩
      rintro x ⟨⟩
    · next way hway =>
      obtain ⟨address, haddress, rfl⟩ := Coordinator.channelTo_eq_ok describe hway
      have hplace : n.coordinator.placeOf? s = some (.there address) := by
        simp [Coordinator.placeOf?, hremote, haddress]
      rw [ofCoordinator_bind, runs_bind] at hrun
      obtain ⟨reply, m, hcall, hrun⟩ := hrun
      rw [Channel.executeForward, ofCoordinator_bind, runs_bind] at hcall
      obtain ⟨answer, k, hattempts, rfl, rfl⟩ := hcall
      have hanswer := runs_retrying (fun _ _ _ h => Exchanged.unreached _ _ _ _ h.1) hattempts
      obtain ⟨-, response, p, w, rfl, hp, hhandle, rfl⟩ := hanswer
      have hvisit := visits_setWorker haddresses hp w
      simp only [Worker.handle, runs_bind, runs_update, runs_pure] at hhandle
      obtain ⟨_, _, rfl, forwarded, _, hforward, hforwarded, rfl⟩ := hhandle
      cases forwarded with
      | error a => cases hforwarded
      | ok a =>
        cases Except.ok.inj hforwarded
        obtain ⟨hcontains, hsuccess⟩ := Worker.executeForward_outcome hforward
        split at hrun
        · next hreply => cases hreply
        · next a' hreply =>
          cases Except.ok.inj hreply
          split at hrun
          · obtain ⟨rfl, rfl⟩ := hrun
            refine ⟨hvisit.holds_iff hplace hcontains, ?_⟩
            rintro x ⟨⟩
          · next output houtput =>
            simp only [ofCoordinator_bind, ofCoordinator_pure, runs_bind, runs_ofCoordinator_read,
              runs_ofCoordinator_update, runs_pure] at hrun
            obtain ⟨_, _, ⟨-, rfl⟩, _, _, rfl, -, rfl⟩ := hrun
            refine ⟨Visits.holds_iff (hvisit.congr ?_) hplace hcontains, fun x _ place hthere => ?_⟩
            · exact worker?_setCoordinator rfl
            · cases hplace.symm.trans hthere
              rw [engineFails, hvisit.before, Option.any_some]
              exact hsuccess (Coordinator.stageOutput_eq_ok houtput).1

theorem retains_of_delivered {β : Type} {free : String → Prop} {p : Coordinator.Action α β} {b : β}
    (hp : Coordinator.Calm free p) (hrun : Runs (Delivered e) (ofCoordinator p) n b n') :
    Retains free n n' :=
  retains_of_tame hp.tame (hrun.mono fun _ _ _ _ h => h.1)

/-- Stages that have all run leave all sessions where they are. -/
theorem holds_runStages (hn : n.Consistent fun _ => True) {r : ExecuteForward}
    {stages : List (Stage α)} {input : Tensor} {progress : Coordinator.Progress α}
    {x : Tensor × ExecutionReport α}
    (hrun : Runs (Delivered e) (ofCoordinator
      (Coordinator.runStages describe r stages input progress)) n (.ok x) n') (place : Place) :
    n'.holds r.sessionId place = n.holds r.sessionId place := by
  induction stages generalizing n input progress with
  | nil =>
    obtain ⟨-, rfl⟩ := hrun
    rfl
  | cons s stages ih =>
    rw [Coordinator.runStages, ofCoordinator_bind, runs_bind] at hrun
    obtain ⟨result, m, hstage, hrun⟩ := hrun
    split at hrun
    · cases hrun.1
    · next output report =>
      simp only [ofCoordinator_bind, runs_bind, runs_ofCoordinator_update] at hrun
      obtain ⟨_, _, rfl, hrun⟩ := hrun
      obtain ⟨hholds, hpassed⟩ := holds_runStage hn.addresses hstage
      have hretains : Retains (fun _ => True) n
          (m.setCoordinator (m.coordinator.recordStage s r report)) :=
        (retains_of_delivered (Coordinator.calm_runStage describe s r input) hstage).trans
          (retains_setCoordinator { Coordinator.Retains.refl m.coordinator with })
      have hspared : ¬ (n.coordinator.placeOf? s = some place ∧
          n.engineFails r.sessionId s input place = true) := by
        rintro ⟨hplace, hfails⟩
        rw [hpassed _ rfl place hplace] at hfails
        cases hfails
      have hrecorded : (m.setCoordinator (m.coordinator.recordStage s r report)).holds r.sessionId
          place = m.holds r.sessionId place := holds_setCoordinator rfl _ _
      rw [ih (hn.retains hretains) hrun, hrecorded, Bool.eq_iff_iff, hholds place]
      simp [hspared]

/-! ## Taking stages down -/

/-- Stages that are taken down are gone, and the session is where it was at all other places. -/
theorem holds_closeStages (hn : n.Consistent fun _ => True) {stages : List (Stage α)} {u : Unit}
    (hrun : Runs (Delivered e) (ofCoordinator (Coordinator.closeStages describe id stages)) n u
      n') (place : Place) :
    n'.holds id place = true ↔ n.holds id place = true ∧
      ∀ s ∈ stages, n.coordinator.placeOf? s ≠ some place := by
  induction stages generalizing n with
  | nil =>
    obtain ⟨-, rfl⟩ := hrun
    simp
  | cons s stages ih =>
    rw [Coordinator.closeStages, ofCoordinator_bind, runs_bind] at hrun
    obtain ⟨_, m, hclose, hrun⟩ := hrun
    have hretains : Retains (fun _ => True) n m :=
      retains_of_delivered (Coordinator.lenient_undisturbed.closeStage describe id s) hclose
    have hplaces := placeOf?_congr hretains.coordinator.config hretains.coordinator.capability
    have houtcome := closeStage_outcome (fun _ _ _ _ _ h => Exchanged.unretried _ _ _ _ _ _ h.1)
      hclose
    have hfirst : m.holds id place = true ↔
        n.holds id place = true ∧ n.coordinator.placeOf? s ≠ some place := by
      cases hplace : n.coordinator.placeOf? s with
      | none =>
        cases houtcome with
        | inside hhere => cases hhere.symm.trans hplace
        | nowhere => simp
        | called hthere => cases hthere.symm.trans hplace
      | some closed =>
        have hserved : ∀ address answer, closed = .there address →
            Delivered e (n.closing address id) n answer m → Served (n.closing address id) n m := by
          rintro address answer - ⟨-, response, p, w, -, hp, hhandle, heq⟩
          exact ⟨p, response, w, hp, hhandle, heq⟩
        obtain ⟨w, w', hvisit, hopened⟩ :=
          houtcome.visits hn.addresses hn.workers hplace hserved
        have hgone : w'.sessions.contains id = false := by
          simp [SessionTable.contains, hopened]
        rw [hvisit.holds_eq, hgone]
        by_cases heq : place = closed
        · simp [heq]
        · simp [heq, Ne.symm heq]
    rw [ih (hn.retains hretains) hrun, hfirst]
    simp [hplaces, and_assoc]

/-! ## Failed passes -/

/-- Some stages have run, the next one has failed, and the stages on other nodes were taken down. -/
theorem holds_givenUp (hn : n.Consistent fun _ => True) {r : ExecuteForward} {m k : Network α}
    {done stages : List (Stage α)} {between : Tensor} {x : Tensor × ExecutionReport α}
    {err : ServiceError} {c : Coordinator α} {u : Unit}
    (hdone : Runs (Delivered e) (ofCoordinator
      (Coordinator.runStages describe r done r.input .start)) n (.ok x) m)
    (hstage : Runs (Delivered e) (ofCoordinator (Coordinator.runStage describe s r between)) m
      (.error err) k)
    (hc : Coordinator.Retains (fun _ => True) k.coordinator c)
    (hembedded : c.embedded = k.coordinator.embedded)
    (hclose : Runs (Delivered e) (ofCoordinator (Coordinator.closeStages describe r.sessionId
      (stages.filter fun x => x.node.nodeId ≠ s.node.nodeId))) (k.setCoordinator c) u n')
    (place : Place) :
    n'.holds r.sessionId place = true ↔ n.holds r.sessionId place = true ∧
      (∀ x ∈ stages, n.coordinator.placeOf? x = some place → x.node.nodeId = s.node.nodeId) ∧
      ¬ (n.coordinator.placeOf? s = some place ∧
        m.engineFails r.sessionId s between place = true) := by
  have hm : Retains (fun _ => True) n m :=
    retains_of_delivered (Coordinator.calm_runStages describe r done r.input .start) hdone
  have hk : Retains (fun _ => True) m k :=
    retains_of_delivered (Coordinator.calm_runStage describe s r between) hstage
  have hend := (hm.trans hk).trans (retains_setCoordinator hc)
  have hplaces := placeOf?_congr hend.coordinator.config hend.coordinator.capability
  have hothers : (∀ x ∈ stages.filter (fun x => x.node.nodeId ≠ s.node.nodeId),
      (k.setCoordinator c).coordinator.placeOf? x ≠ some place) ↔
      ∀ x ∈ stages, n.coordinator.placeOf? x = some place → x.node.nodeId = s.node.nodeId := by
    simp only [hplaces, List.mem_filter, decide_eq_true_eq, and_imp, ne_eq]
    exact forall₂_congr fun x _ => not_imp_not
  rw [holds_closeStages (hn.retains hend) hclose, holds_setCoordinator hembedded,
    (holds_runStage (hn.retains hm).addresses hstage).1, holds_runStages hn hdone, hothers,
    placeOf?_congr hm.coordinator.config hm.coordinator.capability, and_assoc,
    and_comm (a := ¬ _)]

/-- Where every call is delivered and answered, the session of a pass that fails in a stage is left
exactly at those places that held it, that only the node of this stage is run at, and that are not
where the stage got as far as the engine and the engine failed. -/
theorem executeForward_leaves {r : ExecuteForward} {err : ServiceError} {session : Session α}
    (hn : n.Consistent fun _ => True)
    (hdelivered : everyQuestion (delivered e) (surroundings e)
      (ofCoordinator (Coordinator.executeForward e.describe r)) n = true)
    (hperform : perform e (Coordinator.executeForward e.describe r) n = (.error err, n'))
    (hsession : n.coordinator.sessions.get? r.sessionId = some session)
    (hgone : n'.coordinator.sessions.get? r.sessionId = none) :
    ∃ p done stage rest between report m k, session.plan = some p ∧
      selected r p = done ++ stage :: rest ∧
      Runs (Exchanged e) (ofCoordinator (Coordinator.runStages e.describe r done r.input .start)) n
        (.ok (between, report)) m ∧
      Runs (Exchanged e) (ofCoordinator (Coordinator.runStage e.describe stage r between)) m
        (.error err) k ∧
      ∀ place, n'.holds r.sessionId place = true ↔ n.holds r.sessionId place = true ∧
        (∀ x ∈ p.stages, n.coordinator.placeOf? x = some place →
          x.node.nodeId = stage.node.nodeId) ∧
        ¬ (n.coordinator.placeOf? stage = some place ∧
          m.engineFails r.sessionId stage between place = true) := by
  have hrun : Runs (Delivered e) (ofCoordinator (Coordinator.executeForward e.describe r)) n
      (perform e (Coordinator.executeForward e.describe r) n).1
      (perform e (Coordinator.executeForward e.describe r) n).2 :=
    runs_of_everyQuestion delivered_spec hdelivered
  rw [hperform] at hrun
  have hanswered : ∀ q n a n', Delivered e q n a n' → Answered q n a n' :=
    fun q n a n' h => h.1.answered
  have hexchanged : ∀ q n a n', Delivered e q n a n' → Exchanged e q n a n' := fun q n a n' h => h.1
  generalize hresult : Except.error err = result at hrun
  cases executeForward_outcome hn.sessions hrun with
  | invalid => cases hsession.symm.trans hgone
  | unknown hunknown => cases hsession.symm.trans hunknown
  | idle => cases hsession.symm.trans hgone
  | aborted hpass =>
    have hsame := sessions_of_quiet (Coordinator.calm_runStages _ r _ r.input .start).quiet
      (hpass.mono hanswered)
    rw [hsame] at hgone
    cases hsession.symm.trans hgone
  | @failed s p stage _ found k _ hs hplan _ hpass hclose =>
    obtain rfl := Except.error.inj hresult
    obtain rfl := Option.some.inj (hs.symm.trans hsession)
    obtain ⟨done, rest, between, report, m, hselected, hdone, hstage⟩ := runStages_error hpass
    refine ⟨p, done, stage, rest, between, report, m, k, hplan, hselected, hdone.mono hexchanged,
      hstage.mono hexchanged, fun place => ?_⟩
    have hc : Coordinator.Retains (fun _ => True) k.coordinator
        ((k.coordinator.abandon s.key r.sessionId stage err).releaseFor s.key found p) :=
      (Coordinator.retains_abandon _ _ _ _ _).trans
        (Coordinator.retains_of_sessions rfl rfl rfl rfl (.refl _))
    exact holds_givenUp hn hdone hstage hc
      (Coordinator.embedded_abandon _ s.key r.sessionId stage err) hclose place
  | done => cases hresult

private def swelling : Engine Binary64 :=
  { Engine.passthrough "cpu" 0 with
    compute := fun _ _ t => .ok { t with numBytes := t.numBytes + 1 } }

private def swellingNetwork (c : Coordinator Binary64) : Network Binary64 :=
  (small c [.small "w" swelling]).afterJobs .payload
    [.install { (default : Plan Binary64) with stages := [.small 0 "c", .small 1 "w"] },
      .serve (.createSession ⟨"s", ⟨"", 0, "", false⟩, [], 0, .u8⟩)]

private theorem reachable_swellingNetwork {c : Coordinator Binary64}
    (hstart : Coordinator.small .standard = .ok c) : Reachable .payload (swellingNetwork c) := by
  refine (reachable_small hstart ?_ fun p hp => ?_).afterJobs _
  · exact List.nodup_singleton _
  · rw [List.mem_singleton.mp hp]
    rfl

private def swellingForward : ExecuteForward := ⟨"s", 5, ⟨.u8, [1], [3], 1⟩, []⟩

/-- The last stage runs on a worker that gives out tensors of a wrong size. The coordinator refuses
the output, gives up the session and takes down its own stage; the worker keeps the session. -/
theorem executeForward_leaves_swelling :
    ∃ (n n' : Network Binary64) (err : ServiceError) (session : Session Binary64),
      n.Consistent (fun _ => True) ∧
      everyQuestion (delivered .payload) (surroundings .payload) (ofCoordinator
        (Coordinator.executeForward Encoding.payload.describe swellingForward)) n = true ∧
      perform .payload (Coordinator.executeForward Encoding.payload.describe swellingForward) n =
        (.error err, n') ∧
      n.coordinator.sessions.get? "s" = some session ∧
      n'.coordinator.sessions.get? "s" = none ∧
      n'.holds "s" .here = false ∧ n'.holds "s" (.there "w:1") = true ∧
      ∃ p done stage rest between report m k, session.plan = some p ∧
        selected swellingForward p = done ++ stage :: rest ∧
        Runs (Exchanged .payload) (ofCoordinator (Coordinator.runStages Encoding.payload.describe
          swellingForward done swellingForward.input .start)) n (.ok (between, report)) m ∧
        Runs (Exchanged .payload) (ofCoordinator (Coordinator.runStage Encoding.payload.describe
          stage swellingForward between)) m (.error err) k ∧
        ∀ place, n'.holds "s" place = true ↔ n.holds "s" place = true ∧
          (∀ x ∈ p.stages, n.coordinator.placeOf? x = some place →
            x.node.nodeId = stage.node.nodeId) ∧
          ¬ (n.coordinator.placeOf? stage = some place ∧
            m.engineFails "s" stage between place = true) := by
  have houtcome : ((Coordinator.small .standard).toOption.map fun c =>
      let n := swellingNetwork c
      let (result, n') := perform .payload
        (Coordinator.executeForward Encoding.payload.describe swellingForward) n
      [everyQuestion (delivered .payload) (surroundings .payload) (ofCoordinator
          (Coordinator.executeForward Encoding.payload.describe swellingForward)) n,
        result.isOk, n.coordinator.sessions.contains "s", n'.coordinator.sessions.contains "s",
        n'.holds "s" .here, n'.holds "s" (.there "w:1")]) =
      some [true, false, true, false, false, true] := by
    decide +kernel
  cases hstart : Coordinator.small .standard with
  | error err => simp [hstart, Except.toOption] at houtcome
  | ok c =>
    simp only [hstart, Except.toOption, Option.map_some, Option.some.injEq, List.cons.injEq,
      and_true] at houtcome
    obtain ⟨hdelivered, hresult, hbefore, hafter, hhere, hthere⟩ := houtcome
    have hn := (reachable_swellingNetwork hstart).consistent.unbound
    generalize swellingNetwork c = n at hdelivered hresult hbefore hafter hhere hthere hn
    cases hperform : perform .payload
        (Coordinator.executeForward Encoding.payload.describe swellingForward) n with
    | mk result n' =>
      rw [hperform] at hresult hafter hhere hthere
      rw [SessionTable.contains_eq_isSome] at hbefore hafter
      obtain ⟨session, hsession⟩ := Option.isSome_iff_exists.mp hbefore
      have hgone : n'.coordinator.sessions.get? "s" = none := by simpa using hafter
      cases result with
      | ok x => cases hresult
      | error err =>
        exact ⟨n, n', err, session, hn, hdelivered, hperform, hsession, hgone, hhere, hthere,
          executeForward_leaves hn hdelivered hperform hsession hgone⟩

end Network

end LayerPipeline
