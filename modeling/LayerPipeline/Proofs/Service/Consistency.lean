import LayerPipeline.Proofs.Service.Stages

/-!
# Bindings follow plans

In every network whose workers hear of sessions from their coordinator alone, a worker that knows an
open session of the coordinator is bound to the stage that the session's plan runs there. A worker
may have lost the session, and may still know sessions that the coordinator has given up; but the
coordinator opens no session where its id is in use.
-/

namespace LayerPipeline

open Procedure

namespace Network

variable {α : Type} {free : String → Prop} {n n' : Network α} {id : String}
  {stages : List (Stage α)}

/-- Wherever a worker knows the session, it serves the stage that runs there. -/
def Bound (n : Network α) (id : String) (stages : List (Stage α)) : Prop :=
  ∀ s ∈ stages, ∀ place w t, n.coordinator.placeOf? s = some place → n.worker? place = some w →
    w.sessions.get? id = some t → t.Serves s

/-- Workers have addresses of their own, all tables are in order, and workers serve the open
sessions as their plans say, those with free ids apart. -/
structure Consistent (free : String → Prop) (n : Network α) : Prop where
  addresses : (n.peers.map (·.address)).Nodup
  names : ∀ i, (n.coordinator.ids.name i).isEmpty = false
  sessions : n.coordinator.sessions.Sound
  workers : ∀ place w, n.worker? place = some w → w.sessions.Sound
  bound : ∀ s ∈ n.coordinator.sessions.opened, ¬ free s.id → ∀ p ∈ s.plan, n.Bound s.id p.stages

theorem placeOf?_congr {c c' : Coordinator α} (hconfig : c'.config = c.config)
    (hcapability : c'.capability = c.capability) (s : Stage α) : c'.placeOf? s = c.placeOf? s := by
  unfold Coordinator.placeOf? Coordinator.isLocal Coordinator.nodeId
  rw [hconfig, hcapability]

theorem Bound.retains (h : n.Bound id stages) (hretains : Retains free n n') (hid : ¬ free id) :
    n'.Bound id stages := by
  intro s hs place w' t' hplace hw' ht'
  rw [placeOf?_congr hretains.coordinator.config hretains.coordinator.capability] at hplace
  obtain ⟨w, hw, hworker⟩ := hretains.workers place w' hw'
  obtain ⟨t, ht, hstage, hlayers⟩ := hworker.bound id t' hid ht'
  obtain ⟨stage, hbound, hstageId, hindex, hnames⟩ := h s hs place w t hplace hw ht
  exact ⟨stage, hstage.trans hbound, hstageId, hindex, hlayers.trans hnames⟩

theorem Consistent.retains (hn : n.Consistent free) (h : Retains free n n') :
    n'.Consistent free where
  addresses := h.addresses ▸ hn.addresses
  names i := h.coordinator.names ▸ hn.names i
  sessions := h.coordinator.sound hn.sessions
  workers place w' hw' := by
    obtain ⟨w, hw, hworker⟩ := h.workers place w' hw'
    exact hworker.sound (hn.workers place w hw)
  bound s' hs' hid p hp := by
    obtain ⟨s, hs, heq, hplan⟩ := h.coordinator.opened hn.sessions s' hs'
    rw [heq] at hid ⊢
    exact (hn.bound s hs hid p (hplan ▸ hp)).retains h hid

/-! ## Opening sessions -/

/-- The stage is set up for a session. -/
def SetUp (n : Network α) (id : String) (s : Stage α) : Prop :=
  ∃ place w t, n.coordinator.placeOf? s = some place ∧ n.worker? place = some w ∧
    w.sessions.get? id = some t ∧ t.Serves s

theorem bound_of_setUp (h : ∀ s ∈ stages, n.SetUp id s) : n.Bound id stages := by
  intro s hs place w t hplace hw ht
  obtain ⟨place', w', t', hplace', hw', ht', hserves⟩ := h s hs
  cases hplace.symm.trans hplace'
  cases hw.symm.trans hw'
  cases ht.symm.trans ht'
  exact hserves

theorem chooseId_isEmpty {ids : IdSource} (h : ∀ i, (ids.name i).isEmpty = false)
    (requested : String) : (Worker.chooseId requested ids).1.isEmpty = false := by
  unfold Worker.chooseId
  split
  · exact h ids.used
  · next hne => simpa using hne

theorem chooseId_name (requested : String) (ids : IdSource) :
    (Worker.chooseId requested ids).2.name = ids.name := by
  unfold Worker.chooseId
  split <;> rfl

/-- A session is entered under an id that is not in use; its bindings are not looked at yet. -/
theorem Consistent.enter (hn : n.Consistent fun _ => False) {r : CreateSession} {p : Plan α}
    (hs : n.coordinator.sessions.get? (n.coordinator.newSession r p).id = none) :
    (n.setCoordinator (n.coordinator.entered r p)).Consistent
      (· = (n.coordinator.newSession r p).id) := by
  have hworker : ∀ place, (n.setCoordinator (n.coordinator.entered r p)).worker? place =
      n.worker? place := worker?_setCoordinator rfl
  refine ⟨hn.addresses, fun i => ?_, hn.sessions.add hs, fun place w hw => ?_,
    fun x hx hid p hp => ?_⟩
  · exact (chooseId_name r.sessionId n.coordinator.ids).symm ▸ hn.names i
  · exact hn.workers place w (hworker place ▸ hw)
  · rcases List.mem_append.mp hx with hx | hx
    · intro y hy place w t hplace hw
      exact hn.bound x hx not_false p hp y hy place w t hplace (hworker place ▸ hw)
    · rw [List.mem_singleton.mp hx] at hid
      exact absurd rfl hid

theorem Consistent.settle (hn : n.Consistent free)
    (h : ∀ s ∈ n.coordinator.sessions.opened, free s.id → ∀ p ∈ s.plan, n.Bound s.id p.stages) :
    n.Consistent fun _ => False := by
  refine { hn with bound := fun s hs _ => ?_ }
  by_cases hid : free s.id
  · exact h s hs hid
  · exact hn.bound s hs hid

/-- With all stages of a new session set up, nothing is left to look at. -/
theorem Consistent.complete {r : CreateSession} {p : Plan α} {c : Coordinator α}
    (hn : n.Consistent (· = (c.newSession r p).id))
    (hsessions : n.coordinator.sessions = c.sessions.add (c.newSession r p))
    (hid : c.sessions.get? (c.newSession r p).id = none)
    (hbound : n.Bound (c.newSession r p).id p.stages) : n.Consistent fun _ => False := by
  refine hn.settle fun x hx hxid p' hp' => ?_
  rw [hsessions, SessionTable.opened_add, List.mem_append, List.mem_singleton] at hx
  rcases hx with hx | rfl
  · exact absurd (List.find?_eq_none.mp hid x hx) (by simpa using hxid)
  · cases hp'
    exact hbound

section Opening

variable [Scalar α] {e : Encoding α} {describe : Response α → String}

/-- Stages that were all set up stay so: a worker that knows the session refuses another stage. -/
theorem openStages_success (hn : (n.peers.map (·.address)).Nodup) (hid : id.isEmpty = false)
    {r : CreateSession} {opened : List (Stage α)} (done : List (Stage α))
    (hdone : ∀ s ∈ done, n.SetUp id s)
    (hrun : Runs (Exchanged e) (ofCoordinator
      (Coordinator.openStages describe id r opened stages)) n none n') :
    ∀ s ∈ done ++ stages, n'.SetUp id s := by
  induction stages generalizing n opened done with
  | nil =>
    obtain ⟨-, rfl⟩ := hrun
    simpa using hdone
  | cons s stages ih =>
    rw [Coordinator.openStages, ofCoordinator_bind, runs_bind] at hrun
    obtain ⟨result, m, hopen, hrun⟩ := hrun
    split at hrun
    · cases hrun.1
    · next u =>
      have hretains : Retains (fun _ => True) n m :=
        retains_of_tame (Coordinator.calm_openStage describe (fun _ => trivial) s r).tame hopen
      obtain ⟨place, w, w', hplace, hvisit, hnone, t, ht, hserves⟩ :=
        openStage_success hn hid hopen
      have hsame := placeOf?_congr hretains.coordinator.config hretains.coordinator.capability
      have hstep : ∀ x ∈ done ++ [s], m.SetUp id x := by
        intro x hx
        rcases List.mem_append.mp hx with hx | hx
        · obtain ⟨place', v, t', hplace', hv, ht', hserves'⟩ := hdone x hx
          -- the id was not in use where this stage was set up, so the earlier ones are elsewhere
          have hne : place' ≠ place := by
            rintro rfl
            cases hv.symm.trans hvisit.before
            cases hnone.symm.trans ht'
          exact ⟨place', v, t', (hsame x).trans hplace', (hvisit.others _ hne).trans hv, ht',
            hserves'⟩
        · rw [List.mem_singleton.mp hx]
          exact ⟨place, w', t, (hsame s).trans hplace, hvisit.after, ht, hserves⟩
      have := ih (hretains.addresses ▸ hn) _ hstep hrun
      simpa using this

/-- A session that could not be set up leaves the table before its stages are taken down. -/
theorem Consistent.abandon (hn : n.Consistent (· = id)) {s : Stage α} {err : ServiceError}
    {key : Nat} {opened : List (Stage α)} {u : Unit}
    (hclose : Runs (Exchanged e) (ofCoordinator (Coordinator.closeStages describe id opened))
      (n.setCoordinator (((n.coordinator.noteFailure s.node.nodeId err).endSession key
        (some err.message)).2.dropSession id)) u n') : n'.Consistent fun _ => False := by
  have hgone : Coordinator.Retains (· = id) n.coordinator
      (((n.coordinator.noteFailure s.node.nodeId err).endSession key
        (some err.message)).2.dropSession id) :=
    (Coordinator.undisturbed_noteFailure s.node.nodeId err n.coordinator).retains.trans
      ((Coordinator.retains_endSession _ _ _).trans (Coordinator.retains_dropSession _ _))
  have hclosed : Retains (· = id) _ n' :=
    retains_of_tame (Coordinator.calm_closeStages describe id opened).tame hclose
  have hdropped := hn.retains (retains_setCoordinator hgone)
  refine (hdropped.retains hclosed).settle fun x hx hxid => ?_
  -- whatever was open before the stages were taken down has another id
  obtain ⟨y, hy, heq, -⟩ := hclosed.coordinator.opened hdropped.sessions x hx
  have hne := (List.mem_filter.mp hy).2
  simp [← heq, hxid] at hne

theorem consistent_createSession (hn : n.Consistent fun _ => False) {r : CreateSession}
    {result : Except ServiceError String}
    (hrun : Runs (Exchanged e) (ofCoordinator (Coordinator.createSession describe r)) n result n') :
    n'.Consistent fun _ => False := by
  simp only [Coordinator.createSession, ofCoordinator_bind, runs_bind,
    runs_ofCoordinator_read] at hrun
  obtain ⟨_, n, ⟨rfl, rfl⟩, hrun⟩ := hrun
  split at hrun
  · obtain ⟨-, rfl⟩ := hrun
    exact hn
  · next plan hplan =>
    simp only [ofCoordinator_bind, runs_bind, runs_ofCoordinator_atomically] at hrun
    obtain ⟨_, _, ⟨rfl, rfl⟩, hrun⟩ := hrun
    rcases n.coordinator.enter_cases r plan with ⟨err, henter⟩ | ⟨hid, henter⟩
    · rw [henter] at hrun
      obtain ⟨-, rfl⟩ := hrun
      refine hn.retains (retains_setCoordinator ?_)
      exact { Coordinator.Retains.refl n.coordinator with names := chooseId_name _ _ }
    · rw [henter] at hrun
      simp only [ofCoordinator_bind, runs_bind, runs_ofCoordinator_acquire] at hrun
      obtain ⟨_, _, rfl, _, m, hopen, hrun⟩ := hrun
      have hentered := hn.enter hid
      have hempty : (n.coordinator.newSession r plan).id.isEmpty = false :=
        chooseId_isEmpty hn.names r.sessionId
      -- workers take this id as it is, for it is not empty
      have hchosen : ∀ ids, (Worker.chooseId (n.coordinator.newSession r plan).id ids).1 =
          (n.coordinator.newSession r plan).id := by
        intro ids
        simp [Worker.chooseId, hempty]
      have hcalm : Coordinator.Calm (· = (n.coordinator.newSession r plan).id)
          (Coordinator.openStages describe (n.coordinator.newSession r plan).id r [] plan.stages) :=
        Coordinator.calm_openStages describe hchosen r [] plan.stages
      have hm := hentered.retains (retains_of_tame hcalm.tame hopen)
      split at hrun
      · simp only [ofCoordinator_bind, ofCoordinator_pure, runs_bind, runs_ofCoordinator_update,
          runs_ofCoordinator_atomically, runs_ofCoordinator_release, runs_pure] at hrun
        obtain ⟨_, _, rfl, _, _, ⟨-, rfl⟩, _, _, rfl, _, _, rfl, _, m', hclose, -, rfl⟩ := hrun
        exact hm.abandon hclose
      · simp only [ofCoordinator_bind, runs_bind, runs_ofCoordinator_atomically] at hrun
        obtain ⟨_, _, ⟨rfl, rfl⟩, hrun⟩ := hrun
        have hsessions : m.coordinator.sessions =
            n.coordinator.sessions.add (n.coordinator.newSession r plan) :=
          (hcalm.undisturbed (runs_coordinator hopen)).sessions
        have hsetUp := openStages_success hentered.addresses hempty [] (by simp) hopen
        have hdone := hm.complete hsessions hid (bound_of_setUp hsetUp)
        have hkey : n.coordinator.sessions.nextKey < m.coordinator.sessions.nextKey := by
          rw [hsessions]
          exact Nat.lt_succ_self _
        rcases Coordinator.activateSession_cases hm.sessions hkey with
          ⟨-, err, hactivate⟩ | ⟨-, hactivate⟩
        · rw [hactivate] at hrun
          simp only [ofCoordinator_bind, ofCoordinator_pure, runs_bind, runs_ofCoordinator_release,
            runs_pure] at hrun
          obtain ⟨_, _, rfl, -, rfl⟩ := hrun
          exact hdone
        · rw [hactivate] at hrun
          simp only [ofCoordinator_bind, ofCoordinator_pure, runs_bind, runs_ofCoordinator_update,
            runs_ofCoordinator_release, runs_pure] at hrun
          obtain ⟨_, _, rfl, _, _, rfl, -, rfl⟩ := hrun
          refine hdone.retains (retains_setCoordinator ?_)
          exact { Coordinator.retains_modifySession m.coordinator n.coordinator.sessions.nextKey
            (f := Coordinator.activated _) (fun _ => ⟨rfl, rfl⟩) (fun _ => rfl) with }

/-- Whatever the coordinator does from beginning to end. -/
theorem consistent_job (hn : n.Consistent fun _ => False) {job : Coordinator.Job α} {u : Unit}
    (hrun : Runs (Exchanged e) (ofCoordinator (job.procedure describe)) n u n') :
    n'.Consistent fun _ => False := by
  by_cases hjob : ∃ r, job = .serve (.createSession r)
  · obtain ⟨r, rfl⟩ := hjob
    simp only [Coordinator.Job.procedure, Coordinator.handle, ofCoordinator_bind,
      ofCoordinator_pure, runs_bind, runs_ofCoordinator_update, runs_ofCoordinator_read,
      runs_pure] at hrun
    obtain ⟨_, _, ⟨_, _, rfl, _, _, ⟨-, rfl⟩, result, m, hcreate, hanswer⟩, -, rfl⟩ := hrun
    have hcounted := hn.retains
      (retains_setCoordinator (Coordinator.undisturbed_countRequest n.coordinator).retains)
    have hm := consistent_createSession hcounted hcreate
    split at hanswer <;> exact hanswer.2 ▸ hm
  · exact hn.retains (retains_of_tame (Coordinator.tame_job describe (not_exists.mp hjob)) hrun)

end Opening

/-! ## Networks at work -/

/-- Every worker changes its state and stays where it is. -/
theorem retains_mapWorkers (hcoordinator : Coordinator.Retains free n.coordinator n'.coordinator)
    {f : Peer α → Worker α} (hpeers : n'.peers = n.peers.map fun p => { p with worker := f p })
    (hf : ∀ p, Worker.Retains free p.worker (f p)) : Retains free n n' := by
  refine ⟨hcoordinator, ?_, fun place w' hw' => ?_⟩
  · rw [hpeers, List.map_map]
    rfl
  · cases place with
    | here =>
      cases hw'
      exact ⟨_, rfl, hcoordinator.embedded⟩
    | there address =>
      rw [worker?, hpeers, List.find?_map, Option.map_map] at hw'
      obtain ⟨p, hp, rfl⟩ := Option.map_eq_some_iff.mp hw'
      exact ⟨p.worker, Option.map_eq_some_iff.mpr ⟨p, hp, rfl⟩, hf p⟩

/-- A worker closes the sessions that it finds idle. -/
def sweepWorker (n : Network α) (address : String) (busy : List String) : Network α :=
  { n with peers := n.peers.map fun p => { p with worker :=
      if p.address = address then ((Worker.sweep busy).call .none p.worker).2 else p.worker } }

theorem retains_sweepWorker (n : Network α) (address : String) (busy : List String) :
    Retains free n (n.sweepWorker address busy) := by
  refine retains_mapWorkers (.refl _) rfl fun p => ?_
  split
  · exact (Worker.tame_sweep busy).retains (Worker.runs_run _ _)
  · exact .refl _

theorem retains_sleep (n : Network α) (ms : Nat) : Retains free n (n.sleep ms) :=
  have hsame : ∀ w : Worker α, Worker.Retains free w { w with clock := w.clock.sleep ms } :=
    fun _ => Worker.retains_of_sessions rfl List.prefix_rfl rfl
  retains_mapWorkers (Coordinator.retains_of_sessions rfl rfl rfl rfl (hsame _)) rfl fun p =>
    hsame p.worker

theorem retains_handIn (n : Network α) (report : String × MetricsRecord α) :
    Retains free n (n.handIn report) := by
  unfold handIn
  split
  · next p hp => exact retains_setWorker hp (Worker.retains_of_sessions rfl List.prefix_rfl rfl)
  · split
    · exact retains_setCoordinator { Coordinator.Retains.refl n.coordinator with }
    · exact .refl n

theorem retains_deliverReports (n : Network α) : Retains free n n.deliverReports := by
  have hfold : ∀ (reports : List (String × MetricsRecord α)) (m : Network α),
      Retains free m (reports.foldl handIn m) := by
    intro reports
    induction reports with
    | nil => exact .refl
    | cons report reports ih => exact fun m => (retains_handIn m report).trans (ih _)
  have hsent : ∀ w : Worker α, Worker.Retains free w { w with outbox := [] } :=
    fun _ => Worker.retains_of_sessions rfl List.prefix_rfl rfl
  refine Retains.trans (retains_mapWorkers ?_ rfl fun p => hsent p.worker) (hfold n.reports _)
  exact Coordinator.retains_of_sessions rfl rfl rfl rfl (hsent _)

theorem Consistent.rearrange (hn : n.Consistent free)
    (hcoordinator : n'.coordinator = n.coordinator)
    (haddresses : (n'.peers.map (·.address)).Nodup)
    (hpeers : ∀ p ∈ n'.peers, p.worker.sessions = .empty ∨
      ∃ q ∈ n.peers, q.address = p.address ∧ q.worker = p.worker) : n'.Consistent free := by
  have hworkers : ∀ place w, n'.worker? place = some w →
      w.sessions = .empty ∨ n.worker? place = some w := by
    intro place w hw
    cases place with
    | here => exact .inr (by rw [← hw, worker?, worker?, hcoordinator])
    | there address =>
      obtain ⟨p, hp, rfl⟩ := Option.map_eq_some_iff.mp hw
      obtain ⟨hmem, rfl⟩ := (SessionTable.find?_label_iff haddresses).mp hp
      rcases hpeers p hmem with hempty | ⟨q, hq, haddress, hworker⟩
      · exact .inl hempty
      · refine .inr (Option.map_eq_some_iff.mpr ⟨q, ?_, hworker⟩)
        exact (SessionTable.find?_label_iff hn.addresses).mpr ⟨hq, haddress⟩
  refine ⟨haddresses, hcoordinator ▸ hn.names, hcoordinator ▸ hn.sessions, fun place w hw => ?_,
    fun s hs hid p hp x hx place w t hplace hw ht => ?_⟩
  · rcases hworkers place w hw with hempty | hw
    · exact hempty ▸ SessionTable.sound_empty
    · exact hn.workers place w hw
  · rw [hcoordinator] at hs hplace
    rcases hworkers place w hw with hempty | hw
    · rw [hempty] at ht
      cases ht
    · exact hn.bound s hs hid p hp x hx place w t hplace hw ht

section Reachable

variable [Scalar α] {e : Encoding α}

/-- What can happen in a network whose workers take requests from its coordinator alone. -/
inductive Step (e : Encoding α) (n : Network α) : Network α → Prop
  | work (job : Coordinator.Job α) : Step e n (perform e (job.procedure e.describe) n).2
  | sweep (address : String) (busy : List String) : Step e n (n.sweepWorker address busy)
  | sleep (ms : Nat) : Step e n (n.sleep ms)
  | deliver : Step e n n.deliverReports
  /-- Workers come and go, and listen or not. One that comes has no sessions yet. -/
  | rearrange {n' : Network α} : n'.coordinator = n.coordinator →
      (n'.peers.map (·.address)).Nodup →
      (∀ p ∈ n'.peers, p.worker.sessions = .empty ∨
        ∃ q ∈ n.peers, q.address = p.address ∧ q.worker = p.worker) → Step e n n'

/-- What can become of a network since its coordinator was started. -/
inductive Reachable (e : Encoding α) : Network α → Prop
  | start {n : Network α} {config : CoordinatorConfig α} {capability : Capability α}
      {backend : Backend α} {profile : List (LayerCost α)} {address : String} {clock : Clock}
      {ids : IdSource} {overheadMs : α} :
      Coordinator.start config capability backend profile address clock ids overheadMs =
        .ok n.coordinator →
      (∀ i, (ids.name i).isEmpty = false) → n.peers = [] → Reachable e n
  | step {n n' : Network α} : Reachable e n → Step e n n' → Reachable e n'

theorem Step.consistent (h : Step e n n') (hn : n.Consistent fun _ => False) :
    n'.Consistent fun _ => False := by
  cases h with
  | work job => exact consistent_job hn (runs_perform e _ n)
  | sweep address busy => exact hn.retains (retains_sweepWorker n address busy)
  | sleep ms => exact hn.retains (retains_sleep n ms)
  | deliver => exact hn.retains (retains_deliverReports n)
  | rearrange hcoordinator haddresses hpeers => exact hn.rearrange hcoordinator haddresses hpeers

/-- In every network that can be reached, workers serve sessions as their plans say. -/
theorem Reachable.consistent (h : Reachable e n) : n.Consistent fun _ => False := by
  induction h with
  | @start n _ _ _ _ _ _ _ _ hstart hnames hpeers =>
    obtain ⟨hsessions, -, -, -, -, rfl, hembedded⟩ := Coordinator.start_eq_ok hstart
    refine ⟨by simp [hpeers], hnames, hsessions ▸ SessionTable.sound_empty,
      fun place w hw => ?_, ?_⟩
    · cases place with
      | here =>
        cases hw
        exact hembedded ▸ SessionTable.sound_empty
      | there address => simp [worker?, hpeers] at hw
    · simp [hsessions, SessionTable.empty]
  | step _ hstep ih => exact hstep.consistent ih

end Reachable

end Network

end LayerPipeline
