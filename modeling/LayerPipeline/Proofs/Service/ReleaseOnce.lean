import LayerPipeline.Proofs.Service.Calm
import LayerPipeline.Proofs.Service.Sections
import LayerPipeline.Proofs.Service.SessionRoles
import LayerPipeline.Number.Exact
import Mathlib.Data.Rat.Defs

/-!
# How often the memory of a session is returned

All calls to a coordinator keep to the protocol of its sessions, so in every interleaving memory is
reserved at most once for a session, and at most one return of it finds the session active. What the
coordinator does not do is to let the others pass: it returns memory whatever state it finds, so a
second return for one session, and a return without a reservation, take memory from other sessions.
-/

namespace LayerPipeline

namespace Coordinator

open Procedure ReservationEvent

variable {α β γ : Type}

/-! ## Work that the protocol does not notice -/

/-- Sessions and journal stay as they are. -/
def Unnoticed (c c' : Coordinator α) : Prop :=
  c'.sessions = c.sessions ∧ c'.journal = c.journal

/-- A procedure that may be run in any role, and changes nothing about it. -/
def Quiet (p : Action α β) : Prop := Confined Unnoticed Lock.IsStage (fun _ => True) p

theorem Calm.quiet {p : Action α β} (hp : Calm (fun _ => True) p) : Quiet p :=
  hp.mono (fun _ _ h => ⟨h.sessions, h.journal⟩) (fun _ => id) fun _ _ => trivial

theorem Quiet.follows {p : Action α γ} {k : γ → Action α β} {Q : β → Role → Prop} {r : Role}
    (hp : Quiet p) (hk : ∀ c, Follows protocol (k c) Q r) : Follows protocol (p >>= k) Q r := by
  refine Follows.bind ?_
  induction p with
  | done c => exact hk c
  | atomic f next ih => exact fun c _ => ⟨r, .quiet (hp c).1.1 (hp c).1.2, ih c (hp c).2⟩
  | lock key next ih =>
    obtain ⟨⟨k, rfl⟩, hnext⟩ := hp
    exact ⟨r, .stage k r, ih hnext⟩
  | unlock key next ih =>
    obtain ⟨⟨k, rfl⟩, hnext⟩ := hp
    exact ⟨r, .stage k r, ih hnext⟩
  | wait ms next ih => exact ih hp
  | ask q next ih => exact fun a => ih a (hp.2 a)

theorem Calm.follows {p : Action α γ} {k : γ → Action α β} {Q : β → Role → Prop} {r : Role}
    (hp : Calm (fun _ => True) p) (hk : ∀ c, Follows protocol (k c) Q r) :
    Follows protocol (p >>= k) Q r :=
  hp.quiet.follows hk

theorem quiet_atomically {f : Coordinator α → β × Coordinator α}
    (hf : ∀ c, Unnoticed c (f c).2) : Quiet (atomically f : Action α β) :=
  fun c => ⟨hf c, trivial⟩

variable (describe : Response α → String)

/-! ## Calls that open, run and close sessions -/

theorem follows_dropSession (id : String) {Q : Unit → Role → Prop} {r : Role} (hQ : Q () r) :
    Follows protocol (update fun c => c.dropSession id : Action α Unit) Q r :=
  follows_update.mpr fun _ _ => ⟨r, .drop id rfl rfl, hQ⟩

theorem follows_activateSession (key : Nat) :
    Follows protocol (atomically fun c => c.activateSession key : Action α _)
      (fun
        | .ok _, r' => r' = .activated key
        | .error _, r' => r' = .creating key) (.creating key) := by
  refine follows_atomically.mpr fun c hc => ?_
  rcases activateSession_cases hc.sound (hc.creating key rfl) with ⟨-, e, heq⟩ | ⟨hstate, heq⟩
  · rw [heq]
    exact ⟨.creating key, .quiet rfl rfl, rfl⟩
  · rw [heq]
    exact ⟨.activated key,
      .activate (activated c.clock.micros) (fun _ => ⟨rfl, rfl⟩) hstate (fun _ _ => rfl) rfl rfl,
      rfl⟩

variable [Scalar α]

/-- Opening a session: from the table over its lock to a reservation, or to a closed session. -/
theorem follows_createSession (r : CreateSession) :
    Follows protocol (createSession describe r) (fun _ r' => r' = .free) .free := by
  refine (calm_read _).follows fun plan => ?_
  cases plan with
  | none => rfl
  | some plan =>
    refine Follows.bind (follows_atomically.mpr fun c hc => ?_)
    rcases enter_cases c r plan with ⟨e, heq⟩ | ⟨hid, heq⟩
    · rw [heq]
      exact ⟨.free, .quiet rfl rfl, rfl⟩
    · rw [heq]
      refine ⟨.entered c.sessions.nextKey, .enter _ hid rfl rfl rfl, ?_⟩
      refine Follows.bind (follows_acquire.mpr ⟨_, .create _, ?_⟩)
      refine (calm_openStages describe (fun _ => trivial) r [] plan.stages).follows
        fun outcome => ?_
      rcases outcome with _ | ⟨s, e, opened⟩
      · refine Follows.bind ((follows_activateSession _).mono ?_)
        rintro (e | _) r' rfl
        · exact Follows.bind (follows_release.mpr ⟨_, .creating _, rfl⟩)
        · refine Follows.bind (follows_update.mpr fun c _ => ⟨_, .reserve rfl rfl, ?_⟩)
          exact Follows.bind (follows_release.mpr ⟨_, .locked _, rfl⟩)
      · refine (calm_update (undisturbed_noteFailure _ e)).follows fun _ => ?_
        refine Follows.bind (follows_atomically.mpr fun c _ => ⟨_, .abandon _ rfl rfl, ?_⟩)
        refine Follows.bind (follows_release.mpr ⟨_, .locked _, ?_⟩)
        refine Follows.bind (follows_dropSession _ ?_)
        exact (calm_closeStages describe _ _).follows fun _ => rfl

/-- Closing a session: out of the table, then over its lock to a return of its memory. -/
theorem follows_closeSession (id : String) (reason : Option String) :
    Follows protocol (closeSession describe id reason) (fun _ r' => r' = .free) .free := by
  refine Follows.bind (follows_atomically.mpr fun c hc => ?_)
  cases hfound : c.sessions.get? id with
  | none => exact ⟨.free, .drop id rfl rfl, rfl⟩
  | some s =>
    refine ⟨.taken s.key, .take hfound rfl rfl, ?_⟩
    refine Follows.bind (follows_acquire.mpr ⟨_, .close _, ?_⟩)
    refine Follows.bind (follows_atomically.mpr fun c' _ =>
      ⟨.returning s.key (c'.endSession s.key reason).1, .close reason ?_ rfl rfl, ?_⟩)
    · rw [endSession, ← SessionTable.stateAt]
      cases c'.sessions.stateAt s.key <;> simp
    · cases s.plan with
      | none =>
        exact Follows.bind (follows_release.mpr ⟨_, .returning _ _, rfl⟩)
      | some plan =>
        refine Follows.bind (follows_update.mpr fun c _ => ⟨_, .giveBack rfl rfl, ?_⟩)
        refine (calm_closeStages describe _ _).follows fun _ => ?_
        exact Follows.bind (follows_release.mpr ⟨_, .locked _, rfl⟩)

/-- The end of a forward pass that failed in a stage. -/
theorem follows_failedForward (r : ExecuteForward) (key : Nat) (s : Stage α) (e : ServiceError)
    (plan : Plan α) :
    Follows protocol
      (do
        update fun c => c.noteFailure s.node.nodeId e
        let found ← atomically fun c => c.endSession key (some e.message)
        release (.pipeline key)
        update fun c => c.dropSession r.sessionId
        update fun c => c.releaseFor key found plan
        closeStages describe r.sessionId
          (plan.stages.filter fun x => x.node.nodeId ≠ s.node.nodeId)
        return .error e : Action α (Except ServiceError (Tensor × ExecutionReport α)))
      (fun _ r' => r' = .free) (.running key) := by
  refine (calm_update (undisturbed_noteFailure _ e)).follows fun _ => ?_
  refine Follows.bind (follows_atomically.mpr fun c hc => ⟨_, .fail _ rfl rfl, ?_⟩)
  have hfound : (c.endSession key (some e.message)).1 = .active := by
    rw [endSession, ← SessionTable.stateAt, hc.running key rfl]
    rfl
  rw [hfound]
  refine Follows.bind (follows_release.mpr ⟨_, .failing _, ?_⟩)
  refine Follows.bind (follows_dropSession _ ?_)
  refine Follows.bind (follows_update.mpr fun c _ => ⟨_, .settle rfl rfl, ?_⟩)
  refine (calm_closeStages describe _ _).follows fun _ => ?_
  rfl

/-- A forward pass: over the lock of its session to a count or, if a stage fails, to a closed
session and a return of its memory. -/
theorem follows_executeForward (r : ExecuteForward) :
    Follows protocol (executeForward describe r) (fun _ r' => r' = .free) .free := by
  unfold executeForward
  cases r.input.validate with
  | error e => rfl
  | ok _ =>
    refine (calm_read _).follows fun found => ?_
    cases found with
    | none => rfl
    | some key =>
      refine Follows.bind (follows_acquire.mpr ⟨_, .look key, ?_⟩)
      refine Follows.bind (follows_read.mpr fun c _ => ?_)
      cases hrun : c.stagesToRun key r with
      | error e =>
        exact ⟨.locked key, .quiet rfl rfl, Follows.bind (follows_release.mpr ⟨_, .locked _, rfl⟩)⟩
      | ok selected =>
        obtain ⟨s, hs, hstate, -⟩ := stagesToRun_eq_ok hrun
        have hactive : c.sessions.stateAt key = some .active := by
          rw [SessionTable.stateAt, hs, Option.map_some, hstate]
        refine ⟨.running key, .look hactive rfl rfl, ?_⟩
        refine (calm_runStages describe r _ _ _).follows fun result => ?_
        rcases result with ⟨s, e⟩ | ⟨output, report⟩
        · cases e with
          | aborted a => exact Follows.bind (follows_release.mpr ⟨_, .running _, rfl⟩)
          | _ => exact follows_failedForward describe r key s _ _
        · refine Follows.bind (follows_update.mpr fun c hc => ?_)
          refine ⟨.running key, .count r.tokenIndex _ (hc.running key rfl) rfl rfl, ?_⟩
          refine Follows.bind (follows_release.mpr ⟨_, .running _, ?_⟩)
          refine Calm.follows (calm_update ?_) fun _ => ?_
          · exact fun c => { Undisturbed.refl c with }
          · rfl

/-! ## All calls -/

theorem quiet_registerWorker (d : Descriptor α) : Quiet (registerWorker describe d) := by
  refine Confined.bind (quiet_atomically fun c => ?_) fun enrolled => ?_
  · split
    · next c' h =>
      obtain ⟨registry, -, rfl⟩ := enroll_eq_ok h
      exact ⟨rfl, rfl⟩
    · exact ⟨rfl, rfl⟩
  · cases enrolled with
    | error e => exact Calm.quiet (calm_pure _)
    | ok _ =>
      refine Confined.bind (Calm.quiet (calm_read _)) fun config => ?_
      refine Confined.bind (calm_reportCapabilities describe _ _ _).quiet fun answer => ?_
      refine Confined.bind (quiet_atomically fun c => ?_) fun a => ?_
      · obtain ⟨registry, heq, -⟩ := confirm_cases c d answer
        rw [heq]
        exact ⟨rfl, rfl⟩
      · cases a <;> exact Calm.quiet (calm_pure _)

theorem follows_closeIdle (ids : List String) :
    Follows protocol (closeIdle describe ids) (fun _ r' => r' = .free) .free := by
  induction ids with
  | nil => rfl
  | cons id ids ih =>
    refine Follows.bind ((follows_closeSession describe id _).mono ?_)
    rintro _ _ rfl
    exact ih

theorem follows_sweep (busy : List String) :
    Follows protocol (sweep describe busy) (fun _ r' => r' = .free) .free := by
  refine (calm_update undisturbed_dropSilent).follows fun _ => ?_
  exact (calm_read _).follows fun ids => follows_closeIdle describe ids

theorem unnoticed_planResult (r : PlanRequest α) (c : Coordinator α) :
    Unnoticed c (c.planResult r).2 := by
  rcases planResult_cases c r with heq | ⟨_, _, _, _, heq⟩ <;> rw [heq] <;> exact ⟨rfl, rfl⟩

theorem unnoticed_heartbeat (h : Heartbeat α) (c : Coordinator α) :
    Unnoticed c (c.heartbeat h).2 := by
  rcases heartbeat_cases c h with heq | heq <;> rw [heq] <;> exact ⟨rfl, rfl⟩

/-- Whatever is asked of a coordinator, it keeps to the protocol. -/
theorem follows_handle (request : Request α) :
    Follows protocol (handle describe request) (fun _ r' => r' = .free) .free := by
  unfold handle
  refine (calm_update undisturbed_countRequest).follows fun _ => ?_
  cases request with
  | createSession r =>
    refine (calm_read _).follows fun info =>
      Follows.bind ((follows_createSession describe r).mono ?_)
    rintro (e | id) _ rfl
    · cases e <;> rfl
    · rfl
  | executeForward r =>
    refine Follows.bind ((follows_executeForward describe r).mono ?_)
    rintro (e | ⟨output, report⟩) _ rfl
    · cases e <;> rfl
    · rfl
  | closeSession r =>
    refine Follows.bind ((follows_closeSession describe r.sessionId none).mono ?_)
    rintro _ _ rfl
    rfl
  | ping r => exact (calm_read _).follows fun _ => rfl
  | reportCapabilities r => exact (calm_read _).follows fun _ => rfl
  | health => exact (calm_read _).follows fun _ => rfl
  | generatePlan r => exact (quiet_atomically (unnoticed_planResult r)).follows fun _ => rfl
  | registerWorker d =>
    refine (quiet_registerWorker describe d).follows fun result => ?_
    rcases result with e | a
    · cases e <;> rfl
    · rfl
  | stageForward r => exact (calm_stageForward r).follows fun _ => rfl
  | submitMetrics r => exact (quiet_atomically fun _ => ⟨rfl, rfl⟩).follows fun _ => rfl
  | queryMetrics r => exact (calm_read _).follows fun _ => rfl
  | heartbeat h => exact (quiet_atomically (unnoticed_heartbeat h)).follows fun _ => rfl

/-! ## Memory over every interleaving -/

/-- Calls to a coordinator that are going on. -/
abbrev Calls (α : Type) := Pool (Coordinator α) (Call α) (Except LinkError (Response α)) Unit

/-- What can happen next to the calls that are going on. -/
abbrev Event (α : Type) := Choice (Coordinator α) (Call α) (Except LinkError (Response α)) Unit

theorem follows_job (job : Job α) :
    Follows protocol (job.procedure describe) (fun _ _ => True) .free := by
  cases job with
  | serve request =>
    exact Follows.bind ((follows_handle describe request).mono fun _ _ _ => trivial)
  | sweep busy => exact (follows_sweep describe busy).mono fun _ _ _ => trivial
  | tick clock => exact fun c _ => ⟨.free, .quiet rfl rfl, trivial⟩
  | install p =>
    refine fun c _ => ⟨.free, .quiet ?_ ?_, trivial⟩
    · rcases install_cases c p with heq | ⟨-, heq⟩ <;> simp [heq]
    · rcases install_cases c p with heq | ⟨-, heq⟩ <;> simp [heq]

omit [Scalar α] in
theorem orderly_idle {c : Coordinator α} (hsessions : c.sessions = .empty)
    (hjournal : c.journal = []) : Orderly c [] [] := by
  refine ⟨hsessions ▸ SessionTable.sound_empty, ?_, ?_⟩
  · intro earlier key later h
    simp [hjournal] at h
  · intro key
    rw [hsessions, hjournal]
    constructor <;> simp [tally, reservations, releasesFound, releases, SessionTable.alive,
      SessionTable.active, SessionTable.listed, SessionTable.stateAt, SessionTable.session?,
      SessionTable.empty]

omit [Scalar α] in
theorem releases_eq_found {journal : List ReservationEvent} {key : Nat} {state : SessionState}
    (h : ∀ found, .released key found ∈ journal → found = state) :
    releases journal key = releasesFound state journal key := by
  refine List.countP_congr fun e he => ?_
  cases e with
  | reserved k => simp [releasedKey?]
  | released k found =>
    simp only [releasedKey?, Option.some.injEq, decide_eq_true_eq, beq_iff_eq, released.injEq]
    constructor
    · rintro rfl
      exact ⟨rfl, h found he⟩
    · exact fun heq => heq.1

omit [Scalar α] in
theorem Ordered.reservations_pos {journal : List ReservationEvent} (h : Ordered journal)
    {key : Nat} (hpos : 0 < releasesFound .active journal key) : 0 < reservations journal key := by
  obtain ⟨earlier, later, rfl⟩ := List.append_of_mem (List.count_pos_iff.mp hpos)
  exact List.count_pos_iff.mpr (List.mem_append_left _ (h earlier key later rfl))

/-- Requests, sweeps and the clock in any interleaving: memory is reserved at most once for a
session, it is returned at most twice, and at most one return finds the session active, after its
reservation. Where no return is made for a session that was found in another state, memory is
returned at most once, and only if it was reserved. -/
theorem release_found_active_once {c : Coordinator α} (hsessions : c.sessions = .empty)
    (hjournal : c.journal = [])
    {choices : List (Event α)}
    (hjobs : ∀ p, .start p ∈ choices → ∃ job : Job α, p = job.procedure describe)
    {pool : Calls α} (hrun : (Pool.idle c).run choices = some pool) :
    Ordered pool.state.journal ∧ ∀ key,
      reservations pool.state.journal key ≤ 1 ∧
      releases pool.state.journal key ≤ 2 ∧
      releasesFound .active pool.state.journal key ≤ 1 ∧
      ((∀ found, .released key found ∈ pool.state.journal → found = .active) →
        releases pool.state.journal key ≤ reservations pool.state.journal key) := by
  have hidle : (Pool.idle c : Calls α).Governed protocol Orderly :=
    ⟨[], orderly_idle hsessions hjournal, .nil⟩
  obtain ⟨roles, horderly, -⟩ := hidle.run invariant_orderly
    (fun p hp => by
      obtain ⟨job, rfl⟩ := hjobs p hp
      exact follows_job describe job) hrun
  refine ⟨horderly.ordered, fun key => ?_⟩
  have hbalanced := horderly.balanced key
  have hone := pool.state.sessions.entered_le_one key
  have hreserved := hbalanced.reserved
  have hreleased := hbalanced.released
  have hsettled := hbalanced.settled
  refine ⟨by omega, by omega, by omega, fun hfound => ?_⟩
  rw [releases_eq_found hfound]
  rcases Nat.eq_zero_or_pos (releasesFound .active pool.state.journal key) with hzero | hpos
  · omega
  · have := horderly.ordered.reservations_pos hpos
    omega

private def crowdedCoordinator : Except ServiceError (Coordinator ℚ) :=
  start { CoordinatorConfig.standard with participate := false } (.basic "c" .cpu)
    (.passthrough "cpu" 0) [.basic "layer" 10 1024] "c:1" ⟨0, ""⟩ ⟨0, fun _ => "generated"⟩ 0

private def opening (id : String) : Request ℚ :=
  .createSession ⟨id, ⟨"", 0, "", false⟩, [], 0, .u8⟩

private def crowdedJobs : List (Job ℚ) :=
  [.serve (.registerWorker ⟨"w", .cpu, 100, none, some 8, 1, none, none, "w:1"⟩),
    .serve (.generatePlan ⟨"m", .balanced, [], none, true⟩),
    .serve (opening "a"), .serve (opening "b"),
    .serve (opening "d"), .serve (.closeSession ⟨"d"⟩),
    .serve (.executeForward ⟨"a", 0, ⟨.u8, [1], [7], 1⟩, []⟩), .serve (.closeSession ⟨"a"⟩)]

private def stageReady : Except LinkError (Response ℚ) :=
  .ok (.sessionCreated ⟨true, "", none, default⟩)

private def turns (count task : Nat) : List (Event ℚ) := .replicate count (.go task)

private def crowdedTurns : List (Event ℚ) := List.flatten [
  -- a worker registers, and a plan of one stage on it becomes the active one
  turns 3 0, [.answer 0 (.ok (.capabilities (Capability.basic "w" .cpu).report))], turns 1 0,
  turns 2 1,
  -- sessions `a` and `b` are opened
  turns 7 2, [.answer 2 stageReady], turns 3 2,
  turns 7 3, [.answer 3 stageReady], turns 3 3,
  -- session `d` is closed before the call that entered it gets its lock
  turns 4 4, turns 5 5,
  -- a forward pass of `a` waits for its worker while `a` is taken from the table; then it fails
  turns 6 6, turns 2 7, [.answer 6 (.ok (.forwarded (.failure "out of memory")))], turns 5 6,
  turns 3 7]

private def crowdedSchedule : List (Event ℚ) :=
  crowdedJobs.map (fun job => .start (job.procedure fun _ => "")) ++ crowdedTurns

private theorem crowdedSchedule_jobs (p : Action ℚ Unit) (hp : .start p ∈ crowdedSchedule) :
    ∃ job : Job ℚ, p = job.procedure fun _ => "" := by
  have hturns : crowdedTurns.all (fun | .start _ => false | _ => true) = true := rfl
  rcases List.mem_append.mp hp with hjob | hturn
  · obtain ⟨job, -, heq⟩ := List.mem_map.mp hjob
    exact ⟨job, (Choice.start.inj heq).symm⟩
  · simpa using List.all_eq_true.mp hturns _ hturn

/-- Memory is returned for session 2 without a reservation and twice for session 0, the second time
with the session closed: nothing is reserved any more while session `b` is still open. -/
theorem release_found_active_once_crowded :
    ∃ c pool, crowdedCoordinator = .ok c ∧ (Pool.idle c).run crowdedSchedule = some pool ∧
      pool.state.journal = [.reserved 0, .reserved 1, .released 2 .created, .released 0 .active,
        .released 0 .closed] ∧
      pool.state.sessions.ids = ["b"] ∧
      pool.state.registry.nodes.map (·.reservedGb) = [0] ∧
      Ordered pool.state.journal ∧ reservations pool.state.journal 0 ≤ 1 ∧
      releasesFound .active pool.state.journal 0 ≤ 1 ∧ releases pool.state.journal 0 = 2 := by
  have houtcome : (crowdedCoordinator.toOption.bind fun c =>
      ((Pool.idle c : Calls ℚ).run crowdedSchedule).map fun (pool : Calls ℚ) =>
        (pool.state.journal, pool.state.sessions.ids,
          pool.state.registry.nodes.map RegisteredNode.reservedGb)) =
      some ([.reserved 0, .reserved 1, .released 2 .created, .released 0 .active,
        .released 0 .closed], ["b"], [0]) := by
    decide +kernel
  obtain ⟨c, hc, hpool⟩ := Option.bind_eq_some_iff.mp houtcome
  obtain ⟨pool, hrun, hstate⟩ := Option.map_eq_some_iff.mp hpool
  simp only [Prod.mk.injEq] at hstate
  obtain ⟨hjournal, hids, hreserved⟩ := hstate
  cases hstart : crowdedCoordinator with
  | error e => simp [hstart, Except.toOption] at hc
  | ok c' =>
    obtain rfl : c' = c := by simpa [hstart, Except.toOption] using hc
    obtain ⟨hsessions, hempty, -⟩ := start_eq_ok hstart
    obtain ⟨hordered, hkey⟩ :=
      release_found_active_once (fun _ => "") hsessions hempty crowdedSchedule_jobs hrun
    refine ⟨c', pool, rfl, hrun, hjournal, hids, hreserved, hordered, (hkey 0).1, (hkey 0).2.2.1,
      ?_⟩
    rw [hjournal]
    decide

end Coordinator

end LayerPipeline
