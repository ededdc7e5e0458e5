import LayerPipeline.Proofs.Service.Failure
import LayerPipeline.Proofs.Service.Marks

/-!
# Sessions that cannot be set up

A session is set up stage by stage, and when a stage fails the stages before it are taken down
again. Afterwards the coordinator and the tables of all workers are as before, with one exception:
the worker of the stage that failed may have opened the session all the same, when its answer was
longer than the coordinator accepts. Nobody closes that session.
-/

namespace LayerPipeline

open Procedure

variable {α : Type}

/-- One node of a roster is found unhealthy: a failure is counted, its reason is kept, and nothing
else has changed. -/
structure Registry.Convicts (r r' : Registry α) (id reason : String) : Prop where
  entry : r'.get? id = (r.get? id).map fun n =>
    { n with
      healthy := false
      lastError := some reason
      consecutiveFailures := n.consecutiveFailures + 1 }
  others : ∀ k, k ≠ id → r'.get? k = r.get? k
  ids : r'.ids = r.ids
  matcher : r'.matcher = r.matcher

theorem Registry.convicts_markUnhealthy (r : Registry α) (id reason : String) :
    Convicts r (r.markUnhealthy id reason) id reason where
  entry := (Registry.get?_modify _ r id).trans (if_pos rfl)
  others _ hk := get?_markUnhealthy_of_ne hk r reason
  ids := ids_modify _ r
  matcher := rfl

namespace Coordinator

variable {c m c' : Coordinator α} {free : String → Prop} {s : Stage α} {err : ServiceError}

/-- Sessions, plan and reserved memory are as before. -/
structure Restored (c c' : Coordinator α) : Prop where
  sessions : c'.sessions.opened = c.sessions.opened
  plan : c'.plan = c.plan
  reserved : c'.registry.reserved = c.registry.reserved

theorem restored_abandon (hc : c.sessions.Sound) {r : CreateSession} {p : Plan α}
    (hid : c.sessions.get? (c.newSession r p).id = none)
    (hm : Undisturbed free (c.entered r p) m)
    (hc' : Undisturbed free (m.abandon c.sessions.nextKey (c.newSession r p).id s err) c') :
    Restored c c' := by
  have hnoted : Undisturbed free m (m.noteFailure s.node.nodeId err) :=
    undisturbed_noteFailure s.node.nodeId err m
  refine ⟨?_, hc'.plan.trans (hnoted.plan.trans hm.plan),
    hc'.reserved.trans (hnoted.reserved.trans hm.reserved)⟩
  have hsessions : c'.sessions = ((c.sessions.add (c.newSession r p)).modify c.sessions.nextKey
      fun x => x.close (some err.message)).remove (c.newSession r p).id := by
    rw [hc'.sessions]
    exact congrArg (fun t => (SessionTable.modify t _ _).remove _) (hnoted.sessions.trans hm.sessions)
  rw [hsessions]
  exact hc.opened_add_modify_remove hid (SessionTable.keeps_close _)

theorem registry_abandon (m : Coordinator α) (key : Nat) (id : String) (s : Stage α)
    (err : ServiceError) :
    (m.abandon key id s err).registry = (m.noteFailure s.node.nodeId err).registry := rfl

/-- A session that cannot be entered is no matter of any node's health. -/
theorem not_absence_of_enter {r : CreateSession} {p : Plan α}
    (h : c.enter r p = (.error err, c')) : ¬ err.Absence := by
  unfold enter SessionTable.insertWithin at h
  simp only at h
  split at h
  · cases h
  · next herr =>
    split at herr
    · cases herr
      cases h
      simp [ServiceError.Absence]
    · cases herr

theorem lenient_registry :
    Lenient free fun c c' : Coordinator α => c'.registry = c.registry :=
  ⟨fun _ => rfl, fun _ _ _ => rfl⟩

end Coordinator

namespace Network

section Runs

variable [Scalar α] {e : Encoding α} {describe : Response α → String} {n n' base : Network α}
  {id : String} {s : Stage α} {r : CreateSession}

omit [Scalar α] in
theorem Consistent.entered (hn : n.Consistent fun _ => True) {p : Plan α}
    (hs : n.coordinator.sessions.get? (n.coordinator.newSession r p).id = none) :
    (n.setCoordinator (n.coordinator.entered r p)).Consistent fun _ => True := by
  refine ⟨hn.addresses, fun i => ?_, hn.sessions.add hs, fun place w hw => ?_,
    fun _ _ hid => absurd trivial hid⟩
  · exact (chooseId_name r.sessionId n.coordinator.ids).symm ▸ hn.names i
  · exact hn.workers place w ((worker?_setCoordinator rfl place).symm.trans hw)

theorem registry_of_within {β : Type} {p : Coordinator.Action α β} {b : β}
    (hp : Coordinator.Within (fun _ => True) (fun c c' => c'.registry = c.registry) p)
    (hrun : Runs (Exchanged e) (ofCoordinator p) n b n') :
    n'.coordinator.registry = n.coordinator.registry :=
  related_of_within (R := fun c c' => c'.registry = c.registry) (fun _ => rfl)
    (fun h h' => h'.trans h) (fun _ => rfl) hp (hrun.mono Exchanged.answered)

/-- What is left on the workers when a stage could not be set up and those before it were taken
down. -/
theorem tables_undone (hshort : ∀ r : CreateSession,
      e.requestBytes (.closeSession ⟨r.sessionId⟩) ≤ e.requestBytes (.createSession r))
    (hid : id.isEmpty = false) (hn : n.Consistent fun _ => True)
    (hbase : ∀ place, n.openedAt place = base.openedAt place) {m k : Network α}
    {done : List (Stage α)} {err : ServiceError} {c : Coordinator α} {u : Unit}
    (hdone : Runs (Exchanged e) (ofCoordinator (Coordinator.openStages describe id r [] done)) n
      none m)
    (hfailed : Runs (Exchanged e) (ofCoordinator (Coordinator.openStage describe s id r)) m
      (.error err) k)
    (hc : Coordinator.Retains (fun _ => True) k.coordinator c)
    (hembedded : c.embedded = k.coordinator.embedded)
    (hclose : Runs (Exchanged e) (ofCoordinator (Coordinator.closeStages describe id done))
      (k.setCoordinator c) u n') :
    (∀ place, n'.openedAt place = base.openedAt place) ∨
      ∃ address, Unheard e id s m k address err ∧ Marked base id (· = .there address) n' := by
  have hbegin : Marked base id (fun _ => False) n := fun place => ⟨fun _ => hbase place, False.elim⟩
  obtain ⟨hm, hundoable⟩ := marked_openStages hshort hid hn hbegin hdone
  have hopen : Coordinator.Calm (fun _ => True) (Coordinator.openStages describe id r [] done) :=
    Coordinator.calm_openStages describe (fun _ => trivial) r [] done
  have hstage : Coordinator.Calm (fun _ => True) (Coordinator.openStage describe s id r) :=
    Coordinator.calm_openStage describe (fun _ => trivial) s r
  have hm' := hn.retains (retains_of_tame hopen.tame hdone)
  have hk := (hm'.retains (retains_of_tame hstage.tame hfailed)).retains (retains_setCoordinator hc)
  have halike : Alike m (k.setCoordinator c) := (alike_of_calm hstage hfailed).trans
    ⟨placeOf?_congr hc.config hc.capability, congrArg _ hc.config, rfl⟩
  have hplaces := ((alike_of_calm hopen hdone).trans halike).places
  have hrest : ∀ x ∈ done, Undoable e base id (k.setCoordinator c) x := fun x hx =>
    (hundoable x hx).alike halike
  have hsame := openedAt_setCoordinator hembedded
  cases openStage_outcome hid hm'.addresses hfailed with
  | refused hrefused =>
    left
    have hmarked := marked_closeStages hk ((hm.congr hrefused).congr hsame) hrest hclose
    intro place
    refine (hmarked place).1 ?_
    rintro ⟨hplace, hother⟩
    obtain ⟨x, hx, heq⟩ := hplace.resolve_left not_false
    exact hother x hx ((hplaces x).trans heq)
  | @unheard address _ hunheard =>
    right
    obtain ⟨hnew, -, hadded⟩ := hm.add hunheard.adds
    have hmarked := marked_closeStages hk (hadded.congr hsame) hrest hclose
    refine ⟨address, hunheard, hmarked.of_iff fun place => ⟨?_, ?_⟩⟩
    · rintro ⟨(hplace | hthere), hother⟩
      · obtain ⟨x, hx, heq⟩ := hplace.resolve_left not_false
        exact absurd ((hplaces x).trans heq) (hother x hx)
      · exact hthere
    · rintro rfl
      refine ⟨.inr rfl, fun x hx heq => hnew (.inr ⟨x, hx, ?_⟩)⟩
      rw [← heq, hplaces x]

/-- How a request for a session comes to nothing, and what it leaves of the health of nodes and on
the workers. -/
inductive Undone (e : Encoding α) (r : CreateSession) (n n' : Network α) (err : ServiceError) : Prop
  /-- No stage was tried. -/
  | turnedAway : ¬ err.Absence →
      n'.coordinator.registry = n.coordinator.registry →
      (∀ place, n'.openedAt place = n.openedAt place) → Undone e r n n' err
  /-- A stage could not be set up, and those before it were taken down. -/
  | stageFailed {p : Plan α} {done rest : List (Stage α)} {s : Stage α} {m k : Network α} :
      n.coordinator.plan = some p → p.stages = done ++ s :: rest →
      Runs (Exchanged e) (ofCoordinator (Coordinator.openStages e.describe
        (n.coordinator.newSession r p).id r [] done))
        (n.setCoordinator (n.coordinator.entered r p)) none m →
      Runs (Exchanged e) (ofCoordinator (Coordinator.openStage e.describe s
        (n.coordinator.newSession r p).id r)) m (.error err) k →
      (err.Absence → n.coordinator.registry.Convicts n'.coordinator.registry s.node.nodeId
        err.message) →
      (¬ err.Absence → n'.coordinator.registry = n.coordinator.registry) →
      ((∀ place, n'.openedAt place = n.openedAt place) ∨
        ∃ address, Unheard e (n.coordinator.newSession r p).id s m k address err ∧
          Marked n (n.coordinator.newSession r p).id (· = .there address) n') →
      Undone e r n n' err

end Runs

/-- Both requests begin with the id, and the one that closes a session ends there. -/
theorem requestBytes_close_le (r : CreateSession) :
    Encoding.payload.requestBytes (.closeSession ⟨r.sessionId⟩) ≤
      Encoding.payload.requestBytes (.createSession r) := by
  have hclose : Wire.encode (Request.closeSession ⟨r.sessionId⟩ : Request Binary64) =
      2 :: (Wire.put r.sessionId ++ []) := rfl
  have hcreate : ∃ rest, Wire.encode (Request.createSession r : Request Binary64) =
      0 :: (Wire.put r.sessionId ++ rest) := ⟨_, rfl⟩
  obtain ⟨rest, hcreate⟩ := hcreate
  change (Wire.encode _).length ≤ (Wire.encode _).length
  rw [hclose, hcreate]
  simp

/-- A request for a session that fails leaves the coordinator's sessions, plan and reservations as
they were. The only node judged by it is the one of the stage that failed, when it was unreachable
or late. The tables of all workers are as before too, unless that stage's worker has opened the
session and the coordinator did not hear of it. -/
theorem createSession_undone {n n' : Network Binary64} {r : CreateSession} {err : ServiceError}
    (hn : n.Consistent fun _ => True)
    (hrun : perform .payload (Coordinator.createSession Encoding.payload.describe r) n =
      (.error err, n')) :
    n.coordinator.Restored n'.coordinator ∧ Undone .payload r n n' err := by
  have hcomplete := runs_perform .payload
    (Coordinator.createSession Encoding.payload.describe r) n
  rw [hrun] at hcomplete
  generalize hresult : Except.error err = result at hcomplete
  cases createSession_outcome Exchanged.answered hn.sessions hcomplete with
  | noPlan =>
    cases hresult
    exact ⟨⟨rfl, rfl, rfl⟩, .turnedAway (by simp [ServiceError.Absence]) rfl fun _ => rfl⟩
  | refused henter hc =>
    cases hresult
    subst hc
    exact ⟨⟨rfl, rfl, rfl⟩, .turnedAway (Coordinator.not_absence_of_enter henter) rfl
      (openedAt_setCoordinator rfl)⟩
  | @undone p s _ opened k _ hplan hid hopen hclose =>
    cases hresult
    have hk : Coordinator.Undisturbed (fun _ => True) _ k.coordinator :=
      undisturbed_of_calm (Coordinator.calm_openStages _ (fun _ => trivial) r [] p.stages)
        Exchanged.answered hopen
    have hn' : Coordinator.Undisturbed (fun _ => True) _ n'.coordinator :=
      undisturbed_of_calm (Coordinator.calm_closeStages _ _ opened) Exchanged.answered hclose
    refine ⟨Coordinator.restored_abandon hn.sessions hid hk hn', ?_⟩
    obtain ⟨_, rest, m, hstages, rfl, hdone, hfailed⟩ := openStages_error hopen
    have hregistry : n'.coordinator.registry =
        (k.coordinator.noteFailure s.node.nodeId err).registry := by
      rw [registry_of_within (Coordinator.lenient_registry.closeStages _ _ _) hclose,
        coordinator_setCoordinator, Coordinator.registry_abandon]
    have hbefore : k.coordinator.registry = n.coordinator.registry := by
      rw [registry_of_within
        (Coordinator.lenient_registry.openStages _ (fun _ => trivial) _ _ _) hopen]
      rfl
    refine .stageFailed hplan hstages hdone hfailed ?_ ?_ ?_
    · intro habsence
      rw [hregistry, Coordinator.noteFailure_of_absence habsence, ← hbefore]
      exact Registry.convicts_markUnhealthy _ _ _
    · intro hpresent
      rw [hregistry, Coordinator.noteFailure_of_not_absence hpresent, hbefore]
    · have hempty : (n.coordinator.newSession r p).id.isEmpty = false :=
        chooseId_isEmpty hn.names r.sessionId
      exact tables_undone requestBytes_close_le hempty (hn.entered hid)
        (openedAt_setCoordinator rfl) hdone hfailed (Coordinator.retains_abandon _ _ _ _ _)
        (Coordinator.embedded_abandon _ _ _ _ _) hclose
  | opened => cases hresult

private def curt : LinkConfig := { LinkConfig.standard with maxFrameBytes := 31 }

private def curtNetwork (c : Coordinator Binary64) : Network Binary64 :=
  (small c [.small "v" (.passthrough "cpu" 0), .small "wide" (.passthrough "cpu" 0)]).afterJobs
    .payload [.install { (default : Plan Binary64) with
      stages := [.small 0 "v", .small 1 "c", .small 2 "wide"] }]

private theorem reachable_curtNetwork {c : Coordinator Binary64}
    (hstart : Coordinator.small curt = .ok c) : Reachable .payload (curtNetwork c) := by
  refine (reachable_small hstart ?_ fun p hp => ?_).afterJobs _
  · change ["v:1", "wide:1"].Nodup
    decide
  · simp only [List.mem_cons, List.not_mem_nil, or_false] at hp
    rcases hp with rfl | rfl <;> rfl

private def plainRequest : CreateSession := ⟨"s", ⟨"", 0, "", false⟩, [], 0, .u8⟩

private def idsAt (n : Network Binary64) (place : Place) : Option (List String) :=
  (n.openedAt place).map fun opened => opened.map (·.id)

/-- The first two of three stages are set up and taken down again. The third worker, whose name is
too long for the coordinator's limit, keeps the session. -/
theorem createSession_undone_curt :
    ∃ (n n' : Network Binary64) (err : ServiceError), n.Consistent (fun _ => True) ∧
      perform .payload (Coordinator.createSession Encoding.payload.describe plainRequest) n =
        (.error err, n') ∧
      err = .ofLink "wide" (.frameTooLarge 33 31) ∧
      n.idsAt (.there "wide:1") = some [] ∧ n'.idsAt .here = some [] ∧
      n'.idsAt (.there "v:1") = some [] ∧ n'.idsAt (.there "wide:1") = some ["s"] ∧
      n.coordinator.Restored n'.coordinator ∧ Undone .payload plainRequest n n' err := by
  have houtcome : ((Coordinator.small curt).toOption.map fun c =>
      let (result, n') := perform .payload
        (Coordinator.createSession Encoding.payload.describe plainRequest) (curtNetwork c)
      (errorOf? result, [(curtNetwork c).idsAt (.there "wide:1"), n'.idsAt .here,
        n'.idsAt (.there "v:1"), n'.idsAt (.there "wide:1")])) =
      some (some (.ofLink "wide" (.frameTooLarge 33 31)), [some [], some [], some [],
        some ["s"]]) := by
    decide +kernel
  cases hstart : Coordinator.small curt with
  | error err => simp [hstart, Except.toOption] at houtcome
  | ok c =>
    simp only [hstart, Except.toOption, Option.map_some, Option.some.injEq, Prod.mk.injEq,
      List.cons.injEq, and_true] at houtcome
    obtain ⟨hresult, hbefore, hhere, hfirst, hlast⟩ := houtcome
    have hn := (reachable_curtNetwork hstart).consistent.unbound
    generalize curtNetwork c = n at hresult hbefore hhere hfirst hlast hn
    cases hperform : perform .payload
        (Coordinator.createSession Encoding.payload.describe plainRequest) n with
    | mk result n' =>
      rw [hperform] at hresult hhere hfirst hlast
      cases result with
      | ok id => cases hresult
      | error err =>
        exact ⟨n, n', err, hn, hperform, Option.some.inj hresult, hbefore, hhere, hfirst, hlast,
          createSession_undone hn hperform⟩

end Network

end LayerPipeline
