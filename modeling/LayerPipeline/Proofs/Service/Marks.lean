import LayerPipeline.Proofs.Service.Calls
import LayerPipeline.Proofs.Service.Teardown

/-!
# Stages set up and taken down again

A stage that is set up adds one session to the table of one worker, where the id was not in use, and
taking it down removes just that session: whoever read the request to open a session also reads the
shorter one to close it. A stage that cannot be set up adds nothing, unless its worker's answer was
longer than the coordinator accepts.
-/

namespace LayerPipeline

open Procedure

variable {α : Type}

/-- Where a worker is reached, and what it accepts. -/
def Peer.site (p : Peer α) : String × Bool × Nat := (p.address, p.listening, p.frameLimit)

namespace Network

variable {n n' base : Network α} {id : String} {s : Stage α} {P : Place → Prop}

/-! ## Tables with one session more -/

/-- The worker at the place, if there is one, has no session with the id. -/
def Vacant (n : Network α) (id : String) (place : Place) : Prop :=
  ∀ opened, n.openedAt place = some opened → ∀ x ∈ opened, x.id ≠ id

/-- The tables are those of `base`, but with one session more, of the id, at the places in `P`. -/
def Marked (base : Network α) (id : String) (P : Place → Prop) (n : Network α) : Prop :=
  ∀ place, (¬ P place → n.openedAt place = base.openedAt place) ∧
    (P place → base.Vacant id place ∧ ∃ opened t, base.openedAt place = some opened ∧ t.id = id ∧
      n.openedAt place = some (opened ++ [t]))

theorem Marked.of_iff {P' : Place → Prop} (h : Marked base id P n) (hP : ∀ x, P x ↔ P' x) :
    Marked base id P' n := by
  rwa [funext fun x => propext (hP x)] at h

theorem Marked.congr {m : Network α} (h : Marked base id P m)
    (hsame : ∀ place, n.openedAt place = m.openedAt place) : Marked base id P n := by
  intro place
  rw [hsame place]
  exact h place

/-- The worker at the place has opened a session with the id, which it did not know. -/
def Adds (n n' : Network α) (id : String) (place : Place) : Prop :=
  ∃ w w' t, Visits n n' place w w' ∧ w.sessions.get? id = none ∧
    w'.sessions.opened = w.sessions.opened ++ [t] ∧ t.id = id

theorem Marked.add (h : Marked base id P n) {place : Place} (hadds : Adds n n' id place) :
    ¬ P place ∧ base.Vacant id place ∧ Marked base id (fun x => P x ∨ x = place) n' := by
  obtain ⟨w, w', t, hvisit, hnone, hopened, ht⟩ := hadds
  have hbefore := hvisit.openedAt_before
  have hfree : ∀ x ∈ w.sessions.opened, x.id ≠ id := by
    intro x hx
    simpa using List.find?_eq_none.mp hnone x hx
  have hnew : ¬ P place := by
    intro hP
    obtain ⟨-, opened, t', -, ht', hmarked⟩ := (h place).2 hP
    rw [hbefore] at hmarked
    exact hfree t' (by simp [Option.some.inj hmarked]) ht'
  have hbase : base.openedAt place = some w.sessions.opened := ((h place).1 hnew).symm.trans hbefore
  have hvacant : base.Vacant id place := by
    intro opened hopened
    rw [hbase] at hopened
    exact Option.some.inj hopened ▸ hfree
  refine ⟨hnew, hvacant, fun other => ⟨fun hother => ?_, fun hother => ?_⟩⟩
  · rw [not_or] at hother
    rw [hvisit.openedAt_eq, if_neg hother.2]
    exact (h other).1 hother.1
  · by_cases heq : other = place
    · subst heq
      exact ⟨hvacant, _, t, hbase, ht, by rw [hvisit.openedAt_eq, if_pos rfl, hopened]⟩
    · rw [hvisit.openedAt_eq, if_neg heq]
      exact (h other).2 (hother.resolve_right heq)

theorem Marked.remove (h : Marked base id P n) {place : Place} {w w' : Worker α}
    (hvacant : base.Vacant id place) (hvisit : Visits n n' place w w')
    (hopened : w'.sessions.opened = w.sessions.opened.filter fun x => x.id ≠ id) :
    Marked base id (fun x => P x ∧ x ≠ place) n' := by
  have hbefore := hvisit.openedAt_before
  have hkept : ∀ opened, base.openedAt place = some opened →
      opened.filter (fun x => x.id ≠ id) = opened := by
    intro opened hbase
    exact List.filter_eq_self.mpr fun x hx => by simpa using hvacant opened hbase x hx
  have hrestored : n'.openedAt place = base.openedAt place := by
    rw [hvisit.openedAt_eq, if_pos rfl, hopened]
    by_cases hP : P place
    · obtain ⟨-, opened, t, hbase, ht, hmarked⟩ := (h place).2 hP
      obtain heq := Option.some.inj (hbefore.symm.trans hmarked)
      rw [heq, List.filter_append, hkept opened hbase, hbase]
      simp [ht]
    · have hbase := ((h place).1 hP).symm.trans hbefore
      rw [hkept _ hbase, hbase]
  refine fun other => ⟨fun hother => ?_, fun hother => ?_⟩
  · by_cases heq : other = place
    · rw [heq, hrestored]
    · rw [hvisit.openedAt_eq, if_neg heq]
      exact (h other).1 fun hP => hother ⟨hP, heq⟩
  · rw [hvisit.openedAt_eq, if_neg hother.2]
    exact (h other).2 hother.1

/-! ## Calls that are read -/

theorem sites_setWorker (n : Network α) (address : String) (w : Worker α) :
    (n.setWorker address w).peers.map Peer.site = n.peers.map Peer.site := by
  simp only [setWorker, List.map_map]
  refine List.map_congr_left fun p _ => ?_
  simp only [Function.comp_apply]
  split <;> rfl

theorem map_site_peer? (n : Network α) (address : String) :
    (n.peer? address).map Peer.site =
      (n.peers.map Peer.site).find? fun x => x.2.1 && x.1 = address := by
  rw [List.find?_map]
  rfl

/-- A worker reads the call. -/
def Takes (e : Encoding α) (q : Call α) (n : Network α) : Prop :=
  q.config.callTimeoutMs ≠ 0 ∧ e.requestBytes q.request < UInt32.size ∧
    ∃ p, n.peer? q.address = some p ∧ e.requestBytes q.request ≤ p.frameLimit

/-- Whoever reads a call reads a shorter one too. -/
theorem Takes.shorter {e : Encoding α} (hsites : n'.peers.map Peer.site = n.peers.map Peer.site)
    {config : LinkConfig} {address : String} {long short : Request α}
    (hshort : e.requestBytes short ≤ e.requestBytes long)
    (h : Takes e ⟨config, address, long⟩ n) : Takes e ⟨config, address, short⟩ n' := by
  obtain ⟨htime, hsize, p, hp, hlimit⟩ := h
  have hsite : (n'.peer? address).map Peer.site = some p.site := by
    rw [map_site_peer?, hsites, ← map_site_peer?, hp, Option.map_some]
  obtain ⟨p', hp', heq⟩ := Option.map_eq_some_iff.mp hsite
  have hframe : p'.frameLimit = p.frameLimit := congrArg (·.2.2) heq
  exact ⟨htime, Nat.lt_of_le_of_lt hshort hsize, p', hp', hframe ▸ Nat.le_trans hshort hlimit⟩

/-- The coordinator finds its workers where they were. -/
structure Alike (base n : Network α) : Prop where
  places : ∀ x, n.coordinator.placeOf? x = base.coordinator.placeOf? x
  link : n.coordinator.config.link = base.coordinator.config.link
  sites : n.peers.map Peer.site = base.peers.map Peer.site

theorem Alike.trans {m : Network α} (h : Alike base m) (h' : Alike m n) : Alike base n where
  places x := (h'.places x).trans (h.places x)
  link := h'.link.trans h.link
  sites := h'.sites.trans h.sites

/-- The stage runs where the id was not in use, and a request to take it down is read there. -/
def Undoable (e : Encoding α) (base : Network α) (id : String) (n : Network α) (s : Stage α) :
    Prop :=
  ∃ place, n.coordinator.placeOf? s = some place ∧ base.Vacant id place ∧
    ∀ address, place = .there address → Takes e (n.closing address id) n

theorem Undoable.alike {e : Encoding α} (h : Undoable e base id n s) (halike : Alike n n') :
    Undoable e base id n' s := by
  obtain ⟨place, hplace, hvacant, htakes⟩ := h
  refine ⟨place, (halike.places s).trans hplace, hvacant, fun address hthere => ?_⟩
  rw [closing, halike.link]
  exact (htakes address hthere).shorter halike.sites le_rfl

section Runs

variable [Scalar α] {e : Encoding α} {describe : Response α → String}

theorem Exchanged.sites {q : Call α} {a : Except LinkError (Response α)}
    (h : Exchanged e q n a n') : n'.peers.map Peer.site = n.peers.map Peer.site := by
  cases h.outcome with
  | unsent => rfl
  | unread => exact sites_setWorker n _ _
  | served => exact sites_setWorker n _ _
  | echo => rfl
  | stuck => rfl

theorem sites_of_runs {β : Type} {p : Coordinator.Action α β} {b : β}
    (hrun : Runs (Exchanged e) (ofCoordinator p) n b n') :
    n'.peers.map Peer.site = n.peers.map Peer.site := by
  unfold ofCoordinator at hrun
  induction p generalizing n with
  | done x =>
    obtain ⟨-, rfl⟩ := hrun
    rfl
  | atomic f next ih =>
    have hnext := ih _ hrun
    exact hnext
  | lock key next ih => exact ih hrun
  | unlock key next ih => exact ih hrun
  | wait ms next ih => exact ih hrun
  | ask q next ih =>
    obtain ⟨a, m, hanswer, hrun⟩ := hrun
    exact (ih a hrun).trans hanswer.sites

theorem alike_of_calm {β : Type} {free : String → Prop} {p : Coordinator.Action α β} {b : β}
    (hp : Coordinator.Calm free p) (hrun : Runs (Exchanged e) (ofCoordinator p) n b n') :
    Alike n n' := by
  have hcalm := hp.undisturbed (runs_coordinator hrun)
  exact ⟨placeOf?_congr hcalm.config hcalm.capability, by rw [hcalm.config], sites_of_runs hrun⟩

theorem Takes.exchange_eq {q : Call α} (h : Takes e q n) :
    ∃ p, n.peer? q.address = some p ∧
      exchange e q n =
        (receive e q.config q.address
          ⟨((Worker.handle q.request).run .none p.worker).1.toOption,
            ((Worker.handle q.request).run .none p.worker).2.2⟩,
          n.setWorker q.address ((Worker.handle q.request).run .none p.worker).2.1) := by
  obtain ⟨htime, hsize, p, hp, hlimit⟩ := h
  refine ⟨p, hp, ?_⟩
  simp only [exchange, hp, htime, Nat.not_le.mpr hsize, serveAt, Nat.not_lt.mpr hlimit, if_false]

theorem Takes.served {address : String} (h : Takes e (n.closing address id) n)
    {a : Except LinkError (Response α)} (hanswer : Exchanged e (n.closing address id) n a n') :
    Served (n.closing address id) n n' := by
  obtain ⟨p, hp, heq⟩ := h.exchange_eq
  obtain ⟨-, rfl⟩ := hanswer
  have hrun := Worker.runs_run (Worker.handle (n.closing address id).request) p.worker
  obtain ⟨a, hok, -⟩ := Worker.runs_handle_closeSession hrun
  rw [hok] at hrun
  exact ⟨p, _, _, hp, hrun, by rw [heq]⟩

/-! ## Setting a stage up -/

/-- The call that sets a stage up. -/
def opening (n : Network α) (address : String) (s : Stage α) (id : String) (r : CreateSession) :
    Call α :=
  ⟨n.coordinator.config.link, address, .createSession (Coordinator.stageRequest s id r)⟩

/-- A worker asked for a session opens it and says so, or changes nothing and does not. -/
theorem Exchanged.opening {address : String} {r : CreateSession} (hid : id.isEmpty = false)
    (haddresses : (n.peers.map (·.address)).Nodup) {answer : Except LinkError (Response α)}
    (h : Exchanged e (n.opening address s id r) n answer n') :
    ((∀ place, n'.openedAt place = n.openedAt place) ∧
      ∀ a, answer = .ok (.sessionCreated a) → a.success = false) ∨
    (Adds n n' id (.there address) ∧ Takes e (n.opening address s id r) n ∧
      ∃ w, n'.worker? (.there address) = some w ∧ answer = (receive e n.coordinator.config.link
        address ⟨some (.sessionCreated ⟨true, id, none, w.nodeInfo⟩), 0⟩).1) := by
  cases h.outcome with
  | unsent err => exact .inl ⟨fun _ => rfl, fun a ha => by cases ha⟩
  | @unread p reason hp =>
    refine .inl ⟨(visits_setWorker haddresses hp p.worker).openedAt_same rfl, fun a ha => ?_⟩
    cases Option.some.inj (receive_eq_ok ha)
  | @served p result w ms hp htime hsize hlimit hrun =>
    have hvisit := visits_setWorker haddresses hp w
    have hms : ms = 0 := by
      have hprompt := Worker.prompt_createSession (α := α) (Coordinator.stageRequest s id r)
      rw [← hprompt.elapsed .none p.worker]
      exact (congrArg (·.2.2) hrun).symm
    have hhandle := Worker.runs_of_run hrun
    simp only [Network.opening, Worker.handle, runs_bind, runs_update, runs_pure] at hhandle
    obtain ⟨_, _, rfl, a, _, hcreate, rfl, rfl⟩ := hhandle
    cases Worker.createSession_outcome (r := Coordinator.stageRequest s id r) hid hcreate with
    | refused hsuccess hsessions =>
      refine .inl ⟨hvisit.openedAt_same (congrArg (·.opened) hsessions), fun b hb => ?_⟩
      cases Option.some.inj (receive_eq_ok hb)
      exact hsuccess
    | opened hnone hsessions hnew =>
      have hopened := (congrArg (·.opened) hsessions).trans (SessionTable.opened_add _ _)
      refine .inr ⟨⟨_, _, _, hvisit, hnone, hopened, hnew⟩, ⟨htime, hsize, p, hp, hlimit⟩, w,
        hvisit.after, ?_⟩
      rw [hms]
      rfl
  | echo _ hself =>
    refine .inl ⟨openedAt_setCoordinator rfl, fun a ha => ?_⟩
    have hresponse := hself.trans (receive_eq_ok ha)
    simp only [Network.opening, serveSelf] at hresponse
    split at hresponse
    · cases hresponse
      rfl
    · cases hresponse
  | stuck => exact .inl ⟨openedAt_setCoordinator rfl, fun a ha => by cases ha⟩

/-- The worker at the address has opened the session for the stage, but its answer is longer than
the coordinator accepts. -/
structure Unheard (e : Encoding α) (id : String) (s : Stage α) (n n' : Network α)
    (address : String) (err : ServiceError) : Prop where
  place : n.coordinator.placeOf? s = some (.there address)
  adds : Adds n n' id (.there address)
  tooLong : ∃ w, n'.worker? (.there address) = some w ∧
    let size := e.responseBytes (.sessionCreated ⟨true, id, none, w.nodeInfo⟩)
    let limit := n.coordinator.config.link.maxFrameBytes.toNat
    limit < size ∧ err = .ofLink s.node.nodeId (.frameTooLarge size limit)

/-- What setting up a stage comes to. -/
inductive OpenStageOutcome (e : Encoding α) (id : String) (r : CreateSession) (s : Stage α)
    (n n' : Network α) : Except ServiceError Unit → Prop
  | opened {place : Place} : n.coordinator.placeOf? s = some place → Adds n n' id place →
      (∀ address, place = .there address → Takes e (n.opening address s id r) n) →
      OpenStageOutcome e id r s n n' (.ok ())
  | refused {err : ServiceError} : (∀ place, n'.openedAt place = n.openedAt place) →
      OpenStageOutcome e id r s n n' (.error err)
  | unheard {address : String} {err : ServiceError} : Unheard e id s n n' address err →
      OpenStageOutcome e id r s n n' (.error err)

theorem openStage_outcome {r : CreateSession} (hid : id.isEmpty = false)
    (haddresses : (n.peers.map (·.address)).Nodup) {result : Except ServiceError Unit}
    (hrun : Runs (Exchanged e) (ofCoordinator (Coordinator.openStage describe s id r)) n result
      n') : OpenStageOutcome e id r s n n' result := by
  simp only [Coordinator.openStage, ofCoordinator_bind, runs_bind, runs_ofCoordinator_read] at hrun
  obtain ⟨_, n, ⟨rfl, rfl⟩, hrun⟩ := hrun
  split at hrun
  · next hlocal =>
    rw [ofCoordinator_bind, runs_bind] at hrun
    obtain ⟨a, m, hcreate, rfl, rfl⟩ := hrun
    obtain ⟨w, hworker, rfl⟩ := runs_onEmbedded hcreate
    have hvisit := visits_setEmbedded n w
    cases Worker.createSession_outcome (r := Coordinator.stageRequest s id r) hid hworker with
    | refused hsuccess hsessions =>
      rw [Coordinator.stageOpened, if_neg (by simp [hsuccess])]
      exact .refused (hvisit.openedAt_same (congrArg (·.opened) hsessions))
    | opened hnone hsessions hnew =>
      have hopened := (congrArg (·.opened) hsessions).trans (SessionTable.opened_add _ _)
      exact .opened (if_pos hlocal) ⟨_, _, _, hvisit, hnone, hopened, hnew⟩
        (fun _ hthere => by cases hthere)
  · next hremote =>
    simp only [ofCoordinator_bind, runs_bind, runs_ofCoordinator_read] at hrun
    obtain ⟨config, n, ⟨rfl, rfl⟩, hrun⟩ := hrun
    split at hrun
    · obtain ⟨rfl, rfl⟩ := hrun
      exact .refused fun _ => rfl
    · next way hway =>
      obtain ⟨address, haddress, rfl⟩ := Coordinator.channelTo_eq_ok describe hway
      rw [ofCoordinator_bind, runs_bind] at hrun
      obtain ⟨reply, m, hcall, hrun⟩ := hrun
      rw [Channel.createSession, ofCoordinator_bind, runs_bind] at hcall
      obtain ⟨answer, k, hattempts, rfl, rfl⟩ := hcall
      have hplace : n.coordinator.placeOf? s = some (.there address) := by
        simp [Coordinator.placeOf?, hremote, haddress]
      have hanswer : Exchanged e (n.opening address s id r) n answer _ :=
        runs_retrying (Exchanged.unreached _) hattempts
      rcases hanswer.opening hid haddresses with ⟨hsame, hfalse⟩ | ⟨hadds, htakes, w, hw, rfl⟩
      · split at hrun
        · obtain ⟨rfl, rfl⟩ := hrun
          exact .refused hsame
        · next a hreply =>
          obtain ⟨rfl, rfl⟩ := hrun
          obtain ⟨response, rfl, hbody⟩ := expect_eq_ok hreply
          have hsuccess : a.success = false := by
            refine hfalse a (congrArg _ ?_)
            split at hbody
            · rw [Option.some.inj hbody]
            · cases hbody
          rw [Coordinator.stageOpened, if_neg (by simp [hsuccess])]
          exact .refused hsame
      · by_cases hlong : n.coordinator.config.link.maxFrameBytes.toNat <
            e.responseBytes (.sessionCreated ⟨true, id, none, w.nodeInfo⟩)
        · rw [receive_at_once, if_pos hlong] at hrun
          obtain ⟨rfl, rfl⟩ := hrun
          exact .unheard ⟨hplace, hadds, w, hw, hlong, rfl⟩
        · rw [receive_at_once, if_neg hlong] at hrun
          obtain ⟨rfl, rfl⟩ := hrun
          refine .opened hplace hadds fun other hother => ?_
          cases hother
          exact htakes

/-! ## All stages -/

variable {r : CreateSession} {opened stages : List (Stage α)}

/-- Stages that were all set up have each added one session, and can be taken down again. The
induction goes over the stages, with any places marked before. -/
theorem marked_openStages (hshort : ∀ r : CreateSession,
      e.requestBytes (.closeSession ⟨r.sessionId⟩) ≤ e.requestBytes (.createSession r))
    (hid : id.isEmpty = false) (hn : n.Consistent fun _ => True) (h : Marked base id P n)
    (hrun : Runs (Exchanged e) (ofCoordinator
      (Coordinator.openStages describe id r opened stages)) n none n') :
    Marked base id (fun x => P x ∨ ∃ s ∈ stages, n.coordinator.placeOf? s = some x) n' ∧
      ∀ s ∈ stages, Undoable e base id n' s := by
  induction stages generalizing n P opened with
  | nil =>
    obtain ⟨-, rfl⟩ := hrun
    simpa using h
  | cons s stages ih =>
    rw [Coordinator.openStages, ofCoordinator_bind, runs_bind] at hrun
    obtain ⟨result, m, hopen, hrun⟩ := hrun
    split at hrun
    · cases hrun.1
    · cases openStage_outcome hid hn.addresses hopen with
      | @opened place hplace hadds htakes =>
        obtain ⟨-, hvacant, hm⟩ := h.add hadds
        have hcalm : Coordinator.Calm (fun _ => True) (Coordinator.openStage describe s id r) :=
          Coordinator.calm_openStage describe (fun _ => trivial) s r
        have hfirst := alike_of_calm hcalm hopen
        have hothers : Coordinator.Calm (fun _ => True)
            (Coordinator.openStages describe id r (opened ++ [s]) stages) :=
          Coordinator.calm_openStages describe (fun _ => trivial) r _ stages
        have hthere := hfirst.trans (alike_of_calm hothers hrun)
        obtain ⟨hmarked, hundoable⟩ := ih (hn.retains (retains_of_tame hcalm.tame hopen)) hm hrun
        refine ⟨hmarked.of_iff fun x => ?_, fun x hx => ?_⟩
        · simp [hfirst.places, hplace, or_assoc, eq_comm (a := x)]
        · rcases List.mem_cons.mp hx with rfl | hx
          · refine ⟨place, (hthere.places x).trans hplace, hvacant, fun address haddress => ?_⟩
            rw [closing, hthere.link]
            exact (htakes address haddress).shorter hthere.sites
              (hshort (Coordinator.stageRequest x id r))
          · exact hundoable x hx

/-- Taking stages down removes what they have added. -/
theorem marked_closeStages (hn : n.Consistent fun _ => True) (h : Marked base id P n)
    (hstages : ∀ s ∈ stages, Undoable e base id n s) {u : Unit}
    (hrun : Runs (Exchanged e) (ofCoordinator (Coordinator.closeStages describe id stages)) n u
      n') : Marked base id (fun x => P x ∧ ∀ s ∈ stages, n.coordinator.placeOf? s ≠ some x) n' := by
  induction stages generalizing n P with
  | nil =>
    obtain ⟨-, rfl⟩ := hrun
    simpa using h
  | cons s stages ih =>
    rw [Coordinator.closeStages, ofCoordinator_bind, runs_bind] at hrun
    obtain ⟨_, m, hclose, hrun⟩ := hrun
    obtain ⟨place, hplace, hvacant, htakes⟩ := hstages s (List.mem_cons_self ..)
    obtain ⟨w, w', hvisit, hopened⟩ := (closeStage_outcome (fun config address =>
        Exchanged.unretried config address id) hclose).visits hn.addresses hn.workers hplace
      fun address _ hthere hanswer => (htakes address hthere).served hanswer
    have hcalm : Coordinator.Calm (fun _ => True) (Coordinator.closeStage describe id s) :=
      Coordinator.lenient_undisturbed.closeStage describe id s
    have halike := alike_of_calm hcalm hclose
    have hothers : ∀ x ∈ stages, Undoable e base id m x := fun x hx =>
      (hstages x (List.mem_cons_of_mem _ hx)).alike halike
    have hmarked := ih (hn.retains (retains_of_tame hcalm.tame hclose))
      (h.remove hvacant hvisit hopened) hothers hrun
    refine hmarked.of_iff fun x => ?_
    simp [halike.places, hplace, and_assoc, eq_comm (a := x)]

end Runs

end Network

end LayerPipeline
