import LayerPipeline.Proofs.Service.Retention
import LayerPipeline.Service.Network

/-!
# Calls between the nodes of a network

A coordinator that runs a procedure to its end changes itself and the workers it calls. What it does
to itself it does whatever the workers answer; what it does to a worker is what the worker's own
procedures do.
-/

namespace LayerPipeline

open Procedure

/-- Where a stage can run: inside the coordinator, or on the worker at an address. -/
inductive Place where
  | here
  | there (address : String)
deriving DecidableEq

namespace Network

variable {α β γ : Type}

/-- The worker at a place. -/
def worker? (n : Network α) : Place → Option (Worker α)
  | .here => some n.coordinator.embedded
  | .there address => (n.peers.find? fun p => p.address = address).map (·.worker)

/-- The network with another state of its coordinator. -/
def setCoordinator (n : Network α) (c : Coordinator α) : Network α := { n with coordinator := c }

@[simp] theorem coordinator_setCoordinator (n : Network α) (c : Coordinator α) :
    (n.setCoordinator c).coordinator = c := rfl

@[simp] theorem peers_setCoordinator (n : Network α) (c : Coordinator α) :
    (n.setCoordinator c).peers = n.peers := rfl

@[simp] theorem setCoordinator_setCoordinator (n : Network α) (c c' : Coordinator α) :
    (n.setCoordinator c).setCoordinator c' = n.setCoordinator c' := rfl

theorem worker?_setCoordinator {n : Network α} {c : Coordinator α}
    (h : c.embedded = n.coordinator.embedded) (place : Place) :
    (n.setCoordinator c).worker? place = n.worker? place := by
  cases place with
  | here => exact congrArg some h
  | there address => rfl

/-- No session is entered and none is bound anew, those with free ids apart, and the workers stay
where they are. -/
structure Retains (free : String → Prop) (n n' : Network α) : Prop where
  coordinator : Coordinator.Retains free n.coordinator n'.coordinator
  addresses : n'.peers.map (·.address) = n.peers.map (·.address)
  workers : ∀ place w', n'.worker? place = some w' →
    ∃ w, n.worker? place = some w ∧ Worker.Retains free w w'

section Retains

variable {free : String → Prop} {n n' : Network α}

theorem Retains.refl (n : Network α) : Retains free n n :=
  ⟨.refl _, rfl, fun _ w hw => ⟨w, hw, .refl w⟩⟩

theorem Retains.trans {m : Network α} (h : Retains free n m) (h' : Retains free m n') :
    Retains free n n' := by
  refine ⟨h.coordinator.trans h'.coordinator, h'.addresses.trans h.addresses,
    fun place w' hw' => ?_⟩
  obtain ⟨x, hx, hretains⟩ := h'.workers place w' hw'
  obtain ⟨w, hw, hretains'⟩ := h.workers place x hx
  exact ⟨w, hw, hretains'.trans hretains⟩

theorem retains_setCoordinator {c : Coordinator α} (h : Coordinator.Retains free n.coordinator c) :
    Retains free n (n.setCoordinator c) := by
  refine ⟨h, rfl, fun place w' hw' => ?_⟩
  cases place with
  | here =>
    cases hw'
    exact ⟨_, rfl, h.embedded⟩
  | there address => exact ⟨w', hw', .refl w'⟩

/-! ## One call -/

theorem worker?_setWorker (n : Network α) (address : String) (w : Worker α) (place : Place) :
    (n.setWorker address w).worker? place =
      match place with
      | .here => n.worker? .here
      | .there other => (n.peers.find? fun p => p.address = other).map fun p =>
          if (p.listening && p.address = address) = true then w else p.worker := by
  cases place with
  | here => rfl
  | there other =>
    simp only [worker?, setWorker, List.find?_map, Option.map_map]
    have hsame : ((fun p : Peer α => decide (p.address = other)) ∘ fun p =>
        if (p.listening && decide (p.address = address)) = true then { p with worker := w }
        else p) = fun p => decide (p.address = other) := by
      funext p
      simp only [Function.comp_apply]
      split <;> rfl
    rw [hsame]
    congr 1
    funext p
    simp only [Function.comp_apply]
    split <;> rfl

/-- The first worker at an address is the one that answers there, if it listens. -/
theorem peer?_of_listening {address : String} {p : Peer α}
    (h : n.peers.find? (fun p => p.address = address) = some p) (hp : p.listening = true) :
    n.peer? address = some p := by
  rw [List.find?_eq_some_iff_append] at h
  obtain ⟨haddress, before, after, heq, hbefore⟩ := h
  rw [peer?, List.find?_eq_some_iff_append]
  refine ⟨by simpa [hp] using haddress, before, after, heq, fun x hx => ?_⟩
  have := hbefore x hx
  simp_all

theorem retains_setWorker {address : String} {p : Peer α} (hp : n.peer? address = some p)
    {w : Worker α} (hw : Worker.Retains free p.worker w) :
    Retains free n (n.setWorker address w) := by
  refine ⟨.refl _, ?_, fun place w' hw' => ?_⟩
  · simp only [setWorker, List.map_map]
    refine List.map_congr_left fun p _ => ?_
    simp only [Function.comp_apply]
    split <;> rfl
  · rw [worker?_setWorker] at hw'
    cases place with
    | here => exact ⟨w', hw', .refl w'⟩
    | there other =>
      obtain ⟨p', hp', rfl⟩ := Option.map_eq_some_iff.mp hw'
      refine ⟨p'.worker, by simp [worker?, hp'], ?_⟩
      split
      · next hmatch =>
        simp only [Bool.and_eq_true, decide_eq_true_eq] at hmatch
        -- the worker that was replaced is the one that answered
        obtain ⟨hlistening, rfl⟩ := hmatch
        have hother : p'.address = other := by simpa using List.find?_some hp'
        subst hother
        cases (peer?_of_listening hp' hlistening).symm.trans hp
        exact hw
      · exact .refl _

variable [Scalar α] (e : Encoding α)

/-- What can become of a call: the result for its caller, and the network after it. -/
inductive Outcome (e : Encoding α) (q : Call α) (n : Network α) :
    Except LinkError (Response α) → Network α → Prop
  /-- It is not sent, or nobody is there to take it. -/
  | unsent (err : LinkError) : Outcome e q n (.error err) n
  /-- The worker turns it away unread. -/
  | unread {p : Peer α} (reason : String) : n.peer? q.address = some p →
      p.frameLimit < e.requestBytes q.request →
      Outcome e q n (receive e q.config q.address ⟨some (.error reason), 0⟩).1
        (n.setWorker q.address p.worker)
  /-- The worker serves it. -/
  | served {p : Peer α} {result : Except Abort (Response α)} {w : Worker α} {ms : Nat} :
      n.peer? q.address = some p → q.config.callTimeoutMs ≠ 0 →
      e.requestBytes q.request < UInt32.size → e.requestBytes q.request ≤ p.frameLimit →
      (Worker.handle q.request).run .none p.worker = (result, w, ms) →
      Outcome e q n (receive e q.config q.address ⟨result.toOption, ms⟩).1
        (n.setWorker q.address w)
  /-- The coordinator answers itself. -/
  | echo {response : Response α} : n.peer? q.address = none →
      serveSelf n.coordinator q.request = some response →
      Outcome e q n (receive e q.config q.address ⟨some response, 0⟩).1
        (n.setCoordinator n.coordinator.countRequest)
  /-- The coordinator waits for itself. -/
  | stuck : n.peer? q.address = none →
      Outcome e q n (inVain q).1 (n.setCoordinator n.coordinator.countRequest)

theorem exchange_outcome (q : Call α) (n : Network α) :
    Outcome e q n (exchange e q n).1.1 (exchange e q n).2 := by
  have habsent : ∃ err, (n.unconnected q).1 = .error err := by
    unfold unconnected
    split <;> exact ⟨_, rfl⟩
  simp only [exchange]
  split
  · next p hp =>
    split
    · exact .unsent _
    · next htime =>
      split
      · exact .unsent _
      · next hsize =>
        by_cases hlimit : p.frameLimit < e.requestBytes q.request
        · simp only [serveAt, hlimit, if_true]
          exact .unread _ hp hlimit
        · simp only [serveAt, hlimit, if_false]
          exact .served hp htime (Nat.not_le.mp hsize) (Nat.not_lt.mp hlimit) rfl
  · next hp =>
    split
    · split
      · exact .unsent _
      · split
        · exact .unsent _
        · split
          · next response hself => exact .echo hp hself
          · exact .stuck hp
    · obtain ⟨err, herr⟩ := habsent
      rw [herr]
      exact .unsent err

theorem retains_exchange {q : Call α} (h : Worker.Opens free q.request) (n : Network α) :
    Retains free n (exchange e q n).2 := by
  have hcount : Retains free n (n.setCoordinator n.coordinator.countRequest) :=
    retains_setCoordinator (Coordinator.undisturbed_countRequest n.coordinator).retains
  have houtcome := exchange_outcome e q n
  generalize (exchange e q n).2 = n', (exchange e q n).1.1 = result at houtcome ⊢
  cases houtcome with
  | unsent err => exact .refl n
  | unread reason hp => exact retains_setWorker hp (.refl _)
  | served hp _ _ _ hrun =>
    exact retains_setWorker hp ((Worker.tame_handle h).retains (Worker.runs_of_run hrun))
  | echo => exact hcount
  | stuck => exact hcount

end Retains

/-! ## What a caller receives -/

theorem receive_eq_ok {e : Encoding α} {config : LinkConfig} {address : String} {a : Answer α}
    {response : Response α} (h : (receive e config address a).1 = .ok response) :
    a.response = some response := by
  unfold receive at h
  simp only at h
  split at h
  · cases h
  · split at h
    · cases h
    · next r hr =>
      split at h
      · cases h
      · rw [hr, Except.ok.inj h]

theorem receive_at_once (e : Encoding α) (config : LinkConfig) (address : String)
    (response : Response α) : (receive e config address ⟨some response, 0⟩).1 =
      if config.maxFrameBytes.toNat < e.responseBytes response then
        .error (.frameTooLarge (e.responseBytes response) config.maxFrameBytes.toNat)
      else .ok response := by
  simp only [receive, Nat.not_lt_zero, if_false]
  split <;> rfl

theorem receive_isConnectFailure {e : Encoding α} {config : LinkConfig} {address : String}
    {a : Answer α} {err : LinkError} (h : (receive e config address a).1 = .error err) :
    err.isConnectFailure = false := by
  unfold receive at h
  simp only at h
  split at h
  · cases h
    rfl
  · split at h
    · cases h
      rfl
    · split at h
      · cases h
        rfl
      · cases h

/-- A response that was given is late or too long at worst, which no retry is made for. -/
theorem receive_isRetryable {e : Encoding α} {config : LinkConfig} {address : String}
    {response : Response α} {ms : Nat} {err : LinkError}
    (h : (receive e config address ⟨some response, ms⟩).1 = .error err) :
    err.isRetryable = false := by
  unfold receive at h
  simp only at h
  split at h
  · cases h
    rfl
  · split at h
    · cases h
      rfl
    · cases h

theorem expect_eq_ok {m : Type → Type} {channel : Channel m α} {expected : String}
    {body : Response α → Option β} {b : β} {answer : Except LinkError (Response α)}
    (h : channel.expect expected body answer = .ok b) :
    ∃ response, answer = .ok response ∧ body response = some b := by
  unfold Channel.expect at h
  split at h
  · cases h
  · next response =>
    split at h
    · next hbody => exact ⟨response, rfl, Except.ok.inj h ▸ hbody⟩
    · cases h

/-! ## Complete calls of the coordinator -/

@[simp] theorem ofCoordinator_bind {p : Coordinator.Action α γ}
    {k : γ → Coordinator.Action α β} :
    ofCoordinator (p >>= k) = ofCoordinator p >>= fun c => ofCoordinator (k c) := by
  change (p.bind k).within _ _ = (p.within _ _).bind _
  induction p with
  | done c => rfl
  | atomic f next ih => exact congrArg _ (funext fun n => ih _)
  | lock key next ih => exact congrArg _ ih
  | unlock key next ih => exact congrArg _ ih
  | wait ms next ih => exact congrArg _ ih
  | ask q next ih => exact congrArg _ (funext ih)

@[simp] theorem ofCoordinator_pure (x : β) :
    ofCoordinator (pure x : Coordinator.Action α β) = pure x := rfl

section Runs

/-- Whatever other nodes answer and become, of the coordinator a call changes at most the number of
requests it has served. -/
def Answered : Answers (Network α) (Call α) (Except LinkError (Response α)) :=
  fun q n a n' => Coordinator.Answered q n.coordinator a n'.coordinator

section Surroundings

variable {E : Answers (Network α) (Call α) (Except LinkError (Response α))}
  {n n' : Network α} {b : β} {u : Unit}

/-- What a coordinator does in a network, it does with some answers. -/
theorem runs_answered {p : Coordinator.Action α β} (hrun : Runs Answered (ofCoordinator p) n b n') :
    Runs Coordinator.Answered p n.coordinator b n'.coordinator := by
  unfold ofCoordinator at hrun
  induction p generalizing n with
  | done x =>
    obtain ⟨rfl, rfl⟩ := hrun
    exact ⟨rfl, rfl⟩
  | atomic f next ih => exact ih _ hrun
  | lock key next ih => exact ih hrun
  | unlock key next ih => exact ih hrun
  | wait ms next ih => exact ih hrun
  | ask q next ih =>
    obtain ⟨a, m, hanswer, hrun⟩ := hrun
    exact ⟨a, m.coordinator, hanswer, ih a hrun⟩

@[simp] theorem runs_ofCoordinator_read {f : Coordinator α → β} :
    Runs E (ofCoordinator (read f)) n b n' ↔ b = f n.coordinator ∧ n' = n := Iff.rfl

@[simp] theorem runs_ofCoordinator_atomically {f : Coordinator α → β × Coordinator α} :
    Runs E (ofCoordinator (atomically f)) n b n' ↔
      b = (f n.coordinator).1 ∧ n' = n.setCoordinator (f n.coordinator).2 := Iff.rfl

@[simp] theorem runs_ofCoordinator_update {f : Coordinator α → Coordinator α} :
    Runs E (ofCoordinator (update f)) n u n' ↔ n' = n.setCoordinator (f n.coordinator) := by
  simp [ofCoordinator, update, within, Runs, setCoordinator]

@[simp] theorem runs_ofCoordinator_acquire {key : Lock} :
    Runs E (ofCoordinator (acquire key)) n u n' ↔ n' = n := by
  simp [ofCoordinator, acquire, within, Runs]

@[simp] theorem runs_ofCoordinator_release {key : Lock} :
    Runs E (ofCoordinator (release key)) n u n' ↔ n' = n := by
  simp [ofCoordinator, release, within, Runs]

@[simp] theorem runs_ofCoordinator_pause {ms : Nat} :
    Runs E (ofCoordinator (pause ms)) n u n' ↔ n' = n := by
  simp [ofCoordinator, pause, within, Runs]

@[simp] theorem runs_ofCoordinator_question {q : Call α} {a : Except LinkError (Response α)} :
    Runs E (ofCoordinator (question q)) n a n' ↔ E q n a n' := by
  simp [ofCoordinator, question, within, Runs]

/-- The network with another worker inside the coordinator. -/
def setEmbedded (n : Network α) (w : Worker α) : Network α :=
  n.setCoordinator { n.coordinator with embedded := w }

theorem runs_onEmbedded {p : Worker.Action α β}
    (hrun : Runs E (ofCoordinator (Coordinator.onEmbedded p)) n b n') :
    ∃ w, Runs Worker.Unasked p n.coordinator.embedded b w ∧ n' = n.setEmbedded w := by
  unfold ofCoordinator Coordinator.onEmbedded at hrun
  induction p generalizing n with
  | done x =>
    obtain ⟨rfl, rfl⟩ := hrun
    exact ⟨_, ⟨rfl, rfl⟩, rfl⟩
  | atomic f next ih => exact ih _ hrun
  | lock key next ih => exact ih hrun
  | unlock key next ih => exact ih hrun
  | wait ms next ih => exact ih hrun
  | ask q => exact nomatch q

/-- A call that is tried again only after failures that have changed nothing is one call. -/
theorem runs_retrying {retryOn : LinkError → Bool} {config : LinkConfig} {address : String}
    {request : Request α} (hE : ∀ n err n', E ⟨config, address, request⟩ n (.error err) n' →
      retryOn err = true → n' = n)
    {describe : Response α → String} {retries pauseMs : Nat} {a : Except LinkError (Response α)}
    (hrun : Runs E (ofCoordinator ((Coordinator.channel describe config address).retrying retryOn
      request retries pauseMs)) n a n') :
    E ⟨config, address, request⟩ n a n' := by
  induction retries generalizing pauseMs with
  | zero => exact runs_ofCoordinator_question.mp hrun
  | succ retries ih =>
    rw [Channel.retrying, ofCoordinator_bind, runs_bind] at hrun
    obtain ⟨answer, m, hattempt, hrun⟩ := hrun
    have hanswer := runs_ofCoordinator_question.mp hattempt
    split at hrun
    · next err =>
      split at hrun
      · next hretry =>
        rw [ofCoordinator_bind, runs_bind] at hrun
        obtain ⟨_, _, hpause, hrun⟩ := hrun
        cases runs_ofCoordinator_pause.mp hpause
        rw [hE n err m hanswer hretry] at hrun
        exact ih hrun
      · obtain ⟨rfl, rfl⟩ := hrun
        exact hanswer
    · obtain ⟨rfl, rfl⟩ := hrun
      exact hanswer

end Surroundings

variable [Scalar α] {e : Encoding α}

/-- The network answers its coordinator. -/
def Exchanged (e : Encoding α) : Answers (Network α) (Call α) (Except LinkError (Response α)) :=
  fun q n a n' => a = (exchange e q n).1.1 ∧ n' = (exchange e q n).2

theorem runs_perform (e : Encoding α) (p : Coordinator.Action α β) (n : Network α) :
    Runs (Exchanged e) (ofCoordinator p) n (perform e p n).1 (perform e p n).2 := by
  refine runs_call ?_ (ofCoordinator p) n
  exact fun _ _ => ⟨rfl, rfl⟩

variable {n n' : Network α} {b : β} {u : Unit}

theorem Exchanged.outcome {q : Call α} {a : Except LinkError (Response α)}
    (h : Exchanged e q n a n') : Outcome e q n a n' := by
  obtain ⟨rfl, rfl⟩ := h
  exact exchange_outcome e q n

theorem Exchanged.answered (q : Call α) (n : Network α) (a : Except LinkError (Response α))
    (n' : Network α) (h : Exchanged e q n a n') : Answered q n a n' := by
  cases h.outcome with
  | unsent => exact .inl rfl
  | unread => exact .inl rfl
  | served => exact .inl rfl
  | echo => exact .inr rfl
  | stuck => exact .inr rfl

/-- What a network carries out is one of the things that can happen. -/
theorem answered_perform (e : Encoding α) (p : Coordinator.Action α β) (n : Network α) :
    Runs Answered (ofCoordinator p) n (perform e p n).1 (perform e p n).2 :=
  (runs_perform e p n).mono Exchanged.answered

theorem runs_coordinator {p : Coordinator.Action α β}
    (hrun : Runs (Exchanged e) (ofCoordinator p) n b n') :
    Runs Coordinator.Answered p n.coordinator b n'.coordinator :=
  runs_answered (hrun.mono Exchanged.answered)

theorem retains_of_tame {free : String → Prop} {p : Coordinator.Action α β}
    (hp : Coordinator.Tame free p) (hrun : Runs (Exchanged e) (ofCoordinator p) n b n') :
    Retains free n n' := by
  refine Confined.runs Retains.refl Retains.trans ?_
    (hp.within fun n c h => retains_setCoordinator h) hrun
  rintro q n a n' hq ⟨-, rfl⟩
  exact retains_exchange e hq n

/-! ## Calls that are answered -/

/-- A response comes from the worker at the address or from the coordinator itself; a worker that
finds the request too long says so. -/
theorem Exchanged.of_ok {q : Call α} {response : Response α}
    (h : Exchanged e q n (.ok response) n') :
    (∃ reason, response = .error reason) ∨
    (∃ p w, n.peer? q.address = some p ∧
      Runs Worker.Unasked (Worker.handle q.request) p.worker (.ok response) w ∧
      n' = n.setWorker q.address w) ∨
    serveSelf n.coordinator q.request = some response := by
  have houtcome := h.outcome
  generalize hresult : Except.ok response = result at houtcome
  cases houtcome with
  | unsent err => cases hresult
  | unread reason =>
    have hresponse := receive_eq_ok hresult.symm
    exact .inl ⟨reason, (Option.some.inj hresponse).symm⟩
  | @served p result w ms hp _ _ _ hrun =>
    have hresponse := receive_eq_ok hresult.symm
    cases result with
    | error a => cases hresponse
    | ok r =>
      cases Option.some.inj hresponse
      exact .inr (.inl ⟨p, w, hp, Worker.runs_of_run hrun, rfl⟩)
  | echo _ hself =>
    have hresponse := receive_eq_ok hresult.symm
    exact .inr (.inr (hself.trans hresponse))
  | stuck => cases hresult

/-- A call that found nobody has changed nothing. -/
theorem Exchanged.unreached (q : Call α) (n : Network α) (err : LinkError) (n' : Network α)
    (h : Exchanged e q n (.error err) n') (herr : err.isConnectFailure = true) : n' = n := by
  have houtcome := h.outcome
  generalize hresult : Except.error err = result at houtcome
  cases houtcome with
  | unsent err => rfl
  | stuck =>
    cases hresult
    cases herr
  | _ =>
    rw [receive_isConnectFailure hresult.symm] at herr
    cases herr

section Typed

variable {describe : Response α → String} {config config' : LinkConfig} {address : String}

/-- A session was opened by the worker at the address. -/
theorem runs_createSession_ok {r : CreateSession} {a : SessionCreated α}
    (hrun : Runs (Exchanged e) (ofCoordinator
      ((Coordinator.channel describe config address).createSession config' r)) n (.ok a) n')
    (ha : a.success = true) :
    ∃ p w, n.peer? address = some p ∧
      Runs Worker.Unasked (Worker.createSession r) p.worker.countRequest a w ∧
      n' = n.setWorker address w := by
  rw [Channel.createSession, ofCoordinator_bind, runs_bind] at hrun
  obtain ⟨answer, m, hcall, hresult, rfl⟩ := hrun
  obtain ⟨response, rfl, hbody⟩ := expect_eq_ok hresult.symm
  rcases (runs_retrying (Exchanged.unreached _) hcall).of_ok with ⟨reason, rfl⟩ | ⟨p, w, hp, hhandle, heq⟩ | hself
  · cases hbody
  · simp only [Worker.handle, runs_bind, runs_update, runs_pure] at hhandle
    obtain ⟨_, _, rfl, created, _, hcreate, hcreated, rfl⟩ := hhandle
    cases Except.ok.inj hcreated
    cases hbody
    exact ⟨p, w, hp, hcreate, heq⟩
  · unfold serveSelf at hself
    simp only at hself
    split at hself
    · cases hself
      cases hbody
      cases ha
    · cases hself

/-- A forward pass was run by the worker at the address. -/
theorem runs_executeForward_ok {r : ExecuteForward} {a : ForwardResult α}
    (hrun : Runs (Exchanged e) (ofCoordinator
      ((Coordinator.channel describe config address).executeForward config' r)) n (.ok a) n') :
    ∃ p w, n.peer? address = some p ∧
      Runs Worker.Unasked (Worker.executeForward r) p.worker.countRequest (.ok a) w ∧
      n' = n.setWorker address w := by
  rw [Channel.executeForward, ofCoordinator_bind, runs_bind] at hrun
  obtain ⟨answer, m, hcall, hresult, rfl⟩ := hrun
  obtain ⟨response, rfl, hbody⟩ := expect_eq_ok hresult.symm
  rcases (runs_retrying (Exchanged.unreached _) hcall).of_ok with ⟨reason, rfl⟩ | ⟨p, w, hp, hhandle, heq⟩ | hself
  · cases hbody
  · simp only [Worker.handle, runs_bind, runs_update, runs_pure] at hhandle
    obtain ⟨_, _, rfl, forwarded, _, hforward, hforwarded, rfl⟩ := hhandle
    cases forwarded with
    | error a => cases hforwarded
    | ok x =>
      cases Except.ok.inj hforwarded
      cases hbody
      exact ⟨p, w, hp, hforward, heq⟩
  · cases hself

end Typed

end Runs

end Network

end LayerPipeline
