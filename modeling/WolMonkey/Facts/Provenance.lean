import WolMonkey.Facts.Guarding
import WolMonkey.Facts.Queueing
import WolMonkey.Facts.Wakes

/-!
# Provenance

Where packets and jobs come from, as the histories of the threads show it. A thread sends at
most one packet, for a wake whose arguments it got from a bearer of a token or from the job
that it claimed; a thread adds at most one job, for a user whose session and CSRF token it has
verified.
-/

namespace WolMonkey

open Programs Program

/-! ## What a history shows about a wake -/

/-- The operation adds a job. -/
def Op.addsJob : Op → Bool
  | .stmt _ (.jobInsert _ _ _ _) => true
  | _ => false

/-- How far a thread with this history is with the job queue. -/
def postAfter (label : Label) (done : List (Event app)) : Post :=
  done.foldr (fun e g => g.next e.op e.reply) label.post

/-- The thread has got the arguments of `WakeService.wake` from who asks for the wake. -/
def WakeOf (P : Platform) (label : Label) (done : List (Event app)) (a : WakeArgs) : Prop :=
  match label with
  | .request req => ∃ machineId b raw k, req.route = .wakeMachineDirect machineId (.typed b) ∧
      bearerToken req.authorization = some raw ∧ ShowsToken P raw k done ∧
      a = { machineId, actorType := "api_token", actorId := k.id.text, ensureOnline := b.ensureOnline
            pollTimeoutS := b.pollTimeoutS, strategyOverride := Api.strategyName b }
  | .worker _ => ∃ j, postAfter label done = .working j ∧ payloadArgs P j.payload = pure a

/-- The machine of the wake was read and is enabled, the packet is for it, and an attempt for
who asked for it is stored. -/
def ShowsWake (done : List (Event app)) (a : WakeArgs) (mac : String)
    (interface broadcast : Option String) : Prop :=
  ∃ m fields id, Answered done (.stmt .main (.machineGet a.machineId)) (some m) ∧
    m.enabled = true ∧ mac = m.macAddress ∧ interface = m.wakeInterface ∧
    broadcast = m.broadcastAddress ∧ Answered done (.stmt .main (.attemptInsert fields)) id ∧
    fields.machineId = a.machineId ∧ fields.actorType = a.actorType ∧ fields.actorId = a.actorId

/-- A user whose session and CSRF token were verified asks for the job. -/
def ShowsRequest (label : Label) (done : List (Event app)) (payload : JsonObject) : Prop :=
  ∃ req machineId b text s u attemptId, label = .request req ∧
    req.route = .wakeMachine machineId (.typed b) ∧ b.valid = true ∧ req.cookie = some text ∧
    ShowsSession text s u done ∧ ShowsCsrf req s done ∧
    payload = Api.wakePayload machineId attemptId u.id.text b

/-- What a thread may do after `done`. -/
def Traced (P : Platform) (label : Label) (done : List (Event app)) : Op → Prop
  | .send _ mac interface broadcast => (∀ e ∈ done, isSend e.op = false) ∧
      ∃ a, WakeOf P label done a ∧ ShowsWake done a mac interface broadcast
  | .stmt _ (.jobInsert _ _ _ payload) => (∀ e ∈ done, e.op.addsJob = false) ∧
      ShowsRequest label done payload
  | _ => True

abbrev tracing (P : Platform) (label : Label) : Monitor app := history (Traced P label)

/-! ## Code that neither sends nor adds jobs -/

section Untraced
variable {P : Platform} {label : Label} {done : List (Event app)} {α : Type} {p : Code α}
  {es : List Effect}

theorem traced_of_effect {op : Op} (hsend : op.effect ≠ some .send)
    (hjob : op.effect ≠ some .newJob) : Traced P label done op := by
  cases op with
  | send strategy mac interface broadcast => exact absurd rfl hsend
  | stmt slot s =>
    cases s with
    | jobInsert machineId attemptId jobType payload => exact absurd rfl hjob
    | _ => trivial
  | _ => trivial

theorem traced_of_checks (done : List (Event app)) (op : Op) (h : op.checks = true) :
    Traced P label done op := by
  cases op with
  | send strategy mac interface broadcast => cases h
  | stmt slot s =>
    cases s with
    | jobInsert machineId attemptId jobType payload => cases slot <;> cases h
    | _ => trivial
  | _ => trivial

/-- Effects that leave no trace. -/
def Effect.untraced : Effect → Bool
  | .send | .newJob => false
  | _ => true

theorem traced_of_within {op : Op} (hop : Within es op) (hes : ∀ e ∈ es, e.untraced = true) :
    Traced P label done op := by
  refine traced_of_effect (fun h => ?_) fun h => ?_
  · cases hes _ (hop _ h)
  · cases hes _ (hop _ h)

theorem heeds_untraced (hp : p.Uses (Within es)) (hes : ∀ e ∈ es, e.untraced = true) :
    p.Heeds (tracing P label) done := by
  have huses : p.Uses fun op => ∀ done', Traced P label done' op :=
    hp.mono fun op hop done' => traced_of_within hop hes
  exact huses.heeds

/-- Code without a trace keeps what its operations keep. -/
theorem obeys_untraced {Q : List (Event app) → Prop} (hp : p.Uses (Within es))
    (hes : ∀ e ∈ es, e.untraced = true)
    (hQ : ∀ done op r, Within es op → Q done → Q (⟨op, r⟩ :: done)) (hdone : Q done) :
    Obeys (tracing P label) (fun _ done' => Q done') (fun _ done' => Q done') done p :=
  hp.obeys (M := tracing P label)
    (fun done' op hop h => ⟨traced_of_within hop hes, fun r _ => hQ done' op r hop h⟩) hdone

theorem endsFreely_tracing : EndsFreely (tracing P label) :=
  ⟨fun _ => trivial, fun _ => trivial, fun _ => trivial⟩

theorem noSend_cons {op : Op} {r : app.Reply op} (hop : Within es op)
    (hes : ∀ e ∈ es, e.untraced = true) (h : ∀ e ∈ done, isSend e.op = false) :
    ∀ e ∈ (⟨op, r⟩ : Event app) :: done, isSend e.op = false := by
  intro e he
  rcases List.mem_cons.mp he with rfl | he
  · exact not_send_of_within (fun hsend => by cases hes _ hsend) hop
  · exact h e he

theorem noJob_cons {op : Op} {r : app.Reply op} (hop : Within es op)
    (hes : ∀ e ∈ es, e.untraced = true) (h : ∀ e ∈ done, e.op.addsJob = false) :
    ∀ e ∈ (⟨op, r⟩ : Event app) :: done, e.op.addsJob = false := by
  intro e he
  rcases List.mem_cons.mp he with rfl | he
  · cases op with
    | stmt slot s =>
      cases s with
      | jobInsert machineId attemptId jobType payload => cases hes _ (hop .newJob rfl)
      | _ => rfl
    | _ => rfl
  · exact h e he

end Untraced

/-! ## Waking a machine -/

section Waking
variable {P : Platform} {label : Label} {done : List (Event app)} {a : WakeArgs}

/-- Nothing is sent so far, and the arguments are those of who asks for the wake. -/
def Entrusted (P : Platform) (label : Label) (a : WakeArgs) (done : List (Event app)) : Prop :=
  (∀ e ∈ done, isSend e.op = false) ∧ WakeOf P label done a

theorem Entrusted.cons {es : List Effect} {op : Op} {r : app.Reply op}
    (h : Entrusted P label a done) (hop : Within es op) (hes : ∀ e ∈ es, e.untraced = true)
    (hbeside : ∀ e ∈ es, e.beside = true) : Entrusted P label a (⟨op, r⟩ :: done) := by
  refine ⟨noSend_cons hop hes h.1, ?_⟩
  cases label with
  | request req =>
    obtain ⟨machineId, b, raw, k, hroute, hraw, hk, ha⟩ := h.2
    exact ⟨machineId, b, raw, k, hroute, hraw, hk.cons _, ha⟩
  | worker fuel =>
    obtain ⟨j, hj, ha⟩ := h.2
    refine ⟨j, ?_, ha⟩
    show (postAfter (.worker fuel) done).next op r = .working j
    rw [hj]
    exact (Post.beside_step (g := .working j) rfl fun e he => hbeside e (hop e he)).2 r

/-- With the machine read and the attempt stored, the packet may be sent. -/
theorem heeds_sendAndRecord {m : Machine} {attempt : WakeAttempt} {strategy : WakeStrategy}
    (h : Entrusted P label a done)
    (hshows : ShowsWake done a m.macAddress m.wakeInterface m.broadcastAddress) :
    (WakeService.sendAndRecord m attempt strategy).Heeds (tracing P label) done := by
  have hupdate : ∀ {status : AttemptStatus} {error : Option String} {time : Option DateTime}
      {done' : List (Event app)}, (SqlWakeAttemptRepository.updateStatus attempt.id.text status
        error time).Heeds (tracing P label) done' := by
    intro status error time done'
    have huses : (SqlWakeAttemptRepository.updateStatus attempt.id.text status error time).Uses
        (Within [.attemptStatus]) := uses_updateStatus (by simp)
    exact heeds_untraced huses (by decide)
  have hhandler : ∀ (exc : PyExc) (done' : List (Event app)), Obeys (tracing P label)
      (fun _ g' => ((Pure.pure attempt.id.text : Code String)).Heeds (tracing P label) g')
      (fun _ _ => True) done' (do
        let now ← await .now
        SqlWakeAttemptRepository.updateStatus attempt.id.text .failed (some exc.str) (some now)
        raise (.wake ("Wake failed: " ++ exc.str)) : Code Unit) := by
    intro exc done'
    rw [obeys_bind, obeys_await]
    refine ⟨trivial, fun now _ => ?_, fun _ _ => trivial⟩
    rw [obeys_bind]
    exact hupdate.mono (fun _ _ _ => (obeys_raise _).mpr trivial) fun _ _ _ => trivial
  unfold WakeService.sendAndRecord
  rw [heeds_bind, obeys_tryCatch, obeys_bind, obeys_await]
  refine ⟨⟨h.1, a, h.2, hshows⟩, fun _ _ => ?_, fun e _ => hhandler e _⟩
  exact hupdate.mono (fun _ _ _ => heeds_pure _) fun e g' _ => hhandler e g'

/-- `WakeService.wake` sends its packet for its arguments. -/
theorem heeds_wake (h : Entrusted P label a done) :
    (WakeService.wake P a).Heeds (tracing P label) done := by
  unfold WakeService.wake SqlMachineRepository.getById guardUuid
  rw [heeds_bind]
  split
  swap
  · exact (obeys_pure _).mpr (heeds_raise _)
  refine (obeys_execute (s := .machineGet a.machineId)).mpr
    ⟨trivial, fun found _ => ?_, fun _ _ => trivial⟩
  cases found with
  | none => exact heeds_raise _
  | some m =>
    dsimp only
    split
    · exact heeds_raise _
    rename_i hdisabled
    have henabled : m.enabled = true := by simpa using hdisabled
    have hread : Within [] (.stmt .main (.machineGet a.machineId)) := within_of_none rfl
    have hfound := h.cons (r := .ok (some m)) hread (by decide) (by decide)
    let fields : AttemptFields :=
      { machineId := a.machineId, actorType := a.actorType, actorId := a.actorId
        strategy := orElse a.strategyOverride m.wakeStrategy, ensureOnline := a.ensureOnline
        pollTimeoutS := a.pollTimeoutS }
    unfold SqlWakeAttemptRepository.create
    rw [heeds_bind, obeys_bind]
    refine (obeys_execute (s := .attemptInsert fields)).mpr
      ⟨trivial, fun id _ => ?_, fun _ _ => trivial⟩
    have hinsert : Within [.newAttempt] (.stmt .main (.attemptInsert fields)) :=
      within_of_effect rfl (by simp)
    have hstored := hfound.cons (r := .ok id) hinsert (by decide) (by decide)
    refine (obeys_execute (s := .attemptRefresh id)).mpr
      ⟨trivial, fun attempt _ => ?_, fun _ _ => trivial⟩
    have hrefresh : Within [] (.stmt .main (.attemptRefresh id)) := within_of_none rfl
    have hready := hstored.cons (r := .ok attempt) hrefresh (by decide) (by decide)
    have hshows : ShowsWake (⟨.stmt .main (.attemptRefresh id), .ok attempt⟩ ::
        ⟨.stmt .main (.attemptInsert fields), .ok id⟩ ::
        ⟨.stmt .main (.machineGet a.machineId), .ok (some m)⟩ :: done) a m.macAddress
          m.wakeInterface m.broadcastAddress := by
      refine ⟨m, fields, id, ?_, henabled, rfl, rfl, rfl, ?_, rfl, rfl, rfl⟩
      · exact List.mem_cons_of_mem _ (List.mem_cons_of_mem _ List.mem_cons_self)
      · exact List.mem_cons_of_mem _ List.mem_cons_self
    rw [heeds_bind]
    unfold getStrategy
    split
    · exact (obeys_pure _).mpr (heeds_sendAndRecord hready hshows)
    · split
      · exact (obeys_pure _).mpr (heeds_sendAndRecord hready hshows)
      · exact (obeys_raise _).mpr trivial

end Waking

/-! ## Requests -/

section Requests
variable {P : Platform} {req : Request} {machineId : String} {body : JsonBody WakeRequest}

theorem traced_wakeMachineDirect (hroute : req.route = .wakeMachineDirect machineId body) :
    (Api.wakeMachineDirect P req machineId body).Heeds (tracing P (.request req)) [] := by
  unfold Api.wakeMachineDirect
  refine heeds_withBody endsFreely_tracing ?_
  have hguard : (getApiToken P req).Uses (Within [.touchToken]) := uses_getApiToken (by simp)
  have hquiet : Obeys (tracing P (.request req)) (fun _ done' => ∀ e ∈ done', isSend e.op = false)
      (fun _ done' => ∀ e ∈ done', isSend e.op = false) [] (getApiToken P req) :=
    obeys_untraced hguard (by decide) (fun _ _ _ hop h => noSend_cons hop (by decide) h) (by simp)
  refine ((obeys_getApiToken traced_of_checks).and hquiet).mono (fun k done' h => ?_)
    fun _ _ _ => trivial
  obtain ⟨⟨raw, hraw, hk⟩, hnoSend⟩ := h
  intro b c hb hc
  subst hb
  obtain ⟨-, rfl⟩ := checked_eq_some.mp hc
  dsimp only
  rw [heeds_bind, obeys_tryCatch]
  have hwakeOf : WakeOf P (.request req) done' _ := ⟨machineId, _, raw, k, hroute, hraw, hk, rfl⟩
  refine (heeds_wake ⟨hnoSend, hwakeOf⟩).mono (fun _ _ _ => heeds_pure _) fun exc g' _ => ?_
  cases exc <;> exact (obeys_raise _).mpr trivial

/-- A verified user asks, and no job is added so far. -/
def Asked (req : Request) (u : User) (done : List (Event app)) : Prop :=
  (∀ e ∈ done, e.op.addsJob = false) ∧
    ∃ text s, req.cookie = some text ∧ ShowsSession text s u done ∧ ShowsCsrf req s done

theorem Asked.cons {u : User} {done : List (Event app)} {es : List Effect} {op : Op}
    {r : app.Reply op} (h : Asked req u done) (hop : Within es op)
    (hes : ∀ e ∈ es, e.untraced = true) : Asked req u (⟨op, r⟩ :: done) := by
  obtain ⟨hno, text, s, hcookie, hs, hcsrf⟩ := h
  exact ⟨noJob_cons hop hes hno, text, s, hcookie, hs.cons _, List.mem_cons_of_mem _ hcsrf⟩

theorem traced_enqueue {done : List (Event app)} {attemptId jobType : String} {b : WakeRequest}
    {u : User} (hroute : req.route = .wakeMachine machineId (.typed b)) (hvalid : b.valid = true)
    (h : Asked req u done) :
    (JobQueue.enqueue machineId attemptId jobType
      (Api.wakePayload machineId attemptId u.id.text b)).Heeds (tracing P (.request req)) done := by
  obtain ⟨hno, text, s, hcookie, hs, hcsrf⟩ := h
  unfold JobQueue.enqueue
  refine heeds_withSession (fun _ => trivial) ?_
  rw [heeds_bind]
  refine (obeys_execute (s := .jobInsert machineId attemptId jobType
    (Api.wakePayload machineId attemptId u.id.text b))).mpr
    ⟨⟨hno, req, machineId, b, text, s, u, attemptId, rfl, hroute, hvalid, hcookie, hs, hcsrf,
      rfl⟩,
      fun id _ => ?_, fun _ _ => trivial⟩
  have hrest : (do
      let _ ← await (.commit .queue)
      let job ← execute .queue (.jobRefresh id)
      return job.id.text : Code String).Uses (Within [.commit]) :=
    Uses.bind (uses_effect rfl (by simp)) fun _ => Uses.bind (uses_read rfl) fun _ => uses_pure _
  exact heeds_untraced hrest (by decide)

theorem traced_wakeMachine (hroute : req.route = .wakeMachine machineId body) :
    (Api.wakeMachine req machineId body).Heeds (tracing P (.request req)) [] := by
  unfold Api.wakeMachine
  refine heeds_withBody endsFreely_tracing ?_
  have hguard : (csrfProtectedUser req).Uses (Within []) := uses_csrfProtectedUser
  have hquiet : Obeys (tracing P (.request req)) (fun _ done' => ∀ e ∈ done', e.op.addsJob = false)
      (fun _ done' => ∀ e ∈ done', e.op.addsJob = false) [] (csrfProtectedUser req) :=
    obeys_untraced hguard (by decide) (fun _ _ _ hop h => noJob_cons hop (by decide) h) (by simp)
  refine ((obeys_csrfGuard traced_of_checks).and hquiet).mono (fun u done' h => ?_)
    fun _ _ _ => trivial
  obtain ⟨⟨text, s, hcookie, hs, hcsrf⟩, hno⟩ := h
  have hasked : Asked req u done' := ⟨hno, text, s, hcookie, hs, hcsrf⟩
  intro b c hb hc
  subst hb
  obtain ⟨hvalid, rfl⟩ := checked_eq_some.mp hc
  rw [heeds_bind]
  have hread : (SqlMachineRepository.getById machineId).Uses (Within []) := uses_machineGetById
  refine (obeys_untraced hread (by decide) (fun _ _ _ hop h => h.cons hop (by decide))
    hasked).mono (fun found done' h => ?_) fun _ _ _ => trivial
  cases found with
  | none => exact heeds_raise _
  | some m =>
    dsimp only
    rw [heeds_bind]
    have hcreate : ∀ fields, (SqlWakeAttemptRepository.create fields).Uses (Within [.newAttempt]) :=
      fun fields => uses_attemptCreate (by simp)
    refine (obeys_untraced (hcreate _) (by decide) (fun _ _ _ hop h => h.cons hop (by decide))
      h).mono (fun attempt done' h => ?_) fun _ _ _ => trivial
    rw [heeds_bind, obeys_await]
    have hcommit : Within [.commit] (.commit .main) := within_of_effect rfl (by simp)
    refine ⟨trivial, fun _ _ => ?_, fun _ _ => trivial⟩
    rw [heeds_bind]
    exact (traced_enqueue hroute hvalid (h.cons hcommit (by decide))).mono
      (fun _ _ _ => heeds_pure _) fun _ _ _ => trivial

end Requests

/-! ## Workers -/

section Workers
variable {P : Platform} {fuel : Nat} {done : List (Event app)}

theorem traced_claimNext :
    Obeys (tracing P (.worker fuel))
      (fun found done' => ∀ jobId payload, found = some (jobId, payload) →
        ∃ j, postAfter (.worker fuel) done' = .working j ∧ payload = j.payload ∧
          ∀ e ∈ done', isSend e.op = false)
      (fun _ _ => True) [] JobQueue.claimNext := by
  unfold JobQueue.claimNext
  refine obeys_inSession (fun _ => trivial) ?_
  rw [obeys_bind]
  refine (obeys_execute (s := .jobClaim)).mpr ⟨trivial, fun found _ => ?_, fun _ _ => trivial⟩
  cases found with
  | none => exact (obeys_pure _).mpr (by simp)
  | some j =>
    dsimp only
    rw [obeys_bind, obeys_await]
    refine ⟨trivial, fun now _ => ?_, fun _ _ => trivial⟩
    rw [obeys_bind]
    refine (obeys_execute (s := .jobSetRunning j.id now)).mpr
      ⟨trivial, fun _ _ => ?_, fun _ _ => trivial⟩
    rw [obeys_bind, obeys_await]
    refine ⟨trivial, fun _ _ => (obeys_pure _).mpr fun r jobId payload hfound => ?_,
      fun _ _ => trivial⟩
    cases hfound
    refine ⟨j, ?_, rfl, ?_⟩
    · cases r <;> rfl
    · simp [isSend]

theorem traced_processJob {j : WakeJob} {jobId : String}
    (hpost : postAfter (.worker fuel) done = .working j)
    (hno : ∀ e ∈ done, isSend e.op = false) :
    (processJob P fuel jobId j.payload).Heeds (tracing P (.worker fuel)) done := by
  have hargs : ∀ a, payloadArgs P j.payload = Program.pure a →
      Entrusted P (.worker fuel) a done := fun a ha => ⟨hno, j, hpost, ha⟩
  unfold processJob
  rw [heeds_bind]
  unfold payloadArgs at hargs ⊢
  split
  · exact (obeys_raise _).mpr trivial
  · rename_i n hn
    rw [hn] at hargs
    refine (obeys_pure _).mpr ?_
    rw [heeds_bind, obeys_tryCatch, obeys_bind]
    have hensure : ∀ (woken : Bool) (a : WakeArgs) (done' : List (Event app)),
        (if woken && a.ensureOnline then
          ensureJobOnline fuel jobId (j.payload.get "attempt_id" (.str "")).pyStr a.machineId
          else return : Code Unit).Heeds (tracing P (.worker fuel)) done' := by
      intro woken a done'
      split
      · have huses : (ensureJobOnline fuel jobId (j.payload.get "attempt_id" (.str "")).pyStr
            a.machineId).Uses (Within [.attemptStatus]) :=
          uses_ensureJobOnline (fun _ h => within_of_none h)
            (fun _ _ _ _ _ _ => within_of_effect rfl (by simp)) fuel
        exact heeds_untraced huses (by decide)
      · exact heeds_pure _
    refine (heeds_wake (hargs _ rfl)).mono (fun _ g' _ => ?_) fun exc g' _ => ?_
    · exact (obeys_pure _).mpr (hensure _ _ _)
    · rw [obeys_bind, obeys_await]
      exact ⟨trivial, fun _ _ => (obeys_pure _).mpr (hensure _ _ _), fun _ _ => trivial⟩

theorem traced_executeJob {j : WakeJob} {jobId : String}
    (hpost : postAfter (.worker fuel) done = .working j)
    (hno : ∀ e ∈ done, isSend e.op = false) :
    (executeJob P fuel jobId j.payload).Heeds (tracing P (.worker fuel)) done := by
  have hhandler : ∀ (exc : PyExc) (done' : List (Event app)), (do
      let _ ← await (.rollback .main)
      JobQueue.markError jobId exc.str
      await (.log (.jobError jobId exc.str)) : Code Unit).Heeds (tracing P (.worker fuel)) done' := by
    intro exc done'
    have huses : (do
        let _ ← await (.rollback .main)
        JobQueue.markError jobId exc.str
        await (.log (.jobError jobId exc.str)) : Code Unit).Uses
          (Within [.jobError, .commit, .reset]) := by
      refine Uses.bind (uses_effect rfl (by simp)) fun _ => Uses.bind ?_ fun _ => uses_await rfl
      refine uses_withSession (Uses.bind (uses_write rfl (by simp)) fun _ => ?_)
        (within_of_effect rfl (by simp))
      exact uses_effect rfl (by simp)
    exact heeds_untraced huses (by decide)
  have hdone : (do
      JobQueue.markDone jobId
      await (.commit .main) : Code Unit).Uses (Within [.jobDone, .commit, .reset]) := by
    refine Uses.bind ?_ fun _ => uses_effect rfl (by simp)
    refine uses_withSession (Uses.bind (uses_write rfl (by simp)) fun _ => ?_)
      (within_of_effect rfl (by simp))
    exact uses_effect rfl (by simp)
  unfold executeJob
  refine heeds_withSession (fun _ => trivial) ?_
  rw [heeds_tryCatch, obeys_bind]
  refine (traced_processJob hpost hno).mono (fun _ g' _ => ?_) fun exc g' _ => hhandler exc g'
  have hheeds : (do
      JobQueue.markDone jobId
      await (.commit .main) : Code Unit).Heeds (tracing P (.worker fuel)) g' :=
    heeds_untraced hdone (by decide)
  exact hheeds.mono (fun _ _ _ => trivial) fun exc g' _ => hhandler exc g'

theorem traced_workerIteration :
    (workerIteration P fuel).Heeds (tracing P (.worker fuel)) [] := by
  have hsleep : ∀ done', (await .sleep).Heeds (tracing P (.worker fuel)) done' :=
    fun _ => heeds_await.mpr trivial
  unfold workerIteration
  rw [heeds_bind, obeys_tryCatch, obeys_bind]
  refine traced_claimNext.mono (fun found done' hfound => ?_)
    fun _ done' _ => (obeys_pure _).mpr (hsleep done')
  cases found with
  | none => exact (obeys_pure _).mpr (hsleep _)
  | some found =>
    obtain ⟨j, hpost, hpayload, hno⟩ := hfound found.1 found.2 rfl
    dsimp only
    rw [hpayload]
    exact (traced_executeJob hpost hno).mono (fun _ g' _ => hsleep g')
      fun _ g' _ => (obeys_pure _).mpr (hsleep g')

end Workers

/-! ## Every thread -/

/-- Every thread sends packets and adds jobs only for those who may ask for them. -/
theorem traced_start {P : Platform} (label : Label) :
    (start P label).Heeds (tracing P label) [] := by
  cases label with
  | worker fuel => exact heeds_start_worker traced_workerIteration
  | request req =>
    refine heeds_start_request ?_
    have hother : (∀ e ∈ req.route.effects, e.untraced = true) →
        (endpoint P req).Heeds (tracing P (.request req)) [] := heeds_untraced endpoint_within
    cases hroute : req.route with
    | wakeMachine machineId body =>
      simp only [endpoint, hroute]
      exact traced_wakeMachine hroute
    | wakeMachineDirect machineId body =>
      simp only [endpoint, hroute]
      exact traced_wakeMachineDirect hroute
    | _ => exact hother (by rw [hroute]; simp only [Route.effects]; decide)

end WolMonkey
