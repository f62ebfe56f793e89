import WolMonkey.Facts.Statements

/-!
# Footprints

What the code of every service and route can change. `Within es` holds of the operations
whose effects are among `es`. Every function of the application has one lemma that lists
the effects it needs, and `Route.effects` is the table of the effects of the routes
(`endpoint_within`).
-/

namespace WolMonkey

open Programs Program

/-- The effect of the operation, if it has one, is among `es`. -/
def Within (es : List Effect) (op : Op) : Prop := ∀ e, op.effect = some e → e ∈ es

variable {es : List Effect} {α : Type}

theorem within_of_effect {op : Op} {e : Effect} (h : op.effect = some e) (he : e ∈ es) :
    Within es op := by
  intro e' h'
  rw [h] at h'
  cases h'
  exact he

theorem within_of_none {op : Op} (h : op.effect = none) : Within es op := by
  intro e' h'
  rw [h] at h'
  cases h'

theorem uses_read {slot : Slot} {s : Stmt} (h : s.effect = none) :
    (execute slot s).Uses (Within es) := (uses_perform _).mpr (within_of_none h)

theorem uses_write {slot : Slot} {s : Stmt} {e : Effect} (h : s.effect = some e) (he : e ∈ es) :
    (execute slot s).Uses (Within es) := (uses_perform _).mpr (within_of_effect h he)

theorem uses_await {op : Op} (h : op.effect = none) : (await op).Uses (Within es) :=
  (uses_perform _).mpr (within_of_none h)

theorem uses_guardUuid {value : String} {absent : α} {query : Code α}
    (h : query.Uses (Within es)) : (guardUuid value absent query).Uses (Within es) := by
  unfold guardUuid
  split
  · exact h
  · simp

theorem uses_effect {op : Op} {e : Effect} (h : op.effect = some e) (he : e ∈ es) :
    (await op).Uses (Within es) := (uses_perform _).mpr (within_of_effect h he)

section Obeys
variable {M : Monitor app} {g : M.Ghost} {failed : PyExc → M.Ghost → Prop}

theorem obeys_await {op : Op} {post : op.Answer → M.Ghost → Prop} :
    Obeys M post failed g (await op) ↔ M.permits g op ∧
      (∀ a, M.possible g op (.ok a) → post a (M.next g op (.ok a))) ∧
      (∀ e, M.possible g op (.error e) → failed e (M.next g op (.error e))) := obeys_perform

theorem obeys_execute {slot : Slot} {s : Stmt} {post : s.Answer → M.Ghost → Prop} :
    Obeys M post failed g (execute slot s) ↔ M.permits g (.stmt slot s) ∧
      (∀ a, M.possible g (.stmt slot s) (.ok a) → post a (M.next g (.stmt slot s) (.ok a))) ∧
      (∀ e, M.possible g (.stmt slot s) (.error e) →
        failed e (M.next g (.stmt slot s) (.error e))) :=
  @obeys_await M g failed (.stmt slot s) post

end Obeys

/-- The ends of transactions are among the operations. -/
def Sessions (ok : Op → Prop) : Prop :=
  ∀ slot, ok (.commit slot) ∧ ok (.rollback slot) ∧ ok (.close slot)

@[simp] theorem sessions_within : Sessions (Within es) ↔ .commit ∈ es ∧ .reset ∈ es := by
  constructor
  · exact fun h => ⟨(h .main).1 _ rfl, (h .main).2.1 _ rfl⟩
  · exact fun h _ => ⟨within_of_effect rfl h.1, within_of_effect rfl h.2, within_of_effect rfl h.2⟩

section Wrappers
variable {ok : Op → Prop}

theorem uses_withSession {slot : Slot} {body : Code α} (h : body.Uses ok)
    (hclose : ok (.close slot)) : (withSession slot body).Uses ok := by
  refine Uses.bind (Uses.tryCatch h fun exc => ?_) fun result => ?_
  · exact Uses.bind ((uses_perform _).mpr hclose) fun _ => uses_raise _
  · exact Uses.bind ((uses_perform _).mpr hclose) fun _ => uses_pure _

theorem uses_getDbSession {body : Code α} (h : body.Uses ok) (hs : Sessions ok) :
    (getDbSession body).Uses ok := by
  obtain ⟨hcommit, hrollback, hclose⟩ := hs .main
  refine uses_withSession (Uses.tryCatch ?_ fun exc => ?_) hclose
  · exact Uses.bind h fun _ => Uses.bind ((uses_perform _).mpr hcommit) fun _ => uses_pure _
  · exact Uses.bind ((uses_perform _).mpr hrollback) fun _ => uses_raise _

/-- Only the values of the body that passed its validation matter. -/
theorem uses_withBody_of {β γ δ : Type} {body : JsonBody β} {validate : β → Option γ}
    {deps : Code δ} {endpoint : δ → γ → Code α} (hd : deps.Uses ok) (hs : Sessions ok)
    (he : ∀ d b c, body = .typed b → validate b = some c → (endpoint d c).Uses ok) :
    (withBody body validate deps endpoint).Uses ok := by
  cases body with
  | malformed => exact uses_raise _
  | mistyped => exact uses_getDbSession (Uses.bind hd fun _ => uses_raise _) hs
  | typed b =>
    refine uses_getDbSession (Uses.bind hd fun d => ?_) hs
    cases hv : validate b with
    | none => simp
    | some c => exact he d b c rfl hv

theorem uses_withBody {β γ δ : Type} {body : JsonBody β} {validate : β → Option γ} {deps : Code δ}
    {endpoint : δ → γ → Code α} (hd : deps.Uses ok) (hs : Sessions ok)
    (he : ∀ d c, (endpoint d c).Uses ok) : (withBody body validate deps endpoint).Uses ok :=
  uses_withBody_of hd hs fun d _ c _ _ => he d c

theorem uses_withForm_of {γ : Type} {form : Option γ} {endpoint : γ → Code α} (hs : Sessions ok)
    (he : ∀ c, form = some c → (endpoint c).Uses ok) : (withForm form endpoint).Uses ok := by
  refine uses_getDbSession ?_ hs
  cases form with
  | none => simp
  | some c => exact he c rfl

theorem uses_withForm {γ : Type} {form : Option γ} {endpoint : γ → Code α} (hs : Sessions ok)
    (he : ∀ c, (endpoint c).Uses ok) : (withForm form endpoint).Uses ok :=
  uses_withForm_of hs fun c _ => he c

end Wrappers

/-! ## Repositories -/

theorem uses_userGetById {id : String} :
    (SqlUserRepository.getById id).Uses (Within es) := uses_guardUuid (uses_read rfl)

theorem uses_userCreate {username hash : String} (h : .newUser ∈ es) :
    (SqlUserRepository.create username hash).Uses (Within es) :=
  Uses.bind (uses_write rfl h) fun _ => uses_read rfl

theorem uses_machineGetById {id : String} :
    (SqlMachineRepository.getById id).Uses (Within es) := uses_guardUuid (uses_read rfl)

theorem uses_machineCreate {fields : MachineFields} (h : .newMachine ∈ es) :
    (SqlMachineRepository.create fields).Uses (Within es) :=
  Uses.bind (uses_write rfl h) fun _ => uses_read rfl

theorem uses_machineUpdate {id : String} {columns : MachineColumns} (h : .editMachine ∈ es) :
    (SqlMachineRepository.update id columns).Uses (Within es) := by
  refine uses_guardUuid (Uses.bind (uses_read rfl) fun found => ?_)
  cases found with
  | none => simp
  | some model =>
    exact Uses.bind (uses_write rfl h) fun _ => Uses.bind (uses_read rfl) fun _ => uses_pure _

theorem uses_machineDelete {id : String} (h : .dropMachine ∈ es) :
    (SqlMachineRepository.delete id).Uses (Within es) := by
  refine uses_guardUuid (Uses.bind (uses_read rfl) fun found => ?_)
  cases found with
  | none => simp
  | some model =>
    exact Uses.bind (uses_read rfl) fun _ => Uses.bind (uses_write rfl h) fun _ => uses_pure _

theorem uses_attemptCreate {fields : AttemptFields} (h : .newAttempt ∈ es) :
    (SqlWakeAttemptRepository.create fields).Uses (Within es) :=
  Uses.bind (uses_write rfl h) fun _ => uses_read rfl

theorem uses_attemptGetById {id : String} :
    (SqlWakeAttemptRepository.getById id).Uses (Within es) := uses_guardUuid (uses_read rfl)

theorem uses_updateStatus {id : String} {status : AttemptStatus} {error : Option String}
    {finishedAt : Option DateTime} (h : .attemptStatus ∈ es) :
    (SqlWakeAttemptRepository.updateStatus id status error finishedAt).Uses (Within es) :=
  uses_write rfl h

theorem uses_sessionCreate {userId secret : String} {expiresAt : DateTime}
    {ip userAgent : Option String} (h : .newSession ∈ es) :
    (SqlSessionRepository.create userId secret expiresAt ip userAgent).Uses (Within es) :=
  Uses.bind (uses_write rfl h) fun _ => uses_read rfl

theorem uses_sessionGetById {id : String} :
    (SqlSessionRepository.getById id).Uses (Within es) := uses_guardUuid (uses_read rfl)

theorem uses_tokenCreate {name hash tokenPrefix userId : String} {machineId : Option String}
    (h : .newToken ∈ es) :
    (SqlApiTokenRepository.create name hash tokenPrefix userId machineId).Uses (Within es) :=
  Uses.bind (uses_write rfl h) fun _ => uses_read rfl

theorem uses_setupGet (h : .newSetup ∈ es) : SqlSetupStateRepository.get.Uses (Within es) := by
  refine Uses.bind (uses_read rfl) fun found => ?_
  cases found with
  | some model => simp
  | none => exact Uses.bind (uses_write rfl h) fun _ => uses_read rfl

theorem uses_setupUpdate {columns : SetupColumns} (h : .newSetup ∈ es) (h' : .editSetup ∈ es) :
    (SqlSetupStateRepository.update columns).Uses (Within es) := by
  refine Uses.bind (uses_read rfl) fun found => Uses.bind ?_ fun _ => uses_read rfl
  cases found with
  | some model => exact uses_write rfl h'
  | none => exact uses_write rfl h

theorem uses_settingsSet {key : String} {value : Scalar} (h : .newSetting ∈ es)
    (h' : .editSetting ∈ es) : (SettingsService.set key value).Uses (Within es) := by
  refine Uses.bind (uses_read rfl) fun found => ?_
  cases found with
  | some model => exact uses_write rfl h'
  | none => exact uses_write rfl h

theorem uses_valuesOf (rows : List Setting) :
    (SqlSettingsRepository.valuesOf rows).Uses (Within es) := by
  induction rows with
  | nil => exact uses_pure _
  | cons r rows ih =>
    refine Uses.bind ?_ fun v => Uses.bind ih fun _ => uses_pure _
    unfold SqlSettingsRepository.valueOf
    split <;> simp

theorem uses_settingsGetAll : SettingsService.getAll.Uses (Within es) :=
  Uses.bind (uses_read rfl) uses_valuesOf

/-! ## Services -/

theorem uses_isComplete (h : .newSetup ∈ es) : SetupStateService.isComplete.Uses (Within es) :=
  Uses.bind (uses_setupGet h) fun _ => uses_pure _

theorem uses_advance {step : String} (h : .newSetup ∈ es) (h' : .editSetup ∈ es) :
    (SetupStateService.advance step).Uses (Within es) := by
  refine Uses.bind (uses_setupGet h) fun record => ?_
  dsimp only
  split
  · exact Uses.bind (uses_setupUpdate h h') fun _ => uses_pure _
  · exact Uses.bind (uses_setupUpdate h h') fun _ => uses_pure _

theorem uses_goBack {step : String} (h : .newSetup ∈ es) (h' : .editSetup ∈ es) :
    (SetupStateService.goBack step).Uses (Within es) := by
  refine Uses.bind (uses_setupGet h) fun record => ?_
  split
  · simp
  · simp
  · exact Uses.bind (uses_setupUpdate h h') fun _ => uses_pure _

theorem uses_createAdmin {username password : String} (h : .newUser ∈ es) :
    (AuthService.createAdmin username password).Uses (Within es) := by
  refine Uses.bind (Uses.bind (uses_read rfl) fun _ => uses_pure _) fun found => ?_
  split
  · simp
  · exact Uses.bind (uses_await rfl) fun _ => uses_userCreate h

section Auth
variable {P : Platform}

theorem uses_rehash {user : User} {password : String} (hp : .passwordHash ∈ es) :
    (AuthService.rehash P user password).Uses (Within es) := by
  unfold AuthService.rehash
  split
  · exact Uses.bind (uses_await rfl) fun _ => uses_write rfl hp
  · exact uses_pure _

theorem uses_openSession {user : User} {password : String} {ip userAgent : Option String}
    (hl : .lastLogin ∈ es) (hp : .passwordHash ∈ es) (hs : .newSession ∈ es) :
    (AuthService.openSession P user password ip userAgent).Uses (Within es) := by
  refine Uses.bind (uses_rehash hp) fun _ => ?_
  refine Uses.bind (uses_await rfl) fun _ => Uses.bind (uses_await rfl) fun _ => ?_
  refine Uses.bind (uses_sessionCreate hs) fun _ => ?_
  exact Uses.bind (uses_write rfl hl) fun _ => uses_pure _

theorem uses_login {username password : String} {ip userAgent : Option String}
    (hl : .lastLogin ∈ es) (hp : .passwordHash ∈ es) (hs : .newSession ∈ es) :
    (AuthService.login P username password ip userAgent).Uses (Within es) := by
  refine Uses.bind (uses_read rfl) fun found => ?_
  cases found with
  | none => simp
  | some user =>
    refine Uses.bind ?_ fun verified => ?_
    · unfold verifyPassword
      split <;> simp
    · split
      · exact uses_openSession hl hp hs
      · simp

theorem uses_validateSession {sessionId : String} :
    (AuthService.validateSession sessionId).Uses (Within es) := by
  refine Uses.bind uses_sessionGetById fun found => ?_
  cases found with
  | none => simp
  | some session =>
    dsimp only
    split
    · simp
    · refine Uses.bind (uses_await rfl) fun now => ?_
      split
      · simp
      · refine Uses.bind uses_userGetById fun user => ?_
        cases user <;> simp

theorem uses_createApiToken {name userId : String} {machineId : Option String}
    (h : .newToken ∈ es) : (AuthService.createApiToken P name userId machineId).Uses (Within es) := by
  refine Uses.bind ?_ fun token => Uses.bind (uses_tokenCreate h) fun _ => uses_pure _
  exact Uses.bind (uses_await rfl) fun _ => Uses.bind (uses_await rfl) fun _ => uses_pure _

theorem uses_validateApiToken {raw : String} (h : .touchToken ∈ es) :
    (AuthService.validateApiToken P raw).Uses (Within es) := by
  refine Uses.bind (uses_read rfl) fun found => ?_
  cases found with
  | none => simp
  | some record =>
    dsimp only
    split
    · simp
    · exact Uses.bind (uses_write rfl h) fun _ => uses_pure _

theorem uses_getStrategy {name : String} : (getStrategy P name).Uses (Within es) := by
  unfold getStrategy
  repeat' split
  all_goals simp

theorem uses_wake {a : WakeArgs} (ha : .newAttempt ∈ es) (hs : .attemptStatus ∈ es)
    (hsend : .send ∈ es) : (WakeService.wake P a).Uses (Within es) := by
  refine Uses.bind uses_machineGetById fun found => ?_
  cases found with
  | none => simp
  | some machine =>
    dsimp only
    split
    · simp
    · refine Uses.bind (uses_attemptCreate ha) fun attempt =>
        Uses.bind uses_getStrategy fun strategy => ?_
      refine Uses.bind (Uses.tryCatch ?_ fun exc => ?_) fun _ => uses_pure _
      · exact Uses.bind (uses_effect rfl hsend) fun _ => uses_updateStatus hs
      · exact Uses.bind (uses_await rfl) fun _ =>
          Uses.bind (uses_updateStatus hs) fun _ => uses_raise _

end Auth

theorem uses_probeMachine {machine : Machine} :
    (StateProbe.probeMachine machine).Uses (Within es) := by
  refine Uses.bind (uses_await rfl) fun result => ?_
  split
  · split
    · exact uses_await rfl
    · simp
  · simp

/-! ## Dependencies -/

section Dependencies
variable {P : Platform} {req : Request}

theorem uses_getCurrentSessionAndUser :
    (getCurrentSessionAndUser req).Uses (Within es) := by
  unfold getCurrentSessionAndUser
  split
  · simp
  · exact Uses.tryCatch uses_validateSession fun _ => uses_raise _

theorem uses_getCurrentUser : (getCurrentUser req).Uses (Within es) :=
  Uses.bind uses_getCurrentSessionAndUser fun _ => uses_pure _

theorem uses_csrfProtectedUser : (csrfProtectedUser req).Uses (Within es) := by
  refine Uses.bind uses_getCurrentSessionAndUser fun su => Uses.bind ?_ fun _ => uses_pure _
  unfold requireCsrf
  split
  · simp
  · refine Uses.bind (Uses.bind (uses_await rfl) fun _ => uses_pure _) fun ok => ?_
    split <;> simp

theorem uses_getApiToken (h : .touchToken ∈ es) : (getApiToken P req).Uses (Within es) := by
  unfold getApiToken
  split
  · simp
  · exact Uses.tryCatch (uses_validateApiToken h) fun _ => uses_raise _

theorem uses_getUserFromSessionOrToken (h : .touchToken ∈ es) :
    (getUserFromSessionOrToken P req).Uses (Within es) := by
  refine Uses.bind ?_ fun bySession => ?_
  · unfold sessionUser?
    split
    · simp
    · exact Uses.tryCatch (Uses.bind uses_validateSession fun _ => uses_pure _) fun _ => uses_pure _
  · cases bySession with
    | some user => simp
    | none =>
      refine Uses.bind ?_ fun byToken => ?_
      · unfold tokenUser?
        split
        · simp
        · exact Uses.tryCatch (Uses.bind (uses_validateApiToken h) fun _ => uses_userGetById)
            fun _ => uses_pure _
      · cases byToken <;> simp

theorem uses_getCsrf : (Web.getCsrf req).Uses (Within es) := by
  unfold Web.getCsrf
  dsimp only
  split
  · simp
  · exact Uses.tryCatch (Uses.bind uses_validateSession fun _ => uses_await rfl) fun _ => uses_pure _

theorem uses_requireWebAuth : (Web.requireWebAuth req).Uses (Within es) := by
  unfold Web.requireWebAuth
  dsimp only
  split
  · simp
  · exact Uses.tryCatch (Uses.bind uses_validateSession fun _ => uses_pure _) fun _ => uses_pure _

theorem uses_withWebAuth {page : User → Code Response} (h : ∀ u, (page u).Uses (Within es)) :
    (Web.withWebAuth req page).Uses (Within es) := by
  refine Uses.bind uses_requireWebAuth fun found => ?_
  cases found with
  | none => simp
  | some user => exact h user

end Dependencies

theorem uses_enqueue {machineId attemptId jobType : String} {payload : JsonObject}
    (h : .newJob ∈ es) (hc : .commit ∈ es ∧ .reset ∈ es) :
    (JobQueue.enqueue machineId attemptId jobType payload).Uses (Within es) := by
  refine uses_withSession (Uses.bind (uses_write rfl h) fun id => Uses.bind ?_ fun _ => ?_)
    (sessions_within.mpr hc .queue).2.2
  · exact uses_effect rfl hc.1
  · exact Uses.bind (uses_read rfl) fun _ => uses_pure _

theorem uses_claimNext (h : .lockJob ∈ es) (h' : .jobRunning ∈ es)
    (hc : .commit ∈ es ∧ .reset ∈ es) : JobQueue.claimNext.Uses (Within es) := by
  refine uses_withSession (Uses.bind (uses_write rfl h) fun row => ?_)
    (sessions_within.mpr hc .queue).2.2
  cases row with
  | none => exact uses_pure _
  | some row =>
    refine Uses.bind (uses_await rfl) fun now => Uses.bind (uses_write rfl h') fun _ => ?_
    exact Uses.bind (uses_effect rfl hc.1) fun _ => uses_pure _

theorem uses_saveNetwork {body : NetworkConfigRequest} (h : .newSetting ∈ es)
    (h' : .editSetting ∈ es) : (Api.saveNetwork body).Uses (Within es) :=
  Uses.bind (uses_settingsSet h h') fun _ =>
    Uses.bind (uses_settingsSet h h') fun _ => uses_settingsSet h h'

/-! ## Polling -/

section Polling
variable {ok : Op → Prop} (hquiet : ∀ op : Op, op.effect = none → ok op)
  (hstatus : ∀ id status error finishedAt, status ≠ .pending → status ≠ .sent →
    ok (.stmt .main (.attemptUpdateStatus id status error finishedAt)))
include hquiet hstatus

theorem uses_poll {attemptId : String} {machine : Machine} {deadline : DateTime} {timeoutS : Int}
    (fuel : Nat) :
    (EnsureOnlineService.poll attemptId machine deadline timeoutS fuel).Uses ok := by
  have hawait : ∀ op : Op, op.effect = none → (await op).Uses ok := fun op h =>
    (uses_perform _).mpr (hquiet op h)
  have hupdate : ∀ status error finishedAt, status ≠ .pending → status ≠ .sent →
      (SqlWakeAttemptRepository.updateStatus attemptId status error finishedAt).Uses ok :=
    fun status error finishedAt h h' =>
      (uses_perform _).mpr (hstatus attemptId status error finishedAt h h')
  induction fuel with
  | zero => exact uses_stuck
  | succ fuel ih =>
    refine Uses.bind (hawait _ rfl) fun now => ?_
    split
    · exact Uses.bind (hawait _ rfl) fun _ => Uses.bind (hupdate _ _ _ nofun nofun) fun _ =>
        uses_pure _
    · refine Uses.bind ?_ fun result => ?_
      · have hprobe : (StateProbe.probeMachine machine).Uses (Within []) := uses_probeMachine
        refine hprobe.mono fun op hop => hquiet op ?_
        cases heffect : op.effect with
        | none => rfl
        | some e => cases hop e heffect
      · split
        · exact Uses.bind (hawait _ rfl) fun _ => Uses.bind (hupdate _ _ _ nofun nofun) fun _ =>
            uses_pure _
        · exact Uses.bind (hawait _ rfl) fun _ => ih

theorem uses_ensureOnlineRun {attemptId : String} (fuel : Nat) :
    (EnsureOnlineService.run fuel attemptId).Uses ok := by
  have hread : ∀ {β : Type} {p : Code β}, p.Uses (Within []) → p.Uses ok := by
    intro β p hp
    refine hp.mono fun op hop => hquiet op ?_
    cases heffect : op.effect with
    | none => rfl
    | some e => cases hop e heffect
  refine Uses.bind (hread uses_attemptGetById) fun found => ?_
  cases found with
  | none => exact uses_pure _
  | some attempt =>
    refine Uses.bind (hread uses_machineGetById) fun machine => ?_
    cases machine with
    | none =>
      refine Uses.bind ((uses_perform _).mpr (hquiet _ rfl)) fun now => ?_
      exact Uses.bind ((uses_perform _).mpr (hstatus _ _ _ _ nofun nofun)) fun _ => uses_pure _
    | some machine =>
      refine Uses.bind ((uses_perform _).mpr (hstatus _ _ _ _ nofun nofun)) fun _ => ?_
      exact uses_poll hquiet hstatus fuel

theorem uses_ensureJobOnline {jobId attemptId machineId : String} (fuel : Nat) :
    (ensureJobOnline fuel jobId attemptId machineId).Uses ok := by
  refine Uses.bind ((uses_perform _).mpr (hquiet _ rfl)) fun active => ?_
  have hpoll : ∀ runId : String, (if runId == "" then (Pure.pure () : Code Unit) else do
      let finalStatus ← EnsureOnlineService.run fuel runId
      await (.log (.jobEnsureOnlineDone jobId finalStatus))).Uses ok := by
    intro runId
    split
    · exact uses_pure _
    · exact Uses.bind (uses_ensureOnlineRun hquiet hstatus fuel) fun status =>
        (uses_perform (I := app) (.log (.jobEnsureOnlineDone jobId status))).mpr (hquiet _ rfl)
  cases active with
  | none => exact hpoll attemptId
  | some attempt => exact hpoll attempt.id.text

end Polling

/-! ## Routes -/

/-- The effects that the code of a route can have. -/
def Route.effects : Route → List Effect
  | health | loginPage => []
  | apiLogin _ => [.rate, .lastLogin, .passwordHash, .newSession, .commit, .reset]
  | loginPost _ => [.lastLogin, .passwordHash, .newSession, .commit, .reset]
  | apiLogout | logoutPost => [.endSession, .commit, .reset]
  | me | listMachines _ | getMachine _ | getAttemptStatus _ _ | machineStatus _ =>
    [.touchToken, .commit, .reset]
  | createToken _ => [.newToken, .commit, .reset]
  | revokeToken _ => [.endToken, .commit, .reset]
  | listTokens _ | listInterfaces | discoverHosts | machinesPage | machineNewPage
  | machineEditPage _ | tokensPage | sshSetupPage | settingsPage => [.commit, .reset]
  | setupStatus | root | setupPage _ => [.newSetup, .commit, .reset]
  | setupAdmin _ => [.newUser, .newSetup, .editSetup, .commit, .reset]
  | setupNetwork _ | setupNetworkPost _ =>
    [.newSetting, .editSetting, .newSetup, .editSetup, .commit, .reset]
  | setupComplete | setupWelcomePost | setupBack _ | setupSkipMachine =>
    [.newSetup, .editSetup, .commit, .reset]
  | setupAdminPost _ =>
    [.newUser, .newSetup, .editSetup, .lastLogin, .passwordHash, .newSession, .commit, .reset]
  | createMachine _ => [.newMachine, .commit, .reset]
  | machineNewPost _ => [.newMachine, .newSetup, .editSetup, .commit, .reset]
  | updateMachine _ _ | machineEditPost _ _ => [.editMachine, .commit, .reset]
  | deleteMachine _ => [.dropMachine, .commit, .reset]
  | wakeMachine _ _ => [.newAttempt, .newJob, .commit, .reset]
  | wakeMachineDirect _ _ => [.touchToken, .newAttempt, .attemptStatus, .send, .commit, .reset]
  | settingsPost _ => [.newSetting, .editSetting, .commit, .reset]

section Routes
variable {P : Platform} {req : Request}

theorem uses_loginAdmitted {es : List Effect} {body : LoginRequest} (hl : .lastLogin ∈ es)
    (hp : .passwordHash ∈ es) (hs : .newSession ∈ es) :
    (Api.loginAdmitted P req body).Uses (Within es) := by
  refine Uses.bind (Uses.tryCatch (uses_login hl hp hs) fun exc => ?_) fun session =>
    Uses.bind (uses_await rfl) fun _ => uses_pure _
  split <;> simp

theorem uses_apiLogin {body : JsonBody LoginRequest} :
    (Api.login P req body).Uses
      (Within [.rate, .lastLogin, .passwordHash, .newSession, .commit, .reset]) :=
  uses_withBody (uses_pure _) (by simp) fun _ _ => Uses.bind (uses_effect rfl (by simp))
    fun _ => uses_loginAdmitted (by simp) (by simp) (by simp)

theorem uses_requireIncomplete {es : List Effect} (h : .newSetup ∈ es) :
    Api.requireIncomplete.Uses (Within es) := by
  refine Uses.bind (uses_isComplete h) fun complete => ?_
  split <;> simp

theorem uses_setupAdmin {body : JsonBody AdminCreateRequest} :
    (Api.setupAdmin body).Uses (Within [.newUser, .newSetup, .editSetup, .commit, .reset]) := by
  refine uses_withBody (uses_pure _) (by simp) fun _ body => ?_
  refine Uses.bind (uses_requireIncomplete (by simp)) fun _ => Uses.bind ?_ fun user => ?_
  · refine Uses.tryCatch (uses_createAdmin (by simp)) fun exc => ?_
    split <;> simp
  · exact Uses.bind (uses_advance (by simp) (by simp)) fun _ => uses_pure _

theorem uses_setupAdminPost {form : CredentialsForm} :
    (Web.setupAdminPost P req form).Uses (Within (Route.effects (.setupAdminPost form))) := by
  refine uses_withForm (by simp [Route.effects]) fun credentials => Uses.bind ?_ fun refused => ?_
  · refine Uses.tryCatch (Uses.bind (uses_createAdmin (by simp [Route.effects])) fun _ =>
      uses_pure _) fun exc => ?_
    split <;> simp
  · cases refused with
    | some message => exact uses_pure _
    | none =>
      refine Uses.bind (uses_advance (by simp [Route.effects]) (by simp [Route.effects]))
        fun _ => Uses.bind (uses_login ?_ ?_ ?_) fun _ => uses_pure _
      all_goals simp [Route.effects]

theorem uses_loginPost {form : CredentialsForm} :
    (Web.loginPost P req form).Uses (Within [.lastLogin, .passwordHash, .newSession, .commit, .reset]) := by
  refine uses_withForm (by simp) fun credentials => Uses.bind ?_ fun session => ?_
  · refine Uses.tryCatch (Uses.bind (uses_login (by simp) (by simp) (by simp)) fun _ =>
      uses_pure _) fun exc => ?_
    split <;> simp
  · cases session <;> exact uses_pure _

theorem uses_setupPage {step : String} :
    (Web.setupPage P step).Uses (Within [.newSetup, .commit, .reset]) := by
  refine uses_getDbSession (Uses.bind (uses_isComplete (by simp)) fun complete => ?_) (by simp)
  split
  · simp
  · refine Uses.bind (uses_setupGet (by simp)) fun state => ?_
    dsimp only
    split
    · simp
    · have index : ∀ s, (Web.stepIndex P s).Uses (Within [.newSetup, .commit, .reset]) := by
        intro s
        unfold Web.stepIndex
        split <;> simp
      refine Uses.bind (index step) fun wanted => Uses.bind (index _) fun current => ?_
      split <;> simp

theorem uses_machineNewPost {form : MachineForm} :
    (Web.machineNewPost req form).Uses
      (Within [.newMachine, .newSetup, .editSetup, .commit, .reset]) := by
  refine uses_withForm (by simp) fun fields => uses_withWebAuth fun _ => ?_
  refine Uses.bind uses_getCsrf fun csrf => Uses.bind ?_ fun error => ?_
  · exact Uses.tryCatch (Uses.bind (uses_machineCreate (by simp)) fun _ => uses_pure _)
      fun _ => uses_pure _
  · cases error with
    | some error => exact uses_pure _
    | none =>
      dsimp only
      split
      · exact Uses.bind (uses_advance (by simp) (by simp)) fun _ =>
          Uses.bind (uses_advance (by simp) (by simp)) fun _ => uses_pure _
      · exact uses_pure _

theorem uses_machineEditPost {machineId : String} {form : MachineForm} :
    (Web.machineEditPost req machineId form).Uses (Within [.editMachine, .commit, .reset]) := by
  refine uses_withForm (by simp) fun fields => uses_withWebAuth fun _ => ?_
  refine Uses.bind uses_getCsrf fun csrf => Uses.tryCatch ?_ fun exc => ?_
  · refine Uses.bind (uses_machineUpdate (by simp)) fun updated => ?_
    cases updated <;> exact uses_pure _
  · exact Uses.bind (uses_effect rfl (by simp)) fun _ =>
      Uses.bind uses_machineGetById fun _ => uses_pure _

theorem uses_wakeMachine {machineId : String} {body : JsonBody WakeRequest} :
    (Api.wakeMachine req machineId body).Uses (Within [.newAttempt, .newJob, .commit, .reset]) := by
  refine uses_withBody uses_csrfProtectedUser (by simp) fun user body => ?_
  refine Uses.bind uses_machineGetById fun found => ?_
  cases found with
  | none => exact uses_raise _
  | some machine =>
    refine Uses.bind (uses_attemptCreate (by simp)) fun attempt => Uses.bind ?_ fun _ => ?_
    · exact uses_effect rfl (by simp)
    · exact Uses.bind (uses_enqueue (by simp) (by simp)) fun _ => uses_pure _

theorem uses_wakeMachineDirect {machineId : String} {body : JsonBody WakeRequest} :
    (Api.wakeMachineDirect P req machineId body).Uses
      (Within [.touchToken, .newAttempt, .attemptStatus, .send, .commit, .reset]) := by
  refine uses_withBody (uses_getApiToken (by simp)) (by simp) fun token body => ?_
  refine Uses.bind (Uses.tryCatch (uses_wake (by simp) (by simp) (by simp)) fun exc => ?_)
    fun _ => uses_pure _
  split <;> simp

theorem uses_updateMachine {machineId : String} {body : JsonBody MachineUpdate} :
    (Api.updateMachine req machineId body).Uses (Within [.editMachine, .commit, .reset]) := by
  refine uses_withBody uses_csrfProtectedUser (by simp) fun _ body => ?_
  have answer : ∀ record, (Api.machineOr404 record).Uses (Within [.editMachine, .commit, .reset]) := by
    intro record
    cases record <;> simp [Api.machineOr404]
  split
  · exact Uses.bind uses_machineGetById answer
  · exact Uses.bind (uses_machineUpdate (by simp)) answer

theorem uses_machinePage {machineId : String} :
    (Web.machineEditPage req machineId).Uses (Within [.commit, .reset]) := by
  refine uses_getDbSession (uses_withWebAuth fun _ => ?_) (by simp)
  refine Uses.bind uses_machineGetById fun found => ?_
  cases found with
  | none => exact uses_pure _
  | some machine => exact Uses.bind uses_getCsrf fun _ => uses_pure _

theorem uses_raiseOr {es : List Effect} {α : Type} {x : Except PyExc α} :
    (Api.raiseOr x).Uses (Within es) := by
  cases x <;> simp [Api.raiseOr]

theorem uses_listInterfaces : (Api.listInterfaces P req).Uses (Within [.commit, .reset]) := by
  refine uses_getDbSession (Uses.bind uses_getCurrentUser fun _ => ?_) (by simp)
  refine Uses.bind (uses_await rfl) fun _ => Uses.bind (uses_await rfl) fun _ => ?_
  refine Uses.bind (uses_await rfl) fun _ => Uses.bind uses_raiseOr fun _ => ?_
  refine Uses.bind (uses_await rfl) fun _ => Uses.bind (uses_await rfl) fun _ => ?_
  exact Uses.bind (uses_await rfl) fun _ => uses_pure _

/-- Routes whose answer is read for a user of either credential. -/
theorem uses_authenticatedRead {answer : User → Code Response}
    (h : ∀ u, (answer u).Uses (Within [.touchToken, .commit, .reset])) :
    (getDbSession (getUserFromSessionOrToken P req >>= answer)).Uses
      (Within [.touchToken, .commit, .reset]) :=
  uses_getDbSession (Uses.bind (uses_getUserFromSessionOrToken (by simp)) h) (by simp)

/-- The code of a route has the effects of the route only. -/
theorem endpoint_within : (endpoint P req).Uses (Within req.route.effects) := by
  unfold endpoint
  cases req.route with
  | health => exact uses_pure _
  | apiLogin body => exact uses_apiLogin
  | apiLogout =>
    refine uses_getDbSession (Uses.bind uses_getCurrentSessionAndUser fun _ => ?_)
      (by simp [Route.effects])
    exact Uses.bind (uses_write rfl (by simp [Route.effects])) fun _ => uses_pure _
  | me => exact uses_authenticatedRead fun _ => uses_pure _
  | createToken body =>
    refine uses_withBody uses_csrfProtectedUser (by simp [Route.effects]) fun user body => ?_
    exact Uses.bind (uses_createApiToken (by simp [Route.effects])) fun _ => uses_pure _
  | listTokens machineId =>
    refine uses_getDbSession (Uses.bind uses_getCurrentUser fun _ => ?_) (by simp [Route.effects])
    cases machineId with
    | none => exact Uses.bind (uses_read rfl) fun _ => uses_pure _
    | some m => exact Uses.bind (uses_guardUuid (uses_read rfl)) fun _ => uses_pure _
  | revokeToken tokenId =>
    refine uses_getDbSession (Uses.bind uses_csrfProtectedUser fun _ => ?_)
      (by simp [Route.effects])
    exact Uses.bind (uses_write rfl (by simp [Route.effects])) fun _ => uses_pure _
  | setupStatus =>
    exact uses_getDbSession (Uses.bind (uses_setupGet (by simp [Route.effects])) fun _ =>
      uses_pure _) (by simp [Route.effects])
  | setupAdmin body => exact uses_setupAdmin
  | setupNetwork body =>
    refine uses_withBody (uses_pure _) (by simp [Route.effects]) fun _ body => ?_
    refine Uses.bind (uses_requireIncomplete (by simp [Route.effects])) fun _ => ?_
    refine Uses.bind (uses_saveNetwork (by simp [Route.effects]) (by simp [Route.effects]))
      fun _ => ?_
    exact Uses.bind (uses_advance (by simp [Route.effects]) (by simp [Route.effects]))
      fun _ => uses_pure _
  | setupComplete =>
    refine uses_getDbSession (Uses.bind (uses_requireIncomplete (by simp [Route.effects]))
      fun _ => ?_) (by simp [Route.effects])
    exact Uses.bind (uses_advance (by simp [Route.effects]) (by simp [Route.effects]))
      fun _ => uses_pure _
  | listInterfaces => exact uses_listInterfaces
  | discoverHosts =>
    refine uses_getDbSession (Uses.bind uses_getCurrentUser fun _ => ?_) (by simp [Route.effects])
    refine Uses.bind (uses_await rfl) fun _ => Uses.bind (uses_await rfl) fun _ => ?_
    exact Uses.bind uses_raiseOr fun _ => uses_pure _
  | listMachines enabledOnly =>
    refine uses_authenticatedRead fun _ => ?_
    split
    · exact uses_raise _
    · exact Uses.bind (uses_read rfl) fun _ => uses_pure _
  | createMachine body =>
    refine uses_withBody uses_csrfProtectedUser (by simp [Route.effects]) fun _ fields => ?_
    exact Uses.bind (uses_machineCreate (by simp [Route.effects])) fun _ => uses_pure _
  | getMachine machineId =>
    refine uses_authenticatedRead fun _ => Uses.bind uses_machineGetById fun record => ?_
    cases record <;> simp [Api.machineOr404]
  | updateMachine machineId body => exact uses_updateMachine
  | deleteMachine machineId =>
    refine uses_getDbSession (Uses.bind uses_csrfProtectedUser fun _ => ?_)
      (by simp [Route.effects])
    refine Uses.bind (uses_machineDelete (by simp [Route.effects])) fun deleted => ?_
    split <;> simp
  | wakeMachine machineId body => exact uses_wakeMachine
  | wakeMachineDirect machineId body => exact uses_wakeMachineDirect
  | getAttemptStatus machineId attemptId =>
    refine uses_authenticatedRead fun _ => Uses.bind uses_attemptGetById fun found => ?_
    cases found with
    | none => exact uses_raise _
    | some attempt => dsimp only; split <;> simp
  | machineStatus machineId =>
    refine uses_authenticatedRead fun _ => Uses.bind uses_machineGetById fun found => ?_
    cases found with
    | none => exact uses_raise _
    | some machine => exact Uses.bind uses_probeMachine fun _ => uses_pure _
  | root =>
    refine uses_getDbSession (Uses.bind (uses_isComplete (by simp [Route.effects])) fun c => ?_)
      (by simp [Route.effects])
    split
    · exact uses_pure _
    · exact Uses.bind (uses_setupGet (by simp [Route.effects])) fun _ => uses_pure _
  | setupPage step => exact uses_setupPage
  | setupWelcomePost =>
    exact uses_getDbSession (Uses.bind (uses_advance (by simp [Route.effects])
      (by simp [Route.effects])) fun _ => uses_pure _) (by simp [Route.effects])
  | setupAdminPost form => exact uses_setupAdminPost
  | setupNetworkPost form =>
    refine uses_withForm (by simp [Route.effects]) fun fields => ?_
    refine Uses.bind (uses_saveNetwork (by simp [Route.effects]) (by simp [Route.effects]))
      fun _ => ?_
    exact Uses.bind (uses_advance (by simp [Route.effects]) (by simp [Route.effects]))
      fun _ => uses_pure _
  | setupBack step =>
    exact uses_getDbSession (Uses.bind (uses_goBack (by simp [Route.effects])
      (by simp [Route.effects])) fun _ => uses_pure _) (by simp [Route.effects])
  | setupSkipMachine =>
    refine uses_getDbSession (Uses.bind (uses_advance (by simp [Route.effects])
      (by simp [Route.effects])) fun _ => ?_) (by simp [Route.effects])
    exact Uses.bind (uses_advance (by simp [Route.effects]) (by simp [Route.effects]))
      fun _ => uses_pure _
  | loginPage => exact uses_pure _
  | loginPost form => exact uses_loginPost
  | logoutPost =>
    refine uses_getDbSession (Uses.bind ?_ fun _ => uses_pure _) (by simp [Route.effects])
    unfold Web.revokeCookie
    dsimp only
    split
    · exact uses_pure _
    · exact Uses.tryCatch (uses_write rfl (by simp [Route.effects])) fun _ => uses_pure _
  | machinesPage =>
    refine uses_getDbSession (uses_withWebAuth fun _ => ?_) (by simp [Route.effects])
    exact Uses.bind (uses_read rfl) fun _ => Uses.bind uses_getCsrf fun _ => uses_pure _
  | machineNewPage =>
    exact uses_getDbSession (uses_withWebAuth fun _ => Uses.bind uses_getCsrf fun _ =>
      uses_pure _) (by simp [Route.effects])
  | machineNewPost form => exact uses_machineNewPost
  | machineEditPage machineId => exact uses_machinePage
  | machineEditPost machineId form => exact uses_machineEditPost
  | tokensPage =>
    refine uses_getDbSession (uses_withWebAuth fun _ => Uses.bind (uses_read rfl) fun _ => ?_)
      (by simp [Route.effects])
    exact Uses.bind uses_getCsrf fun _ => Uses.bind (uses_read rfl) fun _ => uses_pure _
  | sshSetupPage =>
    refine uses_getDbSession (uses_withWebAuth fun _ => Uses.bind (uses_read rfl) fun _ => ?_)
      (by simp [Route.effects])
    exact Uses.bind uses_getCsrf fun _ => Uses.bind (uses_read rfl) fun _ => uses_pure _
  | settingsPage =>
    refine uses_getDbSession (uses_withWebAuth fun _ => Uses.bind uses_settingsGetAll fun _ => ?_)
      (by simp [Route.effects])
    exact Uses.bind uses_getCsrf fun _ => uses_pure _
  | settingsPost form =>
    refine uses_withForm (by simp [Route.effects]) fun fields => uses_withWebAuth fun _ => ?_
    refine Uses.bind (uses_saveNetwork (by simp [Route.effects]) (by simp [Route.effects]))
      fun _ => ?_
    refine Uses.bind (uses_settingsSet (by simp [Route.effects]) (by simp [Route.effects]))
      fun _ => ?_
    refine Uses.bind (uses_settingsSet (by simp [Route.effects]) (by simp [Route.effects]))
      fun _ => ?_
    exact Uses.bind uses_settingsGetAll fun _ => Uses.bind uses_getCsrf fun _ => uses_pure _

/-- A request has the effects of its route only. -/
theorem handle_within : (handle P req).Uses (Within req.route.effects) :=
  Uses.tryCatch endpoint_within fun _ => uses_pure _

end Routes

end WolMonkey
