import WolMonkey.Facts.Accounts
import WolMonkey.Facts.Settings
import WolMonkey.Facts.Wizard

/-!
# After the setup is complete

Once `setup_state.completed` is set, a request without a live session should leave the
setup state, the accounts, the settings, the machines and the tokens alone. The JSON routes
of the wizard are guarded by `_require_incomplete`; the form routes are not. `reopens` names
the requests that get through, and `setup_lockdown` shows that no others do.
-/

namespace WolMonkey

open Programs Program

/-- The wizard is complete. -/
def Database.SetupComplete (db : Database) : Prop :=
  ∃ x, db.setupState = some x ∧ x.completed = true

/-- What no request without a live session may change: the times of the last use of a token
and of the last login, and rehashed passwords, are left out. -/
structure Guarded where
  setupState : Option SetupState
  settings : List Setting
  machines : List Machine
  tokens : List ApiToken
  users : List User
deriving DecidableEq

def Database.guarded (db : Database) : Guarded where
  setupState := db.setupState
  settings := db.settings
  machines := db.machines
  tokens := db.tokens.map fun t => { t with lastUsedAt := none }
  users := db.users.map fun u => { u with lastLoginAt := none, passwordHash := "" }

section Condition
variable (P : Platform)

/-- The user whose password a login request presents. -/
def loginOf (db : Database) (req : Request) : Option User :=
  let credentials := match req.route with
    | .apiLogin (.typed body) => some (body.username, body.password)
    | .loginPost form => form.read
    | _ => none
  credentials.bind fun (username, password) =>
    (db.users.find? (·.username == username)).filter fun u =>
      P.argon2Verify u.passwordHash password == .verified

/-- The users who log in during a run of requests. -/
def logins : List (Request × (Nat → Input)) → Shared → List Uuid
  | [], _ => []
  | (req, inputs) :: rest, sh =>
    ((loginOf P sh.db req).map (·.id)).toList ++ logins rest (serve P req inputs sh)

/-- The requests that a completed setup lets through: the form routes of the wizard, unless
they fail on what they are given or change nothing. -/
def reopens (db : Database) (req : Request) : Bool :=
  match req.route with
  | .setupWelcomePost => true
  | .setupNetworkPost form =>
    form.read.any fun f => db.settable "wake_interface" (.str f.wakeInterface) &&
      db.settable "default_wake_strategy" (.str f.defaultWakeStrategy)
  | .setupBack step => (wizardSteps.drop 1).contains step
  | .setupSkipMachine =>
    !(db.setup.currentStep == "complete" && db.setup.completedSteps.contains "first_machine" &&
      db.setup.completedSteps.contains "complete")
  | .setupAdminPost form =>
    db.users.isEmpty && (nullable P.inet req.clientHost).isSome && req.userAgent.all textOk &&
      form.read.any fun (username, _) => (varchar 150 username).isSome
  | _ => false

end Condition

/-! ## One request -/

/-- Effects that touch nothing guarded. -/
def harmless : List Effect :=
  [.lastLogin, .passwordHash, .newAttempt, .attemptStatus, .newSession, .endSession, .touchToken,
    .newJob, .jobRunning, .jobDone, .jobError, .send, .rate, .commit, .reset]

theorem untouched_guarded : Untouched (fun w => w.effect ∈ harmless) Database.guarded := by
  intro w db hw
  cases w <;> first
    | rfl
    | (simp [Write.effect, harmless] at hw; done)
    | skip
  all_goals
    simp only [Database.guarded, Write.apply, Guarded.mk.injEq, true_and, and_true]
    exact map_updateRows fun _ => rfl

/-- Harmless effects that touch no user either. -/
def userless : List Effect :=
  [.newAttempt, .attemptStatus, .newSession, .endSession, .touchToken, .newJob, .jobRunning,
    .jobDone, .jobError, .send, .rate, .commit, .reset]

/-- What one request may change once the setup is complete. -/
structure StaysLocked (P : Platform) (db db' : Database) (req : Request) : Prop where
  guarded : db'.guarded = db.guarded
  users : ∀ u ∈ db.users, (∀ v, loginOf P db req = some v → u.id ≠ v.id) → u ∈ db'.users

theorem StaysLocked.of_eq {P : Platform} {db db' : Database} {req : Request} (h : db' = db) :
    StaysLocked P db db' req := by
  subst h
  exact ⟨rfl, fun u hu _ => hu⟩

/-- A login touches the rows of its user only. -/
theorem mem_users_ofLogin {id : Uuid} {w : Write} (hw : w.OfLogin id) {u : User} (hu : u.id ≠ id)
    {db : Database} (hmem : u ∈ db.users) : u ∈ (w.apply db).users := by
  have hne : (u.id == id) = false := by simpa using hu
  cases w <;> try contradiction
  · rename_i i t
    obtain rfl : i = id := hw
    exact mem_updateRows.mpr ⟨u, hmem, by simp [hne]⟩
  · rename_i i h
    obtain rfl : i = id := hw
    exact mem_updateRows.mpr ⟨u, hmem, by simp [hne]⟩
  · exact hmem

theorem mem_users_after {id : Uuid} {ws : List Write} (hws : ∀ w ∈ ws, w.OfLogin id) {u : User}
    (hu : u.id ≠ id) {db : Database} (hmem : u ∈ db.users) : u ∈ (db.after ws).users := by
  induction ws generalizing db with
  | nil => exact hmem
  | cons w ws ih =>
    exact ih (fun v hv => hws v (List.mem_cons_of_mem _ hv))
      (mem_users_ofLogin (hws w List.mem_cons_self) hu hmem)

theorem effect_ofLogin {id : Uuid} {w : Write} (hw : w.OfLogin id) : w.effect ∈ harmless := by
  cases w <;> first
    | contradiction
    | simp [Write.effect, harmless]

section Step
variable {P : Platform} {inputs : Nat → Input} {req : Request} {sh : Shared}

/-- Routes whose code has none of the guarded effects. -/
theorem staysLocked_userless (h : ∀ e ∈ req.route.effects, e ∈ userless) :
    StaysLocked P sh.db (serve P req inputs sh).db req := by
  obtain ⟨ws, hws, hdb⟩ := serve_reaches (P := P) req inputs sh
  have hquiet : ∀ w ∈ ws, w.effect ∈ userless := fun w hw => h _ (hws w hw)
  have hsub : ∀ e ∈ userless, e ∈ harmless := by decide
  rw [hdb]
  refine ⟨untouched_guarded.after (fun w hw => hsub _ (hquiet w hw)) _, fun u hu _ => ?_⟩
  rw [(untouched_users (by decide) (by decide) (by decide)).after hquiet]
  exact hu

/-! ### Requests in their database session -/

section Session
variable (es : List Effect) {α β γ δ : Type}

/-- It is enough that a body which returns keeps the lock. -/
theorem staysLocked_getDbSession {body : Code α} (hb : body.Uses (Within es)) (hc : .commit ∉ es)
    (h : ∀ a s', body.Runs (soloExec P) (Solo.init inputs sh) a s' →
      StaysLocked P sh.db s'.view req) :
    StaysLocked P sh.db
      ((getDbSession body).eval (soloExec P) (Solo.init inputs sh)).2.shared.db req :=
  getDbSession_post (T := fun db => StaysLocked P sh.db db req) hb hc (.of_eq rfl) h

theorem staysLocked_withBody {body : JsonBody β} {validate : β → Option γ} {deps : Code δ}
    {endpoint : δ → γ → Code α} (hd : deps.Uses (Within es))
    (he : ∀ d c, (endpoint d c).Uses (Within es)) (hc : .commit ∉ es)
    (h : ∀ d s₁ b c a s', deps.Runs (soloExec P) (Solo.init inputs sh) d s₁ → body = .typed b →
      validate b = some c → (endpoint d c).Runs (soloExec P) s₁ a s' →
      StaysLocked P sh.db s'.view req) :
    StaysLocked P sh.db ((withBody body validate deps endpoint).eval (soloExec P)
      (Solo.init inputs sh)).2.shared.db req :=
  withBody_post _ (T := fun db => StaysLocked P sh.db db req) hd he hc (.of_eq rfl) h

theorem staysLocked_withForm {form : Option γ} {endpoint : γ → Code α}
    (he : ∀ c, (endpoint c).Uses (Within es)) (hc : .commit ∉ es)
    (h : ∀ c a s', form = some c →
      (endpoint c).Runs (soloExec P) (Solo.init inputs sh) a s' →
      StaysLocked P sh.db s'.view req) :
    StaysLocked P sh.db ((withForm form endpoint).eval (soloExec P)
      (Solo.init inputs sh)).2.shared.db req :=
  withForm_post _ (T := fun db => StaysLocked P sh.db db req) he hc (.of_eq rfl) h

theorem StaysLocked.of_same {s' : Solo} (h : (Solo.init inputs sh).Same s') :
    StaysLocked P sh.db s'.view req := .of_eq h.view

end Session

/-! ### Guards that let nothing through -/

theorem setup_of_complete {db : Database} (h : db.SetupComplete) :
    db.setup.completed = true ∧ db.withSetup db.setup = db := by
  obtain ⟨x, hx, hcompleted⟩ := h
  have hsetup : db.setup = x := by rw [Database.setup, hx, Option.getD_some]
  rw [hsetup]
  exact ⟨hcompleted, Database.withSetup_eq_self hx⟩

/-- `_require_incomplete` lets nothing through. -/
theorem incomplete_blocked {s : Solo} (hcomplete : s.view.SetupComplete) (u : Unit) (s' : Solo) :
    ¬ Api.requireIncomplete.Runs (soloExec P) s u s' := by
  intro h
  obtain ⟨complete, s₁, hget, h⟩ := runs_bind.mp h
  obtain ⟨rfl, -⟩ := runs_isComplete hget
  rw [(setup_of_complete hcomplete).1] at h
  exact (runs_raise.mp h).elim

/-- A JSON route of the wizard. -/
theorem staysLocked_incomplete (es : List Effect) {α β γ : Type} {body : JsonBody β}
    {validate : β → Option γ} {endpoint : γ → Unit → Code α} (hcomplete : sh.db.SetupComplete)
    (he : ∀ c u, (endpoint c u).Uses (Within es)) (hnew : .newSetup ∈ es) (hc : .commit ∉ es) :
    StaysLocked P sh.db ((withBody body validate (Pure.pure ()) fun (_ : Unit) c =>
      Api.requireIncomplete >>= endpoint c).eval (soloExec P) (Solo.init inputs sh)).2.shared.db
      req := by
  refine staysLocked_withBody es (uses_pure ())
    (fun _ c => Uses.bind (uses_requireIncomplete hnew) (he c)) hc
    fun d s₁ b c a s' hdeps _ _ hrun => ?_
  obtain ⟨-, rfl⟩ := runs_pure.mp hdeps
  obtain ⟨u, s₂, hinc, -⟩ := runs_bind.mp hrun
  exact (incomplete_blocked (s := Solo.init inputs sh) hcomplete u s₂ hinc).elim

/-! ### Logins -/

/-- A login that returns leaves everything guarded, and the rows of other users. -/
theorem staysLocked_login {username password : String} {ip userAgent : Option String}
    {session : Session} {s s' : Solo} (hsame : (Solo.init inputs sh).Same s)
    (hlogin : loginOf P sh.db req = (sh.db.users.find? (·.username == username)).filter
      fun u => P.argon2Verify u.passwordHash password == .verified)
    (h : (AuthService.login P username password ip userAgent).Runs (soloExec P) s session s') :
    StaysLocked P sh.db s'.view req := by
  obtain ⟨user, hfind, hverified, ⟨hshared, ws, hwrites, hws⟩, -⟩ := runs_login h
  have hview : s'.view = sh.db.after ws := by
    rw [Solo.view, hshared, hwrites, hsame.db, hsame.writes]
    rfl
  have hof : loginOf P sh.db req = some user := by
    rw [hsame.view, Solo.view_init] at hfind
    rw [hlogin, hfind]
    simp [hverified]
  rw [hview]
  refine ⟨untouched_guarded.after (fun w hw => effect_ofLogin (hws w hw)) _, fun u hu hne => ?_⟩
  exact mem_users_after hws (hne user hof) hu

theorem runs_checkLoginRate {ip : String} {u : Unit} {s s' : Solo}
    (h : (await (.checkLoginRate ip)).Runs (soloExec P) s u s') : s.Same s' := by
  unfold await at h
  rw [runs_perform] at h
  obtain rfl := (congrArg Prod.snd h).symm
  exact ⟨rfl, rfl⟩

theorem staysLocked_apiLogin {body : JsonBody LoginRequest} (hroute : req.route = .apiLogin body) :
    StaysLocked P sh.db
      ((Api.login P req body).eval (soloExec P) (Solo.init inputs sh)).2.shared.db req := by
  refine staysLocked_withBody [.rate, .lastLogin, .passwordHash, .newSession]
    (uses_pure ()) (fun _ body => ?_) (by simp) fun d s₁ b c r s' hdeps hbody hvalid hrun => ?_
  · exact Uses.bind (uses_effect rfl (by simp)) fun _ =>
      uses_loginAdmitted (by simp) (by simp) (by simp)
  · obtain ⟨-, rfl⟩ := runs_pure.mp hdeps
    obtain ⟨u, s₁, hrate, hrun⟩ := runs_bind.mp hrun
    obtain ⟨session, s₂, hlogin, hrun⟩ := runs_bind.mp hrun
    obtain ⟨csrf, s₃, hcsrf, hrun⟩ := runs_bind.mp hrun
    obtain ⟨-, rfl⟩ := runs_pure.mp hrun
    rw [(Runs.same (uses_await rfl) hcsrf).view]
    rcases runs_tryCatch.mp hlogin with hlogin | ⟨e, s₂, -, hraise⟩
    · refine staysLocked_login (runs_checkLoginRate hrate) ?_ hlogin
      subst hbody
      obtain ⟨-, hc⟩ := Option.ite_none_right_eq_some.mp hvalid
      cases hc
      simp [loginOf, hroute]
    · split at hraise <;> exact (runs_raise.mp hraise).elim

theorem staysLocked_loginPost {form : CredentialsForm} (hroute : req.route = .loginPost form) :
    StaysLocked P sh.db
      ((Web.loginPost P req form).eval (soloExec P) (Solo.init inputs sh)).2.shared.db req := by
  refine staysLocked_withForm [.lastLogin, .passwordHash, .newSession]
    (fun credentials => Uses.bind ?_ fun session => ?_) (by simp)
    fun c r s' hform hrun => ?_
  · refine Uses.tryCatch (Uses.bind (uses_login (by simp) (by simp) (by simp)) fun _ =>
      uses_pure _) fun exc => ?_
    split <;> simp
  · cases session <;> exact uses_pure _
  · obtain ⟨username, password⟩ := c
    obtain ⟨found, s₁, hlogin, hrun⟩ := runs_bind.mp hrun
    have hend : s' = s₁ := by
      cases found <;> exact (runs_pure.mp hrun).2.symm
    subst hend
    rcases runs_tryCatch.mp hlogin with hlogin | ⟨e, s₂, hraised, hrun⟩
    · obtain ⟨session, s₂, hopened, hret⟩ := runs_bind.mp hlogin
      obtain ⟨-, rfl⟩ := runs_pure.mp hret
      refine staysLocked_login (.refl _) ?_ hopened
      simp [loginOf, hroute, hform]
    · split at hrun
      · obtain ⟨-, rfl⟩ := runs_pure.mp hrun
        rcases eval_bind_raised.mp hraised with hraised | ⟨session, s₃, -, hraised⟩
        · exact .of_same (login_refused hraised)
        · cases hraised
      · exact (runs_raise.mp hrun).elim

/-! ### Form routes of the wizard -/

theorem staysLocked_setupBack {step : String} (hroute : req.route = .setupBack step)
    (hcomplete : sh.db.SetupComplete) (hclosed : reopens P sh.db req = false) :
    StaysLocked P sh.db
      ((Web.setupBack step).eval (soloExec P) (Solo.init inputs sh)).2.shared.db req := by
  refine staysLocked_getDbSession [.newSetup, .editSetup]
    (Uses.bind (uses_goBack (by simp) (by simp)) fun _ => uses_pure _) (by simp)
    fun a s' hrun => ?_
  obtain ⟨prev, s₁, hback, hrun⟩ := runs_bind.mp hrun
  obtain ⟨-, rfl⟩ := runs_pure.mp hrun
  refine .of_eq ?_
  rw [runs_goBack hback, Solo.view_init, retreated_eq_self, (setup_of_complete hcomplete).2]
  simpa only [reopens, hroute] using hclosed

/-- Skipping the first machine again, at the end of the wizard. -/
theorem advanced_eq_self {x : SetupState} (hcompleted : x.completed = true)
    (hstep : x.currentStep = "complete") (hfirst : x.completedSteps.contains "first_machine" = true)
    (hlast : x.completedSteps.contains "complete" = true) :
    (x.advanced "first_machine").advanced "complete" = x := by
  have hmark : SetupStateService.markStep x.completedSteps "first_machine" = x.completedSteps := by
    rw [SetupStateService.markStep, hfirst]
    rfl
  have hmark' : SetupStateService.markStep x.completedSteps "complete" = x.completedSteps := by
    rw [SetupStateService.markStep, hlast]
    rfl
  obtain ⟨completed, currentStep, completedSteps⟩ := x
  subst hcompleted hstep
  simp only [SetupState.advanced, hmark, hmark', beq_self_eq_true, if_true]

theorem staysLocked_setupSkipMachine (hroute : req.route = .setupSkipMachine)
    (hcomplete : sh.db.SetupComplete) (hclosed : reopens P sh.db req = false) :
    StaysLocked P sh.db
      (Web.setupSkipMachine.eval (soloExec P) (Solo.init inputs sh)).2.shared.db req := by
  refine staysLocked_getDbSession [.newSetup, .editSetup]
    (Uses.bind (uses_advance (by simp) (by simp)) fun _ => Uses.bind
      (uses_advance (by simp) (by simp)) fun _ => uses_pure _) (by simp) fun a s' hrun => ?_
  obtain ⟨u₁, s₁, hfirst, hrun⟩ := runs_bind.mp hrun
  obtain ⟨u₂, s₂, hlast, hrun⟩ := runs_bind.mp hrun
  obtain ⟨-, rfl⟩ := runs_pure.mp hrun
  refine .of_eq ?_
  have hsetup : (sh.db.setup.advanced "first_machine").advanced "complete" = sh.db.setup := by
    simp only [reopens, hroute, Bool.not_eq_false', Bool.and_eq_true, beq_iff_eq] at hclosed
    obtain ⟨⟨hstep, hfirst⟩, hlast⟩ := hclosed
    exact advanced_eq_self (setup_of_complete hcomplete).1 hstep hfirst hlast
  rw [runs_advance_of_mem (by decide) hlast, runs_advance_of_mem (by decide) hfirst,
    Solo.view_init, Database.setup_withSetup, Database.withSetup_withSetup, hsetup,
    (setup_of_complete hcomplete).2]

theorem staysLocked_setupNetworkPost {form : NetworkForm}
    (hroute : req.route = .setupNetworkPost form) (hclosed : reopens P sh.db req = false) :
    StaysLocked P sh.db
      ((Web.setupNetworkPost form).eval (soloExec P) (Solo.init inputs sh)).2.shared.db req := by
  refine staysLocked_withForm [.newSetting, .editSetting, .newSetup, .editSetup]
    (fun fields => Uses.bind (uses_saveNetwork (by simp) (by simp)) fun _ => Uses.bind
      (uses_advance (by simp) (by simp)) fun _ => uses_pure _) (by simp)
    fun fields a s' hform hrun => ?_
  obtain ⟨u, s₁, hsave, -⟩ := runs_bind.mp hrun
  obtain ⟨hinterface, hstrategy⟩ := runs_saveNetwork hsave
  rw [Solo.view_init] at hinterface hstrategy
  simp [reopens, hroute, hform, hinterface, hstrategy] at hclosed

theorem staysLocked_setupAdminPost {form : CredentialsForm}
    (hroute : req.route = .setupAdminPost form) (hclosed : reopens P sh.db req = false) :
    StaysLocked P sh.db
      ((Web.setupAdminPost P req form).eval (soloExec P) (Solo.init inputs sh)).2.shared.db req := by
  refine staysLocked_withForm
    [.newUser, .newSetup, .editSetup, .lastLogin, .passwordHash, .newSession]
    (fun credentials => Uses.bind ?_ fun refused => ?_) (by simp) fun c a s' hform hrun => ?_
  · refine Uses.tryCatch (Uses.bind (uses_createAdmin (by simp)) fun _ => uses_pure _)
      fun exc => ?_
    split <;> simp
  · cases refused with
    | some message => exact uses_pure _
    | none =>
      exact Uses.bind (uses_advance (by simp) (by simp)) fun _ =>
        Uses.bind (uses_login (by simp) (by simp) (by simp)) fun _ => uses_pure _
  · obtain ⟨username, password⟩ := c
    obtain ⟨refused, s₁, hcreate, hrun⟩ := runs_bind.mp hrun
    rcases runs_tryCatch.mp hcreate with hcreate | ⟨e, s₂, hraised, hcatch⟩
    · -- the account was created, so the login that follows refutes the condition
      obtain ⟨user, s₂, hcreated, hret⟩ := runs_bind.mp hcreate
      obtain ⟨rfl, rfl⟩ := runs_pure.mp hret
      obtain ⟨hempty, hname⟩ := runs_createAdmin hcreated
      obtain ⟨u, s₃, -, hrun⟩ := runs_bind.mp hrun
      obtain ⟨session, s₄, hlogin, -⟩ := runs_bind.mp hrun
      obtain ⟨-, -, -, -, hip, hagent⟩ := runs_login hlogin
      rw [Solo.view_init] at hempty
      simp [reopens, hroute, hform, hempty, hname, hip, hagent] at hclosed
    · split at hcatch
      · obtain ⟨rfl, rfl⟩ := runs_pure.mp hcatch
        obtain ⟨-, rfl⟩ := runs_pure.mp hrun
        rcases eval_bind_raised.mp hraised with hraised | ⟨user, s₃, -, hraised⟩
        · exact .of_same (createAdmin_refused hraised)
        · cases hraised
      · exact (runs_raise.mp hcatch).elim

/-- One request, once the setup is complete. -/
theorem serve_staysLocked (hcomplete : sh.db.SetupComplete)
    (hlive : NoLiveCookie sh.db inputs req) (hclosed : reopens P sh.db req = false) :
    StaysLocked P sh.db (serve P req inputs sh).db req := by
  have hsome : sh.db.setupState.isSome = true := by
    obtain ⟨x, hx, -⟩ := hcomplete
    rw [hx]
    rfl
  have hserve : ∀ {code : Code Response}, endpoint P req = code →
      StaysLocked P sh.db (code.eval (soloExec P) (Solo.init inputs sh)).2.shared.db req →
      StaysLocked P sh.db (serve P req inputs sh).db req := by
    rintro code rfl h
    rwa [serve_eq]
  by_cases huserless : ∀ e ∈ req.route.effects, e ∈ userless
  · exact staysLocked_userless huserless
  by_cases hidle : ∀ e ∈ req.route.effects, e ∈ [.newSetup, .commit, .reset]
  · exact .of_eq (serve_idle hidle hsome)
  cases hroute : req.route
  all_goals first
    | (exfalso; simp [hroute, Route.effects, userless] at huserless; done)
    | (exfalso; simp [hroute, Route.effects] at hidle; done)
    | refine hserve (by rw [endpoint, hroute]) ?_
  case apiLogin body => exact staysLocked_apiLogin hroute
  case loginPost form => exact staysLocked_loginPost hroute
  case createToken body => exact .of_eq (withBody_csrf_blocked hlive)
  case revokeToken tokenId => exact .of_eq (getDbSession_csrf_blocked hlive)
  case setupAdmin body =>
    refine staysLocked_incomplete [.newUser, .newSetup, .editSetup] hcomplete (fun body _ =>
      Uses.bind (Uses.tryCatch (uses_createAdmin (by simp)) fun exc => ?_) fun _ =>
      Uses.bind (uses_advance (by simp) (by simp)) fun _ => uses_pure _) (by simp) (by simp)
    split <;> simp
  case setupNetwork body =>
    exact staysLocked_incomplete [.newSetting, .editSetting, .newSetup, .editSetup] hcomplete
      (fun body _ => Uses.bind (uses_saveNetwork (by simp) (by simp)) fun _ =>
      Uses.bind (uses_advance (by simp) (by simp)) fun _ => uses_pure _) (by simp) (by simp)
  case setupComplete =>
    have hguard : Api.requireIncomplete.Uses (Within [.newSetup]) :=
      uses_requireIncomplete (by simp)
    exact .of_eq (getDbSession_blocked hguard (by simp) (incomplete_blocked hcomplete))
  case createMachine body => exact .of_eq (withBody_csrf_blocked hlive)
  case updateMachine machineId body => exact .of_eq (withBody_csrf_blocked hlive)
  case deleteMachine machineId => exact .of_eq (getDbSession_csrf_blocked hlive)
  case setupWelcomePost => simp [reopens, hroute] at hclosed
  case setupAdminPost form => exact staysLocked_setupAdminPost hroute hclosed
  case setupNetworkPost form => exact staysLocked_setupNetworkPost hroute hclosed
  case setupBack step => exact staysLocked_setupBack hroute hcomplete hclosed
  case setupSkipMachine => exact staysLocked_setupSkipMachine hroute hcomplete hclosed
  case machineNewPost form => exact .of_eq (withForm_webAuth_blocked hlive)
  case machineEditPost machineId form => exact .of_eq (withForm_webAuth_blocked hlive)
  case settingsPost form => exact .of_eq (withForm_webAuth_blocked hlive)

end Step

/-! ## Runs -/

theorem StaysLocked.complete {P : Platform} {db db' : Database} {req : Request}
    (h : StaysLocked P db db' req) (hcomplete : db.SetupComplete) : db'.SetupComplete := by
  obtain ⟨x, hx, hcompleted⟩ := hcomplete
  exact ⟨x, (congrArg Guarded.setupState h.guarded).trans hx, hcompleted⟩

theorem notMem_logins_cons {P : Platform} {req : Request} {inputs : Nat → Input}
    {rest : List (Request × (Nat → Input))} {sh : Shared} {id : Uuid}
    (h : id ∉ logins P ((req, inputs) :: rest) sh) :
    (∀ v, loginOf P sh.db req = some v → id ≠ v.id) ∧
      id ∉ logins P rest (serve P req inputs sh) := by
  rw [logins, List.mem_append, not_or] at h
  refine ⟨fun v hv => ?_, h.2⟩
  rintro rfl
  exact h.1 (by rw [hv]; simp)

/-- Setup lockdown. Once the setup is complete, requests without a live session leave the
setup state, the settings, the machines, the tokens and the accounts as they are, as long
as none of them is a form request of the wizard that gets through. Only the time of the
last login and the hash of a password change, for users who log in. -/
theorem setup_lockdown (P : Platform) (run : List (Request × (Nat → Input))) (sh : Shared)
    (hcomplete : sh.db.SetupComplete)
    (hrun : Throughout P (fun sh req inputs =>
      NoLiveCookie sh.db inputs req ∧ reopens P sh.db req = false) run sh) :
    (serveAll P run sh).db.SetupComplete ∧
      (serveAll P run sh).db.guarded = sh.db.guarded ∧
      ∀ u ∈ sh.db.users, u.id ∉ logins P run sh → u ∈ (serveAll P run sh).db.users := by
  induction run generalizing sh with
  | nil => exact ⟨hcomplete, rfl, fun u hu _ => hu⟩
  | cons step rest ih =>
    obtain ⟨req, inputs⟩ := step
    obtain ⟨⟨hlive, hclosed⟩, hrest⟩ := hrun
    have hstep := serve_staysLocked (P := P) hcomplete hlive hclosed
    obtain ⟨hcomplete', hguarded, husers⟩ := ih _ (hstep.complete hcomplete) hrest
    refine ⟨hcomplete', hguarded.trans hstep.guarded, fun u hu hid => ?_⟩
    obtain ⟨hnot, hlater⟩ := notMem_logins_cons hid
    exact husers u (hstep.users u hu hnot) hlater

/-- The wizard's JSON routes, a step without a predecessor and a login that is refused. -/
theorem setup_lockdown_sample :
    let sh := serveAll Platform.sample [({ route := .setupComplete }, Input.quiet)] Shared.fresh
    let run : List (Request × (Nat → Input)) :=
      [({ route := .setupNetwork (.typed {}) }, Input.quiet),
        ({ route := .setupBack "welcome" }, Input.quiet),
        ({ route := .apiLogin (.typed ⟨"admin", Platform.samplePassword⟩) }, Input.quiet)]
    (serveAll Platform.sample run sh).db.guarded = sh.db.guarded := by
  intro sh run
  have hcomplete : sh.db.SetupComplete := ⟨⟨true, "complete", ["complete"]⟩, by decide +kernel⟩
  refine (setup_lockdown Platform.sample run sh hcomplete ?_).2.1
  refine ⟨⟨nofun, ?_⟩, ⟨nofun, ?_⟩, ⟨nofun, ?_⟩, trivial⟩ <;> decide +kernel

/-- Without the condition the setup does not stay locked: one request without a cookie
takes the flag back. -/
theorem setup_reopens :
    ¬ ∀ before run : List (Request × (Nat → Input)),
      let sh := serveAll Platform.sample before Shared.fresh
      sh.db.SetupComplete →
        Throughout Platform.sample (fun sh req inputs => NoLiveCookie sh.db inputs req) run sh →
          (serveAll Platform.sample run sh).db.setupState = sh.db.setupState := by
  intro h
  have hrun := h [({ route := .setupComplete }, Input.quiet)]
    [({ route := .setupWelcomePost }, Input.quiet)]
    ⟨⟨true, "complete", ["complete"]⟩, by decide +kernel⟩ ⟨nofun, trivial⟩
  exact absurd hrun (by decide +kernel)

end WolMonkey
