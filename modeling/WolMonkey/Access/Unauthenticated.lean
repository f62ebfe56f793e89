import WolMonkey.Facts.Outsiders
import WolMonkey.Wake.FailureRecord

/-!
# Requests without a credential

A request without a live session cookie and without a live bearer token is answered in the
same way whatever machines, wake attempts, jobs, tokens and settings there are, and it
neither adds an attempt or a job nor sends a packet.
-/

namespace WolMonkey

open Programs Program

section Guards
variable {P : Platform} {req : Request} {inputs : Nat → Input} {sh sh' : Shared}

/-- The request starts on indistinct tables, and its cookie names no live session. -/
structure Outside (P : Platform) (req : Request) (inputs : Nat → Input) (sh sh' : Shared) :
    Prop where
  indistinct : (Solo.init inputs sh).Indistinct P req (Solo.init inputs sh')
  cookie : NoLiveCookie sh.db inputs req

/-- Both runs of the code end the same way. -/
abbrev SameEnd (P : Platform) (req : Request) (inputs : Nat → Input) (sh sh' : Shared) {α : Type}
    (p : Code α) : Prop :=
  UniformAt (soloExec P) (Solo.Indistinct P req) p (Solo.init inputs sh) (Solo.init inputs sh')

variable {α β : Type}

/-! ## Guards -/

theorem Outside.blind (h : Outside P req inputs sh sh') {p : Code α} (hp : Blind P req p) :
    SameEnd P req inputs sh sh' p := uniform_iff.mp hp _ _ h.indistinct

theorem Outside.session (h : Outside P req inputs sh sh') {f : Session × User → Code α} :
    SameEnd P req inputs sh sh' (getCurrentSessionAndUser req >>= f) :=
  (h.blind blind_getCurrentSessionAndUser).blocked (session_blocked h.cookie)

theorem Outside.currentUser (h : Outside P req inputs sh sh') {f : User → Code α} :
    SameEnd P req inputs sh sh' (getCurrentUser req >>= f) := by
  refine UniformAt.blocked h.session fun u s' hrun => ?_
  obtain ⟨su, s₁, hsession, -⟩ := runs_bind.mp hrun
  exact session_blocked h.cookie su s₁ hsession

theorem Outside.csrf (h : Outside P req inputs sh sh') {f : User → Code α} :
    SameEnd P req inputs sh sh' (csrfProtectedUser req >>= f) :=
  UniformAt.blocked h.session (csrf_blocked h.cookie)

theorem Outside.apiToken (h : Outside P req inputs sh sh') {f : ApiToken → Code α} :
    SameEnd P req inputs sh sh' (getApiToken P req >>= f) :=
  (h.blind blind_getApiToken).blocked fun _ _ => not_runs_getApiToken h.indistinct.view.bearer.1

/-- Neither credential gives a user. -/
theorem Outside.either (h : Outside P req inputs sh sh') {f : User → Code α} :
    SameEnd P req inputs sh sh' (getUserFromSessionOrToken P req >>= f) := by
  have hsession : SameEnd P req inputs sh sh' (sessionUser? req) := h.blind blind_sessionUser?
  refine Alike.bind (Q := fun _ _ _ _ => False) ?_ fun _ _ _ _ hno => hno.elim
  refine Alike.bind (Alike.with_runs hsession) ?_
  rintro found found' s t ⟨⟨rfl, hst⟩, hrun⟩
  have hnone : found = none := by
    refine Option.eq_none_iff_forall_ne_some.mpr fun user hfound => ?_
    rw [hfound] at hrun
    obtain ⟨cookie, session, n, hcookie, hlive⟩ := runs_sessionUser? hrun
    exact h.cookie n cookie session user hcookie hlive
  subst hnone
  refine Alike.bind (alike_tokenUser? hst) ?_
  rintro a b s t ⟨⟨rfl, rfl⟩, hst⟩
  exact alike_raise.mpr ⟨rfl, hst⟩

/-- A page behind the login sends both runs to the login page. -/
theorem Outside.webAuth (h : Outside P req inputs sh sh') {page : User → Code Response} :
    SameEnd P req inputs sh sh' (Web.withWebAuth req page) := by
  refine Alike.bind (Alike.with_runs (h.blind blind_requireWebAuth)) ?_
  rintro found found' s t ⟨⟨rfl, hst⟩, hrun⟩
  cases found with
  | none => exact uniformAt_pure hst _
  | some user =>
    obtain ⟨cookie, hcookie, session, n, hlive⟩ := (runs_requireWebAuth hrun).2 user rfl
    exact (h.cookie n cookie session user hcookie hlive).elim

theorem Outside.withForm (h : Outside P req inputs sh sh') {γ : Type} {form : Option γ}
    {handler : γ → Code α} (hform : ∀ c, SameEnd P req inputs sh sh' (handler c)) :
    SameEnd P req inputs sh sh' (WolMonkey.withForm form handler) := by
  refine uniformAt_getDbSession ?_
  cases form with
  | none => exact uniformAt_raise h.indistinct _
  | some c => exact hform c

/-! ## Routes -/

theorem blind_apiLogin {body : LoginRequest} :
    Blind P req (await (.checkLoginRate (Api.loginIp req)) >>= fun _ =>
      Api.loginAdmitted P req body) := by
  refine Uniform.bind (blind_checkLoginRate _) fun _ => Uniform.bind ?_ fun session => ?_
  · refine Uniform.tryCatch blind_login fun exc => ?_
    split <;> exact uniform_raise _
  · exact Uniform.bind (blind_ask (.csrfDumps session.id.text session.csrfSecret)
      (fun inp => P.csrfDumps inp.now session.id.text session.csrfSecret) fun _ _ _ => rfl)
      fun _ => uniform_pure _

theorem blind_stepIndex {step : String} : Blind P req (Web.stepIndex P step) := by
  unfold Web.stepIndex
  split
  · exact uniform_pure _
  · exact uniform_raise _

/-- The code of every route ends the same way. -/
theorem Outside.endpoint (h : Outside P req inputs sh sh') :
    SameEnd P req inputs sh sh' (endpoint P req) := by
  have hguarded : ∀ {β γ : Type} {body : JsonBody β} {validate : β → Option γ}
      {f : User → γ → Code Response},
      SameEnd P req inputs sh sh' (withBody body validate (csrfProtectedUser req) f) :=
    uniformAt_withBody h.indistinct fun _ _ => h.csrf
  have hopen : ∀ {β γ : Type} {body : JsonBody β} {validate : β → Option γ}
      {f : γ → Code Response}, (∀ c, Blind P req (f c)) →
      SameEnd P req inputs sh sh' (withBody body validate (Pure.pure ()) fun _ c => f c) := by
    intro β γ body validate f hf
    refine uniformAt_withBody h.indistinct fun next hnext => h.blind ?_
    refine Uniform.bind (uniform_pure ()) fun u => ?_
    rcases hnext with hnext | ⟨c, rfl⟩
    · rw [hnext]
      exact uniform_raise _
    · exact hf c
  have hvisible : ∀ {p : Code Response}, Blind P req p →
      SameEnd P req inputs sh sh' (getDbSession p) := fun hp => uniformAt_getDbSession (h.blind hp)
  unfold WolMonkey.endpoint
  cases req.route with
  | health => exact uniformAt_pure h.indistinct _
  | loginPage => exact uniformAt_pure h.indistinct _
  | apiLogin body => exact hopen fun _ => blind_apiLogin
  | loginPost form =>
    refine h.withForm fun fields => h.blind (Uniform.bind (Uniform.tryCatch
      (Uniform.bind blind_login fun _ => uniform_pure _) fun exc => ?_) fun session => ?_)
    · split
      · exact uniform_pure _
      · exact uniform_raise _
    · cases session <;> exact uniform_pure _
  | apiLogout => exact uniformAt_getDbSession h.session
  | me => exact uniformAt_getDbSession h.either
  | createToken body => exact hguarded
  | listTokens machineId => exact uniformAt_getDbSession h.currentUser
  | revokeToken tokenId => exact uniformAt_getDbSession h.csrf
  | setupStatus => exact hvisible (Uniform.bind blind_setupGet fun _ => uniform_pure _)
  | setupAdmin body =>
    refine hopen fun body => Uniform.bind blind_requireIncomplete fun _ =>
      Uniform.bind (Uniform.tryCatch blind_createAdmin fun exc => ?_) fun _ =>
      Uniform.bind blind_advance fun _ => uniform_pure _
    split <;> exact uniform_raise _
  | setupNetwork body =>
    exact hopen fun body => Uniform.bind blind_requireIncomplete fun _ =>
      Uniform.bind blind_saveNetwork fun _ => Uniform.bind blind_advance fun _ => uniform_pure _
  | setupComplete =>
    exact hvisible (Uniform.bind blind_requireIncomplete fun _ =>
      Uniform.bind blind_advance fun _ => uniform_pure _)
  | listInterfaces => exact uniformAt_getDbSession h.currentUser
  | discoverHosts => exact uniformAt_getDbSession h.currentUser
  | listMachines enabledOnly => exact uniformAt_getDbSession h.either
  | createMachine body => exact hguarded
  | getMachine machineId => exact uniformAt_getDbSession h.either
  | updateMachine machineId body => exact hguarded
  | deleteMachine machineId => exact uniformAt_getDbSession h.csrf
  | wakeMachine machineId body => exact hguarded
  | wakeMachineDirect machineId body => exact uniformAt_withBody h.indistinct fun _ _ => h.apiToken
  | getAttemptStatus machineId attemptId => exact uniformAt_getDbSession h.either
  | machineStatus machineId => exact uniformAt_getDbSession h.either
  | root =>
    refine hvisible (Uniform.bind blind_isComplete fun complete => ?_)
    split
    · exact uniform_pure _
    · exact Uniform.bind blind_setupGet fun _ => uniform_pure _
  | setupPage step =>
    refine hvisible (Uniform.bind blind_isComplete fun complete => ?_)
    split
    · exact uniform_pure _
    refine Uniform.bind blind_setupGet fun state => ?_
    dsimp only
    split
    · exact uniform_pure _
    refine Uniform.bind blind_stepIndex fun wanted => Uniform.bind blind_stepIndex fun current => ?_
    split <;> exact uniform_pure _
  | setupWelcomePost =>
    exact hvisible (Uniform.bind blind_advance fun _ => uniform_pure _)
  | setupAdminPost form =>
    refine h.withForm fun fields => h.blind (Uniform.bind (Uniform.tryCatch
      (Uniform.bind blind_createAdmin fun _ => uniform_pure _) fun exc => ?_) fun refused => ?_)
    · split
      · exact uniform_pure _
      · exact uniform_raise _
    · cases refused with
      | some message => exact uniform_pure _
      | none =>
        exact Uniform.bind blind_advance fun _ => Uniform.bind blind_login fun _ => uniform_pure _
  | setupNetworkPost form =>
    exact h.withForm fun fields => h.blind (Uniform.bind blind_saveNetwork fun _ =>
      Uniform.bind blind_advance fun _ => uniform_pure _)
  | setupBack step => exact hvisible (Uniform.bind blind_goBack fun _ => uniform_pure _)
  | setupSkipMachine =>
    exact hvisible (Uniform.bind blind_advance fun _ =>
      Uniform.bind blind_advance fun _ => uniform_pure _)
  | logoutPost =>
    refine hvisible (Uniform.bind ?_ fun _ => uniform_pure _)
    unfold Web.revokeCookie
    dsimp only
    split
    · exact uniform_pure _
    · exact Uniform.tryCatch (blind_visible rfl) fun _ => uniform_pure _
  | machinesPage => exact uniformAt_getDbSession h.webAuth
  | machineNewPage => exact uniformAt_getDbSession h.webAuth
  | machineNewPost form => exact h.withForm fun _ => h.webAuth
  | machineEditPage machineId => exact uniformAt_getDbSession h.webAuth
  | machineEditPost machineId form => exact h.withForm fun _ => h.webAuth
  | tokensPage => exact uniformAt_getDbSession h.webAuth
  | sshSetupPage => exact uniformAt_getDbSession h.webAuth
  | settingsPage => exact uniformAt_getDbSession h.webAuth
  | settingsPost form => exact h.withForm fun _ => h.webAuth

theorem Outside.response (h : Outside P req inputs sh sh') :
    response P req inputs sh = response P req inputs sh' := by
  have hsame : SameEnd P req inputs sh sh' (handle P req) :=
    h.endpoint.tryCatch fun _ => uniform_pure _
  unfold WolMonkey.response runSolo
  rw [hsame.outcome]

end Guards

/-! ## Nothing is woken -/

/-- The request leaves attempts and jobs as they are and sends no packet. -/
structure WakesNothing (P : Platform) (req : Request) (inputs : Nat → Input) (sh : Shared) :
    Prop where
  attempts : (serve P req inputs sh).db.attempts = sh.db.attempts
  jobs : (serve P req inputs sh).db.jobs = sh.db.jobs
  sends : sendsPacket P req inputs sh = false

section Wakes
variable {P : Platform} {req : Request} {inputs : Nat → Input} {sh : Shared}

/-- The effects on attempts, jobs and the network. -/
def waking : List Effect :=
  [.newAttempt, .attemptStatus, .dropMachine, .newJob, .jobRunning, .jobDone, .jobError, .send]

theorem wakesNothing_of_effects (h : ∀ e ∈ req.route.effects, e ∉ waking) :
    WakesNothing P req inputs sh := by
  have hreaches := serve_reaches (P := P) req inputs sh
  have hkept : Untouched (fun w => w.effect ∈ req.route.effects) fun db => (db.attempts, db.jobs) := by
    intro w db hw
    have hno := h _ hw
    cases w <;> first
      | rfl
      | exact absurd hno (by simp [Write.effect, waking])
  have hsame := hreaches.keeps hkept
  exact ⟨congrArg Prod.fst hsame, congrArg Prod.snd hsame, Bool.eq_false_iff.mpr
    (not_performs_send req.route.effects handle_within
      (fun hsend => h _ hsend (by simp [waking])) _)⟩

/-- A request without a live credential wakes nothing. -/
theorem wakesNothing (hcookie : NoLiveCookie sh.db inputs req)
    (hbearer : NoLiveBearer P sh.db req) : WakesNothing P req inputs sh := by
  have hsame : (serve P req inputs sh).db = sh.db → .send ∉ req.route.effects →
      WakesNothing P req inputs sh := fun hdb hsend =>
    ⟨by rw [hdb], by rw [hdb],
      Bool.eq_false_iff.mpr (not_performs_send req.route.effects handle_within hsend _)⟩
  cases hroute : req.route with
  | deleteMachine machineId =>
    refine hsame ?_ (by simp [hroute, Route.effects])
    rw [serve_eq, endpoint, hroute]
    exact getDbSession_csrf_blocked hcookie
  | wakeMachine machineId body =>
    refine hsame ?_ (by simp [hroute, Route.effects])
    rw [serve_eq, endpoint, hroute]
    exact withBody_csrf_blocked hcookie
  | wakeMachineDirect machineId body =>
    have hblocked : ∀ token s', ¬ (getApiToken P req).Runs (soloExec P) (Solo.init inputs sh)
        token s' := fun token s' => not_runs_getApiToken hbearer
    have hdb : (serve P req inputs sh).db = sh.db := by
      rw [serve_eq, endpoint, hroute]
      have hdeps : (getApiToken P req).Uses (Within [.touchToken]) := uses_getApiToken (by simp)
      exact withBody_blocked hdeps (by simp) hblocked
    refine ⟨by rw [hdb], by rw [hdb], Bool.eq_false_iff.mpr fun hsends => ?_⟩
    obtain ⟨token, s₁, b, hrun, -⟩ := wakeReady_of_sendsPacket hroute hsends
    exact hblocked token s₁ hrun
  | _ =>
    exact wakesNothing_of_effects (by rw [hroute]; simp [Route.effects, waking])

end Wakes

/-- Two databases that agree on users, sessions and setup state are the same to a request
without a live credential, and it wakes nothing on either. -/
theorem unauthenticated_noninterference (P : Platform) (req : Request) (inputs : Nat → Input)
    (sh sh' : Shared) (husers : sh.db.users = sh'.db.users)
    (hsessions : sh.db.sessions = sh'.db.sessions) (hsetup : sh.db.setupState = sh'.db.setupState)
    (hrate : sh.rateBuckets = sh'.rateBuckets)
    (hstorable : sh.db.SettingsStorable ∧ sh'.db.SettingsStorable)
    (hcookie : NoLiveCookie sh.db inputs req)
    (hbearer : NoLiveBearer P sh.db req ∧ NoLiveBearer P sh'.db req) :
    response P req inputs sh = response P req inputs sh' ∧
      WakesNothing P req inputs sh ∧ WakesNothing P req inputs sh' := by
  have hdb : sh.db.Indistinct P req sh'.db := ⟨husers, hsessions, hsetup, hstorable, hbearer⟩
  have hcookie' : NoLiveCookie sh'.db inputs req := by
    intro n cookie session user hc hlive
    refine hcookie n cookie session user hc ?_
    unfold LiveSession at hlive ⊢
    rwa [hsessions, husers]
  have hout : Outside P req inputs sh sh' := ⟨⟨hdb, hdb, hrate, rfl, rfl⟩, hcookie⟩
  exact ⟨hout.response, wakesNothing hcookie hbearer.1, wakesNothing hcookie' hbearer.2⟩

/-- Two installations that differ in their machines and tokens, and a page behind the login. -/
theorem unauthenticated_noninterference_sample :
    let req : Request := { route := .machinesPage }
    let sh := Shared.withToken none
    let sh' : Shared := { sh with db := { sh.db with machines := [], tokens := [] } }
    response Platform.sample req Input.quiet sh = response Platform.sample req Input.quiet sh' ∧
      WakesNothing Platform.sample req Input.quiet sh ∧
      WakesNothing Platform.sample req Input.quiet sh' :=
  unauthenticated_noninterference Platform.sample { route := .machinesPage } Input.quiet
    (Shared.withToken none)
    { Shared.withToken none with
      db := { (Shared.withToken none).db with machines := [], tokens := [] } }
    rfl rfl rfl rfl ⟨fun _ h => (nomatch h), fun _ h => (nomatch h)⟩ (fun _ _ _ _ h => (nomatch h))
    ⟨fun _ h => (nomatch h), fun _ h => (nomatch h)⟩

end WolMonkey
