import WolMonkey.Facts.Credentials

/-!
# Tables and ledger

Every calm request keeps the tables and the ledger of the run together: the routes that
issue or revoke credentials one by one, the others by their effects, and so every run.
-/

namespace WolMonkey

open Programs Program Ledgers

/-- Every SHA-256 digest is a text that fits into its column. -/
def Platform.Digests (P : Platform) : Prop :=
  ∀ text, textOk (P.sha256 text) = true ∧ (P.sha256 text).toList.length ≤ 128

theorem Platform.Digests.varchar {P : Platform} (h : P.Digests) (text : String) :
    WolMonkey.varchar 128 (P.sha256 text) = some (P.sha256 text) :=
  varchar_eq_self (h text).2 (h text).1

/-! ## Requests keep the tables and the ledger together -/

section Steps
variable {P : Platform} {req : Request} {inputs : Nat → Input} {sh : Shared} {c : Credentials}

theorem instant_init (sh : Shared) (h : Calm inputs) : (Solo.init inputs sh).Instant (inputs 0).now :=
  fun n => (h n).2

theorem cookie_errorResponse (route : Route) (e : PyExc) :
    (errorResponse route e).cookie = .keep := by
  unfold errorResponse
  split
  · split <;> rfl
  all_goals rfl

theorem body_errorResponse (route : Route) (e : PyExc) :
    (errorResponse route e).body ≠ .empty ∧ (errorResponse route e).granted = none := by
  unfold errorResponse
  split
  · split <;> exact ⟨nofun, rfl⟩
  all_goals exact ⟨nofun, rfl⟩

theorem Rejected.loginEntry (h : Rejected P req inputs sh) (username : Option String) :
    loginEntry P req inputs sh username = none := by
  unfold WolMonkey.loginEntry
  cases hr : WolMonkey.response P req inputs sh with
  | none => rfl
  | some r =>
    obtain ⟨e, rfl⟩ := h.response r hr
    have hopened : (errorResponse req.route e).opened = none := by
      rw [Response.opened, cookie_errorResponse]
    simp [hopened]

theorem Rejected.logoutEntry (h : Rejected P req inputs sh) :
    logoutEntry P req inputs sh = none := by
  unfold WolMonkey.logoutEntry
  cases hr : WolMonkey.response P req inputs sh with
  | none => rfl
  | some r =>
    obtain ⟨e, rfl⟩ := h.response r hr
    simp [cookie_errorResponse]

/-- A request that is rejected issues and revokes nothing. -/
theorem Rejected.next (h : Rejected P req inputs sh) (c : Credentials) :
    c.next P req inputs sh = c := by
  have hsessions : sessionEntry P req inputs sh = none := by
    unfold sessionEntry
    split <;> first
      | exact h.loginEntry _
      | exact h.logoutEntry
      | rfl
  have htokens : tokenEntry P req inputs sh = none := by
    unfold tokenEntry
    split
    · cases hr : WolMonkey.response P req inputs sh with
      | none => rfl
      | some r =>
        obtain ⟨e, rfl⟩ := h.response r hr
        simp [(body_errorResponse req.route e).2]
    · cases hr : WolMonkey.response P req inputs sh with
      | none => rfl
      | some r =>
        obtain ⟨e, rfl⟩ := h.response r hr
        simp [(body_errorResponse req.route e).1]
    · rfl
  rw [Credentials.next, hsessions, htokens]
  rfl

theorem Rejected.reflects (h : Rejected P req inputs sh) (hc : Reflects P c sh.db) :
    Reflects P (c.next P req inputs sh) (serve P req inputs sh).db := by
  rw [h.next, h.db]
  exact hc

/-- A request whose effects are not about credentials. -/
theorem reflects_of_effects (hc : Reflects P c sh.db)
    (heffects : ∀ e ∈ req.route.effects, e ∉ credentialEffects)
    (hnext : c.next P req inputs sh = c) :
    Reflects P (c.next P req inputs sh) (serve P req inputs sh).db := by
  rw [hnext]
  exact (serve_reaches req inputs sh).invariant (Reflects P c)
    (fun w db hw hdb => hdb.apply (heffects _ hw)) hc

/-- A login that returned. -/
theorem reflects_login {username : String} {session : Session} {r : Response} {s' : Solo}
    (hentry : sessionEntry P req inputs sh = loginEntry P req inputs sh (some username))
    (htoken : tokenEntry P req inputs sh = none)
    (hlogged : LoggedIn P c username (inputs 0).now session s')
    (hr : response P req inputs sh = some r) (hopened : r.opened = some session.id)
    (hleaves : s'.Leaves sh.db (serve P req inputs sh).db) :
    Reflects P (c.next P req inputs sh) (serve P req inputs sh).db := by
  have hdb := hleaves.active hlogged.active
  obtain ⟨user, hnamed, hreflects⟩ := hlogged.reflects
  have hissue : loginEntry P req inputs sh (some username) =
      some (.issue session.id (user, (inputs 0).now)) := by
    rw [loginEntry, hr, hdb]
    simp [hopened, hnamed]
  rw [Credentials.next, hentry, hissue, htoken, hdb]
  exact hreflects

/-- A login route that answered without a session, and changed nothing. -/
theorem reflects_refused {username : Option String} {r : Response}
    (hentry : sessionEntry P req inputs sh = loginEntry P req inputs sh username)
    (htoken : tokenEntry P req inputs sh = none) (hc : Reflects P c sh.db)
    (hr : response P req inputs sh = some r) (hopened : r.opened = none)
    (hdb : (serve P req inputs sh).db = sh.db) :
    Reflects P (c.next P req inputs sh) (serve P req inputs sh).db := by
  have hnone : loginEntry P req inputs sh username = none := by
    rw [loginEntry, hr]
    simp [hopened]
  rw [Credentials.next, hentry, hnone, htoken, hdb]
  exact hc

theorem opened_of_set {r : Response} {id : Uuid} {maxAge : Int}
    (h : r.cookie = .set id.text maxAge) : r.opened = some id := by
  rw [Response.opened, h]
  exact Uuid.parse?_text id

theorem reflects_apiLogin {body : JsonBody LoginRequest} (hroute : req.route = .apiLogin body)
    (hcalm : Calm inputs) (hc : Reflects P c sh.db) :
    Reflects P (c.next P req inputs sh) (serve P req inputs sh).db := by
  have hend : endpoint P req = Api.login P req body := by rw [endpoint, hroute]
  have huses : ∀ (d : Unit) (b : LoginRequest), (do
      let _ ← await (.checkLoginRate (Api.loginIp req))
      Api.loginAdmitted P req b : Code Response).Uses
        (Within [.rate, .lastLogin, .passwordHash, .newSession]) := fun d b =>
    Uses.bind (uses_effect rfl (by simp)) fun _ =>
      uses_loginAdmitted (by simp) (by simp) (by simp)
  rcases answered_withBody _ hend (uses_pure ()) huses (by simp) hcalm with
    ⟨b, b', d, s₁, r, s', rfl, hvalid, hdeps, hrun, hr, hleaves⟩ | hrejected
  swap
  · exact hrejected.reflects hc
  obtain ⟨-, rfl⟩ := checked_eq_some.mp hvalid
  obtain ⟨-, rfl⟩ := runs_pure.mp hdeps
  obtain ⟨u, s₂, hrate, hlogin⟩ := runs_bind.mp hrun
  have hadds : (Solo.init inputs sh).Adds (fun w => w.effect ∈ [Effect.rate]) s₂ :=
    Runs.adds _ (uses_effect rfl (by simp)) (by simp) (by simp) hrate
  have hreflects : Reflects P c s₂.view := Reflects.adds (s := Solo.init inputs sh) hc hadds
    fun w hw => by rw [List.mem_singleton.mp hw]; simp [credentialEffects]
  obtain ⟨session, s₃, hcaught, hlogin⟩ := runs_bind.mp hlogin
  obtain ⟨token, s₄, htoken, hreturn⟩ := runs_bind.mp hlogin
  obtain ⟨rfl, rfl⟩ := runs_pure.mp hreturn
  rcases runs_tryCatch.mp hcaught with hlogged | ⟨e, s₅, -, hraise⟩
  swap
  · split at hraise <;> exact (runs_raise.mp hraise).elim
  have hlogged := runs_login_loggedIn ((Runs.later hrate).instant (instant_init _ hcalm)) hreflects
    hlogged
  have hasked : s₄ = ⟨s₃.shared, s₃.store, fun n => s₃.inputs (n + 1)⟩ := by
    unfold generateCsrfToken await at htoken
    rw [runs_perform] at htoken
    exact (congrArg Prod.snd htoken).symm
  have hlogged' : LoggedIn P c b.username (inputs 0).now session s₄ := by
    rw [hasked]
    exact ⟨hlogged.active, hlogged.reflects⟩
  refine reflects_login ?_ ?_ hlogged' hr (opened_of_set rfl) hleaves
  · rw [sessionEntry, hroute]
  · rw [tokenEntry, hroute]

theorem reflects_loginPost {form : CredentialsForm} (hroute : req.route = .loginPost form)
    (hcalm : Calm inputs) (hc : Reflects P c sh.db) :
    Reflects P (c.next P req inputs sh) (serve P req inputs sh).db := by
  have hend : endpoint P req = Web.loginPost P req form := by rw [endpoint, hroute]
  have hentry : sessionEntry P req inputs sh =
      loginEntry P req inputs sh (form.read.map (·.1)) := by rw [sessionEntry, hroute]
  have htoken : tokenEntry P req inputs sh = none := by rw [tokenEntry, hroute]
  refine (answered_withForm [.lastLogin, .passwordHash, .newSession] hend ?_ (by simp)
    hcalm).elim ?_ fun hrejected => hrejected.reflects hc
  · rintro ⟨username, password⟩
    refine Uses.bind (Uses.tryCatch (Uses.bind (uses_login (by simp) (by simp) (by simp))
      fun _ => uses_pure _) fun exc => ?_) fun session => ?_
    · split
      · exact uses_pure _
      · exact uses_raise _
    · cases session <;> exact uses_pure _
  rintro ⟨⟨username, password⟩, r, s', hform, hrun, hr, hleaves⟩
  rw [hform] at hentry
  obtain ⟨opened, s₁, hcaught, hreturn⟩ := runs_bind.mp hrun
  rcases runs_tryCatch.mp hcaught with h | ⟨e, s₂, hraised, h⟩
  · obtain ⟨session, s₂, hlogin, h⟩ := runs_bind.mp h
    obtain ⟨rfl, rfl⟩ := runs_pure.mp h
    obtain ⟨rfl, rfl⟩ := runs_pure.mp hreturn
    exact reflects_login hentry htoken (runs_login_loggedIn (instant_init _ hcalm) hc hlogin) hr
      (opened_of_set rfl) hleaves
  · split at h
    · obtain ⟨rfl, rfl⟩ := runs_pure.mp h
      obtain ⟨rfl, rfl⟩ := runs_pure.mp hreturn
      rcases eval_bind_raised.mp hraised with hraised | ⟨session, s₃, -, hpure⟩
      · exact reflects_refused hentry htoken hc hr rfl (hleaves.same (login_refused hraised).view)
      · cases hpure
    · exact (runs_raise.mp h).elim

/-- A new administrator is not about credentials. -/
theorem runs_createAdmin_adds {username password : String} {user : User} {s s' : Solo}
    (h : (AuthService.createAdmin username password).Runs (soloExec P) s user s') :
    s.Adds (fun w => w.effect ∈ [Effect.newUser]) s' :=
  Runs.adds _ (uses_createAdmin (by simp)) (by simp) (by simp) h

theorem reflects_setupAdminPost {form : CredentialsForm}
    (hroute : req.route = .setupAdminPost form) (hcalm : Calm inputs) (hc : Reflects P c sh.db) :
    Reflects P (c.next P req inputs sh) (serve P req inputs sh).db := by
  have hend : endpoint P req = Web.setupAdminPost P req form := by rw [endpoint, hroute]
  have hentry : sessionEntry P req inputs sh =
      loginEntry P req inputs sh (form.read.map (·.1)) := by rw [sessionEntry, hroute]
  have htoken : tokenEntry P req inputs sh = none := by rw [tokenEntry, hroute]
  refine (answered_withForm
    [.newUser, .newSetup, .editSetup, .lastLogin, .passwordHash, .newSession] hend ?_
    (by simp) hcalm).elim ?_ fun hrejected => hrejected.reflects hc
  · rintro ⟨username, password⟩
    refine Uses.bind (Uses.tryCatch (Uses.bind (uses_createAdmin (by simp)) fun _ => uses_pure _)
      fun exc => ?_) fun refused => ?_
    · split
      · exact uses_pure _
      · exact uses_raise _
    · cases refused with
      | some message => exact uses_pure _
      | none =>
        exact Uses.bind (uses_advance (by simp) (by simp)) fun _ =>
          Uses.bind (uses_login (by simp) (by simp) (by simp)) fun _ => uses_pure _
  rintro ⟨⟨username, password⟩, r, s', hform, hrun, hr, hleaves⟩
  rw [hform] at hentry
  obtain ⟨refused, s₁, hcaught, hrest⟩ := runs_bind.mp hrun
  rcases runs_tryCatch.mp hcaught with h | ⟨e, s₂, hraised, h⟩
  · obtain ⟨user, s₂, hcreate, h⟩ := runs_bind.mp h
    obtain ⟨rfl, rfl⟩ := runs_pure.mp h
    obtain ⟨u, s₃, hadvance, hrest⟩ := runs_bind.mp hrest
    obtain ⟨session, s₄, hlogin, hreturn⟩ := runs_bind.mp hrest
    obtain ⟨rfl, rfl⟩ := runs_pure.mp hreturn
    have hcreated : Reflects P c s₂.view := Reflects.adds (s := Solo.init inputs sh) hc
      (runs_createAdmin_adds hcreate) fun w hw => by
        rw [List.mem_singleton.mp hw]
        simp [credentialEffects]
    have hadds : s₂.Adds (fun w => w.effect ∈ [Effect.newSetup, .editSetup]) s₃ :=
      Runs.adds _ (uses_advance (by simp) (by simp)) (by simp) (by simp) hadvance
    have hadvanced : Reflects P c s₃.view := hcreated.adds hadds fun w hw => by
      rcases List.mem_pair.mp hw with he | he
      all_goals
        rw [he]
        simp [credentialEffects]
    have ht := ((Runs.later hcreate).trans (Runs.later hadvance)).instant
      (instant_init sh hcalm)
    exact reflects_login hentry htoken (runs_login_loggedIn ht hadvanced hlogin) hr
      (opened_of_set rfl) hleaves
  · split at h
    · obtain ⟨rfl, rfl⟩ := runs_pure.mp h
      obtain ⟨rfl, rfl⟩ := runs_pure.mp hrest
      rcases eval_bind_raised.mp hraised with hraised | ⟨user, s₃, -, hpure⟩
      · exact reflects_refused hentry htoken hc hr rfl
          (hleaves.same (createAdmin_refused hraised).view)
      · cases hpure
    · exact (runs_raise.mp h).elim

/-! ### Logouts -/

/-- A revoked session in the tables and in the ledger. -/
theorem runs_sessionRevoke {sessionId : String} {u : Unit} {s s' : Solo}
    (h : (AuthService.logout sessionId).Runs (soloExec P) s u s') :
    ∃ id, Uuid.parse? sessionId = some id ∧ s'.view = (Write.revokeSession id).apply s.view ∧
      s'.store.main.status = .active := by
  obtain ⟨r, hran, -⟩ := runs_execute h
  have hview := hran.view
  obtain ⟨locked, hrun⟩ := hran.run
  simp only [Stmt.run, bind_eq_ok, uuidParam_eq_ok, pure_eq_ok] at hrun
  obtain ⟨id, hid, rfl⟩ := hrun
  exact ⟨id, hid, hview, hran.active'⟩

/-- A logout that revoked the session that its cookie denotes. -/
theorem reflects_logout {id : Uuid} {r : Response} {s' : Solo}
    (hentry : sessionEntry P req inputs sh = logoutEntry P req inputs sh)
    (htoken : tokenEntry P req inputs sh = none) (hc : Reflects P c sh.db)
    (hid : req.sessionId? = some id) (hview : s'.view = (Write.revokeSession id).apply sh.db)
    (hactive : s'.store.main.status = .active) (hr : response P req inputs sh = some r)
    (hcookie : r.cookie = .delete) (hleaves : s'.Leaves sh.db (serve P req inputs sh).db) :
    Reflects P (c.next P req inputs sh) (serve P req inputs sh).db := by
  have hdb := hleaves.active hactive
  have hrevoke : logoutEntry P req inputs sh = some (.revoke id) := by
    rw [logoutEntry, hr, hid]
    simp [hcookie]
  rw [Credentials.next, hentry, hrevoke, htoken, hdb, hview]
  exact hc.revokeSession id

theorem reflects_apiLogout (hroute : req.route = .apiLogout) (hcalm : Calm inputs)
    (hc : Reflects P c sh.db) :
    Reflects P (c.next P req inputs sh) (serve P req inputs sh).db := by
  have hend : endpoint P req = Api.logout req := by rw [endpoint, hroute]
  rcases answered_getDbSession [.endSession] hend
    (Uses.bind uses_getCurrentSessionAndUser fun _ =>
      Uses.bind (uses_write rfl (by simp)) fun _ => uses_pure _) (by simp) hcalm with
    ⟨r, s', hrun, hr, hleaves⟩ | hrejected
  swap
  · exact hrejected.reflects hc
  obtain ⟨⟨session, user⟩, s₁, hsession, hrun⟩ := runs_bind.mp hrun
  obtain ⟨u, s₂, hlogout, hreturn⟩ := runs_bind.mp hrun
  obtain ⟨rfl, rfl⟩ := runs_pure.mp hreturn
  obtain ⟨hsame, cookie, hcookie, n, id, hid, hfind, -⟩ := runs_getCurrentSessionAndUser hsession
  have hsid : session.id = id := by simpa using List.find?_some hfind
  obtain ⟨id', hid', hview, hactive⟩ := runs_sessionRevoke hlogout
  rw [Uuid.parse?_text, hsid] at hid'
  cases hid'
  rw [hsame.view] at hview
  refine reflects_logout ?_ ?_ hc ?_ hview hactive hr rfl hleaves
  · rw [sessionEntry, hroute]
  · rw [tokenEntry, hroute]
  · rw [Request.sessionId?, hcookie]
    exact hid

/-- The form logout suppresses errors: what the driver does not read as an identifier
revokes nothing. -/
theorem runs_revokeCookie {u : Unit} {s' : Solo} (hcalm : Calm inputs)
    (h : (Web.revokeCookie req).Runs (soloExec P) (Solo.init inputs sh) u s') :
    (∃ id, req.sessionId? = some id ∧ s'.view = (Write.revokeSession id).apply sh.db ∧
      s'.store.main.status = .active) ∨ (req.sessionId? = none ∧ s'.view = sh.db) := by
  unfold Web.revokeCookie at h
  dsimp only at h
  split at h
  · rename_i hempty
    obtain ⟨-, rfl⟩ := runs_pure.mp h
    refine .inr ⟨?_, rfl⟩
    cases hcookie : req.cookie with
    | none => rw [Request.sessionId?, hcookie]; rfl
    | some cookie =>
      rw [hcookie, Option.getD_some, beq_iff_eq] at hempty
      rw [Request.sessionId?, hcookie, hempty]
      decide
  rename_i hne
  obtain ⟨cookie, hcookie⟩ : ∃ cookie, req.cookie = some cookie := by
    cases hc : req.cookie with
    | none => simp [hc] at hne
    | some cookie => exact ⟨cookie, rfl⟩
  rw [hcookie, Option.getD_some] at h
  have hsid : req.sessionId? = Uuid.parse? cookie := by
    rw [Request.sessionId?, hcookie]
    rfl
  rw [hsid]
  rcases runs_tryCatch.mp h with h | ⟨e, s₁, hraised, h⟩
  · exact .inl (runs_sessionRevoke h)
  · obtain ⟨-, rfl⟩ := runs_pure.mp h
    refine .inr ⟨?_, (execute_raised_same hraised).view⟩
    cases hid : Uuid.parse? cookie with
    | none => rfl
    | some id =>
      let r : Executed (.sessionRevoke cookie) := ⟨(), [.revokeSession id], []⟩
      have hrun : (execute .main (.sessionRevoke cookie)).Runs (soloExec P) (Solo.init inputs sh) ()
          ((Solo.init inputs sh).ran r) := by
        refine runs_execute_iff.mpr ⟨rfl, (hcalm 0).1, r, ?_, rfl, rfl⟩
        simp only [Stmt.run, uuidParam_eq_ok.mpr hid]
        rfl
      cases hraised.symm.trans hrun

theorem reflects_logoutPost (hroute : req.route = .logoutPost) (hcalm : Calm inputs)
    (hc : Reflects P c sh.db) :
    Reflects P (c.next P req inputs sh) (serve P req inputs sh).db := by
  have hend : endpoint P req = Web.logoutPost req := by rw [endpoint, hroute]
  have hentry : sessionEntry P req inputs sh = logoutEntry P req inputs sh := by
    rw [sessionEntry, hroute]
  have htoken : tokenEntry P req inputs sh = none := by rw [tokenEntry, hroute]
  refine (answered_getDbSession [.endSession] hend ?_ (by simp) hcalm).elim ?_
    fun hrejected => hrejected.reflects hc
  · refine Uses.bind ?_ fun _ => uses_pure _
    unfold Web.revokeCookie
    dsimp only
    split
    · exact uses_pure _
    · exact Uses.tryCatch (uses_write rfl (by simp)) fun _ => uses_pure _
  rintro ⟨r, s', hrun, hr, hleaves⟩
  obtain ⟨u, s₁, hrevoke, hreturn⟩ := runs_bind.mp hrun
  obtain ⟨rfl, rfl⟩ := runs_pure.mp hreturn
  rcases runs_revokeCookie hcalm hrevoke with ⟨id, hid, hview, hactive⟩ | ⟨hid, hview⟩
  · exact reflects_logout hentry htoken hc hid hview hactive hr rfl hleaves
  · have hnone : logoutEntry P req inputs sh = none := by
      rw [logoutEntry, hr, hid]
      rfl
    rw [Credentials.next, hentry, hnone, htoken, hleaves.same hview]
    exact hc

/-! ### Tokens -/

/-- The guard of the JSON routes that change something, for the tables before the request. -/
theorem runs_csrfProtectedUser {user : User} {s s' : Solo}
    (h : (csrfProtectedUser req).Runs (soloExec P) s user s') :
    s.Same s' ∧ s.view.sessionOwner req = some user.id := by
  refine ⟨Runs.same uses_csrfProtectedUser h, ?_⟩
  obtain ⟨⟨session, u⟩, s₁, hsession, h⟩ := runs_bind.mp h
  obtain ⟨v, s₂, -, hreturn⟩ := runs_bind.mp h
  obtain ⟨rfl, -⟩ := runs_pure.mp hreturn
  obtain ⟨-, cookie, hcookie, n, id, hid, hfind, -, -, huser⟩ :=
    runs_getCurrentSessionAndUser hsession
  have howner : u.id = session.userId := by simpa using List.find?_some huser
  rw [Database.sessionOwner, Request.sessionId?, hcookie]
  simp [hid, hfind, howner]

/-- The row of a token that was created. -/
theorem runs_createApiToken_row {name : String} {userId : Uuid} {machineId : Option String}
    {raw : String} {token : ApiToken} {s s' : Solo} (hdigest : P.Digests)
    (h : (AuthService.createApiToken P name userId.text machineId).Runs (soloExec P) s (raw, token)
      s') :
    ∃ row : ApiToken, row.id = token.id ∧ row.userId = userId ∧ row.tokenHash = P.sha256 raw ∧
      row.revokedAt = none ∧ (∀ x ∈ s.view.tokens, x.id ≠ row.id) ∧
      (∀ x ∈ s.view.tokens, x.tokenHash ≠ row.tokenHash) ∧ userId ∈ s.view.userIds ∧
      s'.view = (Write.insertToken row).apply s.view ∧ s'.store.main.status = .active := by
  obtain ⟨⟨raw', tokenPrefix, hash⟩, s₁, hgenerate, h⟩ := runs_bind.mp h
  obtain ⟨record, s₂, hcreate, hreturn⟩ := runs_bind.mp h
  obtain ⟨hpair, rfl⟩ := runs_pure.mp hreturn
  cases hpair
  have hsame : s.Same s₁ := by
    refine Runs.same ?_ hgenerate
    exact Uses.bind (uses_await rfl) fun _ => Uses.bind (uses_await rfl) fun _ => uses_pure _
  have hhash : hash = P.sha256 raw := by
    obtain ⟨p, t₁, -, hgenerate⟩ := runs_bind.mp hgenerate
    obtain ⟨secret, t₂, -, hgenerate⟩ := runs_bind.mp hgenerate
    cases (runs_pure.mp hgenerate).1
    rfl
  subst hhash
  obtain ⟨id, s₃, hins, href⟩ := runs_bind.mp hcreate
  have hrefreshed : token.id = id ∧ s₃.Same s₂ ∧ s₂.store.main.status = .active := by
    have hread := Runs.same (P := P) (uses_read rfl) href
    obtain ⟨r, hran, rfl⟩ := runs_execute href
    obtain ⟨locked, hrun⟩ := hran.run
    simp only [Stmt.run] at hrun
    split at hrun
    · rename_i row hrow
      cases hrun
      exact ⟨by simpa using List.find?_some hrow, hread, hran.active'⟩
    · cases hrun
  obtain ⟨hid, hread, hactive⟩ := hrefreshed
  obtain ⟨r, hran, hanswer⟩ := runs_execute hins
  have hview := hran.view
  obtain ⟨locked, hrun⟩ := hran.run
  simp only [Stmt.run, bind_eq_ok, uuidParam_eq_ok, require_eq_ok, accepted_eq_ok, pure_eq_ok,
    Uuid.parse?_text, hdigest.varchar] at hrun
  obtain ⟨n, -, d, hd, p, -, uid, huid, mid, -, -, hfresh, -, hunique, -, huser, -, -, rfl⟩ := hrun
  cases hd
  cases huid
  let row : ApiToken :=
    { id := (s₁.inputs 0).fresh, userId, machineId := mid, name := n, tokenHash := P.sha256 raw
      tokenPrefix := p, lastUsedAt := none, revokedAt := none, createdAt := (s₁.inputs 0).now }
  simp only [Bool.not_eq_true', List.any_eq_false, beq_iff_eq] at hfresh hunique
  rw [← hsame.view]
  refine ⟨row, hanswer.symm.trans hid.symm, rfl, rfl, rfl, hfresh, hunique, ?_, ?_, hactive⟩
  · obtain ⟨u, hu, hid⟩ := List.any_eq_true.mp huser
    exact List.mem_map.mpr ⟨u, hu, by simpa using hid⟩
  · rw [hread.view, hview]
    rfl

theorem reflects_createToken {body : JsonBody TokenCreateRequest}
    (hroute : req.route = .createToken body) (hdigest : P.Digests) (hcalm : Calm inputs)
    (hc : Reflects P c sh.db) :
    Reflects P (c.next P req inputs sh) (serve P req inputs sh).db := by
  have hend : endpoint P req = Api.createToken P req body := by rw [endpoint, hroute]
  refine (answered_withBody [.newToken] hend uses_csrfProtectedUser
    (fun user b => Uses.bind (uses_createApiToken (by simp)) fun _ => uses_pure _) (by simp)
    hcalm).elim ?_ fun hrejected => hrejected.reflects hc
  rintro ⟨b, b', user, s₁, r, s', -, -, hdeps, hrun, hr, hleaves⟩
  obtain ⟨hsame, howner⟩ := runs_csrfProtectedUser hdeps
  obtain ⟨⟨raw, token⟩, s₂, hcreate, hreturn⟩ := runs_bind.mp hrun
  obtain ⟨rfl, rfl⟩ := runs_pure.mp hreturn
  obtain ⟨row, hid, huser, hhash, hlive, hfresh, hunique, hmem, hview, hactive⟩ :=
    runs_createApiToken_row hdigest hcreate
  rw [hsame.view] at hfresh hunique hmem hview
  have hdb := hleaves.active hactive
  have hissue : tokenEntry P req inputs sh = some (.issue token.id (raw, user.id)) := by
    have howner' : sh.db.sessionOwner req = some user.id := howner
    rw [tokenEntry, hroute, hr]
    simp [Response.granted, howner', Uuid.parse?_text]
  have hsession : sessionEntry P req inputs sh = none := by rw [sessionEntry, hroute]
  have hreflects := hc.issueToken hlive hhash hfresh hunique (by rw [huser]; exact hmem)
  rw [hid, huser] at hreflects
  rw [Credentials.next, hissue, hsession, hdb, hview]
  exact hreflects

theorem reflects_revokeToken {tokenId : String} (hroute : req.route = .revokeToken tokenId)
    (hcalm : Calm inputs) (hc : Reflects P c sh.db) :
    Reflects P (c.next P req inputs sh) (serve P req inputs sh).db := by
  have hend : endpoint P req = Api.revokeToken req tokenId := by rw [endpoint, hroute]
  refine (answered_getDbSession [.endToken] hend (Uses.bind uses_csrfProtectedUser fun _ =>
    Uses.bind (uses_write rfl (by simp)) fun _ => uses_pure _) (by simp) hcalm).elim ?_
    fun hrejected => hrejected.reflects hc
  rintro ⟨r, s', hrun, hr, hleaves⟩
  obtain ⟨user, s₁, hguard, hrun⟩ := runs_bind.mp hrun
  obtain ⟨hsame, -⟩ := runs_csrfProtectedUser hguard
  obtain ⟨u, s₂, hrevoke, hreturn⟩ := runs_bind.mp hrun
  obtain ⟨rfl, rfl⟩ := runs_pure.mp hreturn
  obtain ⟨e, hran, -⟩ := runs_execute hrevoke
  have hview := hran.view
  obtain ⟨locked, hexec⟩ := hran.run
  simp only [Stmt.run, bind_eq_ok, uuidParam_eq_ok, pure_eq_ok] at hexec
  obtain ⟨id, hid, rfl⟩ := hexec
  have hdb := hleaves.active hran.active'
  have hentry : tokenEntry P req inputs sh = some (.revoke id) := by
    rw [tokenEntry, hroute, hr]
    simp [hid]
  have hsession : sessionEntry P req inputs sh = none := by rw [sessionEntry, hroute]
  rw [Credentials.next, hentry, hsession, hdb, hview, hsame.view]
  exact hc.revokeToken id _

/-- Every calm request keeps the tables and the ledger together. -/
theorem Reflects.step (hc : Reflects P c sh.db) (hdigest : P.Digests) (hcalm : Calm inputs) :
    Reflects P (c.next P req inputs sh) (serve P req inputs sh).db := by
  cases hroute : req.route with
  | apiLogin body => exact reflects_apiLogin hroute hcalm hc
  | loginPost form => exact reflects_loginPost hroute hcalm hc
  | setupAdminPost form => exact reflects_setupAdminPost hroute hcalm hc
  | apiLogout => exact reflects_apiLogout hroute hcalm hc
  | logoutPost => exact reflects_logoutPost hroute hcalm hc
  | createToken body => exact reflects_createToken hroute hdigest hcalm hc
  | revokeToken tokenId => exact reflects_revokeToken hroute hcalm hc
  | _ =>
    refine reflects_of_effects hc ?_ ?_
    · rw [hroute]
      simp [Route.effects, credentialEffects]
    · rw [Credentials.next, sessionEntry, tokenEntry, hroute]
      rfl

end Steps

/-- Every run of calm requests keeps the tables and the ledger together. -/
theorem Reflects.run {P : Platform} {run : List (Request × (Nat → Input))} {sh : Shared}
    {c : Credentials} (hc : Reflects P c sh.db) (hdigest : P.Digests)
    (hcalm : ∀ step ∈ run, Calm step.2) :
    Reflects P (c.after P run sh) (serveAll P run sh).db := by
  induction run generalizing sh c with
  | nil => exact hc
  | cons step rest ih =>
    exact ih (hc.step hdigest (hcalm step List.mem_cons_self))
      fun later hlater => hcalm later (List.mem_cons_of_mem _ hlater)

end WolMonkey
