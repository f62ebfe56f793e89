import WolMonkey.Facts.Sessions

/-!
# Accounts and logins

What `AuthService` does when it returns: an administrator is created only in an empty
table, and a login of a user whose password verifies changes that user's row in two
columns and adds a session.
-/

namespace WolMonkey

open Programs Program

/-- The changes that a login of the user makes. -/
def Write.OfLogin (id : Uuid) : Write → Prop
  | setLastLogin i _ => i = id
  | setPasswordHash i _ => i = id
  | insertSession _ => True
  | _ => False

/-- No change removes a user. -/
theorem users_apply_ne_nil (w : Write) {db : Database} (h : db.users ≠ []) :
    (w.apply db).users ≠ [] := by
  cases w <;> first
    | exact h
    | simp [Write.apply, updateRows, h]

/-- Changes without effects on the users leave them alone. -/
theorem untouched_users {es : List Effect} (hnew : .newUser ∉ es) (hlast : .lastLogin ∉ es)
    (hhash : .passwordHash ∉ es) : Untouched (fun w => w.effect ∈ es) Database.users := by
  intro w db hw
  cases w <;> first
    | rfl
    | exact (hnew hw).elim
    | exact (hlast hw).elim
    | exact (hhash hw).elim

section Runs
variable {P : Platform} {s s' : Solo}

theorem runs_setLastLogin {id : Uuid} {u : Unit}
    (h : (SqlUserRepository.updateLastLogin id.text).Runs (soloExec P) s u s') :
    s.Adds (Write.OfLogin id) s' := by
  obtain ⟨r, hran, -⟩ := runs_execute h
  obtain ⟨locked, hrun⟩ := hran.run
  simp only [Stmt.run, bind_eq_ok, uuidParam_eq_ok, pure_eq_ok, Uuid.parse?_text] at hrun
  obtain ⟨i, hi, rfl⟩ := hrun
  cases hi
  exact hran.adds (by simp [Write.OfLogin])

theorem runs_setPasswordHash {id : Uuid} {hash : String} {u : Unit}
    (h : (SqlUserRepository.updatePasswordHash id.text hash).Runs (soloExec P) s u s') :
    s.Adds (Write.OfLogin id) s' := by
  obtain ⟨r, hran, -⟩ := runs_execute h
  obtain ⟨locked, hrun⟩ := hran.run
  simp only [Stmt.run, bind_eq_ok, uuidParam_eq_ok, require_eq_ok, pure_eq_ok,
    Uuid.parse?_text] at hrun
  obtain ⟨i, hi, v, -, rfl⟩ := hrun
  cases hi
  exact hran.adds (by simp [Write.OfLogin])

theorem runs_sessionRefresh {id : Uuid} {session : Session}
    (h : (execute .main (.sessionRefresh id)).Runs (soloExec P) s session s') : s.Same s' :=
  Runs.same (uses_read rfl) h

theorem runs_sessionCreate (id : Uuid) {userId secret : String} {expiresAt : DateTime}
    {ip userAgent : Option String} {session : Session}
    (h : (SqlSessionRepository.create userId secret expiresAt ip userAgent).Runs (soloExec P) s
      session s') :
    s.Adds (Write.OfLogin id) s' ∧ (nullable P.inet ip).isSome = true ∧
      userAgent.all textOk = true := by
  obtain ⟨i, s₁, hins, href⟩ := runs_bind.mp h
  obtain ⟨r, hran, -⟩ := runs_execute hins
  obtain ⟨locked, hrun⟩ := hran.run
  simp only [Stmt.run, bind_eq_ok, uuidParam_eq_ok, require_eq_ok, accepted_eq_ok, pure_eq_ok]
    at hrun
  obtain ⟨uid, -, sec, -, ipv, hip, v, hua, -, -, -, -, rfl⟩ := hrun
  refine ⟨(hran.adds ?_).trans (runs_sessionRefresh href).adds, by rw [hip]; rfl, hua⟩
  simp [Write.OfLogin]

theorem runs_rehash {user : User} {password : String} {u : Unit}
    (h : (AuthService.rehash P user password).Runs (soloExec P) s u s') :
    s.Adds (Write.OfLogin user.id) s' := by
  unfold AuthService.rehash at h
  split at h
  · obtain ⟨hash, s₁, hhash, h⟩ := runs_bind.mp h
    exact (Runs.same (uses_await rfl) hhash).adds.trans (runs_setPasswordHash h)
  · obtain ⟨-, rfl⟩ := runs_pure.mp h
    exact (Solo.Same.refl s).adds

theorem runs_openSession {user : User} {password : String} {ip userAgent : Option String}
    {session : Session}
    (h : (AuthService.openSession P user password ip userAgent).Runs (soloExec P) s session s') :
    s.Adds (Write.OfLogin user.id) s' ∧ (nullable P.inet ip).isSome = true ∧
      userAgent.all textOk = true := by
  obtain ⟨u₁, s₁, hrehash, h⟩ := runs_bind.mp h
  obtain ⟨now, s₂, hnow, h⟩ := runs_bind.mp h
  obtain ⟨secret, s₃, hsecret, h⟩ := runs_bind.mp h
  obtain ⟨row, s₄, hcreate, h⟩ := runs_bind.mp h
  obtain ⟨u₅, s₅, hlast, h⟩ := runs_bind.mp h
  obtain ⟨rfl, rfl⟩ := runs_pure.mp h
  obtain ⟨hadds, hip, hua⟩ := runs_sessionCreate user.id hcreate
  refine ⟨?_, hip, hua⟩
  have h₁ := runs_rehash hrehash
  have h₂ : s₁.Adds (Write.OfLogin user.id) s₃ :=
    (runs_now hnow).2.adds.trans (Runs.same (uses_await rfl) hsecret).adds
  exact ((h₁.trans h₂).trans hadds).trans (runs_setLastLogin hlast)

theorem runs_getByUsername {username : String} {found : Option User}
    (h : (SqlUserRepository.getByUsername username).Runs (soloExec P) s found s') :
    found = s.view.users.find? (·.username == username) ∧ s.Same s' := by
  have hsame := Runs.same (P := P) (uses_read rfl) h
  obtain ⟨r, hran, rfl⟩ := runs_execute h
  obtain ⟨locked, hrun⟩ := hran.run
  simp only [Stmt.run, bind_eq_ok, require_eq_ok, pure_eq_ok] at hrun
  obtain ⟨v, -, rfl⟩ := hrun
  exact ⟨rfl, hsame⟩

/-- A login that returns had the password of the user with that name. -/
theorem runs_login {username password : String} {ip userAgent : Option String}
    {session : Session}
    (h : (AuthService.login P username password ip userAgent).Runs (soloExec P) s session s') :
    ∃ user, s.view.users.find? (·.username == username) = some user ∧
      P.argon2Verify user.passwordHash password = .verified ∧
      s.Adds (Write.OfLogin user.id) s' ∧ (nullable P.inet ip).isSome = true ∧
      userAgent.all textOk = true := by
  obtain ⟨found, s₁, hget, h⟩ := runs_bind.mp h
  obtain ⟨hfound, hsame⟩ := runs_getByUsername hget
  cases found with
  | none => exact (runs_raise.mp h).elim
  | some user =>
    obtain ⟨verified, s₂, hverify, h⟩ := runs_bind.mp h
    unfold verifyPassword at hverify
    split at hverify
    · rename_i hok
      obtain ⟨rfl, rfl⟩ := runs_pure.mp hverify
      obtain ⟨hadds, hip, hua⟩ := runs_openSession h
      exact ⟨user, hfound.symm, hok, hsame.adds.trans hadds, hip, hua⟩
    · obtain ⟨rfl, rfl⟩ := runs_pure.mp hverify
      exact (runs_raise.mp h).elim
    · exact (runs_raise.mp hverify).elim

/-- An administrator is only created while there is no user, under a name that fits. -/
theorem runs_createAdmin {username password : String} {user : User}
    (h : (AuthService.createAdmin username password).Runs (soloExec P) s user s') :
    s.view.users = [] ∧ (varchar 150 username).isSome = true := by
  obtain ⟨found, s₁, hexists, h⟩ := runs_bind.mp h
  obtain ⟨count, s₂, hcount, hfound⟩ := runs_bind.mp hexists
  obtain ⟨r, hran, rfl⟩ := runs_execute hcount
  obtain ⟨locked, hrun⟩ := hran.run
  simp only [Stmt.run, pure_eq_ok] at hrun
  subst hrun
  obtain ⟨rfl, rfl⟩ := runs_pure.mp hfound
  split at h
  · exact (runs_raise.mp h).elim
  · rename_i hnone
    obtain ⟨hash, s₃, hhash, hcreate⟩ := runs_bind.mp h
    obtain ⟨id, s₄, hins, href⟩ := runs_bind.mp hcreate
    obtain ⟨r', hran', -⟩ := runs_execute hins
    obtain ⟨locked', hrun'⟩ := hran'.run
    simp only [Stmt.run, bind_eq_ok, accepted_eq_ok] at hrun'
    obtain ⟨name, hname, -⟩ := hrun'
    refine ⟨by simpa using hnone, by rw [hname]; rfl⟩

/-! ## Stored hashes -/

/-- A hash that the change stores is one of this password. -/
def Write.Hashes (P : Platform) (password : String) : Write → Prop
  | insertUser u => ∃ salt, u.passwordHash = P.argon2Hash salt password
  | setPasswordHash _ hash => ∃ salt, hash = P.argon2Hash salt password
  | _ => True

/-- A change that is not about accounts stores no hash. -/
theorem hashes_of_effect {password : String} {w : Write} (hnew : w.effect ≠ .newUser)
    (hedit : w.effect ≠ .passwordHash) : w.Hashes P password := by
  cases w <;> trivial

theorem runs_hashPassword {password hash : String}
    (h : (await (.hashPassword password)).Runs (soloExec P) s hash s') :
    (∃ salt, hash = P.argon2Hash salt password) ∧ s.Same s' := by
  have hsame := Runs.same (P := P) (uses_await rfl) h
  unfold await at h
  rw [runs_perform] at h
  exact ⟨⟨_, (Except.ok.inj (congrArg Prod.fst h)).symm⟩, hsame⟩

theorem runs_userInsert {username hash role : String} {id : Uuid}
    (h : (execute .main (.userInsert username hash role)).Runs (soloExec P) s id s') :
    ∃ name, varchar 150 username = some name ∧
      s'.view = (Write.insertUser ⟨id, name, hash, role, none⟩).apply s.view := by
  obtain ⟨r, hran, rfl⟩ := runs_execute h
  obtain ⟨locked, hrun⟩ := hran.run
  have hview := hran.view
  simp only [Stmt.run, bind_eq_ok, accepted_eq_ok, require_eq_ok, pure_eq_ok] at hrun
  obtain ⟨name, hname, -, -, -, -, -, -, rfl⟩ := hrun
  exact ⟨name, hname, hview⟩

/-- The row of an administrator who was created. -/
theorem runs_createAdmin_row {username password : String} {user : User}
    (h : (AuthService.createAdmin username password).Runs (soloExec P) s user s') :
    ∃ row : User, varchar 150 username = some row.username ∧
      (∃ salt, row.passwordHash = P.argon2Hash salt password) ∧
      s'.view = (Write.insertUser row).apply s.view := by
  obtain ⟨found, s₁, hexists, h⟩ := runs_bind.mp h
  have hread : AuthService.adminExists.Uses (Within []) :=
    Uses.bind (uses_read rfl) fun _ => uses_pure _
  have hsame := Runs.same hread hexists
  split at h
  · exact (runs_raise.mp h).elim
  · obtain ⟨hash, s₂, hhash, hcreate⟩ := runs_bind.mp h
    obtain ⟨hsalt, hsame₂⟩ := runs_hashPassword hhash
    obtain ⟨id, s₃, hinsert, hrefresh⟩ := runs_bind.mp hcreate
    have hsame₃ := Runs.same (P := P) (uses_read rfl) hrefresh
    obtain ⟨name, hname, hview⟩ := runs_userInsert hinsert
    refine ⟨⟨id, name, hash, "admin", none⟩, hname, hsalt, ?_⟩
    rw [hsame₃.view, hview, hsame₂.view, hsame.view]

theorem runs_rehash_hashes {user : User} {password : String} {u : Unit}
    (h : (AuthService.rehash P user password).Runs (soloExec P) s u s') :
    s.Adds (Write.Hashes P password) s' := by
  unfold AuthService.rehash at h
  split at h
  · obtain ⟨hash, s₁, hhash, hstore⟩ := runs_bind.mp h
    obtain ⟨hsalt, hsame⟩ := runs_hashPassword hhash
    obtain ⟨r, hran, -⟩ := runs_execute hstore
    obtain ⟨locked, hrun⟩ := hran.run
    simp only [Stmt.run, bind_eq_ok, uuidParam_eq_ok, require_eq_ok, pure_eq_ok] at hrun
    obtain ⟨i, -, v, -, rfl⟩ := hrun
    refine hsame.adds.trans (hran.adds fun w hw => ?_)
    rw [List.mem_singleton.mp hw]
    exact hsalt
  · obtain ⟨-, rfl⟩ := runs_pure.mp h
    exact (Solo.Same.refl s).adds

/-- A login stores no hash but one of the password that it was given. -/
theorem runs_login_hashes {username password : String} {ip userAgent : Option String}
    {session : Session}
    (h : (AuthService.login P username password ip userAgent).Runs (soloExec P) s session s') :
    s.Adds (Write.Hashes P password) s' := by
  obtain ⟨found, s₁, hget, h⟩ := runs_bind.mp h
  obtain ⟨-, hsame⟩ := runs_getByUsername hget
  cases found with
  | none => exact (runs_raise.mp h).elim
  | some user =>
    obtain ⟨verified, s₂, hverify, h⟩ := runs_bind.mp h
    have hsame₂ : s₁.Same s₂ := by
      unfold verifyPassword at hverify
      split at hverify
      · exact (runs_pure.mp hverify).2 ▸ .refl s₁
      · exact (runs_pure.mp hverify).2 ▸ .refl s₁
      · exact (runs_raise.mp hverify).elim
    split at h
    · obtain ⟨u, s₃, hrehash, h⟩ := runs_bind.mp h
      refine (hsame.trans hsame₂).adds.trans ((runs_rehash_hashes hrehash).trans ?_)
      have hrest := Runs.adds (P := P) [.newSession, .lastLogin] (Uses.bind (uses_await rfl) fun now =>
        Uses.bind (uses_await rfl) fun secret => Uses.bind (uses_sessionCreate (by simp)) fun row =>
        Uses.bind (uses_write rfl (by simp)) fun _ => uses_pure row) (by simp) (by simp) h
      refine hrest.mono fun w hw => ?_
      rcases List.mem_pair.mp hw with he | he
      all_goals exact hashes_of_effect (by rw [he]; nofun) (by rw [he]; nofun)
    · exact (runs_raise.mp h).elim

/-! ## Refusals -/

/-- The exception does not speak about credentials. -/
def PyExc.NotAuthentication (e : PyExc) : Prop := ∀ message, e ≠ .authentication message

theorem failsWith_openSession {user : User} {password : String} {ip userAgent : Option String} :
    FailsWith (soloExec P) PyExc.NotAuthentication
      (AuthService.openSession P user password ip userAgent) := by
  have hdb : ∀ d, PyExc.NotAuthentication (.database d) := nofun
  refine FailsWith.bind ?_ fun _ => FailsWith.bind (failsWith_await fun s => ⟨_, rfl⟩) fun _ =>
    FailsWith.bind (failsWith_await fun s => ⟨_, rfl⟩) fun _ => FailsWith.bind ?_ fun _ =>
    FailsWith.bind (failsWith_execute hdb) fun _ => failsWith_pure _
  · unfold AuthService.rehash
    split
    · exact FailsWith.bind (failsWith_await fun s => ⟨_, rfl⟩) fun _ => failsWith_execute hdb
    · exact failsWith_pure _
  · exact FailsWith.bind (failsWith_execute hdb) fun _ => failsWith_execute hdb

/-- A login that is refused has only read. -/
theorem login_refused {username password message : String} {ip userAgent : Option String}
    (h : (AuthService.login P username password ip userAgent).eval (soloExec P) s =
      (.raised (.authentication message), s')) : s.Same s' := by
  have hdb : ∀ d, PyExc.NotAuthentication (.database d) := nofun
  rcases eval_bind_raised.mp h with h | ⟨found, s₁, hget, h⟩
  · exact absurd rfl ((failsWith_execute hdb _).2 _ _ h message)
  obtain ⟨-, hsame⟩ := runs_getByUsername hget
  cases found with
  | none =>
    cases h
    exact hsame
  | some user =>
    rcases eval_bind_raised.mp h with h | ⟨verified, s₂, hverify, h⟩
    · unfold verifyPassword at h
      split at h <;> cases h
    · have hsame₂ : s₁.Same s₂ := by
        unfold verifyPassword at hverify
        split at hverify <;> cases hverify <;> exact .refl s₁
      split at h
      · exact absurd rfl ((failsWith_openSession _).2 _ _ h message)
      · cases h
        exact hsame.trans hsame₂

/-- The creation of an administrator that is refused has only read. -/
theorem createAdmin_refused {username password message : String}
    (h : (AuthService.createAdmin username password).eval (soloExec P) s =
      (.raised (.authentication message), s')) : s.Same s' := by
  have hdb : ∀ d, PyExc.NotAuthentication (.database d) := nofun
  have hexists : AuthService.adminExists.Uses (Within []) :=
    Uses.bind (uses_read rfl) fun _ => uses_pure _
  rcases eval_bind_raised.mp h with h | ⟨found, s₁, hfound, h⟩
  · rcases eval_bind_raised.mp h with h | ⟨count, s₁, -, h⟩
    · exact absurd rfl ((failsWith_execute hdb _).2 _ _ h message)
    · cases h
  · split at h
    · cases h
      exact Runs.same hexists hfound
    · rcases eval_bind_raised.mp h with h | ⟨hash, s₂, -, h⟩
      · have hhash : FailsWith (soloExec P) PyExc.NotAuthentication (await (.hashPassword password)) :=
          failsWith_await fun s => ⟨_, rfl⟩
        exact absurd rfl ((hhash _).2 _ _ h message)
      · have hcreate : FailsWith (soloExec P) PyExc.NotAuthentication
            (SqlUserRepository.create username hash) :=
          FailsWith.bind (failsWith_execute hdb) fun _ => failsWith_execute hdb
        exact absurd rfl ((hcreate _).2 _ _ h message)

end Runs

/-! ## The two routes for the first account -/

section Routes
variable {P : Platform} {req : Request} {inputs : Nat → Input} {sh : Shared}

variable (P req inputs sh) in
/-- The form for the administrator leaves the tables, or it creates the account, advances the
wizard and logs in. -/
theorem setupAdminPost_cases (form : CredentialsForm) :
    ((Web.setupAdminPost P req form).eval (soloExec P) (Solo.init inputs sh)).2.shared.db = sh.db ∨
      ∃ username password user s₁ u s₂ session s₃, form.read = some (username, password) ∧
        (AuthService.createAdmin username password).Runs (soloExec P) (Solo.init inputs sh)
          user s₁ ∧
        (SetupStateService.advance "admin_account").Runs (soloExec P) s₁ u s₂ ∧
        (AuthService.login P username password req.clientHost req.userAgent).Runs (soloExec P) s₂
          session s₃ ∧
        ((Web.setupAdminPost P req form).eval (soloExec P)
          (Solo.init inputs sh)).2.shared.db = s₃.view := by
  refine (withForm_db (P := P)
    [.newUser, .newSetup, .editSetup, .lastLogin, .passwordHash, .newSession]
    (fun credentials => Uses.bind ?_ fun refused => ?_) (by simp) (Solo.init inputs sh)).elim
    .inl ?_
  rotate_left 2
  · rintro ⟨⟨username, password⟩, r, s', hform, hrun, -, hdb⟩
    obtain ⟨refused, s₁, hcreate, hrest⟩ := runs_bind.mp hrun
    rcases runs_tryCatch.mp hcreate with hcreate | ⟨e, s₂, hraised, hcatch⟩
    · obtain ⟨user, s₂, hcreated, hreturn⟩ := runs_bind.mp hcreate
      obtain ⟨rfl, rfl⟩ := runs_pure.mp hreturn
      obtain ⟨u, s₃, hadvance, hrest⟩ := runs_bind.mp hrest
      obtain ⟨session, s₄, hlogin, hreturn⟩ := runs_bind.mp hrest
      obtain ⟨-, rfl⟩ := runs_pure.mp hreturn
      exact .inr ⟨username, password, user, _, u, s₃, session, _, hform, hcreated, hadvance,
        hlogin, hdb⟩
    · split at hcatch
      · obtain ⟨rfl, rfl⟩ := runs_pure.mp hcatch
        obtain ⟨-, rfl⟩ := runs_pure.mp hrest
        rcases eval_bind_raised.mp hraised with hraised | ⟨user, s₃, -, hpure⟩
        · refine .inl (hdb.trans ?_)
          rw [(createAdmin_refused hraised).view]
          rfl
        · cases hpure
      · exact (runs_raise.mp hcatch).elim
  · refine Uses.tryCatch (Uses.bind (uses_createAdmin (by simp)) fun _ => uses_pure _)
      fun exc => ?_
    split <;> simp
  · cases refused with
    | some message => exact uses_pure _
    | none =>
      exact Uses.bind (uses_advance (by simp) (by simp)) fun _ =>
        Uses.bind (uses_login (by simp) (by simp) (by simp)) fun _ => uses_pure _

/-- The JSON route for the administrator leaves the tables, or it is given valid credentials,
finds the wizard incomplete, creates the account and advances the wizard. -/
theorem setupAdmin_cases {body : JsonBody AdminCreateRequest} :
    ((Api.setupAdmin body).eval (soloExec P) (Solo.init inputs sh)).2.shared.db = sh.db ∨
      ∃ c user u₀ s₀ s₁ u s₂, body = .typed c ∧ c.valid = true ∧
        Api.requireIncomplete.Runs (soloExec P) (Solo.init inputs sh) u₀ s₀ ∧
        (AuthService.createAdmin c.username c.password).Runs (soloExec P) s₀ user s₁ ∧
        (SetupStateService.advance "admin_account").Runs (soloExec P) s₁ u s₂ ∧
        ((Api.setupAdmin body).eval (soloExec P) (Solo.init inputs sh)).2.shared.db = s₂.view := by
  have hdeps : (Pure.pure () : Code Unit).Uses (Within [.newUser, .newSetup, .editSetup]) :=
    uses_pure ()
  refine (withBody_db (P := P) body (checked AdminCreateRequest.valid) hdeps
    (fun _ c => Uses.bind (uses_requireIncomplete (by simp)) fun _ =>
      Uses.bind (Uses.tryCatch (uses_createAdmin (by simp)) fun exc => ?_) fun _ =>
      Uses.bind (uses_advance (by simp) (by simp)) fun _ => uses_pure _) (by simp)
    (Solo.init inputs sh)).elim .inl ?_
  rotate_left
  · rintro ⟨d, s₀, b, c, r, s', hdeps, hbody, hvalid, hrun, -, hdb⟩
    obtain ⟨-, rfl⟩ := runs_pure.mp hdeps
    obtain ⟨hv, rfl⟩ := checked_eq_some.mp hvalid
    obtain ⟨u₀, s₁, hguard, hrun⟩ := runs_bind.mp hrun
    obtain ⟨user, s₂, hcatch, hrun⟩ := runs_bind.mp hrun
    obtain ⟨u, s₃, hadvance, hreturn⟩ := runs_bind.mp hrun
    obtain ⟨-, rfl⟩ := runs_pure.mp hreturn
    rcases runs_tryCatch.mp hcatch with hcreate | ⟨e, s₄, -, hraise⟩
    · exact .inr ⟨b, user, u₀, s₁, s₂, u, _, hbody, hv, hguard, hcreate, hadvance, hdb⟩
    · split at hraise <;> exact (runs_raise.mp hraise).elim
  · split <;> simp

end Routes

end WolMonkey
