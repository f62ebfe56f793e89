import WolMonkey.Facts.Accounts
import WolMonkey.Facts.Settings
import WolMonkey.Facts.Undisturbed
import WolMonkey.Facts.Wizard

/-!
# Forms that nothing disturbs

When the calls of the setup wizard return: on a row whose texts are stored, for settings
that can be stored, for the first account under a name that fits its column, and for a login
with the password of a stored account. What they leave is what the facts about returning
calls say.
-/

namespace WolMonkey

open Programs Program

/-- Both sessions are open, and that of the job queue has changed nothing. -/
def Solo.Open (inputs : Nat → Input) (s : Solo) : Prop := ∃ db main, s.At inputs db main []

theorem Solo.open_init (inputs : Nat → Input) (sh : Shared) : (Solo.init inputs sh).Open inputs :=
  ⟨_, _, Solo.at_init inputs sh⟩

/-- The finished steps are texts that the column holds. -/
def SetupState.Stored (x : SetupState) : Prop := x.completedSteps.all textOk = true

theorem SetupState.Stored.advanced {x : SetupState} (h : x.Stored) {step : String}
    (hstep : textOk step = true) : (x.advanced step).Stored := by
  unfold SetupState.Stored SetupState.advanced SetupStateService.markStep
  dsimp only
  split
  · exact h
  · rw [List.all_append, List.all_cons, List.all_nil, hstep, Bool.and_true, Bool.and_true]
    exact h

theorem SetupState.Stored.erase {x : SetupState} (h : x.Stored) (step prev : String) :
    ((x.completedSteps.erase step).erase prev).all textOk = true := by
  rw [List.all_eq_true]
  intro t ht
  have hmem : t ∈ x.completedSteps := List.mem_of_mem_erase (List.mem_of_mem_erase ht)
  exact List.all_eq_true.mp h t hmem

theorem SetupState.Stored.retreated {x : SetupState} (h : x.Stored) (step : String) :
    (x.retreated step).Stored := by
  unfold SetupState.Stored SetupState.retreated
  split
  · exact h.erase _ _
  · exact h

/-- The request has an address and a user agent that a session can store, and a new
identifier and a new secret for it. -/
structure SessionFits (P : Platform) (inputs : Nat → Input) (ip userAgent : Option String)
    (db : Database) : Prop where
  ip : (nullable P.inet ip).isSome = true
  userAgent : userAgent.all textOk = true
  fresh : ∀ n, db.sessions.any (·.id == (inputs n).fresh) = false
  secret : ∀ n, (varchar 128 (inputs n).random).isSome = true

section Steps
variable {P : Platform} {inputs : Nat → Input} {s : Solo}

theorem textOk_of_storableStep {step : String} (h : storableStep step = true) :
    textOk step = true := by
  unfold storableStep at h
  exact (Bool.and_eq_true_iff.mp h).2

section Undisturbed
variable (hfault : ∀ n, (inputs n).fault = none)
include hfault

/-- A statement that the database accepts. -/
theorem Solo.Open.execute (h : s.Open inputs) (st : Stmt) (hst : st.effect ≠ some .lockJob)
    (hrun : ∀ n locked, ∃ r, st.run P (inputs n) locked s.view = .ok r) :
    (WolMonkey.execute .main st).Completes (soloExec P) s fun _ s' => s'.Open inputs := by
  obtain ⟨db, main, hat⟩ := h
  obtain ⟨k, hinput, hlater⟩ := hat.input
  obtain ⟨r, hr⟩ := hrun k (lockedJobs [] s.store .main)
  have hactive : s.store.main.status = .active := by rw [hat.store]
  have hran := runs_execute_iff (P := P).mpr ⟨hactive, by rw [hinput]; exact hfault k, r,
    by rw [hinput]; exact hr, rfl, rfl⟩
  have hlocks : r.locks = [] := Stmt.run_locks hst r hr
  refine ⟨_, _, hran, db, main ++ r.writes, (s.ran_db _).trans hat.db, ?_, k + 1, hlater⟩
  simp only [Solo.ran, hat.store, Store.setTx, hlocks, List.append_nil]

omit hfault in
/-- An operation beside the database that answers. -/
theorem Solo.Open.ask (h : s.Open inputs) (op : Op) (a : Input → op.Answer)
    (hanswer : ∀ inp sh st, executeOp P op inp [] sh st = (.ok (a inp), sh, st)) :
    (await op).Completes (soloExec P) s fun b s' => (∃ n, b = a (inputs n)) ∧ s'.Open inputs := by
  obtain ⟨db, main, hat⟩ := h
  refine (hat.ask op a hanswer).mono ?_
  rintro b s' ⟨n, hb, h'⟩
  exact ⟨⟨n, hb⟩, db, main, h'⟩

/-! ## The wizard's row -/

theorem completes_get (h : s.Open inputs) :
    SqlSetupStateRepository.get.Completes (soloExec P) s fun _ s' => s'.Open inputs := by
  have hget := h.execute (P := P) hfault .setupGet (by simp [Stmt.effect]) fun n locked => ⟨_, rfl⟩
  refine (hget.and_runs fun _ _ hrun => runs_setupGet hrun).bind ?_
  rintro found s₁ ⟨h₁, hfound, hsame⟩
  cases found with
  | some model => exact completes_pure h₁
  | none =>
    have hnone : s₁.view.setupState = none := by rw [hsame.view, ← hfound]
    have hinsert := h₁.execute (P := P) hfault (.setupInsert SetupState.initial)
      (by simp [Stmt.effect]) fun n locked => ⟨_, by simp only [Stmt.run, hnone]; rfl⟩
    refine (hinsert.and_runs fun _ _ hrun => runs_setupInsert hrun).bind ?_
    rintro u s₂ ⟨h₂, -, hview⟩
    exact h₂.execute hfault .setupRefresh (by simp [Stmt.effect]) fun n locked => by
      rw [hview]
      exact ⟨_, rfl⟩

section Update
variable {c : SetupColumns} (hstep : c.currentStep.all storableStep = true)
  (hsteps : c.completedSteps.all (·.all textOk) = true)
include hstep hsteps

omit hfault in
/-- The database accepts an update of the row. -/
theorem run_setupUpdate (loaded : SetupState) (inp : Input) (locked : List Uuid) (db : Database) :
    ∃ r, (Stmt.setupUpdate loaded c).run P inp locked db = .ok r := by
  simp only [Stmt.run]
  split
  · exact ⟨_, rfl⟩
  · simp only [SetupColumns.changedFrom, nullable_eq_self (changed_all hstep),
      changed_all hsteps]
    exact ⟨_, rfl⟩

theorem completes_update (h : s.Open inputs) :
    (SqlSetupStateRepository.update c).Completes (soloExec P) s fun _ s' => s'.Open inputs := by
  have hget := h.execute (P := P) hfault .setupGet (by simp [Stmt.effect]) fun n locked => ⟨_, rfl⟩
  refine (hget.and_runs fun _ _ hrun => runs_setupGet hrun).bind ?_
  rintro found s₁ ⟨h₁, hfound, hsame⟩
  have hrefresh : ∀ {s₂ : Solo} {x : SetupState}, s₂.Open inputs → s₂.view = s₁.view.withSetup x →
      (execute .main .setupRefresh).Completes (soloExec P) s₂ fun _ s' => s'.Open inputs := by
    intro s₂ x h₂ hview
    exact h₂.execute hfault .setupRefresh (by simp [Stmt.effect]) fun n locked => by
      rw [hview]
      exact ⟨_, rfl⟩
  cases found with
  | some model =>
    have hloaded : s₁.view.setupState = some model := by rw [hsame.view, ← hfound]
    have hassign := h₁.execute (P := P) hfault (.setupUpdate model c) (by simp [Stmt.effect])
      fun n locked => run_setupUpdate hstep hsteps model _ _ _
    refine (hassign.and_runs fun _ _ hrun => runs_setupUpdate hstep hloaded hrun).bind ?_
    rintro u s₂ ⟨h₂, hview⟩
    exact hrefresh h₂ hview
  | none =>
    have hnone : s₁.view.setupState = none := by rw [hsame.view, ← hfound]
    have hassign := h₁.execute (P := P) hfault (.setupInsert (SetupState.initial.set c))
      (by simp [Stmt.effect]) fun n locked => ⟨_, by simp only [Stmt.run, hnone]; rfl⟩
    refine (hassign.and_runs fun _ _ hrun => runs_setupInsert hrun).bind ?_
    rintro u s₂ ⟨h₂, -, hview⟩
    exact hrefresh h₂ hview

end Update

theorem completes_isComplete (h : s.Open inputs) :
    SetupStateService.isComplete.Completes (soloExec P) s fun b s' =>
      b = s.view.setup.completed ∧ s'.Open inputs ∧ s'.view = s.view.withSetup s.view.setup := by
  have hread : SetupStateService.isComplete.Completes (soloExec P) s fun _ s' => s'.Open inputs :=
    (completes_get hfault h).bind fun _ _ h₁ => completes_pure h₁
  refine (hread.and_runs fun _ _ hrun => runs_isComplete hrun).mono ?_
  rintro b s' ⟨h', hb, hview⟩
  exact ⟨hb, h', hview⟩

/-- `advance` on a step of the wizard. -/
theorem completes_advance {step : String} (hmem : step ∈ wizardSteps) (h : s.Open inputs)
    (hstored : s.view.setup.Stored) :
    (SetupStateService.advance step).Completes (soloExec P) s fun _ s' =>
      s'.Open inputs ∧ s'.view = s.view.withSetup (s.view.setup.advanced step) := by
  obtain ⟨hstep, hnext⟩ := storableStep_of_mem hmem
  have hadvanced : (s.view.setup.advanced step).Stored :=
    hstored.advanced (textOk_of_storableStep hstep)
  have hupdates : (SetupStateService.advance step).Completes (soloExec P) s fun _ s' =>
      s'.Open inputs := by
    refine ((completes_get hfault h).and_runs fun _ _ hrun => runs_get hrun).bind ?_
    rintro x s₁ ⟨h₁, rfl, -⟩
    dsimp only
    split
    · exact (completes_update hfault (by exact hstep) (by exact hadvanced) h₁).bind
        fun _ _ h₂ => completes_pure h₂
    · exact (completes_update hfault (by exact hnext) (by exact hadvanced) h₁).bind
        fun _ _ h₂ => completes_pure h₂
  exact hupdates.and_runs fun _ _ hrun => runs_advance_of_mem hmem hrun

/-! ## Settings -/

theorem completes_set {key : String} {value : Scalar} (hkey : varchar 100 key = some key)
    (htext : textOk key = true) (hvalue : value.storable = true) (h : s.Open inputs) :
    (SettingsService.set key value).Completes (soloExec P) s fun _ s' => s'.Open inputs := by
  have hget := h.execute (P := P) hfault (.settingGet key) (by simp [Stmt.effect])
    fun n locked => ⟨_, by simp only [Stmt.run, htext]; rfl⟩
  refine (hget.and_runs fun _ _ hrun => runs_settingGet hrun).bind ?_
  rintro found s₁ ⟨h₁, hfound, hsame⟩
  cases found with
  | none =>
    have hnone : s₁.view.settings.any (·.key == key) = false := by
      rw [hsame.view, List.any_eq_false]
      intro r hr
      exact List.find?_eq_none.mp hfound.symm r hr
    refine h₁.execute hfault (.settingInsert key value) (by simp [Stmt.effect])
      fun n locked => ?_
    simp only [Stmt.run, bind_eq_ok, accepted_eq_ok, require_eq_ok, pure_eq_ok]
    exact ⟨_, key, hkey, (), hvalue, (), by rw [hnone]; rfl, rfl⟩
  | some model =>
    refine h₁.execute hfault (.settingUpdate model value) (by simp [Stmt.effect])
      fun n locked => ?_
    simp only [Stmt.run]
    split
    · exact ⟨_, rfl⟩
    · exact ⟨_, by rw [hvalue]; rfl⟩

theorem completes_saveNetwork {body : NetworkConfigRequest}
    (hinterface : textOk body.wakeInterface = true)
    (hstrategy : textOk body.defaultWakeStrategy = true) (h : s.Open inputs) :
    (Api.saveNetwork body).Completes (soloExec P) s fun _ s' => s'.Open inputs := by
  have hfirst : (Scalar.str body.wakeInterface).storable = true := hinterface
  have hsecond : (Scalar.str body.defaultWakeStrategy).storable = true := hstrategy
  refine (completes_set hfault (by decide) (by decide) hfirst h).bind fun _ s₁ h₁ => ?_
  refine (completes_set hfault (by decide) (by decide) hsecond h₁).bind fun _ s₂ h₂ => ?_
  exact completes_set hfault (by decide) (by decide) rfl h₂

/-! ## Accounts -/

/-- The first account, under a name that fits its column. -/
theorem completes_createAdmin {username password : String}
    (hname : (varchar 150 username).isSome = true)
    (hhash : ∀ n, textOk (P.argon2Hash (inputs n).random password) = true)
    (hnone : s.view.users = []) (h : s.Open inputs) :
    (AuthService.createAdmin username password).Completes (soloExec P) s fun _ s' =>
      s'.Open inputs := by
  obtain ⟨name, hname⟩ := Option.isSome_iff_exists.mp hname
  have hcount := h.execute (P := P) hfault .userCount (by simp [Stmt.effect])
    fun n locked => ⟨_, rfl⟩
  have hexists : AuthService.adminExists.Completes (soloExec P) s fun found s' =>
      found = false ∧ s'.Open inputs ∧ s.Same s' := by
    refine (hcount.and_runs fun _ _ hrun => runs_execute hrun).bind ?_
    rintro count s₁ ⟨h₁, r, hran, rfl⟩
    obtain ⟨locked, hrun⟩ := hran.run
    have hwrites := hran.writes
    cases hrun
    refine completes_pure ⟨?_, h₁, hran.db, by rw [hwrites, List.append_nil]⟩
    rw [decide_eq_false_iff_not, hnone]
    exact Nat.lt_irrefl 0
  refine hexists.bind ?_
  rintro found s₁ ⟨rfl, h₁, hsame⟩
  have hask := h₁.ask (.hashPassword password) (fun inp => P.argon2Hash inp.random password)
    fun _ _ _ => rfl
  refine (hask.and_runs fun _ _ hrun => runs_hashPassword hrun).bind ?_
  rintro hash s₂ ⟨⟨⟨n, rfl⟩, h₂⟩, -, hsame₂⟩
  have hempty : s₂.view.users = [] := by rw [hsame₂.view, hsame.view, hnone]
  have hinsert := h₂.execute (P := P) hfault
    (.userInsert username (P.argon2Hash (inputs n).random password) "admin")
    (by simp [Stmt.effect]) fun k locked => by
      simp only [Stmt.run, bind_eq_ok, accepted_eq_ok, require_eq_ok, pure_eq_ok, hempty]
      exact ⟨_, name, hname, (), hhash n, (), rfl, (), rfl, rfl⟩
  refine (hinsert.and_runs fun _ _ hrun => runs_userInsert hrun).bind ?_
  rintro id s₃ ⟨h₃, name', -, hview⟩
  refine h₃.execute hfault (.userRefresh id) (by simp [Stmt.effect]) fun k locked => ?_
  rw [hview]
  exact ⟨⟨_, [], []⟩, by simp [Stmt.run, Write.apply, hempty]; rfl⟩

omit hfault in
/-- Storing another hash keeps the sessions and the identifiers of the users. -/
theorem untouched_rehash :
    Untouched (fun w => w.effect ∈ [Effect.passwordHash])
      (fun db => (db.sessions, db.users.map (·.id))) := by
  intro w db hw
  cases w with
  | setPasswordHash i hash => exact Prod.ext rfl (map_updateRows fun u => rfl)
  | _ => simp [Write.effect] at hw

omit hfault in
theorem runs_sessionInsert {userId secret : String} {expiresAt : DateTime}
    {ip userAgent : Option String} {id : Uuid} {s s' : Solo}
    (h : (execute .main (.sessionInsert userId secret expiresAt ip userAgent)).Runs (soloExec P) s
      id s') :
    ∃ row, row.id = id ∧ s'.view = (Write.insertSession row).apply s.view := by
  obtain ⟨r, hran, rfl⟩ := runs_execute h
  obtain ⟨locked, hrun⟩ := hran.run
  have hview := hran.view
  simp only [Stmt.run, bind_eq_ok, pure_eq_ok] at hrun
  obtain ⟨uid, -, sec, -, ipv, -, -, -, -, -, -, -, rfl⟩ := hrun
  exact ⟨_, rfl, hview⟩

section Login
variable {user : User} {username password : String} {ip userAgent : Option String}
  (hhash : ∀ n, textOk (P.argon2Hash (inputs n).random password) = true)
include hhash

theorem completes_rehash (h : s.Open inputs) :
    (AuthService.rehash P user password).Completes (soloExec P) s fun _ s' => s'.Open inputs := by
  unfold AuthService.rehash
  split
  · refine (h.ask (.hashPassword password) (fun inp => P.argon2Hash inp.random password)
      fun _ _ _ => rfl).bind ?_
    rintro hash s₁ ⟨⟨n, rfl⟩, h₁⟩
    refine h₁.execute hfault _ (by simp [Stmt.effect]) fun k locked => ?_
    simp only [Stmt.run, bind_eq_ok, uuidParam_eq_ok, require_eq_ok, pure_eq_ok]
    exact ⟨_, user.id, Uuid.parse?_text _, (), hhash n, rfl⟩
  · exact completes_pure h

theorem completes_openSession (huser : user ∈ s.view.users)
    (hfits : SessionFits P inputs ip userAgent s.view) (h : s.Open inputs) :
    (AuthService.openSession P user password ip userAgent).Completes (soloExec P) s fun _ s' =>
      s'.Open inputs := by
  have hkeeps : ∀ u s', (AuthService.rehash P user password).Runs (soloExec P) s u s' →
      (s'.view.sessions, s'.view.users.map (·.id)) = (s.view.sessions, s.view.users.map (·.id)) :=
    fun u s' hrun => (Runs.adds [.passwordHash] (uses_rehash (by simp)) (by simp) (by simp)
      hrun).keeps untouched_rehash
  refine ((completes_rehash hfault hhash h).and_runs hkeeps).bind ?_
  rintro u s₁ ⟨h₁, hkept⟩
  obtain ⟨hsessions, hids⟩ := Prod.mk.inj hkept
  refine ((h₁.ask .now (fun inp => inp.now) fun _ _ _ => rfl).and_runs
    fun _ _ hrun => (runs_now hrun).2).bind ?_
  rintro now s₂ ⟨⟨-, h₂⟩, hsame₂⟩
  refine ((h₂.ask (.tokenHex 32) (fun inp => inp.random) fun _ _ _ => rfl).and_runs
    fun _ _ hrun => Runs.same (uses_await rfl) hrun).bind ?_
  rintro secret s₃ ⟨⟨⟨n, rfl⟩, h₃⟩, hsame₃⟩
  have hview : s₃.view = s₁.view := by rw [hsame₃.view, hsame₂.view]
  have howner : s₃.view.users.any (·.id == user.id) = true := by
    rw [hview]
    obtain ⟨u', hu', hid⟩ := List.mem_map.mp (hids ▸ List.mem_map_of_mem huser :
      user.id ∈ s₁.view.users.map (·.id))
    exact List.any_eq_true.mpr ⟨u', hu', beq_iff_eq.mpr hid⟩
  refine Completes.bind (Q := fun _ s' => s'.Open inputs) ?_ fun session s₄ h₄ => ?_
  · obtain ⟨secret, hsecret⟩ := Option.isSome_iff_exists.mp (hfits.secret n)
    obtain ⟨address, haddress⟩ := Option.isSome_iff_exists.mp hfits.ip
    refine ((h₃.execute hfault _ (by simp [Stmt.effect]) fun k locked => ?_).and_runs
      fun _ _ hrun => runs_sessionInsert hrun).bind ?_
    · simp only [Stmt.run, bind_eq_ok, uuidParam_eq_ok, accepted_eq_ok, require_eq_ok, pure_eq_ok]
      refine ⟨_, user.id, Uuid.parse?_text _, secret, hsecret, address, haddress, (),
        hfits.userAgent, (), ?_, (), howner, rfl⟩
      rw [hview, hsessions, hfits.fresh k]
      rfl
    · rintro id s₄ ⟨h₄, row, hid, hview₄⟩
      refine h₄.execute hfault _ (by simp [Stmt.effect]) fun k locked => ?_
      obtain ⟨found, hfound⟩ : ∃ found, s₄.view.sessions.find? (·.id == id) = some found := by
        rw [← Option.isSome_iff_exists, List.find?_isSome, hview₄]
        exact ⟨row, List.mem_append_right _ (List.mem_singleton.mpr rfl), beq_iff_eq.mpr hid⟩
      simp only [Stmt.run, hfound]
      exact ⟨_, rfl⟩
  · refine (h₄.execute hfault (.userSetLastLogin user.id.text) (by simp [Stmt.effect])
      fun k locked => ?_).bind fun _ _ h₅ => completes_pure h₅
    simp only [Stmt.run, bind_eq_ok, uuidParam_eq_ok, pure_eq_ok]
    exact ⟨_, user.id, Uuid.parse?_text _, rfl⟩

/-- A login with the password of the account. -/
theorem completes_login (hname : textOk username = true)
    (hfound : s.view.users.find? (·.username == username) = some user)
    (hverified : P.argon2Verify user.passwordHash password = .verified)
    (hfits : SessionFits P inputs ip userAgent s.view) (h : s.Open inputs) :
    (AuthService.login P username password ip userAgent).Completes (soloExec P) s fun _ s' =>
      s'.Open inputs := by
  have hget := h.execute (P := P) hfault (.userByUsername username) (by simp [Stmt.effect])
    fun n locked => ⟨_, by simp only [Stmt.run, hname]; rfl⟩
  refine (hget.and_runs fun _ _ hrun => runs_getByUsername hrun).bind ?_
  rintro found s₁ ⟨h₁, hfound₁, hsame⟩
  obtain rfl : found = some user := hfound₁.trans hfound
  have hverify : (verifyPassword P password user.passwordHash).Completes (soloExec P) s₁
      fun ok s' => ok = true ∧ s' = s₁ := by
    unfold verifyPassword
    rw [hverified]
    exact completes_pure ⟨rfl, rfl⟩
  refine hverify.bind ?_
  rintro ok s₂ ⟨rfl, rfl⟩
  refine completes_openSession hfault hhash ?_ ?_ h₁
  · rw [hsame.view]
    exact List.mem_of_find?_eq_some hfound
  · rw [hsame.view]
    exact hfits

end Login

/-! ## Sessions -/

/-- A body that returns is committed: its tables are those that it saw in the end. -/
theorem completes_session {α : Type} {body : Code α} {Q : α → Database → Prop}
    (h : body.Completes (soloExec P) s fun a s' => s'.Open inputs ∧ Q a s'.view) :
    (getDbSession body).Completes (soloExec P) s fun a s' => Q a s'.shared.db := by
  refine (completes_getDbSession (Q := Q) hfault (h.mono ?_)).mono ?_
  · rintro a s' ⟨⟨db, main, hat⟩, hQ⟩
    have hview : s'.view = db.after main := by rw [Solo.view, hat.db, hat.store]
    exact ⟨db, main, hat, by rwa [← hview]⟩
  · rintro a s' ⟨db, hat, hQ⟩
    rwa [hat.db]

end Undisturbed
end Steps

/-! ## The form for the first account -/

/-- The database and the login accept the credentials: the name fits its column, Argon2
verifies its own hash of the password, and the session can be stored. -/
structure AccountFits (P : Platform) (req : Request) (inputs : Nat → Input) (db : Database)
    (username password : String) : Prop where
  name : varchar 150 username = some username
  text : textOk username = true
  hash : ∀ salt, textOk (P.argon2Hash salt password) = true
  verify : ∀ salt, P.argon2Verify (P.argon2Hash salt password) password = .verified
  session : SessionFits P inputs req.clientHost req.userAgent db

section Account
variable {P : Platform} {inputs : Nat → Input} {req : Request} {sh : Shared}

theorem completes_setupAdminPost {form : CredentialsForm} {username password : String}
    (hfault : ∀ n, (inputs n).fault = none) (hform : form.read = some (username, password))
    (hnone : sh.db.users = []) (hfits : AccountFits P req inputs sh.db username password)
    (hstored : sh.db.setup.Stored) :
    (Web.setupAdminPost P req form).Completes (soloExec P) (Solo.init inputs sh) fun r s' =>
      r.status = 303 ∧ s'.shared.db.users ≠ [] ∧
        s'.shared.db.setup = sh.db.setup.advanced "admin_account" := by
  unfold Web.setupAdminPost withForm
  rw [hform]
  refine completes_session (Q := fun (r : Response) db => r.status = 303 ∧ db.users ≠ [] ∧
    db.setup = sh.db.setup.advanced "admin_account") hfault ?_
  have hempty : (Solo.init inputs sh).view.users = [] := hnone
  have hcreate := completes_createAdmin (P := P) hfault (by rw [hfits.name]; rfl)
    (fun n => hfits.hash _) hempty (Solo.open_init inputs sh)
  refine Completes.bind (Q := fun refused s₁ => refused = none ∧ s₁.Open inputs ∧
    ∃ row : User, row.username = username ∧
      (∃ salt, row.passwordHash = P.argon2Hash salt password) ∧
      s₁.view = (Write.insertUser row).apply sh.db) ?_ ?_
  · refine Completes.tryCatch ((hcreate.and_runs fun _ _ hrun => runs_createAdmin_row hrun).bind ?_)
    rintro user s₁ ⟨h₁, row, hname, hsalt, hview⟩
    rw [hfits.name] at hname
    exact completes_pure ⟨rfl, h₁, row, (Option.some.inj hname).symm, hsalt, hview⟩
  rintro refused s₁ ⟨rfl, h₁, row, hname, ⟨salt, hsalt⟩, hview₁⟩
  have hstored₁ : s₁.view.setup.Stored := by
    rw [hview₁]
    exact hstored
  refine (completes_advance hfault (by decide) h₁ hstored₁).bind ?_
  rintro u s₂ ⟨h₂, hview₂⟩
  have husers : s₂.view.users = [row] := by
    rw [hview₂, hview₁]
    exact congrArg (· ++ [row]) hnone
  have hsetup : s₂.view.setup = sh.db.setup.advanced "admin_account" := by
    rw [hview₂, hview₁]
    rfl
  have hfound : s₂.view.users.find? (·.username == username) = some row := by
    rw [husers, List.find?_singleton, if_pos (beq_iff_eq.mpr hname)]
  have hfits₂ : SessionFits P inputs req.clientHost req.userAgent s₂.view := by
    obtain ⟨hip, hua, hfresh, hsecret⟩ := hfits.session
    refine ⟨hip, hua, ?_, hsecret⟩
    rw [hview₂, hview₁]
    exact hfresh
  have hlogin := completes_login (P := P) hfault (fun n => hfits.hash _) hfits.text hfound
    (by rw [hsalt]; exact hfits.verify salt) hfits₂ h₂
  have hadds : ∀ session s', (AuthService.login P username password req.clientHost
      req.userAgent).Runs (soloExec P) s₂ session s' →
      s₂.Adds (fun w => w.effect ∈ [Effect.lastLogin, .passwordHash, .newSession]) s' :=
    fun _ _ hrun => Runs.adds _ (uses_login (by simp) (by simp) (by simp)) (by simp) (by simp) hrun
  refine (hlogin.and_runs hadds).bind ?_
  rintro session s₃ ⟨h₃, hadds⟩
  refine completes_pure ⟨h₃, rfl, ?_, ?_⟩
  · exact hadds.invariant (fun db => db.users ≠ []) (fun w db _ h => users_apply_ne_nil w h)
      (by rw [husers]; exact List.cons_ne_nil _ _)
  · exact (setup_adds hadds (by simp) (by simp)).trans hsetup

end Account

/-- The sample inputs, with an identifier that no session has. -/
theorem sessionFits_signing {db : Database} {id : Nat}
    (h : db.sessions.any (·.id == Uuid.ofNat id) = false) :
    SessionFits Platform.sample (Input.signing id) none none db := by
  refine ⟨rfl, rfl, fun _ => h, fun _ => ?_⟩
  show (varchar 128 Platform.sampleSecret).isSome = true
  decide

end WolMonkey
