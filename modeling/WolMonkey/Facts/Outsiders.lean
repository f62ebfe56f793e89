import WolMonkey.Facts.Wakes
import WolMonkey.Library.Relational

/-!
# What an outsider can tell apart

Two databases that agree on users, sessions and the setup state are indistinct for a request
without a live bearer token. The code in front of every guard ends the same way on both, and
every guard stops such a request, so that nothing behind it can tell them apart.
-/

namespace WolMonkey

open Programs Program

/-- The request bears no token that is live in the tables. -/
def NoLiveBearer (P : Platform) (db : Database) (req : Request) : Prop :=
  ∀ raw, bearerToken req.authorization = some raw → db.liveToken? P raw = none

/-- A setting holds only what a JSONB column can hold: no NUL character. -/
def Database.SettingsStorable (db : Database) : Prop :=
  ∀ r ∈ db.settings, ∀ v, r.value = .object [("v", v)] → v.storable = true

/-- The tables that are visible without a credential are the same. -/
structure Database.Indistinct (P : Platform) (req : Request) (db db' : Database) : Prop where
  users : db.users = db'.users
  sessions : db.sessions = db'.sessions
  setupState : db.setupState = db'.setupState
  storable : db.SettingsStorable ∧ db'.SettingsStorable
  bearer : NoLiveBearer P db req ∧ NoLiveBearer P db' req

/-- Two requests at the same point, with indistinct tables. -/
structure Solo.Indistinct (P : Platform) (req : Request) (s t : Solo) : Prop where
  db : s.shared.db.Indistinct P req t.shared.db
  view : s.view.Indistinct P req t.view
  rateBuckets : s.shared.rateBuckets = t.shared.rateBuckets
  status : s.store.main.status = t.store.main.status
  inputs : s.inputs = t.inputs

section Indistinct
variable {P : Platform} {req : Request} {db db' : Database} {s t : Solo}

/-! ## Changes -/

/-- The effects of the code in front of the guards on tables that are visible anyway. -/
def visible : List Effect :=
  [.newUser, .lastLogin, .passwordHash, .newSession, .endSession, .newSetup, .editSetup]

/-- The same change of visible tables keeps them indistinct. -/
theorem Database.Indistinct.apply {w : Write} (h : db.Indistinct P req db')
    (hw : w.effect ∈ visible) : (w.apply db).Indistinct P req (w.apply db') := by
  obtain ⟨husers, hsessions, hsetup, hstorable, hbearer⟩ := h
  cases w with
  | insertUser u => exact ⟨congrArg (· ++ [u]) husers, hsessions, hsetup, hstorable, hbearer⟩
  | setLastLogin id time => exact ⟨congrArg (updateRows _ _) husers, hsessions, hsetup, hstorable, hbearer⟩
  | setPasswordHash id hash => exact ⟨congrArg (updateRows _ _) husers, hsessions, hsetup, hstorable, hbearer⟩
  | insertSession x => exact ⟨husers, congrArg (· ++ [x]) hsessions, hsetup, hstorable, hbearer⟩
  | revokeSession id => exact ⟨husers, congrArg (updateRows _ _) hsessions, hsetup, hstorable, hbearer⟩
  | insertSetup x => exact ⟨husers, hsessions, rfl, hstorable, hbearer⟩
  | updateSetup c => exact ⟨husers, hsessions, congrArg (Option.map _) hsetup, hstorable, hbearer⟩
  | _ => exact absurd hw (by simp [visible, Write.effect])

theorem Database.Indistinct.after {ws : List Write} (h : db.Indistinct P req db')
    (hws : ∀ w ∈ ws, w.effect ∈ visible) : (db.after ws).Indistinct P req (db'.after ws) := by
  induction ws generalizing db db' with
  | nil => exact h
  | cons w ws ih =>
    exact ih (h.apply (hws w List.mem_cons_self)) fun v hv => hws v (List.mem_cons_of_mem _ hv)

/-- The change stores a storable value in the settings. -/
def Write.StoresSetting : Write → Prop
  | .insertSetting ⟨_, value⟩ | .updateSetting _ value =>
    ∀ v, value = .object [("v", v)] → v.storable = true
  | _ => False

theorem Write.StoresSetting.storable {w : Write} (hw : w.StoresSetting)
    (h : db.SettingsStorable) : (w.apply db).SettingsStorable := by
  cases w with
  | insertSetting x =>
    intro r hr v hv
    rcases List.mem_append.mp hr with hr | hr
    · exact h r hr v hv
    · obtain rfl := List.mem_singleton.mp hr
      exact hw v hv
  | updateSetting key value =>
    intro r hr v hv
    obtain ⟨x, hx, rfl⟩ := mem_updateRows.mp hr
    split at hv
    · exact hw v hv
    · exact h x hx v hv
  | _ => exact hw.elim

/-- Changes of settings to storable values go unnoticed. -/
theorem Database.Indistinct.settings {ws ws' : List Write} (h : db.Indistinct P req db')
    (hws : ∀ w ∈ ws, w.StoresSetting) (hws' : ∀ w ∈ ws', w.StoresSetting) :
    (db.after ws).Indistinct P req (db'.after ws') := by
  have hkeeps : ∀ {β : Type} {f : Database → β},
      (∀ x db, f (Write.apply db (.insertSetting x)) = f db) →
      (∀ key value db, f (Write.apply db (.updateSetting key value)) = f db) →
      Untouched Write.StoresSetting f := by
    intro β f hinsert hupdate w db hw
    cases w with
    | insertSetting x => exact hinsert x db
    | updateSetting key value => exact hupdate key value db
    | _ => exact hw.elim
  have hall : ∀ (db : Database) {ws : List Write}, (∀ w ∈ ws, w.StoresSetting) →
      (db.after ws).users = db.users ∧ (db.after ws).sessions = db.sessions ∧
      (db.after ws).setupState = db.setupState ∧ (db.after ws).tokens = db.tokens ∧
      (db.SettingsStorable → (db.after ws).SettingsStorable) := by
    intro db ws hws
    refine ⟨?_, ?_, ?_, ?_, fun hdb => ?_⟩
    · exact (hkeeps (fun _ _ => rfl) fun _ _ _ => rfl : Untouched _ Database.users).after hws db
    · exact (hkeeps (fun _ _ => rfl) fun _ _ _ => rfl : Untouched _ Database.sessions).after hws db
    · exact (hkeeps (fun _ _ => rfl) fun _ _ _ => rfl : Untouched _ Database.setupState).after hws db
    · exact (hkeeps (fun _ _ => rfl) fun _ _ _ => rfl : Untouched _ Database.tokens).after hws db
    · exact Reaches.invariant Database.SettingsStorable ⟨ws, hws, rfl⟩
        (fun w db hw hd => hw.storable hd) hdb
  obtain ⟨husers, hsessions, hsetup, htokens, hstorable⟩ := hall db hws
  obtain ⟨husers', hsessions', hsetup', htokens', hstorable'⟩ := hall db' hws'
  have hbearer : ∀ {db : Database} {ws : List Write}, (db.after ws).tokens = db.tokens →
      NoLiveBearer P db req → NoLiveBearer P (db.after ws) req := by
    intro db ws htokens hno raw hraw
    rw [Database.liveToken?, htokens]
    exact hno raw hraw
  exact ⟨by rw [husers, husers', h.users], by rw [hsessions, hsessions', h.sessions],
    by rw [hsetup, hsetup', h.setupState], ⟨hstorable h.storable.1, hstorable' h.storable.2⟩,
    hbearer htokens h.bearer.1, hbearer htokens' h.bearer.2⟩

/-! ## Statements -/

/-- Both statements fail in the same way, or both return and their results match. -/
def Matched {ε α β : Type} (Q : α → β → Prop) : Except ε α → Except ε β → Prop
  | .ok a, .ok b => Q a b
  | .error e, .error e' => e = e'
  | _, _ => False

/-- What is left after an operation that leaves the committed tables alone. -/
theorem Solo.Indistinct.stepped {s' t' : Solo} (h : s.Indistinct P req t)
    (hs : s'.shared.db = s.shared.db ∧ s'.shared.rateBuckets = s.shared.rateBuckets ∧
      s'.inputs = fun n => s.inputs (n + 1))
    (ht : t'.shared.db = t.shared.db ∧ t'.shared.rateBuckets = t.shared.rateBuckets ∧
      t'.inputs = fun n => t.inputs (n + 1))
    (hview : s'.view.Indistinct P req t'.view)
    (hstatus : s'.store.main.status = t'.store.main.status) : s'.Indistinct P req t' := by
  obtain ⟨hdb, hrate, hinputs⟩ := hs
  obtain ⟨hdb', hrate', hinputs'⟩ := ht
  exact ⟨by rw [hdb, hdb']; exact h.db, hview, by rw [hrate, hrate', h.rateBuckets], hstatus,
    by rw [hinputs, hinputs', h.inputs]⟩

/-- Two statements at the same point of two requests. -/
theorem alike_execute {st st' : Stmt}
    (post : st.Answer → st'.Answer → Database → Database → Prop)
    (h : s.Indistinct P req t) (hflush : st.isFlush = st'.isFlush)
    (hrun : ∀ inp locked locked', Matched
      (fun r r' => post r.answer r'.answer (s.view.after r.writes) (t.view.after r'.writes) ∧
        (s.view.after r.writes).Indistinct P req (t.view.after r'.writes))
      (st.run P inp locked s.view) (st'.run P inp locked' t.view)) :
    Alike (soloExec P) (fun a b s t => post a b s.view t.view ∧ s.Indistinct P req t)
      (fun e e' s t => e = e' ∧ s.Indistinct P req t)
      (execute .main st) (execute .main st') s t := by
  unfold execute
  have hshared : ∀ (st : Stmt) (s : Solo),
      (soloExec P (.stmt .main st) s).2.shared.db = s.shared.db ∧
        (soloExec P (.stmt .main st) s).2.shared.rateBuckets = s.shared.rateBuckets ∧
        (soloExec P (.stmt .main st) s).2.inputs = fun n => s.inputs (n + 1) := by
    intro st s
    refine ⟨executeOp_db fun _ h => (nomatch h), ?_, rfl⟩
    simp only [soloExec, executeOp]
    split <;> rfl
  have hview : s.shared.db.after s.store.main.writes = s.view ∧
      t.shared.db.after t.store.main.writes = t.view := ⟨rfl, rfl⟩
  -- a statement that fails leaves its transaction with the same new status in both runs
  have hfailed : ∀ e status,
      executeStmt P .main st (s.inputs 0) [] s.shared s.store =
        (.error (.database e), s.store.setTx .main { s.store.main with status }) →
      executeStmt P .main st' (t.inputs 0) [] t.shared t.store =
        (.error (.database e), t.store.setTx .main { t.store.main with status }) →
      Alike (soloExec P) (fun a b s t => post a b s.view t.view ∧ s.Indistinct P req t)
        (fun e e' s t => e = e' ∧ s.Indistinct P req t)
        (perform (I := app) (.stmt .main st)) (perform (I := app) (.stmt .main st')) s t := by
    intro e status hs ht
    have hreply : (soloExec P (.stmt .main st) s).1 = .error (.database e) := by
      simp only [soloExec, executeOp, hs]
    have hreply' : (soloExec P (.stmt .main st') t).1 = .error (.database e) := by
      simp only [soloExec, executeOp, ht]
    refine alike_perform_error (I := app) (.stmt .main st) (.stmt .main st') hreply hreply'
      ⟨rfl, h.stepped (hshared st s) (hshared st' t) ?_ ?_⟩
    · rw [Solo.view, Solo.view, (hshared st s).1, (hshared st' t).1]
      simp only [soloExec, executeOp, hs, ht]
      exact h.view
    · simp only [soloExec, executeOp, hs, ht]
      rfl
  have hinput : t.inputs 0 = s.inputs 0 := by rw [h.inputs]
  have hstatus := h.status
  cases hs : s.store.main.status with
  | inactive =>
    rw [hs] at hstatus
    refine hfailed .pendingRollback .inactive ?_ ?_
    · simp only [executeStmt, Store.tx, hs]
    · simp only [executeStmt, Store.tx, ← hstatus]
  | aborted =>
    rw [hs] at hstatus
    refine hfailed .inFailedTransaction (if st.isFlush then .inactive else .aborted) ?_ ?_
    · simp only [executeStmt, Store.tx, hs]
    · simp only [executeStmt, Store.tx, ← hstatus, hflush]
  | active =>
    rw [hs] at hstatus
    cases hfault : (s.inputs 0).fault with
    | some f =>
      refine hfailed .operationalError (if st.isFlush then .inactive else .aborted) ?_ ?_
      · simp only [executeStmt, Store.tx, hs, hfault]
      · simp only [executeStmt, Store.tx, ← hstatus, hinput, hfault, hflush]
    | none =>
      have hmatched := hrun (s.inputs 0) (lockedJobs [] s.store .main) (lockedJobs [] t.store .main)
      cases hr : st.run P (s.inputs 0) (lockedJobs [] s.store .main)
          (s.shared.db.after s.store.main.writes) with
      | error e =>
        cases hr' : st'.run P (s.inputs 0) (lockedJobs [] t.store .main)
            (t.shared.db.after t.store.main.writes) with
        | ok r' =>
          rw [← hview.1, hr, ← hview.2, hr'] at hmatched
          exact hmatched.elim
        | error e' =>
          rw [← hview.1, hr, ← hview.2, hr'] at hmatched
          obtain rfl : e = e' := hmatched
          refine hfailed e (if st.isFlush then .inactive
            else if e = .invalidParameter then .active else .aborted) ?_ ?_
          · cases e <;> simp [executeStmt, Store.tx, hs, hfault, hr]
          · cases e <;> simp [executeStmt, Store.tx, ← hstatus, hinput, hfault, hr', hflush]
      | ok r =>
        cases hr' : st'.run P (s.inputs 0) (lockedJobs [] t.store .main)
            (t.shared.db.after t.store.main.writes) with
        | error e' =>
          rw [← hview.1, hr, ← hview.2, hr'] at hmatched
          exact hmatched.elim
        | ok r' =>
          rw [← hview.1, hr, ← hview.2, hr'] at hmatched
          obtain ⟨hanswer, hafter⟩ := hmatched
          have hexec : (execute .main st).Runs (soloExec P) s r.answer (s.ran r) :=
            runs_execute_iff.mpr ⟨hs, hfault, r, hr, rfl, rfl⟩
          have hexec' : (execute .main st').Runs (soloExec P) t r'.answer (t.ran r') :=
            runs_execute_iff.mpr ⟨hstatus.symm, by rw [hinput]; exact hfault, r',
              by rw [hinput]; exact hr', rfl, rfl⟩
          have hran : (s.ran r).Indistinct P req (t.ran r') := by
            have hbuckets : ∀ {st : Stmt} (s : Solo) (r : Executed st),
                (s.ran r).shared.rateBuckets = s.shared.rateBuckets := by
              intro st s r
              unfold Solo.ran
              dsimp only
              split <;> rfl
            refine h.stepped ⟨s.ran_db r, hbuckets s r, rfl⟩ ⟨t.ran_db r', hbuckets t r', rfl⟩ ?_ ?_
            · rw [Solo.ran_view, Solo.ran_view]
              exact hafter
            · exact hs.trans hstatus
          refine Alike.of_runs hexec hexec' ⟨?_, hran⟩
          rw [Solo.ran_view, Solo.ran_view]
          exact hanswer

/-- The statement reads and changes only tables that are visible anyway. -/
def Stmt.isVisible : Stmt → Bool
  | userGet _ | userByUsername _ | userInsert _ _ _ | userRefresh _ | userSetLastLogin _
  | userSetPasswordHash _ _ | userCount | sessionInsert _ _ _ _ _ | sessionRefresh _
  | sessionGet _ | sessionRevoke _ | setupGet | setupInsert _ | setupUpdate _ _
  | setupRefresh => true
  | _ => false

theorem run_visible {st : Stmt} (hst : st.isVisible = true) (h : db.Indistinct P req db')
    (inp : Input) (locked locked' : List Uuid) :
    st.run P inp locked db = st.run P inp locked' db' := by
  cases st <;> first
    | exact absurd hst Bool.false_ne_true
    | simp only [Stmt.run, h.users, h.sessions, h.setupState]

theorem effect_visible {st : Stmt} (hst : st.isVisible = true) {e : Effect}
    (he : st.effect = some e) : e ∈ visible := by
  cases st <;> first
    | exact absurd hst Bool.false_ne_true
    | (cases he <;> decide)

/-- Code that ends the same way in indistinct states. -/
abbrev Blind (P : Platform) (req : Request) {α : Type} (p : Code α) : Prop :=
  Uniform (soloExec P) (Solo.Indistinct P req) p

theorem blind_visible {st : Stmt} (hst : st.isVisible = true) :
    Blind P req (execute .main st) := by
  refine uniform_iff.mpr fun s t h => ?_
  refine alike_execute (fun a b _ _ => a = b) h rfl fun inp locked locked' => ?_
  rw [run_visible hst h.view inp locked locked']
  cases hr : st.run P inp locked' t.view with
  | error e => rfl
  | ok r =>
    refine ⟨rfl, h.view.after fun w hw => ?_⟩
    exact effect_visible hst (Stmt.run_effect r hr w hw)

/-- Operations beside the database. -/
theorem blind_ask (op : Op) (a : Input → op.Answer)
    (hanswer : ∀ inp sh st, executeOp P op inp [] sh st = (.ok (a inp), sh, st)) :
    Blind P req (await op) := by
  refine uniform_perform (I := app) fun s t h => ?_
  have hs : soloExec P op s = (.ok (a (s.inputs 0)), ⟨s.shared, s.store, fun n => s.inputs (n + 1)⟩) := by
    simp only [soloExec, hanswer]
  have ht : soloExec P op t = (.ok (a (t.inputs 0)), ⟨t.shared, t.store, fun n => t.inputs (n + 1)⟩) := by
    simp only [soloExec, hanswer]
  rw [hs, ht, h.inputs]
  exact ⟨rfl, h.db, h.view, h.rateBuckets, h.status, rfl⟩

theorem blind_checkLoginRate (ip : String) : Blind P req (await (.checkLoginRate ip)) := by
  refine uniform_perform (I := app) fun s t h => ?_
  simp only [soloExec, executeOp, h.inputs, h.rateBuckets]
  exact ⟨trivial, h.db, h.view, rfl, h.status, rfl⟩

/-- Ending a transaction, with these committed tables. -/
theorem Solo.Indistinct.ended {db db' : Database} (h : s.Indistinct P req t)
    (hdb : db.Indistinct P req db') :
    Solo.Indistinct P req
      ⟨{ s.shared with db := db }, s.store.setTx .main {}, fun n => s.inputs (n + 1)⟩
      ⟨{ t.shared with db := db' }, t.store.setTx .main {}, fun n => t.inputs (n + 1)⟩ :=
  ⟨hdb, hdb, h.rateBuckets, rfl, congrArg (fun inputs n => inputs (n + 1)) h.inputs⟩

theorem blind_commit : Blind P req (await (.commit .main)) := by
  refine uniform_perform (I := app) fun s t h => ?_
  have hstatus := h.status
  have hreset := h.ended h.db
  have hcommitted := h.ended h.view
  simp only [soloExec, executeOp, executeCommit, Store.tx, ← h.inputs]
  cases hs : s.store.main.status with
  | inactive =>
    rw [hs] at hstatus
    rw [← hstatus]
    exact ⟨rfl, h.db, h.view, h.rateBuckets, h.status, rfl⟩
  | aborted =>
    rw [hs] at hstatus
    rw [← hstatus]
    rw [← h.inputs] at hreset
    cases (s.inputs 0).fault with
    | none => exact ⟨rfl, hreset⟩
    | some f => cases f <;> exact ⟨rfl, hreset⟩
  | active =>
    rw [hs] at hstatus
    rw [← hstatus]
    rw [← h.inputs] at hreset hcommitted
    cases (s.inputs 0).fault with
    | none => exact ⟨rfl, hcommitted⟩
    | some f =>
      cases f with
      | refused => exact ⟨rfl, hreset⟩
      | lost => exact ⟨rfl, hcommitted⟩

theorem blind_rollback : Blind P req (await (.rollback .main)) := by
  refine uniform_perform (I := app) fun s t h => ?_
  have hreset := h.ended h.db
  rw [← h.inputs] at hreset
  simp only [soloExec, executeOp, ← h.inputs]
  cases (s.inputs 0).fault with
  | none => exact ⟨rfl, hreset⟩
  | some f => exact ⟨rfl, hreset⟩

theorem blind_close : Blind P req (await (.close .main)) :=
  uniform_perform (I := app) fun _ _ h => ⟨rfl, h.ended h.db⟩

/-! ## Sessions of the database -/

/-- The work session of a request whose body ends the same way. -/
theorem uniformAt_getDbSession {α : Type} {body : Code α}
    (h : UniformAt (soloExec P) (Solo.Indistinct P req) body s t) :
    UniformAt (soloExec P) (Solo.Indistinct P req) (getDbSession body) s t := by
  have hcommitted : UniformAt (soloExec P) (Solo.Indistinct P req) (do
      let result ← body
      let _ ← await (.commit .main)
      return result) s t :=
    h.bind fun a => blind_commit.bind fun _ => uniform_pure a
  refine UniformAt.bind (UniformAt.tryCatch (UniformAt.tryCatch hcommitted fun e => ?_)
    fun e => ?_) fun a => ?_
  · exact blind_rollback.bind fun _ => uniform_raise e
  · exact blind_close.bind fun _ => uniform_raise e
  · exact blind_close.bind fun _ => uniform_pure a

theorem uniformAt_withBody {α β γ δ : Type} {body : JsonBody β} {validate : β → Option γ}
    {deps : Code δ} {endpoint : δ → γ → Code α} (hst : s.Indistinct P req t)
    (hd : ∀ next : δ → Code α, (∀ d, next d = raise .validation) ∨
      (∃ c, next = fun d => endpoint d c) →
      UniformAt (soloExec P) (Solo.Indistinct P req) (deps >>= next) s t) :
    UniformAt (soloExec P) (Solo.Indistinct P req) (withBody body validate deps endpoint) s t := by
  cases body with
  | malformed => exact uniformAt_raise hst _
  | mistyped => exact uniformAt_getDbSession (hd _ (.inl fun _ => rfl))
  | typed b =>
    refine uniformAt_getDbSession ?_
    cases hv : validate b with
    | none => exact hd _ (.inl fun _ => rfl)
    | some c => exact hd _ (.inr ⟨c, rfl⟩)

/-! ## Code in front of the guards -/

section Visible
variable {α : Type}

theorem blind_guardUuid {value : String} {absent : α} {query : Code α} (h : Blind P req query) :
    Blind P req (guardUuid value absent query) := by
  unfold guardUuid
  split
  · exact h
  · exact uniform_pure _

theorem blind_now : Blind P req (await .now) := blind_ask .now (fun inp => inp.now) fun _ _ _ => rfl

theorem blind_userGetById (id : String) : Blind P req (SqlUserRepository.getById id) :=
  blind_guardUuid (blind_visible rfl)

theorem blind_sessionGetById {id : String} : Blind P req (SqlSessionRepository.getById id) :=
  blind_guardUuid (blind_visible rfl)

theorem blind_setupGet : Blind P req SqlSetupStateRepository.get := by
  refine Uniform.bind (blind_visible rfl) fun found => ?_
  cases found with
  | some model => exact uniform_pure _
  | none => exact Uniform.bind (blind_visible rfl) fun _ => blind_visible rfl

theorem blind_setupUpdate {columns : SetupColumns} :
    Blind P req (SqlSetupStateRepository.update columns) := by
  refine Uniform.bind (blind_visible rfl) fun found => Uniform.bind ?_ fun _ => blind_visible rfl
  cases found with
  | some model => exact blind_visible rfl
  | none => exact blind_visible rfl

theorem blind_isComplete : Blind P req SetupStateService.isComplete :=
  Uniform.bind blind_setupGet fun _ => uniform_pure _

theorem blind_requireIncomplete : Blind P req Api.requireIncomplete := by
  refine Uniform.bind blind_isComplete fun complete => ?_
  split
  · exact uniform_raise _
  · exact uniform_pure _

theorem blind_advance {step : String} : Blind P req (SetupStateService.advance step) := by
  refine Uniform.bind blind_setupGet fun record => ?_
  dsimp only
  split
  · exact Uniform.bind blind_setupUpdate fun _ => uniform_pure _
  · exact Uniform.bind blind_setupUpdate fun _ => uniform_pure _

theorem blind_goBack {step : String} : Blind P req (SetupStateService.goBack step) := by
  refine Uniform.bind blind_setupGet fun record => ?_
  split
  · exact uniform_pure _
  · exact uniform_pure _
  · exact Uniform.bind blind_setupUpdate fun _ => uniform_pure _

theorem blind_createAdmin {username password : String} :
    Blind P req (AuthService.createAdmin username password) := by
  refine Uniform.bind (Uniform.bind (blind_visible rfl) fun _ => uniform_pure _) fun found => ?_
  split
  · exact uniform_raise _
  · refine Uniform.bind (blind_ask (.hashPassword password)
      (fun inp => P.argon2Hash inp.random password) fun _ _ _ => rfl) fun hash => ?_
    exact Uniform.bind (blind_visible rfl) fun _ => blind_visible rfl

theorem blind_openSession {user : User} {password : String} {ip userAgent : Option String} :
    Blind P req (AuthService.openSession P user password ip userAgent) := by
  refine Uniform.bind ?_ fun _ => Uniform.bind blind_now fun now => ?_
  · unfold AuthService.rehash
    split
    · exact Uniform.bind (blind_ask (.hashPassword password)
        (fun inp => P.argon2Hash inp.random password) fun _ _ _ => rfl) fun _ => blind_visible rfl
    · exact uniform_pure _
  · refine Uniform.bind (blind_ask (.tokenHex 32) (fun inp => inp.random) fun _ _ _ => rfl)
      fun secret => ?_
    refine Uniform.bind (Uniform.bind (blind_visible rfl) fun _ => blind_visible rfl) fun _ => ?_
    exact Uniform.bind (blind_visible rfl) fun _ => uniform_pure _

theorem blind_login {username password : String} {ip userAgent : Option String} :
    Blind P req (AuthService.login P username password ip userAgent) := by
  refine Uniform.bind (blind_visible rfl) fun found => ?_
  cases found with
  | none => exact uniform_raise _
  | some user =>
    refine Uniform.bind ?_ fun verified => ?_
    · unfold verifyPassword
      split
      · exact uniform_pure _
      · exact uniform_pure _
      · exact uniform_raise _
    · split
      · exact blind_openSession
      · exact uniform_raise _

theorem blind_validateSession {sessionId : String} :
    Blind P req (AuthService.validateSession sessionId) := by
  refine Uniform.bind blind_sessionGetById fun found => ?_
  cases found with
  | none => exact uniform_raise _
  | some session =>
    dsimp only
    split
    · exact uniform_raise _
    · refine Uniform.bind blind_now fun now => ?_
      split
      · exact uniform_raise _
      · have huser : Blind P req (SqlUserRepository.getById session.userId.text) :=
          blind_userGetById _
        refine Uniform.bind huser fun user => ?_
        cases user with
        | none => exact uniform_raise _
        | some user => exact uniform_pure _

/-! ## Settings -/

theorem matched_require {ok : Bool} {e : DbError} {α β : Type} {Q : α → β → Prop}
    {f : Unit → Except DbError α} {g : Unit → Except DbError β}
    (h : ok = true → Matched Q (f ()) (g ())) :
    Matched Q (require ok e >>= f) (require ok e >>= g) := by
  cases ok with
  | false => exact rfl
  | true => exact h rfl

/-- Executing the statement stores the value, if it can be stored. -/
def Stmt.Stores (P : Platform) (db : Database) (value : Scalar) (st : Stmt) : Prop :=
  ∀ inp locked, (value.storable = true ∧ ∃ r, st.run P inp locked db = .ok r ∧
      ∀ w ∈ r.writes, w.StoresSetting) ∨
    (value.storable = false ∧ st.run P inp locked db = .error .dataError)

theorem storesSetting_object {value v : Scalar} (hvalue : value.storable = true)
    (h : Jsonb.object [("v", value)] = .object [("v", v)]) : v.storable = true := by
  cases h
  exact hvalue

theorem stores_settingInsert {key : String} (hkey : varchar 100 key = some key) {value : Scalar}
    (hnone : db.settings.find? (·.key == key) = none) :
    (Stmt.settingInsert key value).Stores P db value := by
  intro inp locked
  have hfirst : (!db.settings.any (·.key == key)) = true := by
    simpa using List.find?_eq_none.mp hnone
  cases hvalue : value.storable with
  | false =>
    refine .inr ⟨rfl, ?_⟩
    simp only [Stmt.run, hkey, accepted, hvalue]
    rfl
  | true =>
    refine .inl ⟨rfl, ⟨(), [.insertSetting ⟨key, .object [("v", value)]⟩], []⟩, ?_, ?_⟩
    · simp only [Stmt.run, bind_eq_ok, accepted_eq_ok, require_eq_ok, pure_eq_ok]
      exact ⟨key, hkey, (), hvalue, (), hfirst, rfl⟩
    · intro w hw
      obtain rfl := List.mem_singleton.mp hw
      exact fun v hv => storesSetting_object hvalue hv

theorem storable_of_pyEq {v value : Scalar} (h : v.pyEq value = true) (hv : v.storable = true) :
    value.storable = true := by
  cases value with
  | str text =>
    cases v with
    | str text' =>
      obtain rfl : text' = text := by simpa [Scalar.pyEq] using h
      exact hv
    | _ => simp [Scalar.pyEq] at h
  | _ => rfl

theorem stores_settingUpdate {model : Setting} {value : Scalar} (hstorable : db.SettingsStorable)
    (hmodel : model ∈ db.settings) : (Stmt.settingUpdate model value).Stores P db value := by
  intro inp locked
  by_cases hholds : model.value.holds value = true
  · refine .inl ⟨?_, ⟨(), [], []⟩, ?_, fun _ hw => nomatch hw⟩
    · unfold Jsonb.holds at hholds
      split at hholds
      · rename_i v hv
        exact storable_of_pyEq hholds (hstorable model hmodel v hv)
      · cases hholds
    · simp only [Stmt.run, hholds, if_true]
      rfl
  · cases hvalue : value.storable with
    | false =>
      refine .inr ⟨rfl, ?_⟩
      simp only [Stmt.run, hholds, hvalue]
      rfl
    | true =>
      refine .inl ⟨rfl, ⟨(), [.updateSetting model.key (.object [("v", value)])], []⟩, ?_, ?_⟩
      · simp only [Stmt.run, hholds, hvalue]
        rfl
      · intro w hw
        obtain rfl := List.mem_singleton.mp hw
        exact fun v hv => storesSetting_object hvalue hv

/-- Two statements that store the same value. -/
theorem alike_stores {st st' : Stmt} {value : Scalar} (h : s.Indistinct P req t)
    (hflush : st.isFlush = st'.isFlush) (hst : st.Stores P s.view value)
    (hst' : st'.Stores P t.view value) :
    Alike (soloExec P) (fun _ _ s t => True ∧ s.Indistinct P req t)
      (fun e e' s t => e = e' ∧ s.Indistinct P req t)
      (execute .main st) (execute .main st') s t := by
  refine alike_execute (fun _ _ _ _ => True) h hflush fun inp locked locked' => ?_
  rcases hst inp locked with ⟨hvalue, r, hr, hwrites⟩ | ⟨hvalue, hr⟩
  · rcases hst' inp locked' with ⟨-, r', hr', hwrites'⟩ | ⟨hvalue', -⟩
    · rw [hr, hr']
      exact ⟨trivial, h.view.settings hwrites hwrites'⟩
    · rw [hvalue] at hvalue'
      cases hvalue'
  · rcases hst' inp locked' with ⟨hvalue', -⟩ | ⟨-, hr'⟩
    · rw [hvalue] at hvalue'
      cases hvalue'
    · rw [hr, hr']
      rfl

/-- Storing a value: whether there is a row, and what it holds, goes unnoticed. -/
theorem blind_settingsSet {key : String} (hkey : varchar 100 key = some key) {value : Scalar} :
    Blind P req (SettingsService.set key value) := by
  refine uniform_iff.mpr fun s t h => ?_
  refine Alike.bind (alike_execute (fun a b db db' =>
    a = db.settings.find? (·.key == key) ∧ b = db'.settings.find? (·.key == key)) h rfl
    fun inp locked locked' => ?_) ?_
  · exact matched_require fun _ => ⟨⟨rfl, rfl⟩, h.view⟩
  rintro found found' s t ⟨⟨hfound, hfound'⟩, h⟩
  have hunit : ∀ {p q : Code Unit},
      Alike (soloExec P) (fun _ _ s t => True ∧ s.Indistinct P req t)
        (fun e e' s t => e = e' ∧ s.Indistinct P req t) p q s t →
      Alike (soloExec P) (fun a b s t => a = b ∧ s.Indistinct P req t)
        (fun e e' s t => e = e' ∧ s.Indistinct P req t) p q s t :=
    fun halike => halike.mono (fun _ _ _ _ hpost => ⟨rfl, hpost.2⟩) fun _ _ _ _ hfailed => hfailed
  have hinsert : ∀ {db : Database}, none = db.settings.find? (·.key == key) →
      (Stmt.settingInsert key value).Stores P db value := fun h => stores_settingInsert hkey h.symm
  have hupdate : ∀ {db : Database} {model : Setting}, db.SettingsStorable →
      some model = db.settings.find? (·.key == key) →
      (Stmt.settingUpdate model value).Stores P db value :=
    fun hdb h => stores_settingUpdate hdb (List.mem_of_find?_eq_some h.symm)
  obtain ⟨hstorable, hstorable'⟩ := h.view.storable
  cases found with
  | none =>
    have hst := hinsert hfound
    cases found' with
    | none =>
      have hst' := hinsert hfound'
      exact hunit (alike_stores h (by rfl) hst hst')
    | some model' =>
      have hst' := hupdate hstorable' hfound'
      exact hunit (alike_stores h (by rfl) hst hst')
  | some model =>
    have hst := hupdate hstorable hfound
    cases found' with
    | none =>
      have hst' := hinsert hfound'
      exact hunit (alike_stores h (by rfl) hst hst')
    | some model' =>
      have hst' := hupdate hstorable' hfound'
      exact hunit (alike_stores h (by rfl) hst hst')

theorem blind_saveNetwork {body : NetworkConfigRequest} : Blind P req (Api.saveNetwork body) := by
  refine Uniform.bind (blind_settingsSet (by decide)) fun _ => ?_
  exact Uniform.bind (blind_settingsSet (by decide)) fun _ => blind_settingsSet (by decide)

/-! ## Guards -/

theorem blind_getCurrentSessionAndUser : Blind P req (getCurrentSessionAndUser req) := by
  unfold getCurrentSessionAndUser
  split
  · exact uniform_raise _
  · exact Uniform.tryCatch blind_validateSession fun _ => uniform_raise _

theorem blind_requireWebAuth : Blind P req (Web.requireWebAuth req) := by
  unfold Web.requireWebAuth
  dsimp only
  split
  · exact uniform_pure _
  · exact Uniform.tryCatch (Uniform.bind blind_validateSession fun _ => uniform_pure _)
      fun _ => uniform_pure _

/-- The token of the request is refused in the same way. -/
theorem blind_validateApiToken {raw : String} (hraw : bearerToken req.authorization = some raw) :
    Blind P req (AuthService.validateApiToken P raw) := by
  unfold AuthService.validateApiToken SqlApiTokenRepository.getByHash
  refine uniform_iff.mpr fun s t h => ?_
  have hget : Alike (soloExec P) (fun a b s t => (a = none ∧ b = none) ∧ s.Indistinct P req t)
      (fun e e' s t => e = e' ∧ s.Indistinct P req t)
      (execute .main (.tokenByHash (P.sha256 raw))) (execute .main (.tokenByHash (P.sha256 raw)))
      s t := by
    refine @alike_execute P req s t (.tokenByHash (P.sha256 raw)) (.tokenByHash (P.sha256 raw))
      (fun a b _ _ => a = none ∧ b = none) h rfl fun inp locked locked' => ?_
    refine matched_require fun hhash => ?_
    have hno := h.view.bearer.1 raw hraw
    have hno' := h.view.bearer.2 raw hraw
    rw [Database.liveToken?, if_pos hhash] at hno hno'
    exact ⟨⟨hno, hno'⟩, h.view⟩
  refine Alike.bind hget ?_
  rintro found found' s t ⟨⟨rfl, rfl⟩, h⟩
  exact uniformAt_raise h _

theorem not_runs_validateApiToken {raw : String} {token : ApiToken} {s' : Solo}
    (hraw : bearerToken req.authorization = some raw) (h : NoLiveBearer P s.view req) :
    ¬ (AuthService.validateApiToken P raw).Runs (soloExec P) s token s' := by
  intro hrun
  obtain ⟨-, -, hlive, -⟩ := runs_validateApiToken hrun
  rw [h raw hraw] at hlive
  cases hlive

theorem blind_getApiToken : Blind P req (getApiToken P req) := by
  unfold getApiToken
  split
  · exact uniform_raise _
  · rename_i raw hraw
    exact Uniform.tryCatch (blind_validateApiToken hraw) fun _ => uniform_raise _

theorem not_runs_getApiToken {token : ApiToken} {s' : Solo} (h : NoLiveBearer P s.view req) :
    ¬ (getApiToken P req).Runs (soloExec P) s token s' := by
  intro hrun
  cases hraw : bearerToken req.authorization with
  | none =>
    rw [getApiToken, hraw] at hrun
    exact runs_raise.mp hrun
  | some raw => exact not_runs_validateApiToken hraw h ((runs_getApiToken hraw).mp hrun)

theorem blind_sessionUser? : Blind P req (sessionUser? req) := by
  unfold sessionUser?
  split
  · exact uniform_pure _
  · exact Uniform.tryCatch (Uniform.bind blind_validateSession fun _ => uniform_pure _)
      fun _ => uniform_pure _

/-- The token gives no user. -/
theorem alike_tokenUser? (h : s.Indistinct P req t) :
    Alike (soloExec P) (fun a b s t => (a = none ∧ b = none) ∧ s.Indistinct P req t)
      (fun e e' s t => e = e' ∧ s.Indistinct P req t) (tokenUser? P req) (tokenUser? P req) s t := by
  unfold tokenUser?
  split
  · exact alike_pure.mpr ⟨⟨rfl, rfl⟩, h⟩
  · rename_i raw hraw
    have hvalidate := uniform_iff.mp (blind_validateApiToken hraw) s t h
    refine Alike.tryCatch (Alike.bind (Alike.with_runs hvalidate) ?_) ?_
    · rintro token token' s' t' ⟨-, hrun⟩
      exact (not_runs_validateApiToken hraw h.view.bearer.1 hrun).elim
    · rintro e e' s' t' ⟨rfl, h'⟩
      exact alike_pure.mpr ⟨⟨rfl, rfl⟩, h'⟩

end Visible

end Indistinct

end WolMonkey
