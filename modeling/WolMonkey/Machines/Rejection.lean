import WolMonkey.Facts.Answers
import WolMonkey.Facts.Undisturbed

/-!
# Rejected machine forms

A machine form whose row the database rejects. Both handlers catch the exception of the
flush and answer with the form and the error, but `machine_new_post` does not roll back:
the commit of `get_db_session` then raises `PendingRollbackError`, and the form is lost.
`machine_edit_post` rolls back first.
-/

namespace WolMonkey

open Programs Program

/-- The database rejects the statement, whatever identifier and time it would use. -/
def Stmt.Rejected (P : Platform) (db : Database) (st : Stmt) (e : DbError) : Prop :=
  ∀ inp locked, st.run P inp locked db = .error e

/-- A machine form whose `INSERT` or `UPDATE` the database rejects. -/
inductive RejectedForm (P : Platform) (db : Database) (e : DbError) : Route → Prop where
  | new {form : MachineForm} {fields : MachineFormFields} (read : form.read = some fields)
      (insert : (Stmt.machineInsert (Web.newMachine fields)).Rejected P db e) :
      RejectedForm P db e (.machineNewPost form)
  | edit {machineId : String} {id : Uuid} {machine : Machine} {form : MachineForm}
      {fields : MachineFormFields} (read : form.read = some fields)
      (parsed : Uuid.parse? machineId = some id)
      (found : db.machines.find? (·.id == id) = some machine)
      (update : (Stmt.machineUpdate machine (Web.editedMachine fields)).Rejected P db e) :
      RejectedForm P db e (.machineEditPost machineId form)

/-- The page lets the request through. -/
def Authenticated (P : Platform) (req : Request) (inputs : Nat → Input) (sh : Shared) : Prop :=
  ∃ user s', (Web.requireWebAuth req).Runs (soloExec P) (Solo.init inputs sh) (some user) s'

/-- The form again, with the error. -/
def formWithError (machine : Option Machine) (csrf : String) (e : DbError) : Response :=
  { status := 422, body := .page (.machineForm machine csrf (some (PyExc.database e).str)) }

/-- The response is the form with the error, and the tables are as before. -/
def Reported (P : Platform) (req : Request) (inputs : Nat → Input) (sh : Shared) (e : DbError) :
    Prop :=
  (∃ machine csrf, response P req inputs sh = some (formWithError machine csrf e)) ∧
    (serve P req inputs sh).db = sh.db

/-! ## A failed flush -/

/-- A flush of the work session has failed: the session waits to be rolled back. -/
structure Solo.Refusing (inputs : Nat → Input) (db : Database) (s : Solo) : Prop where
  db : s.shared.db = db
  status : s.store.main.status = .inactive
  queue : s.store.queue = {}
  later : ∃ k, ∀ n, s.inputs n = inputs (k + n)

section Flush
variable {P : Platform} {inputs : Nat → Input} {db : Database} {s : Solo} {α : Type}

theorem Solo.At.rejected {st : Stmt} {e : DbError} (h : s.At inputs db [] [])
    (hfault : ∀ n, (inputs n).fault = none) (hflush : st.isFlush = true)
    (hst : st.Rejected P db e) :
    ∃ s', (WolMonkey.execute .main st).eval (soloExec P) s = (.raised (.database e), s') ∧
      s'.Refusing inputs db := by
  obtain ⟨k, hinput, hlater⟩ := h.input
  have hinput' : (s.inputs 0).fault = none := by
    rw [hinput]
    exact hfault k
  have hexec : executeStmt P .main st (s.inputs 0) [] s.shared s.store =
      (.error (.database e), ⟨{ status := .inactive }, {}⟩) := by
    simp only [executeStmt, h.store, h.db, Store.tx, hinput', Database.after_nil, hst _ _, hflush,
      if_true, Store.setTx]
    cases e <;> rfl
  have hdb : (soloExec P (.stmt .main st) s).2.shared.db = s.shared.db :=
    executeOp_db (by simp)
  refine ⟨(soloExec P (.stmt .main st) s).2, ?_, hdb.trans h.db, ?_, ?_, k + 1, hlater⟩
  · unfold WolMonkey.execute
    rw [eval_perform]
    simp only [soloExec, executeOp, hexec]
  · simp only [soloExec, executeOp, hexec]
  · simp only [soloExec, executeOp, hexec]

/-- Rolling back makes the session usable again. -/
theorem Solo.Refusing.rollback (h : s.Refusing inputs db) (hfault : ∀ n, (inputs n).fault = none) :
    (await (.rollback .main)).Completes (soloExec P) s fun _ s' => s'.At inputs db [] [] := by
  obtain ⟨k, hk⟩ := h.later
  have hinput : (s.inputs 0).fault = none := by
    rw [hk 0]
    exact hfault _
  refine completes_perform (a := ()) ?_ ⟨?_, ?_, k + 1, fun n => ?_⟩
  · simp only [soloExec, executeOp, hinput]
  · simp only [soloExec, executeOp, hinput, h.db]
  · simp only [soloExec, executeOp, hinput, Store.setTx, h.queue]
  · show s.inputs (n + 1) = _
    rw [hk, Nat.add_assoc, Nat.add_comm 1 n]

/-- A body that leaves the session in this state does not get its response out: the commit
raises. -/
theorem Solo.Refusing.getDbSession {body : Code α} {s₁ : Solo} {a : α}
    (hbody : body.Runs (soloExec P) s a s₁) (h : s₁.Refusing inputs db)
    (hfault : ∀ n, (inputs n).fault = none) :
    ∃ s', (getDbSession body).eval (soloExec P) s = (.raised (.database .pendingRollback), s') ∧
      s'.shared.db = db := by
  let s₂ : Solo := ⟨s₁.shared, s₁.store, fun n => s₁.inputs (n + 1)⟩
  have hcommit : (await (.commit .main)).eval (soloExec P) s₁ =
      (.raised (.database .pendingRollback), s₂) := by
    unfold await
    rw [eval_perform]
    simp only [soloExec, executeOp, executeCommit, Store.tx, h.status, s₂]
  have hs₂ : s₂.Refusing inputs db := by
    obtain ⟨k, hk⟩ := h.later
    refine ⟨h.db, h.status, h.queue, k + 1, fun n => ?_⟩
    show s₁.inputs (n + 1) = _
    rw [hk, Nat.add_assoc, Nat.add_comm 1 n]
  obtain ⟨_, s₃, hrollback, hat⟩ := hs₂.rollback (P := P) hfault
  obtain ⟨_, s₄, hclose, hend⟩ := hat.close (P := P) .main
  refine ⟨s₄, ?_, hend.db⟩
  have htry : Program.eval (soloExec P) (Program.tryCatch
      (do
        let result ← body
        let _ ← await (.commit .main)
        return result)
      (fun exc => do
        let _ ← await (.rollback .main)
        raise exc)) s = (.raised (.database .pendingRollback), s₃) := by
    rw [eval_tryCatch, eval_bind_raised.mpr (.inr ⟨a, s₁, hbody, eval_bind_raised.mpr (.inl hcommit)⟩)]
    exact eval_bind_raised.mpr (.inr ⟨_, s₃, hrollback, rfl⟩)
  unfold WolMonkey.getDbSession withSession
  refine eval_bind_raised.mpr (.inl ?_)
  rw [eval_tryCatch, htry]
  exact eval_bind_raised.mpr (.inr ⟨_, s₄, hclose, rfl⟩)

end Flush

/-! ## The two handlers -/

section Handlers
variable {P : Platform} {req : Request} {inputs : Nat → Input} {sh : Shared} {e : DbError}
  {fields : MachineFormFields} (hfault : ∀ n, (inputs n).fault = none)
  (hauth : Authenticated P req inputs sh)
include hfault hauth

/-- The guard of the page and the token for its form, in a request that is let through. -/
theorem exists_runs_guard : ∃ user csrf s₀ s₁,
    (Web.requireWebAuth req).Runs (soloExec P) (Solo.init inputs sh) (some user) s₀ ∧
      (Web.getCsrf req).Runs (soloExec P) s₀ csrf s₁ ∧ s₁.At inputs sh.db [] [] := by
  obtain ⟨user, s₀, hguard⟩ := hauth
  obtain ⟨found, s₀', hguard', hat⟩ :=
    completes_requireWebAuth (P := P) hfault req (Solo.at_init inputs sh)
  cases hguard.symm.trans hguard'
  obtain ⟨csrf, s₁, hcsrf, hat'⟩ := completes_getCsrf (P := P) hfault req hat
  exact ⟨user, csrf, s₀, s₁, hguard, hcsrf, hat'⟩

omit hauth in
/-- A live session is let through. -/
theorem authenticated_of_live {cookie : String} {session : Session} {user : User}
    (hcookie : req.cookie = some cookie)
    (hlive : ∀ n, LiveSession sh.db (inputs n).now cookie session user) :
    Authenticated P req inputs sh := by
  have hempty : cookie ≠ "" := by
    rintro rfl
    obtain ⟨id, hid, -⟩ := hlive 0
    cases hid
  have hcompletes : (Web.requireWebAuth req).Completes (soloExec P) (Solo.init inputs sh)
      fun found _ => found = some user := by
    unfold Web.requireWebAuth
    simp only [hcookie, Option.getD_some, beq_iff_eq, hempty, if_false]
    refine ((completes_validateSession hfault (Solo.at_init inputs sh) hlive).bind ?_).tryCatch
    rintro _ s₁ ⟨rfl, -⟩
    exact completes_pure rfl
  obtain ⟨_, s', hrun, rfl⟩ := hcompletes
  exact ⟨user, s', hrun⟩

/-- A rejected `INSERT`: the handler has the form and the error ready, and the commit raises. -/
theorem machineNewPost_rejected {form : MachineForm} (hread : form.read = some fields)
    (hinsert : (Stmt.machineInsert (Web.newMachine fields)).Rejected P sh.db e) :
    ∃ s', (Web.machineNewPost req form).eval (soloExec P) (Solo.init inputs sh) =
        (.raised (.database .pendingRollback), s') ∧ s'.shared.db = sh.db := by
  obtain ⟨user, csrf, s₀, s₁, hguard, hcsrf, hat⟩ := exists_runs_guard hfault hauth
  obtain ⟨s₂, hflush, hrefusing⟩ := hat.rejected hfault rfl hinsert
  have hcreate : (SqlMachineRepository.create (Web.newMachine fields)).eval (soloExec P) s₁ =
      (.raised (.database e), s₂) := eval_bind_raised.mpr (.inl hflush)
  unfold Web.machineNewPost withForm
  rw [hread]
  refine hrefusing.getDbSession (a := formWithError none csrf e)
    (runs_bind.mpr ⟨some user, s₀, hguard, ?_⟩) hfault
  refine runs_bind.mpr ⟨csrf, s₁, hcsrf, runs_bind.mpr ⟨some (PyExc.database e).str, s₂, ?_, ?_⟩⟩
  · exact runs_tryCatch.mpr (.inr ⟨_, s₂, eval_bind_raised.mpr (.inl hcreate),
      runs_pure.mpr ⟨rfl, rfl⟩⟩)
  · exact runs_pure.mpr ⟨rfl, rfl⟩

/-- A rejected `UPDATE`: the handler rolls back, and its answer gets out. -/
theorem machineEditPost_rejected {machineId : String} {id : Uuid} {machine : Machine}
    {form : MachineForm} (hread : form.read = some fields)
    (hparsed : Uuid.parse? machineId = some id)
    (hfound : sh.db.machines.find? (·.id == id) = some machine)
    (hupdate : (Stmt.machineUpdate machine (Web.editedMachine fields)).Rejected P sh.db e) :
    (Web.machineEditPost req machineId form).Completes (soloExec P) (Solo.init inputs sh)
      fun r s' => (∃ csrf, r = formWithError (some machine) csrf e) ∧ s'.shared.db = sh.db := by
  obtain ⟨user, csrf, s₀, s₁, hguard, hcsrf, hat⟩ := exists_runs_guard hfault hauth
  have hget : ∀ inp locked, (Stmt.machineGet machineId).run P inp locked (sh.db.after []) =
      .ok ⟨some machine, [], []⟩ := by
    intro inp locked
    simp only [Stmt.run, uuidParam_eq_ok.mpr hparsed, Database.after_nil, ← hfound]
    rfl
  obtain ⟨_, s₂, hloaded, rfl, hat₂⟩ := hat.read (P := P) hfault hget
  obtain ⟨s₃, hflush, hrefusing⟩ := hat₂.rejected hfault rfl hupdate
  have hupdated : (SqlMachineRepository.update machineId (Web.editedMachine fields)).eval
      (soloExec P) s₁ = (.raised (.database e), s₃) := by
    unfold SqlMachineRepository.update guardUuid
    rw [if_pos (isValidUuid_of_parse? hparsed)]
    exact eval_bind_raised.mpr (.inr ⟨_, s₂, hloaded, eval_bind_raised.mpr (.inl hflush)⟩)
  obtain ⟨_, s₄, hrollback, hat₄⟩ := hrefusing.rollback (P := P) hfault
  obtain ⟨_, s₅, hreread, rfl, hat₅⟩ := completes_machineGetById (P := P) hfault hat₄ hparsed
  unfold Web.machineEditPost withForm
  rw [hread]
  refine Completes.mono (completes_getDbSession (Q := fun r db =>
    (∃ csrf, r = formWithError (some machine) csrf e) ∧ db = sh.db) hfault
    ⟨formWithError (some machine) csrf e, s₅, ?_, sh.db, [], hat₅, ⟨csrf, rfl⟩, rfl⟩) ?_
  · refine runs_bind.mpr ⟨some user, s₀, hguard, runs_bind.mpr ⟨csrf, s₁, hcsrf, ?_⟩⟩
    refine runs_tryCatch.mpr (.inr ⟨_, s₃, eval_bind_raised.mpr (.inl hupdated), ?_⟩)
    refine runs_bind.mpr ⟨_, s₄, hrollback, runs_bind.mpr ⟨_, s₅, hreread, ?_⟩⟩
    refine runs_pure.mpr ⟨?_, rfl⟩
    rw [Database.after_nil, hfound]
    rfl
  · rintro r s' ⟨db, hend, hr, rfl⟩
    exact ⟨hr, hend.db⟩

end Handlers

/-- A rejected machine form is answered with the form and its error, and changes nothing,
exactly when it is the form of an existing machine. -/
theorem rejected_form_reported_iff (P : Platform) (req : Request) (inputs : Nat → Input)
    (sh : Shared) (e : DbError) (hfault : ∀ n, (inputs n).fault = none)
    (hauth : Authenticated P req inputs sh) (hform : RejectedForm P sh.db e req.route) :
    Reported P req inputs sh e ↔ ∃ machineId form, req.route = .machineEditPost machineId form := by
  generalize hroute : req.route = route at hform
  cases hform with
  | new hread hinsert =>
    rename_i form fields
    have hend : endpoint P req = Web.machineNewPost req form := by
      unfold endpoint
      rw [hroute]
    obtain ⟨s', heval, -⟩ := machineNewPost_rejected hfault hauth hread hinsert
    constructor
    · rintro ⟨⟨machine, csrf, hresponse⟩, -⟩
      -- the response is the page for an unexpected error
      rw [response_eq, hend, heval] at hresponse
      have hstatus : 500 = 422 := congrArg Response.status (Option.some.inj hresponse)
      cases hstatus
    · rintro ⟨_, _, h⟩
      cases h
  | edit hread hparsed hfound hupdate =>
    rename_i machineId id machine form fields
    have hend : endpoint P req = Web.machineEditPost req machineId form := by
      unfold endpoint
      rw [hroute]
    obtain ⟨r, s', hrun, ⟨csrf, rfl⟩, hdb⟩ :=
      machineEditPost_rejected hfault hauth hread hparsed hfound hupdate
    rw [← hend] at hrun
    obtain ⟨hresponse, hserve⟩ := response_of_runs hrun
    exact ⟨fun _ => ⟨_, _, rfl⟩, fun _ => ⟨⟨_, csrf, hresponse⟩, by rw [hserve, hdb]⟩⟩

/-! ## A port that no machine has -/

/-- The form of a machine with the port 0. -/
def MachineForm.portless : MachineForm where
  name := .value "nas"
  ipAddress := .value "192.168.1.10"
  macAddress := .value "aa:bb:cc:dd:ee:ff"
  sshPort := .value 0

theorem authenticated_administrator (route : Route) :
    Authenticated Platform.signing (adminRequest route) (Input.signing 4) Shared.installed :=
  authenticated_of_live (fun _ => rfl) rfl fun _ => liveSession_installed

/-- The form of an existing machine is reported. -/
theorem rejected_form_reported_sample :
    Reported Platform.signing (adminRequest (.machineEditPost (Uuid.ofNat 3).text .portless))
      (Input.signing 4) Shared.installed .integrityError := by
  have hfound : Database.installed.machines.find? (·.id == Uuid.ofNat 3) =
      some (Database.installed.machines.head (by decide)) := by decide
  exact (rejected_form_reported_iff Platform.signing _ _ Shared.installed .integrityError
    (fun _ => rfl) (authenticated_administrator _)
    (.edit rfl (Uuid.parse?_text _) hfound fun _ _ => by rfl)).mpr ⟨_, _, rfl⟩

/-- The form for a new machine is not. -/
theorem rejected_form_lost :
    ¬ ∀ (req : Request) (inputs : Nat → Input) (sh : Shared) (e : DbError),
      (∀ n, (inputs n).fault = none) → Authenticated Platform.signing req inputs sh →
        RejectedForm Platform.signing sh.db e req.route →
          Reported Platform.signing req inputs sh e := by
  intro h
  let req := adminRequest (.machineNewPost .portless)
  obtain ⟨⟨machine, csrf, hresponse⟩, -⟩ := h req (Input.signing 4) Shared.installed .integrityError
    (fun _ => rfl) (authenticated_administrator _) (.new rfl fun _ _ => by rfl)
  have hstatus : (response Platform.signing req (Input.signing 4) Shared.installed).map
      Response.status = some 500 := by decide +kernel
  rw [hresponse] at hstatus
  cases hstatus

end WolMonkey
