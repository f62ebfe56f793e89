import WolMonkey.Facts.Answers
import WolMonkey.Facts.Reading
import WolMonkey.Facts.Undisturbed

/-!
# Enqueueing a wake

`POST /machines/{id}/wake` records an attempt, commits it, and then adds a job in the session
of the job queue. A request that is served alone reaches its own commit as its eighth
operation, so the position of every failure is known (`WakeAccepted`): a failure before
that commit, or of the commit itself without effect, leaves nothing behind, and every failure
after it leaves the attempt, alone or with its job (`wake_enqueued_atomically_iff`).
-/

namespace WolMonkey

open Programs Program

/-! ## The parts of the endpoint -/

/-- Looking up the machine and recording the attempt. -/
def recordAttempt (machineId : String) (user : User) (b : WakeRequest) : Code WakeAttempt := do
  match ← SqlMachineRepository.getById machineId with
  | none => raise Api.machineNotFound
  | some machine =>
    SqlWakeAttemptRepository.create
      { machineId, actorType := "user", actorId := user.id.text
        strategy := (Api.strategyName b).getD machine.wakeStrategy
        ensureOnline := b.ensureOnline, pollTimeoutS := b.pollTimeoutS }

/-- The job of an attempt that is committed. -/
def enqueueAttempt (machineId : String) (user : User) (b : WakeRequest) (attempt : WakeAttempt) :
    Code Response := do
  let _ ← JobQueue.enqueue machineId attempt.id.text "wake"
    (Api.wakePayload machineId attempt.id.text user.id.text b)
  return { body := .wake attempt.id.text AttemptStatus.pending.value "Wake job queued" }

theorem wakeMachine_eq (req : Request) (machineId : String) (body : JsonBody WakeRequest) :
    Api.wakeMachine req machineId body =
      withBody body (checked WakeRequest.valid) (csrfProtectedUser req) (fun user b => do
        let attempt ← recordAttempt machineId user b
        let _ ← await (.commit .main)
        enqueueAttempt machineId user b attempt) := by
  refine congrArg (withBody body (checked WakeRequest.valid) (csrfProtectedUser req))
    (funext fun user => funext fun b => ?_)
  unfold recordAttempt
  rw [bind_assoc]
  refine bind_congr fun found => ?_
  cases found <;> rfl

/-! ## The attempt -/

/-- What a wake request needs to come to its own commit: a live session with its CSRF token,
a valid body, a strategy and an identifier that fit, and database calls that work. -/
structure WakeAccepted (P : Platform) (req : Request) (m : Machine) (b : WakeRequest)
    (inputs : Nat → Input) (db : Database) (user : User) : Prop where
  token : req.csrfToken ≠ ""
  session : ∃ cookie session, req.cookie = some cookie ∧
    LiveSession db (inputs 1).now cookie session user ∧
    P.csrfLoads (inputs 3).now req.csrfToken = some (session.id.text, session.csrfSecret)
  valid : b.valid = true
  strategy : (varchar 20 ((Api.strategyName b).getD m.wakeStrategy)).isSome = true
  faultless : ∀ n ∈ [0, 2, 4, 5, 6], (inputs n).fault = none
  fresh : ∀ w ∈ db.attempts, w.id ≠ (inputs 5).fresh

/-- The state in which the endpoint awaits its own commit. -/
structure Solo.BeforeCommit (inputs : Nat → Input) (db : Database) (row : WakeAttempt) (s : Solo) :
    Prop where
  db : s.shared.db = db
  store : s.store = ⟨{ writes := [.insertAttempt row] }, {}⟩
  id : row.id = (inputs 5).fresh
  inputs : s.inputs = fun n => inputs (n + 7)

section Attempt
variable {P : Platform} {req : Request} {inputs : Nat → Input} {sh : Shared} {machineId : String}
  {m : Machine} {user : User} {b : WakeRequest} {attempt : WakeAttempt} {s s' : Solo}

/-- The attempt that was recorded, and what that took. -/
theorem recorded_of_runs (hmachine : sh.db.machine? machineId = some m)
    (h : (recordAttempt machineId user b).Runs (soloExec P) ((Solo.init inputs sh).skip 4)
      attempt s') :
    (∀ n ∈ [4, 5, 6], (inputs n).fault = none) ∧
      (varchar 20 ((Api.strategyName b).getD m.wakeStrategy)).isSome = true ∧
      (∀ w ∈ sh.db.attempts, w.id ≠ (inputs 5).fresh) ∧
      ∃ row, attempt.id = row.id ∧ s'.BeforeCommit inputs sh.db row := by
  obtain ⟨found, s₁, hget, h⟩ := runs_bind.mp h
  cases found with
  | none => exact (runs_raise.mp h).elim
  | some m' =>
    obtain ⟨hactive, hfault₄, hm', rfl⟩ := runs_machineGetById_iff.mp hget
    have hsame : some m' = some m := hm'.symm.trans hmachine
    cases hsame
    obtain ⟨id, s₂, hinsert, hrefresh⟩ := runs_bind.mp h
    obtain ⟨-, hfault₅, r, hrun, rfl, rfl⟩ := runs_execute_iff.mp hinsert
    obtain ⟨-, hfault₆, ⟨r', hrun', rfl⟩, rfl⟩ := (runs_reads_iff rfl).mp hrefresh
    simp only [Stmt.run, bind_eq_ok, uuidParam_eq_ok, accepted_eq_ok, require_eq_ok, pure_eq_ok]
      at hrun
    obtain ⟨mid, -, actorType, -, actorId, -, strategy, hstrategy, -, -, -, hfresh, -, -, rfl⟩ :=
      hrun
    have hid : r'.answer.id = (inputs 5).fresh := by
      simp only [Stmt.run] at hrun'
      split at hrun'
      · rename_i row hrow
        cases hrun'
        have hfound := List.find?_some hrow
        exact beq_iff_eq.mp hfound
      · cases hrun'
    refine ⟨?_, by rw [hstrategy]; rfl, ?_, _, ?_, rfl, rfl, rfl, ?_⟩
    · simp only [List.forall_mem_cons, List.not_mem_nil, false_imp_iff, implies_true, and_true]
      exact ⟨hfault₄, hfault₅, hfault₆⟩
    · intro w hw heq
      simp only [Bool.not_eq_true', List.any_eq_false] at hfresh
      exact hfresh w hw (beq_iff_eq.mpr heq)
    · exact hid
    · funext n
      simp only [Solo.skip, Solo.ran_inputs, Solo.init]
      exact congrArg inputs (by omega)

theorem exists_runs_recordAttempt (hmachine : sh.db.machine? machineId = some m)
    (h : WakeAccepted P req m b inputs sh.db user) :
    ∃ attempt s', (recordAttempt machineId user b).Runs (soloExec P)
      ((Solo.init inputs sh).skip 4) attempt s' := by
  obtain ⟨hvalid, id, hid, hm⟩ := machine?_eq_some.mp hmachine
  have hmid := List.find?_some hm
  have hfault : ∀ n ∈ [4, 5, 6], (inputs n).fault = none := fun n hn =>
    h.faultless n (by simp only [List.mem_cons, List.not_mem_nil, or_false] at hn ⊢; omega)
  have htimeout : int4Ok b.pollTimeoutS = true := by
    have hb := h.valid
    simp only [WakeRequest.valid, inRange, Bool.and_eq_true, decide_eq_true_eq] at hb
    simp only [int4Ok, Bool.and_eq_true, decide_eq_true_eq]
    omega
  have hactor : (varchar 20 "user").isSome = true := by decide
  obtain ⟨attempt, s', hcreate⟩ := exists_runs_attemptCreate (P := P)
    (s := (Solo.init inputs sh).skip 5)
    (f := { machineId, actorType := "user", actorId := user.id.text
            strategy := (Api.strategyName b).getD m.wakeStrategy
            ensureOnline := b.ensureOnline, pollTimeoutS := b.pollTimeoutS })
    rfl (hfault 5 (by simp)) (hfault 6 (by simp)) hid
    (List.any_eq_true.mpr ⟨m, List.mem_of_find?_eq_some hm, hmid⟩) h.fresh hactor
    (by rw [varchar_text (by omega)]; rfl) h.strategy htimeout
  refine ⟨attempt, s', runs_bind.mpr ⟨some m, _, runs_machineGetById_iff.mpr
    ⟨rfl, hfault 4 (by simp), hmachine, rfl⟩, ?_⟩⟩
  rw [Solo.skip_skip]
  exact hcreate

end Attempt

/-! ## The job -/

section Job
variable {P : Platform} {machineId : String} {user : User} {b : WakeRequest}
  {attempt : WakeAttempt} {s s' : Solo}

/-- What adding the job needs: database calls that work, and identifiers that are new. -/
structure JobAccepted (s : Solo) (attemptId : Uuid) : Prop where
  faultless : ∀ n < 3, (s.inputs n).fault = none
  fresh : ∀ j ∈ s.shared.db.jobs, j.id ≠ (s.inputs 0).fresh ∧ j.attemptId ≠ attemptId

theorem textOk_wakePayload {id : Uuid} (hid : Uuid.parse? machineId = some id) :
    (Api.wakePayload machineId attempt.id.text user.id.text b).all
      (fun kv => textOk kv.1 && kv.2.storable) = true := by
  simp only [Api.wakePayload, Api.strategyName, List.all_cons, List.all_nil, Scalar.storable,
    textOk_of_parse? hid, textOk_text]
  cases b.strategy with
  | none => decide
  | some strategy => cases strategy <;> decide

theorem runs_withSession {α : Type} {slot : Slot} {body : Code α} {a : α} :
    (withSession slot body).Runs (soloExec P) s a s' ↔
      ∃ s₁, body.Runs (soloExec P) s a s₁ ∧ s' = (soloExec P (.close slot) s₁).2 := by
  constructor
  · intro h
    obtain ⟨a', s₁, hcaught, h⟩ := runs_bind.mp h
    obtain ⟨u, s₂, hclose, h⟩ := runs_bind.mp h
    obtain ⟨rfl, rfl⟩ := runs_pure.mp h
    rcases runs_tryCatch.mp hcaught with hbody | ⟨e, s₃, -, hraise⟩
    · exact ⟨s₁, hbody, (congrArg Prod.snd (runs_perform.mp hclose)).symm⟩
    · obtain ⟨u, s₄, -, hraise⟩ := runs_bind.mp hraise
      exact (runs_raise.mp hraise).elim
  · rintro ⟨s₁, hbody, rfl⟩
    exact runs_bind.mpr ⟨a, s₁, runs_tryCatch.mpr (.inl hbody), runs_bind.mpr
      ⟨(), _, runs_perform.mpr rfl, runs_pure.mpr ⟨rfl, rfl⟩⟩⟩

/-- The job that was added, and what that took. -/
theorem enqueued_of_runs {r : Response} (hstore : s.store = {})
    (h : (enqueueAttempt machineId user b attempt).Runs (soloExec P) s r s') :
    JobAccepted s attempt.id ∧ s'.store = {} ∧ (s'.inputs = fun n => s.inputs (n + 4)) ∧
      ∃ j, j.attemptId = attempt.id ∧ s'.shared.db = (Write.insertJob j).apply s.shared.db := by
  obtain ⟨sh, st, inputs⟩ := s
  obtain rfl : st = {} := hstore
  obtain ⟨jobId, s₁, hjob, hreturn⟩ := runs_bind.mp h
  obtain ⟨-, rfl⟩ := runs_pure.mp hreturn
  obtain ⟨s₂, hbody, rfl⟩ := runs_withSession.mp hjob
  obtain ⟨id, s₃, hinsert, hbody⟩ := runs_bind.mp hbody
  obtain ⟨-, hfault₀, r, hrun, rfl, rfl⟩ := runs_executeOn_iff.mp hinsert
  simp only [Stmt.run, bind_eq_ok, uuidParam_eq_ok, require_eq_ok, pure_eq_ok, Uuid.parse?_text]
    at hrun
  obtain ⟨mid, -, aid, haid, -, -, -, -, -, hid, -, hattempt, -, -, -, -, rfl⟩ := hrun
  cases haid
  obtain ⟨u, s₄, hcommit, hbody⟩ := runs_bind.mp hbody
  obtain ⟨hfault₁, rfl⟩ := (runs_commitOn_iff (by rfl)).mp hcommit
  obtain ⟨row, s₅, hrefresh, hbody⟩ := runs_bind.mp hbody
  obtain ⟨-, hfault₂, r', -, -, rfl⟩ := runs_executeOn_iff.mp hrefresh
  obtain ⟨-, rfl⟩ := runs_pure.mp hbody
  refine ⟨⟨fun n hn => ?_, fun j hj => ⟨fun heq => ?_, fun heq => ?_⟩⟩, rfl, rfl, _, ?_, rfl⟩
  · interval_cases n
    · exact hfault₀
    · exact hfault₁
    · exact hfault₂
  · simp only [Bool.not_eq_true', List.any_eq_false] at hid
    exact hid j hj (beq_iff_eq.mpr heq)
  · simp only [Bool.not_eq_true', List.any_eq_false] at hattempt
    exact hattempt j hj (beq_iff_eq.mpr heq)
  · rfl

variable (P user b) in
/-- A job that is accepted is added. -/
theorem exists_runs_enqueueAttempt {id : Uuid} (hstore : s.store = {})
    (hid : Uuid.parse? machineId = some id) (hmachine : s.shared.db.machines.any (·.id == id) = true)
    (hattempt : s.shared.db.attempts.any (·.id == attempt.id) = true)
    (h : JobAccepted s attempt.id) :
    ∃ r s', (enqueueAttempt machineId user b attempt).Runs (soloExec P) s r s' ∧ r.status = 200 := by
  obtain ⟨sh, st, inputs⟩ := s
  obtain rfl : st = {} := hstore
  let job : WakeJob :=
    { id := (inputs 0).fresh, machineId := id, attemptId := attempt.id, jobType := "wake"
      status := .queued, payload := Api.wakePayload machineId attempt.id.text user.id.text b
      claimedAt := none, createdAt := (inputs 0).now }
  let insert : Stmt := .jobInsert machineId attempt.id.text "wake" job.payload
  let r : Executed insert := ⟨job.id, [.insertJob job], []⟩
  have hrun : insert.run P (inputs 0) (lockedJobs [] {} .queue) sh.db = .ok r := by
    have hnew : (!sh.db.jobs.any (·.id == (inputs 0).fresh)) = true := by
      simpa using fun j hj => (h.fresh j hj).1
    have hfirst : (!sh.db.jobs.any (·.attemptId == attempt.id)) = true := by
      simpa using fun j hj => (h.fresh j hj).2
    simp only [insert, Stmt.run, bind_eq_ok, uuidParam_eq_ok, require_eq_ok, pure_eq_ok,
      Uuid.parse?_text]
    exact ⟨id, hid, attempt.id, rfl, (), textOk_wakePayload hid, (), rfl, (), hnew, (), hfirst, (),
      hmachine, (), hattempt, rfl⟩
  let s₀ : Solo := ⟨sh, {}, inputs⟩
  have hinsert : (execute .queue insert).Runs (soloExec P) s₀ job.id (s₀.ranOn .queue r) :=
    runs_executeOn_iff.mpr ⟨rfl, h.faultless 0 (by omega), r, hrun, rfl, rfl⟩
  let s₁ : Solo := ⟨⟨(Write.insertJob job).apply sh.db, sh.rateBuckets,
    (inputs 0).fresh :: sh.issued⟩, {}, fun n => inputs (n + 2)⟩
  have hcommit : (await (.commit .queue)).Runs (soloExec P) (s₀.ranOn .queue r) () s₁ :=
    (runs_commitOn_iff (by rfl)).mpr ⟨h.faultless 1 (by omega), rfl⟩
  obtain ⟨found, hfind⟩ : ∃ found,
      (sh.db.jobs ++ [job]).find? (·.id == job.id) = some found := by
    refine Option.isSome_iff_exists.mp (List.find?_isSome.mpr ⟨job, ?_, beq_self_eq_true _⟩)
    exact List.mem_append_right _ (List.mem_singleton_self job)
  let r' : Executed (.jobRefresh job.id) := ⟨found, [], []⟩
  have hrefresh : (execute .queue (.jobRefresh job.id)).Runs (soloExec P) s₁ found
      (s₁.ranOn .queue r') := by
    refine runs_executeOn_iff.mpr ⟨rfl, h.faultless 2 (by omega), r', ?_, rfl, rfl⟩
    have hjobs : (s₁.shared.db.after (s₁.store.tx .queue).writes).jobs = sh.db.jobs ++ [job] := rfl
    simp only [Stmt.run, hjobs, hfind]
    rfl
  have henqueue : (JobQueue.enqueue machineId attempt.id.text "wake" job.payload).Runs (soloExec P) s₀
      found.id.text (soloExec P (.close .queue) (s₁.ranOn .queue r')).2 :=
    runs_withSession.mpr ⟨_, runs_bind.mpr ⟨_, _, hinsert, runs_bind.mpr ⟨(), _, hcommit,
      runs_bind.mpr ⟨found, _, hrefresh, runs_pure.mpr ⟨rfl, rfl⟩⟩⟩⟩, rfl⟩
  exact ⟨_, _, runs_bind.mpr ⟨_, _, henqueue, runs_pure.mpr ⟨rfl, rfl⟩⟩, rfl⟩

end Job

/-! ## The whole request -/

/-- The request is answered with success. -/
def Succeeds (P : Platform) (req : Request) (inputs : Nat → Input) (sh : Shared) : Prop :=
  ∃ r, response P req inputs sh = some r ∧ r.status < 400

/-- The attempt and the job of a wake request are stored together or not at all, and every
attempt that it stores has a job. -/
structure EnqueuedAtomically (P : Platform) (req : Request) (inputs : Nat → Input) (sh : Shared) :
    Prop where
  failed : ¬ Succeeds P req inputs sh → (serve P req inputs sh).db.attempts = sh.db.attempts ∧
    (serve P req inputs sh).db.jobs = sh.db.jobs
  covered : ∀ a ∈ (serve P req inputs sh).db.attempts, a ∉ sh.db.attempts →
    ∃ j ∈ (serve P req inputs sh).db.jobs, j.attemptId = a.id

/-- Nothing fails from the request's own commit on: its database operations 7 to 10 and 12
work, and neither the new job nor the new attempt has an identifier that a job uses. -/
structure WakeCompletes (inputs : Nat → Input) (db : Database) : Prop where
  faultless : ∀ n ∈ [7, 8, 9, 10, 12], (inputs n).fault = none
  fresh : ∀ j ∈ db.jobs, j.id ≠ (inputs 8).fresh ∧ j.attemptId ≠ (inputs 5).fresh

section Request
variable {P : Platform} {req : Request} {inputs : Nat → Input} {sh : Shared} {machineId : String}
  {m : Machine} {user : User} {b : WakeRequest} {body : JsonBody WakeRequest}

theorem enqueuedAtomically_of_same (h : (serve P req inputs sh).db = sh.db) :
    EnqueuedAtomically P req inputs sh where
  failed _ := by rw [h]; exact ⟨rfl, rfl⟩
  covered a ha hnew := by rw [h] at ha; exact (hnew ha).elim

/-- What the endpoint does until its own commit. -/
def untilCommit (req : Request) (machineId : String) (b : WakeRequest) : Code (User × WakeAttempt) := do
  let user ← csrfProtectedUser req
  match checked WakeRequest.valid b with
  | none => raise .validation
  | some b => do
    let attempt ← recordAttempt machineId user b
    return (user, attempt)

/-- What it does from there. -/
def fromCommit (machineId : String) (b : WakeRequest) (x : User × WakeAttempt) : Code Response := do
  let _ ← await (.commit .main)
  enqueueAttempt machineId x.1 b x.2

theorem wakeMachine_typed (req : Request) (machineId : String) (b : WakeRequest) :
    Api.wakeMachine req machineId (.typed b) =
      getDbSession (untilCommit req machineId b >>= fromCommit machineId b) := by
  rw [wakeMachine_eq]
  unfold untilCommit
  rw [bind_assoc]
  refine congrArg getDbSession (bind_congr fun user => ?_)
  unfold checked
  by_cases hvalid : b.valid = true
  · simp only [if_pos hvalid, bind_assoc]
    rfl
  · simp only [if_neg hvalid]
    rfl

theorem uses_untilCommit :
    (untilCommit req machineId b).Uses (Within [.newAttempt]) := by
  refine Uses.bind uses_csrfProtectedUser fun user => ?_
  cases checked WakeRequest.valid b with
  | none => exact uses_raise _
  | some b =>
    refine Uses.bind (Uses.bind uses_machineGetById fun found => ?_) fun _ => uses_pure _
    cases found with
    | none => exact uses_raise _
    | some m => exact uses_attemptCreate (by simp)

/-- A request that comes to its own commit was accepted. -/
theorem accepted_of_runs {x : User × WakeAttempt} {s' : Solo}
    (hmachine : sh.db.machine? machineId = some m)
    (h : (untilCommit req machineId b).Runs (soloExec P) (Solo.init inputs sh) x s') :
    WakeAccepted P req m b inputs sh.db x.1 ∧
      ∃ row, x.2.id = row.id ∧ s'.BeforeCommit inputs sh.db row := by
  obtain ⟨user, s₁, hguard, h⟩ := runs_bind.mp h
  obtain ⟨-, hfault₀, hfault₂, htoken, hsession, rfl⟩ := runs_csrfProtectedUser_iff.mp hguard
  cases hc : checked WakeRequest.valid b with
  | none =>
    rw [hc] at h
    exact (runs_raise.mp h).elim
  | some c =>
    rw [hc] at h
    obtain ⟨hvalid, rfl⟩ := checked_eq_some.mp hc
    obtain ⟨attempt, s₂, hrecord, h⟩ := runs_bind.mp h
    obtain ⟨rfl, rfl⟩ := runs_pure.mp h
    obtain ⟨hfaults, hstrategy, hfresh, row, hid, hrecorded⟩ := recorded_of_runs hmachine hrecord
    refine ⟨⟨htoken, hsession, hvalid, hstrategy, fun n hn => ?_, hfresh⟩, row, hid, hrecorded⟩
    rcases List.mem_cons.mp hn with rfl | hn
    · exact hfault₀
    rcases List.mem_cons.mp hn with rfl | hn
    · exact hfault₂
    · exact hfaults n hn

/-- An accepted request comes to its own commit. -/
theorem exists_runs_untilCommit (hmachine : sh.db.machine? machineId = some m)
    (h : WakeAccepted P req m b inputs sh.db user) :
    ∃ attempt s', (untilCommit req machineId b).Runs (soloExec P) (Solo.init inputs sh)
      (user, attempt) s' := by
  obtain ⟨attempt, s', hrecord⟩ := exists_runs_recordAttempt hmachine h
  have hguard : (csrfProtectedUser req).Runs (soloExec P) (Solo.init inputs sh) user
      ((Solo.init inputs sh).skip 4) :=
    runs_csrfProtectedUser_iff.mpr ⟨rfl, h.faultless 0 (by simp), h.faultless 2 (by simp), h.token,
      h.session, rfl⟩
  refine ⟨attempt, s', runs_bind.mpr ⟨user, _, hguard, ?_⟩⟩
  rw [checked_eq_some.mpr ⟨h.valid, rfl⟩]
  exact runs_bind.mpr ⟨attempt, s', hrecord, runs_pure.mpr ⟨rfl, rfl⟩⟩

/-- A request that is not accepted stores nothing. -/
theorem wake_db_of_not_accepted (hroute : req.route = .wakeMachine machineId body)
    (hmachine : sh.db.machine? machineId = some m)
    (h : ∀ b user, body = .typed b → ¬ WakeAccepted P req m b inputs sh.db user) :
    (serve P req inputs sh).db = sh.db := by
  rw [serve_eq, endpoint, hroute]
  dsimp only
  cases body with
  | malformed => rfl
  | mistyped =>
    have huses : (csrfProtectedUser req >>= fun _ => raise PyExc.validation : Code Response).Uses
        (Within []) := Uses.bind uses_csrfProtectedUser fun _ => uses_raise _
    refine getDbSession_same huses (by simp) rfl fun a s' hrun => ?_
    obtain ⟨user, s₁, -, hraise⟩ := runs_bind.mp hrun
    exact (runs_raise.mp hraise).elim
  | typed b =>
    rw [wakeMachine_typed]
    refine getDbSession_blocked uses_untilCommit (by simp) fun x s' hrun => ?_
    exact h b x.1 rfl (accepted_of_runs hmachine hrun).1

/-- What a request that was accepted leaves, and what that took. -/
theorem completed_of_runs {row : WakeAttempt} {x : User × WakeAttempt} {s s' : Solo} {r : Response}
    (hs : s.BeforeCommit inputs sh.db row) (hid : x.2.id = row.id)
    (h : (fromCommit machineId b x).Runs (soloExec P) s r s') :
    (∀ n ∈ [7, 8, 9, 10], (inputs n).fault = none) ∧
      (∀ j ∈ sh.db.jobs, j.id ≠ (inputs 8).fresh ∧ j.attemptId ≠ (inputs 5).fresh) ∧
      s'.store = {} ∧ (s'.inputs = fun n => inputs (n + 12)) ∧
      ∃ j, j.attemptId = row.id ∧
        s'.shared.db = sh.db.after [.insertAttempt row, .insertJob j] := by
  obtain ⟨u, s₁, hcommit, hjob⟩ := runs_bind.mp h
  obtain ⟨hfault₇, rfl⟩ := (runs_commit_iff (by rw [hs.store])).mp hcommit
  have hview : s.view = (Write.insertAttempt row).apply sh.db := by
    rw [Solo.view, hs.db, hs.store]
    rfl
  obtain ⟨hjobs, hstore, hinputs, j, hj, hdb⟩ := enqueued_of_runs (by rw [hs.store]; rfl) hjob
  simp only [hs.inputs] at hfault₇ hinputs
  refine ⟨?_, ?_, hstore, hinputs, j, hj.trans hid, ?_⟩
  · have hfaults := hjobs.faultless
    simp only [hs.inputs] at hfaults
    simp only [List.forall_mem_cons, List.not_mem_nil, false_imp_iff, implies_true, and_true]
    exact ⟨hfault₇, hfaults 0 (by omega), hfaults 1 (by omega), hfaults 2 (by omega)⟩
  · have hfresh := hjobs.fresh
    simp only [hs.inputs, hview, hid, hs.id] at hfresh
    exact hfresh
  · rw [hdb]
    dsimp only
    rw [hview]
    rfl

/-- When nothing fails from its own commit on, the endpoint returns. -/
theorem exists_runs_fromCommit {row : WakeAttempt} {x : User × WakeAttempt} {s : Solo}
    (hmachine : sh.db.machine? machineId = some m) (hs : s.BeforeCommit inputs sh.db row)
    (hid : x.2.id = row.id) (h : WakeCompletes inputs sh.db) :
    ∃ r s', (fromCommit machineId b x).Runs (soloExec P) s r s' ∧ r.status = 200 := by
  obtain ⟨-, mid, hmid, hm⟩ := machine?_eq_some.mp hmachine
  have hfound := List.find?_some hm
  have hfault : ∀ n ∈ [7, 8, 9, 10], (inputs n).fault = none := fun n hn =>
    h.faultless n (List.mem_append_left [12] hn)
  have hview : s.view = (Write.insertAttempt row).apply sh.db := by
    rw [Solo.view, hs.db, hs.store]
    rfl
  let s₁ : Solo := ⟨{ s.shared with db := s.view }, s.store.setTx .main {}, fun n => s.inputs (n + 1)⟩
  have hcommit : (await (.commit .main)).Runs (soloExec P) s () s₁ := by
    refine (runs_commit_iff (by rw [hs.store])).mpr ⟨?_, rfl⟩
    rw [hs.inputs]
    exact hfault 7 (by simp)
  have hstore : s₁.store = {} := by
    simp only [s₁, hs.store]
    rfl
  have hjobs : JobAccepted s₁ x.2.id := by
    refine ⟨fun n hn => ?_, fun j hj => ?_⟩
    · simp only [s₁, hs.inputs]
      interval_cases n
      · exact hfault 8 (by simp)
      · exact hfault 9 (by simp)
      · exact hfault 10 (by simp)
    · simp only [s₁, hview] at hj
      simp only [s₁, hs.inputs, hid, hs.id]
      exact h.fresh j hj
  obtain ⟨r, s', hrun, hstatus⟩ := exists_runs_enqueueAttempt P x.1 b hstore hmid
    (by simp only [s₁, hview]
        exact List.any_eq_true.mpr ⟨m, List.mem_of_find?_eq_some hm, hfound⟩)
    (by simp only [s₁, hview, hid]
        exact List.any_eq_true.mpr ⟨row, List.mem_append_right _ (List.mem_singleton_self row),
          beq_self_eq_true _⟩)
    hjobs
  exact ⟨r, s', runs_bind.mpr ⟨(), s₁, hcommit, hrun⟩, hstatus⟩

/-- The request's own commit, when it is refused. -/
theorem refused_commit_db {row : WakeAttempt} {x : User × WakeAttempt} {s : Solo}
    (hs : s.BeforeCommit inputs sh.db row) (hfault : (inputs 7).fault = some .refused) :
    ((getDbSession (fromCommit machineId b x)).eval (soloExec P) s).2.shared.db = sh.db := by
  have hcommit : (await (.commit .main)).eval (soloExec P) s =
      (.raised (.database .operationalError), ⟨s.shared, {}, fun n => s.inputs (n + 1)⟩) := by
    unfold await
    rw [eval_perform]
    simp only [soloExec, executeOp, executeCommit, hs.store, hs.inputs, hfault, Store.tx,
      Store.setTx]
  have hbody : (fromCommit machineId b x).eval (soloExec P) s =
      (.raised (.database .operationalError), ⟨s.shared, {}, fun n => s.inputs (n + 1)⟩) := by
    unfold fromCommit
    rw [eval_bind, hcommit]
  have hreach : Reaches (fun _ => False) sh.db
      ((getDbSession (fromCommit machineId b x)).eval (soloExec P) s).2.shared.db := by
    refine getDbSession_reaches ?_ ?_
    · rw [hbody]
      exact Store.only_empty
    · rw [hbody, ← hs.db]
      exact Reaches.refl _
  exact hreach.keeps (f := id) fun _ _ hw => hw.elim

/-- The request's own commit, when it takes effect: the attempt stays, whatever happens
after it. -/
theorem attempt_stays {row : WakeAttempt} {x : User × WakeAttempt} {s : Solo}
    (hs : s.BeforeCommit inputs sh.db row) (hfault : (inputs 7).fault ≠ some .refused) :
    ((getDbSession (fromCommit machineId b x)).eval (soloExec P) s).2.shared.db.attempts =
      sh.db.attempts ++ [row] := by
  let W : Write → Prop := fun w => w.effect = .newJob
  have hview : s.shared.db.after [.insertAttempt row] = (Write.insertAttempt row).apply sh.db := by
    rw [hs.db]
    rfl
  have hcommit : ((await (.commit .main)).eval (soloExec P) s).2 =
      ⟨{ s.shared with db := (Write.insertAttempt row).apply sh.db }, {},
        fun n => s.inputs (n + 1)⟩ := by
    unfold await
    rw [eval_perform_snd]
    cases hcase : (inputs 7).fault with
    | none =>
      simp only [soloExec, executeOp, executeCommit, hs.store, hs.inputs, hcase, Store.tx,
        Store.setTx, hview]
    | some f =>
      cases f with
      | refused => exact (hfault hcase).elim
      | lost =>
        simp only [soloExec, executeOp, executeCommit, hs.store, hs.inputs, hcase, Store.tx,
          Store.setTx, hview]
  have hjob : (enqueueAttempt machineId x.1 b x.2).Uses (MakesOn P W) := by
    have huses : (enqueueAttempt machineId x.1 b x.2).Uses (Within [.newJob, .commit, .reset]) :=
      Uses.bind (uses_enqueue (by simp) (by simp)) fun _ => uses_pure _
    refine huses.mono fun op hop => makesOn_of_within (fun w hw => ?_) hop
    cases w with
    | insertJob j => rfl
    | _ => simp [Write.effect] at hw
  have hbody : ((fromCommit machineId b x).eval (soloExec P) s).2.store.Only W ∧
      Reaches W ((Write.insertAttempt row).apply sh.db)
        ((fromCommit machineId b x).eval (soloExec P) s).2.shared.db := by
    refine eval_bind_invariant (soloExec P) (fun s => s.store.Only W ∧
      Reaches W ((Write.insertAttempt row).apply sh.db) s.shared.db) ?_ (fun _ => hjob) ?_
    · rintro op s hop ⟨honly, hreach⟩
      obtain ⟨honly', hreach'⟩ := executeOp_only (P := P) hop honly
      exact ⟨honly', hreach.trans hreach'⟩
    · rw [hcommit]
      exact ⟨Store.only_empty, Reaches.refl _⟩
  have hattempts : Untouched W Database.attempts := by
    intro w db hw
    cases w with
    | insertJob j => rfl
    | _ => cases hw
  exact (getDbSession_reaches hbody.1 hbody.2).keeps hattempts

theorem failsWith_wakeMachine :
    FailsWith (soloExec P) PyExc.Refuses (Api.wakeMachine req machineId body) := by
  have hhttp : ∀ detail, (PyExc.http 401 detail []).Refuses := fun _ => refuses_http (by omega)
  have hmain : ∀ {st : Stmt}, FailsWith (soloExec P) PyExc.Refuses (execute .main st) :=
    failsWith_execute refuses_database
  rw [wakeMachine_eq]
  refine failsWith_withBody refuses_database nofun ?_ fun user b => ?_
  · refine FailsWith.bind ?_ fun su => FailsWith.bind ?_ fun _ => failsWith_pure _
    · unfold getCurrentSessionAndUser
      split
      · exact failsWith_raise (hhttp _)
      · exact FailsWith.tryCatch (R := fun _ => True) (failsWith_validateSession fun _ => trivial)
          fun _ _ => failsWith_raise (hhttp _)
    · unfold requireCsrf
      split
      · exact failsWith_raise (refuses_http (by omega))
      · refine FailsWith.bind (FailsWith.bind (failsWith_await fun s => ⟨_, rfl⟩) fun _ =>
          failsWith_pure _) fun ok => ?_
        split
        · exact failsWith_pure _
        · exact failsWith_raise (refuses_http (by omega))
  · refine FailsWith.bind (FailsWith.bind (failsWith_guardUuid hmain) fun found => ?_) fun attempt =>
      FailsWith.bind (failsWith_commit refuses_database) fun _ => FailsWith.bind ?_ fun _ =>
        failsWith_pure _
    · cases found with
      | none => exact failsWith_raise (refuses_http (by omega))
      | some m => exact FailsWith.bind hmain fun _ => hmain
    · refine failsWith_withSession (FailsWith.bind (failsWith_execute refuses_database) fun _ =>
        FailsWith.bind (failsWith_commit refuses_database) fun _ => FailsWith.bind
          (failsWith_execute refuses_database) fun _ => failsWith_pure _)

/-- A wake request that is answered with success has returned. -/
theorem runs_of_succeeds (hroute : req.route = .wakeMachine machineId body)
    (h : Succeeds P req inputs sh) :
    ∃ r s', (endpoint P req).Runs (soloExec P) (Solo.init inputs sh) r s' := by
  by_contra hno
  have hfails : FailsWith (soloExec P) PyExc.Refuses (endpoint P req) := by
    rw [endpoint, hroute]
    exact failsWith_wakeMachine
  obtain ⟨r, hr, hstatus⟩ := refused_of_not_runs hfails
    fun r s' (hrun : (endpoint P req).Runs (soloExec P) (Solo.init inputs sh) r s') =>
      hno ⟨r, s', hrun⟩
  obtain ⟨r', hr', hsuccess⟩ := h
  cases hr.symm.trans hr'
  omega

/-- A request whose own commit took effect and that is atomic has completed. -/
theorem completes_of_atomic {x : User × WakeAttempt} {s : Solo} {row : WakeAttempt}
    (hroute : req.route = .wakeMachine machineId (.typed b))
    (hrun : (untilCommit req machineId b).Runs (soloExec P) (Solo.init inputs sh) x s)
    (hid : x.2.id = row.id) (hs : s.BeforeCommit inputs sh.db row)
    (hcommit : (inputs 7).fault ≠ some .refused) (h : EnqueuedAtomically P req inputs sh) :
    WakeCompletes inputs sh.db := by
  have hend : endpoint P req = getDbSession (untilCommit req machineId b >>= fromCommit machineId b) := by
    rw [endpoint, hroute, ← wakeMachine_typed]
  have hbody : (untilCommit req machineId b >>= fromCommit machineId b).eval (soloExec P)
      (Solo.init inputs sh) = (fromCommit machineId b x).eval (soloExec P) s := by
    unfold Runs at hrun
    rw [eval_bind, hrun]
  have hstays : (serve P req inputs sh).db.attempts = sh.db.attempts ++ [row] := by
    rw [serve_eq, hend]
    rw [getDbSession_congr hbody]
    exact attempt_stays hs hcommit
  have hsuccess : Succeeds P req inputs sh := by
    by_contra hno
    have hsame := (h.failed hno).1.symm.trans hstays
    exact absurd (congrArg List.length hsame) (by simp)
  obtain ⟨r, s', hruns⟩ := runs_of_succeeds hroute hsuccess
  rw [hend] at hruns
  obtain ⟨s₁, hreturned, hfinal⟩ := runs_getDbSession_committed hruns
  have hreturned' : (fromCommit machineId b x).Runs (soloExec P) s r s₁ := hbody.symm.trans hreturned
  obtain ⟨hfaults, hfresh, hstore, hinputs, -⟩ := completed_of_runs hs hid hreturned'
  have hlast := (hfinal (by rw [hstore])).1
  rw [hinputs] at hlast
  refine ⟨fun n hn => ?_, hfresh⟩
  rcases List.mem_append.mp (show n ∈ [7, 8, 9, 10] ++ [12] from hn) with hn | hn
  · exact hfaults n hn
  · obtain rfl := List.mem_singleton.mp hn
    exact hlast

/-- An accepted request with which nothing goes wrong is answered, and its attempt has a job. -/
theorem atomic_of_completes {x : User × WakeAttempt} {s : Solo} {row : WakeAttempt}
    (hroute : req.route = .wakeMachine machineId (.typed b))
    (hmachine : sh.db.machine? machineId = some m)
    (hrun : (untilCommit req machineId b).Runs (soloExec P) (Solo.init inputs sh) x s)
    (hid : x.2.id = row.id) (hs : s.BeforeCommit inputs sh.db row) (h : WakeCompletes inputs sh.db) :
    EnqueuedAtomically P req inputs sh := by
  have hend : endpoint P req =
      getDbSession (untilCommit req machineId b >>= fromCommit machineId b) := by
    rw [endpoint, hroute, ← wakeMachine_typed]
  obtain ⟨r, s₁, hreturned, hstatus⟩ := exists_runs_fromCommit (P := P) hmachine hs hid h
  obtain ⟨-, -, hstore, hinputs, j, hj, hdb⟩ := completed_of_runs hs hid hreturned
  have hbody : (untilCommit req machineId b >>= fromCommit machineId b).Runs (soloExec P)
      (Solo.init inputs sh) r s₁ := runs_bind.mpr ⟨x, s, hrun, hreturned⟩
  have hactive : s₁.store.main.status = .active := by rw [hstore]
  obtain ⟨s', hruns⟩ := exists_runs_getDbSession hbody hactive
    (by rw [hinputs]; exact h.faultless 12 (by simp))
  have hserved := hruns
  rw [← hend] at hserved
  obtain ⟨hresponse, hserve⟩ := response_of_runs hserved
  obtain ⟨s₂, hbody', hfinal⟩ := runs_getDbSession_committed hruns
  have hsame : (Outcome.value r, s₂) = (Outcome.value r, s₁) := hbody'.symm.trans hbody
  cases hsame
  have hafter : (serve P req inputs sh).db = sh.db.after [.insertAttempt row, .insertJob j] := by
    rw [hserve, (hfinal hactive).2, Solo.view, hdb, hstore]
    rfl
  refine ⟨fun hno => (hno ⟨r, hresponse, by omega⟩).elim, fun a ha hnew => ?_⟩
  rw [hafter] at ha ⊢
  rcases List.mem_append.mp (show a ∈ sh.db.attempts ++ [row] from ha) with ha | ha
  · exact (hnew ha).elim
  · obtain rfl := List.mem_singleton.mp ha
    exact ⟨j, List.mem_append_right _ (List.mem_singleton_self j), hj⟩

end Request

/-- **When enqueueing a wake is atomic.** For a machine that exists: exactly when the request
is turned away before its own commit, or that commit is refused, or nothing fails from that
commit on. -/
theorem wake_enqueued_atomically_iff (P : Platform) (req : Request) (inputs : Nat → Input)
    (sh : Shared) (machineId : String) (body : JsonBody WakeRequest) (m : Machine)
    (hroute : req.route = .wakeMachine machineId body)
    (hmachine : sh.db.machine? machineId = some m) :
    EnqueuedAtomically P req inputs sh ↔
      ∀ b user, body = .typed b → WakeAccepted P req m b inputs sh.db user →
        (inputs 7).fault = some .refused ∨ WakeCompletes inputs sh.db := by
  constructor
  · rintro h b user rfl haccepted
    by_cases hcommit : (inputs 7).fault = some .refused
    · exact .inl hcommit
    · obtain ⟨attempt, s, hrun⟩ := exists_runs_untilCommit hmachine haccepted
      obtain ⟨-, row, hid, hs⟩ := accepted_of_runs hmachine hrun
      exact .inr (completes_of_atomic hroute hrun hid hs hcommit h)
  · intro h
    by_cases haccepted : ∃ b user, body = .typed b ∧ WakeAccepted P req m b inputs sh.db user
    · obtain ⟨b, user, rfl, haccepted⟩ := haccepted
      obtain ⟨attempt, s, hrun⟩ := exists_runs_untilCommit hmachine haccepted
      obtain ⟨-, row, hid, hs⟩ := accepted_of_runs hmachine hrun
      rcases h b user rfl haccepted with hrefused | hcompletes
      · refine enqueuedAtomically_of_same ?_
        have hbody : (untilCommit req machineId b >>= fromCommit machineId b).eval (soloExec P)
            (Solo.init inputs sh) = (fromCommit machineId b (user, attempt)).eval (soloExec P) s := by
          unfold Runs at hrun
          rw [eval_bind, hrun]
        rw [serve_eq, endpoint, hroute]
        dsimp only
        rw [wakeMachine_typed, getDbSession_congr hbody]
        exact refused_commit_db hs hrefused
      · exact atomic_of_completes hroute hmachine hrun hid hs hcompletes
    · exact enqueuedAtomically_of_same (wake_db_of_not_accepted hroute hmachine
        fun b user hb hacc => haccepted ⟨b, user, hb, hacc⟩)

/-- A wake of the machine of a new installation. -/
def sampleWake : Request := adminRequest (.wakeMachine (Uuid.ofNat 3).text (.typed {}))

/-- When nothing fails, the first wake of a new installation is atomic. -/
theorem wake_enqueued_atomically_sample :
    EnqueuedAtomically Platform.signing sampleWake (Input.signing 4) Shared.installed := by
  refine (wake_enqueued_atomically_iff Platform.signing sampleWake (Input.signing 4) Shared.installed
    (Uuid.ofNat 3).text (.typed {}) (Database.installed.machines.head (by decide)) rfl
    (by decide)).mpr ?_
  intro b user hb hacc
  exact .inr ⟨fun _ _ => rfl, nofun⟩

/-- The inputs of that request when its ninth operation fails: the insertion of the job. -/
def Input.failingJob : Nat → Input := fun n =>
  if n = 8 then { Input.signing 4 n with fault := some .refused } else Input.signing 4 n

/-- The attempt is then stored, and has no job. -/
theorem wake_leaves_orphan :
    ¬ EnqueuedAtomically Platform.signing sampleWake Input.failingJob Shared.installed := by
  intro h
  have horphan : ∃ a ∈ (serve Platform.signing sampleWake Input.failingJob Shared.installed).db.attempts,
      a ∉ Shared.installed.db.attempts ∧
        ∀ j ∈ (serve Platform.signing sampleWake Input.failingJob Shared.installed).db.jobs,
          j.attemptId ≠ a.id := by
    decide +kernel
  obtain ⟨a, ha, hnew, hnone⟩ := horphan
  obtain ⟨j, hj, hja⟩ := h.covered a ha hnew
  exact hnone j hj hja

end WolMonkey
