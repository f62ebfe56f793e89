import WolMonkey.Facts.Undisturbed
import WolMonkey.Wake.FailureRecord

/-!
# Queued and direct wakes

The same wake can be requested through the job queue and directly. Only the wake of a
machine that does not exist comes to the same both ways: a queued request is accepted
before anything is known of its outcome, and the attempt whose identifier it returns is
never the one that records the sent packet.
-/

namespace WolMonkey

open Programs Program

/-! ## What a wake comes to -/

/-- Whether the request was accepted, the arguments of the calls of the strategy, whether
`EnsureOnlineService` polled, and the status and the error that the returned attempt has in
the end. -/
structure WakeOutcome where
  accepted : Bool
  sent : List (WakeStrategy × String × Option String × Option String)
  polled : Bool
  final : Option (AttemptStatus × Option String)
deriving DecidableEq

/-- The attempt whose identifier a response returns. -/
def Response.attemptId : Response → Option String
  | { body := .wake id _ _, .. } => some id
  | _ => none

def sentArgs (ops : List Op) : List (WakeStrategy × String × Option String × Option String) :=
  ops.filterMap fun
    | .send strategy mac interface broadcast => some (strategy, mac, interface, broadcast)
    | _ => none

/-- `EnsureOnlineService.run` sets this status when it starts to poll. -/
def isPolling : Op → Bool
  | .stmt _ (.attemptUpdateStatus _ .waking _ _) => true
  | _ => false

/-- Status and error of the attempt with an identifier. -/
def Database.attemptRecord (db : Database) (id : String) :
    Option (AttemptStatus × Option String) :=
  (db.attempts.find? (·.id.text == id)).map fun a => (a.status, a.error)

section Outcome
variable (P : Platform)

def requestOps (req : Request) (inputs : Nat → Input) (sh : Shared) : List Op :=
  (handle P req).trace (soloExec P) (Solo.init inputs sh)

def directOutcome (req : Request) (inputs : Nat → Input) (sh : Shared) : WakeOutcome :=
  let attempt := (response P req inputs sh).bind Response.attemptId
  let ops := requestOps P req inputs sh
  { accepted := attempt.isSome, sent := sentArgs ops, polled := ops.any isPolling
    final := attempt.bind (serve P req inputs sh).db.attemptRecord }

/-- A worker claims the job of an attempt and executes it: what it does, and the tables in
the end. -/
def processed (fuel : Nat) (attemptId : String) (inputs : Nat → Input) (sh : Shared) :
    List Op × Database :=
  match sh.db.jobs.find? (·.attemptId.text == attemptId) with
  | some job =>
    let claimed := { sh with db := (Write.setJobRunning job.id (inputs 0).now).apply sh.db }
    let code := executeJob P fuel job.id.text job.payload
    (code.trace (soloExec P) (Solo.init inputs claimed),
      (runSolo P code inputs claimed).2.shared.db)
  | none => ([], sh.db)

def queuedOutcome (fuel : Nat) (req : Request) (inputs workerInputs : Nat → Input)
    (sh : Shared) : WakeOutcome :=
  let attempt := (response P req inputs sh).bind Response.attemptId
  let after := serve P req inputs sh
  let job := match attempt with
    | some id => processed P fuel id workerInputs after
    | none => ([], after.db)
  let ops := requestOps P req inputs sh ++ job.1
  { accepted := attempt.isSome, sent := sentArgs ops, polled := ops.any isPolling
    final := attempt.bind job.2.attemptRecord }

end Outcome

/-- The two ways come to the same, and poll exactly when the body asks for it and the packet
was sent. -/
def Agree (b : WakeRequest) (outcome : Option String) (queued direct : WakeOutcome) : Prop :=
  queued = direct ∧
    queued.polled = (b.ensureOnline && !queued.sent.isEmpty && outcome.isNone)

/-- One wake, requested both ways in the same state: both requests are authenticated and
their body is valid, no database call of the queueing request fails, identifiers are new,
and the strategy does the same both times. -/
structure BothWays (P : Platform) (sh : Shared) (machineId : String) (b : WakeRequest)
    (outcome : Option String) (queued direct : Request) (inputs workerInputs directInputs :
      Nat → Input) : Prop where
  queuedRoute : queued.route = .wakeMachine machineId (.typed b)
  directRoute : direct.route = .wakeMachineDirect machineId (.typed b)
  valid : b.valid = true
  session : ∃ cookie session user, queued.cookie = some cookie ∧
    (∀ n, LiveSession sh.db (inputs n).now cookie session user) ∧ queued.csrfToken ≠ "" ∧
    ∀ n, P.csrfLoads (inputs n).now queued.csrfToken = some (session.id.text, session.csrfSecret)
  token : ∃ raw token, bearerToken direct.authorization = some raw ∧
    sh.db.liveToken? P raw = some token
  faultless : ∀ n, (inputs n).fault = none ∧ (workerInputs n).fault = none ∧
    (directInputs n).fault = none
  newAttempt : ∀ n, ∀ a ∈ sh.db.attempts, a.id ≠ (inputs n).fresh
  newJob : ∀ n, ∀ j ∈ sh.db.jobs, j.id ≠ (inputs n).fresh ∧ j.attemptId ≠ (inputs n).fresh
  newInWorker : ∀ n k, (workerInputs n).fresh ≠ (inputs k).fresh
  strategies : ∀ m ∈ sh.db.machines, wakeStrategyOk m.wakeStrategy = true
  strategy : ∀ n, (workerInputs n).sendError = outcome ∧ (directInputs n).sendError = outcome

/-! ## A queued request is accepted -/

section Queued
variable {P : Platform} {inputs : Nat → Input} {db : Database} {main queue : List Write} {s : Solo}

/-- The row of a new attempt whose values are stored as they are. -/
def AttemptFields.row (f : AttemptFields) (machineId : Uuid) (inp : Input) : WakeAttempt where
  id := inp.fresh
  machineId := machineId
  actorType := f.actorType
  actorId := f.actorId
  strategy := f.strategy
  status := .pending
  ensureOnline := f.ensureOnline
  pollTimeoutS := f.pollTimeoutS
  error := none
  startedAt := inp.now
  finishedAt := none

theorem completes_attemptCreate {f : AttemptFields} {id : Uuid}
    (hfault : ∀ n, (inputs n).fault = none) (h : s.At inputs db main queue)
    (hid : Uuid.parse? f.machineId = some id)
    (hmachine : (db.after main).machines.any (·.id == id) = true)
    (hfresh : ∀ n, ∀ a ∈ (db.after main).attempts, a.id ≠ (inputs n).fresh)
    (hactorType : varchar 20 f.actorType = some f.actorType)
    (hactorId : varchar 255 f.actorId = some f.actorId)
    (hstrategy : varchar 20 f.strategy = some f.strategy)
    (htimeout : int4Ok f.pollTimeoutS = true) :
    (SqlWakeAttemptRepository.create f).Completes (soloExec P) s fun a s' =>
      ∃ n, a = f.row id (inputs n) ∧
        s'.At inputs db (main ++ [.insertAttempt (f.row id (inputs n))]) queue := by
  have hnew : ∀ n, (!(db.after main).attempts.any (·.id == (inputs n).fresh)) = true := by
    intro n
    simpa using hfresh n
  refine (h.execute (r := fun inp => ⟨inp.fresh, [.insertAttempt (f.row id inp)], []⟩) hfault
    (fun _ => rfl) fun n locked => ?_).bind ?_
  · simp only [Stmt.run, bind_eq_ok, uuidParam_eq_ok, accepted_eq_ok, require_eq_ok, pure_eq_ok]
    exact ⟨id, hid, _, hactorType, _, hactorId, _, hstrategy, (), htimeout, (), hnew n, (),
      hmachine, rfl⟩
  rintro _ s₁ ⟨n, rfl, h₁⟩
  refine (h₁.read (a := f.row id (inputs n)) hfault fun inp locked => ?_).mono ?_
  · have hfind : (db.after (main ++ [.insertAttempt (f.row id (inputs n))])).attempts.find?
        (·.id == (inputs n).fresh) = some (f.row id (inputs n)) := by
      rw [Database.after_append]
      show ((db.after main).attempts ++ [f.row id (inputs n)]).find? _ = _
      rw [List.find?_append, List.find?_eq_none.mpr fun a ha => by simpa using hfresh n a ha]
      simp [AttemptFields.row]
    simp only [Stmt.run, hfind]
    rfl
  · rintro _ s₂ ⟨rfl, h₂⟩
    exact ⟨n, rfl, h₂⟩

/-- Adding a job in the session of the job queue. -/
theorem completes_enqueue {machineId : String} {id attemptId : Uuid} {payload : JsonObject}
    (hfault : ∀ n, (inputs n).fault = none) (h : s.At inputs db [] [])
    (hid : Uuid.parse? machineId = some id)
    (hmachine : db.machines.any (·.id == id) = true)
    (hattempt : db.attempts.any (·.id == attemptId) = true)
    (hpayload : (payload.all fun kv => textOk kv.1 && kv.2.storable) = true)
    (hfresh : ∀ n, ∀ j ∈ db.jobs, j.id ≠ (inputs n).fresh)
    (hjob : ∀ j ∈ db.jobs, j.attemptId ≠ attemptId) :
    (JobQueue.enqueue machineId attemptId.text "wake" payload).Completes (soloExec P) s
      fun _ s' => ∃ j, s'.At inputs (db.after [.insertJob j]) [] [] := by
  let job : Input → WakeJob := fun inp =>
    { id := inp.fresh, machineId := id, attemptId, jobType := "wake", status := .queued, payload
      claimedAt := none, createdAt := inp.now }
  have hnew : ∀ n, (!db.jobs.any (·.id == (inputs n).fresh)) = true := by
    intro n
    simpa using hfresh n
  have hfirst : (!db.jobs.any (·.attemptId == attemptId)) = true := by simpa using hjob
  unfold JobQueue.enqueue withSession
  refine Completes.bind (Q := fun _ s' => ∃ j, s'.At inputs (db.after [.insertJob j]) [] [])
    (Completes.tryCatch ((h.executeQueue
      (r := fun inp => ⟨inp.fresh, [.insertJob (job inp)], []⟩) hfault (fun _ => rfl)
      fun n locked => ?_).bind ?_)) ?_
  · simp only [Stmt.run, bind_eq_ok, uuidParam_eq_ok, require_eq_ok, pure_eq_ok]
    exact ⟨id, hid, attemptId, Uuid.parse?_text attemptId, (), hpayload, (), rfl, (), hnew n, (),
      hfirst, (), hmachine, (), hattempt, rfl⟩
  · rintro _ s₁ ⟨n, rfl, h₁⟩
    refine (h₁.commitQueue hfault).bind fun _ s₂ h₂ => ?_
    refine (h₂.executeQueue (r := fun _ => ⟨job (inputs n), [], []⟩) hfault (fun _ => rfl)
      fun k locked => ?_).bind ?_
    · have hfind : (db.after [.insertJob (job (inputs n))]).jobs.find?
          (·.id == (inputs n).fresh) = some (job (inputs n)) := by
        show (db.jobs ++ [job (inputs n)]).find? _ = _
        rw [List.find?_append, List.find?_eq_none.mpr fun j hj => by simpa using hfresh n j hj]
        simp [job]
      have hrun : (Stmt.jobRefresh (inputs n).fresh).run P (inputs k) locked
          (db.after [.insertJob (job (inputs n))]) = .ok ⟨job (inputs n), [], []⟩ := by
        simp only [Stmt.run, hfind]
        rfl
      exact hrun
    · rintro _ s₃ ⟨k, rfl, h₃⟩
      exact completes_pure ⟨_, h₃⟩
  · rintro _ s₁ ⟨j, h₁⟩
    exact (h₁.close .queue).bind fun _ s₂ h₂ => completes_pure ⟨j, h₂⟩

theorem storable_wakePayload {machineId : String} {id attemptId actorId : Uuid} {b : WakeRequest}
    (hid : Uuid.parse? machineId = some id) :
    ((Api.wakePayload machineId attemptId.text actorId.text b).all fun kv =>
      textOk kv.1 && kv.2.storable) = true := by
  have hkeys : ∀ k ∈ ["machine_id", "attempt_id", "ensure_online", "poll_timeout_s",
      "strategy_override", "actor_type", "actor_id", "user"], textOk k = true := by decide
  have hstrategy : ∀ st : WakeStrategy, textOk st.value = true := by
    intro st
    cases st <;> decide
  simp only [List.mem_cons, List.not_mem_nil, or_false, forall_eq_or_imp, forall_eq] at hkeys
  cases hst : b.strategy <;>
    simp [Api.wakePayload, Api.strategyName, Scalar.storable, textOk_of_parse? hid, textOk_text,
      hkeys, hstrategy, hst]

theorem int4Ok_pollTimeout {b : WakeRequest} (h : b.valid = true) :
    int4Ok b.pollTimeoutS = true := by
  simp only [WakeRequest.valid, inRange, Bool.and_eq_true, decide_eq_true_eq] at h
  simp only [int4Ok, Bool.and_eq_true, decide_eq_true_eq]
  omega

variable {sh : Shared} {machineId : String} {b : WakeRequest} {outcome : Option String}
  {queued direct : Request} {workerInputs directInputs : Nat → Input}

/-- A queued wake of a machine that exists is accepted: the pending attempt and its job are
stored. -/
theorem completes_wakeMachine {m : Machine}
    (h : BothWays P sh machineId b outcome queued direct inputs workerInputs directInputs)
    (hm : sh.db.machine? machineId = some m) :
    (handle P queued).Completes (soloExec P) (Solo.init inputs sh) fun r s' =>
      ∃ n a j, r.attemptId = some (inputs n).fresh.text ∧ a.id = (inputs n).fresh ∧
        a.status = .pending ∧ s'.shared.db = sh.db.after [.insertAttempt a, .insertJob j] := by
  obtain ⟨-, id, hid, hfind⟩ := machine?_eq_some.mp hm
  obtain ⟨cookie, session, user, hcookie, hlive, htoken, hcsrf⟩ := h.session
  have hfault : ∀ n, (inputs n).fault = none := fun n => (h.faultless n).1
  have hmachine : sh.db.machines.any (·.id == id) = true :=
    List.any_eq_true.mpr ⟨m, List.mem_of_find?_eq_some hfind,
      List.find?_some (p := fun m : Machine => m.id == id) hfind⟩
  let fields : AttemptFields :=
    { machineId, actorType := "user", actorId := user.id.text
      strategy := (Api.strategyName b).getD m.wakeStrategy
      ensureOnline := b.ensureOnline, pollTimeoutS := b.pollTimeoutS }
  have hstrategy : varchar 20 fields.strategy = some fields.strategy := by
    cases hst : b.strategy with
    | none =>
      simp only [fields, Api.strategyName, hst, Option.map_none, Option.getD_none]
      exact varchar_strategy (h.strategies m (List.mem_of_find?_eq_some hfind))
    | some st =>
      simp only [fields, Api.strategyName, hst, Option.map_some, Option.getD_some]
      cases st <;> rfl
  refine completes_handle ?_
  unfold endpoint
  rw [h.queuedRoute]
  refine (completes_getDbSession (Q := fun r db => ∃ n a j,
    r.attemptId = some (inputs n).fresh.text ∧ a.id = (inputs n).fresh ∧ a.status = .pending ∧
      db = sh.db.after [.insertAttempt a, .insertJob j]) hfault ?_).mono ?_
  swap
  · rintro r s' ⟨db, hs', n, a, j, hr, ha, hstatus, rfl⟩
    exact ⟨n, a, j, hr, ha, hstatus, hs'.db⟩
  refine (completes_csrfProtectedUser hfault (Solo.at_init inputs sh) hcookie hlive htoken
    hcsrf).bind ?_
  rintro u s₁ ⟨rfl, h₁⟩
  simp only [checked, h.valid, if_true]
  refine (completes_machineGetById hfault h₁ hid).bind ?_
  rintro found s₂ ⟨rfl, h₂⟩
  rw [Database.after_nil, hfind]
  have hactor : varchar 20 "user" = some "user" := by decide
  refine (completes_attemptCreate (f := fields) hfault h₂ hid hmachine h.newAttempt hactor
    (varchar_text (by decide) u.id) hstrategy (int4Ok_pollTimeout h.valid)).bind ?_
  rintro _ s₃ ⟨n, rfl, h₃⟩
  refine (h₃.commit hfault).bind fun _ s₄ h₄ => ?_
  refine (completes_enqueue hfault h₄ hid hmachine ?_ (storable_wakePayload hid)
    (fun k j hj => (h.newJob k j hj).1) (fun j hj => (h.newJob n j hj).2)).bind ?_
  · show ((sh.db.attempts ++ [fields.row id (inputs n)]).any _) = true
    simp [AttemptFields.row]
  · rintro _ s₅ ⟨j, h₅⟩
    exact completes_pure ⟨_, [], h₅, n, _, j, rfl, rfl, rfl, rfl⟩

end Queued

/-! ## The returned attempt is never recorded as sent -/

/-- The change does not record the attempt as sent. -/
def Unsent (attempt : Uuid) : Write → Prop
  | .insertAttempt a => a.status ≠ .sent
  | .setAttemptStatus id status _ _ => id = attempt → status ≠ .sent
  | .deleteMachine _ => False
  | _ => True

def Database.NotSent (db : Database) (attempt : Uuid) : Prop :=
  ∀ a, db.attempts.find? (·.id == attempt) = some a → a.status ≠ .sent

theorem Unsent.apply {attempt : Uuid} {w : Write} {db : Database} (hw : Unsent attempt w)
    (h : db.NotSent attempt) : (w.apply db).NotSent attempt := by
  cases w with
  | insertAttempt a =>
    intro b hb
    change (db.attempts ++ [a]).find? _ = some b at hb
    rw [List.find?_append] at hb
    cases hfound : db.attempts.find? (·.id == attempt) with
    | some c =>
      rw [hfound, Option.some_or] at hb
      cases hb
      exact h _ hfound
    | none =>
      rw [hfound, Option.none_or, List.find?_singleton] at hb
      split at hb
      · cases hb
        exact hw
      · cases hb
  | setAttemptStatus id status error finishedAt =>
    intro b hb
    change (updateRows _ _ db.attempts).find? _ = some b at hb
    have hsame : ∀ r : WakeAttempt,
        ((r.setStatus status error finishedAt).id == attempt) = (r.id == attempt) := fun _ => rfl
    rw [find?_updateRows_of_same hsame, Option.map_eq_some_iff] at hb
    obtain ⟨a, ha, rfl⟩ := hb
    have hid : a.id = attempt := by
      have := List.find?_some (p := fun a : WakeAttempt => a.id == attempt) ha
      simpa using this
    split
    · rename_i hmatch
      exact hw ((beq_iff_eq.mp hmatch).symm.trans hid)
    · exact h a ha
  | deleteMachine id => exact hw.elim
  | _ => exact h

section Worker
variable {P : Platform} {attempt : Uuid}

/-- New attempts get other identifiers, and a refreshed row is the one that was asked for. -/
abbrev otherAttempts (P : Platform) (attempt : Uuid) : Monitor app where
  Ghost := Unit
  next := fun _ _ _ => ()
  permits := fun _ op => MakesOn P (Unsent attempt) op
  possible := fun _ op r =>
    match op, r with
    | .stmt _ (.attemptInsert _), .ok id => id ≠ attempt
    | .stmt _ (.attemptRefresh id), .ok a => a.id = id
    | _, _ => True

/-- Code all of whose changes leave the attempt unsent. -/
theorem obeys_unsent {α : Type} {p : Code α} (hp : p.Uses (MakesOn P (Unsent attempt))) :
    Obeys (otherAttempts P attempt) (fun _ _ => True) (fun _ _ => True) () p :=
  hp.obeys (fun _ _ hop _ => ⟨hop, fun _ _ => trivial⟩) trivial

theorem unsent_of_read {op : Op} (h : op.effect = none) : MakesOn P (Unsent attempt) op :=
  makesOn_of_within (fun _ hw => nomatch hw) (within_of_none h : Within [] op)

theorem uses_unsent {α : Type} {p : Code α} (hp : p.Uses (Within [])) :
    p.Uses (MakesOn P (Unsent attempt)) :=
  hp.mono fun _ hop => makesOn_of_within (fun _ hw => nomatch hw) hop

theorem unsent_status {slot : Slot} {id : String} {status : AttemptStatus} {error : Option String}
    {finishedAt : Option DateTime} (h : Uuid.parse? id = some attempt → status ≠ .sent) :
    MakesOn P (Unsent attempt) (.stmt slot (.attemptUpdateStatus id status error finishedAt)) := by
  intro inp locked db r hr w hw
  simp only [Stmt.run, bind_eq_ok, uuidParam_eq_ok, require_eq_ok, pure_eq_ok] at hr
  obtain ⟨u, hu, -, -, rfl⟩ := hr
  obtain rfl := List.mem_singleton.mp hw
  exact fun hid => h (hid ▸ hu)

/-- The attempt that is created is another one. -/
theorem obeys_attemptCreate (f : AttemptFields) :
    Obeys (otherAttempts P attempt) (fun a _ => a.id ≠ attempt) (fun _ _ => True) ()
      (SqlWakeAttemptRepository.create f) := by
  have hinsert : MakesOn P (Unsent attempt) (.stmt .main (.attemptInsert f)) := by
    intro inp locked db r hr w hw
    simp only [Stmt.run, bind_eq_ok, pure_eq_ok] at hr
    obtain ⟨_, -, _, -, _, -, _, -, -, -, -, -, -, -, rfl⟩ := hr
    obtain rfl := List.mem_singleton.mp hw
    simp [Unsent]
  unfold SqlWakeAttemptRepository.create
  rw [obeys_bind]
  refine (obeys_execute (s := .attemptInsert f)).mpr ⟨hinsert, fun id hid => ?_, fun _ _ => trivial⟩
  have hread : MakesOn P (Unsent attempt) (.stmt .main (.attemptRefresh id)) := unsent_of_read rfl
  refine (obeys_execute (s := .attemptRefresh id)).mpr
    ⟨hread, fun row hrow => ?_, fun _ _ => trivial⟩
  have hid' : id ≠ attempt := hid
  have hrow' : row.id = id := hrow
  rw [hrow']
  exact hid'

/-- A wake records as sent only the attempt that it has created. -/
theorem obeys_wake (a : WakeArgs) :
    Obeys (otherAttempts P attempt) (fun _ _ => True) (fun _ _ => True) ()
      (WakeService.wake P a) := by
  unfold WakeService.wake
  rw [obeys_bind]
  refine (obeys_unsent (uses_unsent uses_machineGetById)).mono (fun found _ _ => ?_)
    fun _ _ _ => trivial
  cases found with
  | none => exact (obeys_raise _).mpr trivial
  | some machine =>
    dsimp only
    split
    · exact (obeys_raise _).mpr trivial
    rw [obeys_bind]
    refine Obeys.mono (obeys_attemptCreate _) (fun attempt' g' hne => ?_) fun _ _ _ => trivial
    rw [obeys_bind]
    refine (obeys_unsent (uses_unsent uses_getStrategy)).mono (fun strategy _ _ => ?_)
      fun _ _ _ => trivial
    refine obeys_unsent (Uses.bind (Uses.tryCatch ?_ fun exc => ?_) fun _ => uses_pure _)
    · refine Uses.bind ((uses_perform _).mpr trivial) fun _ => (uses_perform _).mpr ?_
      refine unsent_status fun h => ?_
      rw [Uuid.parse?_text] at h
      exact (hne (Option.some.inj h)).elim
    · refine Uses.bind ((uses_perform _).mpr trivial) fun _ => ?_
      exact Uses.bind ((uses_perform _).mpr (unsent_status fun _ => nofun)) fun _ => uses_raise _

/-- Executing a job never records another attempt as sent than those it creates. -/
theorem obeys_executeJob {fuel : Nat} {jobId : String} {payload : JsonObject} :
    Obeys (otherAttempts P attempt) (fun _ _ => True) (fun _ _ => True) ()
      (executeJob P fuel jobId payload) := by
  have hop : ∀ op : Op, MakesOn P (Unsent attempt) op →
      (await op).Uses (MakesOn P (Unsent attempt)) := fun op h => (uses_perform (I := app) op).mpr h
  have hend : ∀ {op : Op} {e : Effect}, op.effect = some e → e ∈ [Effect.jobDone, .jobError] →
      MakesOn P (Unsent attempt) op := by
    intro op e heffect he
    have hwithin : Within [.jobDone, .jobError] op := within_of_effect heffect he
    refine makesOn_of_within (fun w hw => ?_) hwithin
    cases w with
    | setJobDone id => trivial
    | setJobError id error => trivial
    | _ => exact absurd hw (by simp [Write.effect])
  have hdone : (JobQueue.markDone jobId).Uses (MakesOn P (Unsent attempt)) :=
    uses_withSession (Uses.bind ((uses_perform _).mpr (hend rfl (by simp))) fun _ =>
      hop (.commit .queue) trivial) trivial
  have herror : ∀ message, (JobQueue.markError jobId message).Uses (MakesOn P (Unsent attempt)) :=
    fun message => uses_withSession
      (Uses.bind ((uses_perform _).mpr (hend rfl (by simp))) fun _ =>
        hop (.commit .queue) trivial) trivial
  have hargs : (payloadArgs P payload).Uses (MakesOn P (Unsent attempt)) := by
    unfold payloadArgs
    split
    · exact uses_raise _
    · exact uses_pure _
  have hprocess : Obeys (otherAttempts P attempt) (fun _ _ => True) (fun _ _ => True) ()
      (processJob P fuel jobId payload) := by
    unfold processJob
    rw [obeys_bind]
    refine (obeys_unsent hargs).mono (fun args _ _ => ?_) fun _ _ _ => trivial
    rw [obeys_bind, obeys_tryCatch, obeys_bind]
    refine (obeys_wake args).mono (fun id _ _ => ?_) fun exc _ _ => ?_
    · refine (obeys_pure _).mpr (obeys_unsent ?_)
      split
      · exact uses_ensureJobOnline (fun op h => unsent_of_read h)
          (fun id status error finishedAt _ h => unsent_status fun _ => h) fuel
      · exact uses_pure _
    · refine (obeys_unsent (Uses.bind (hop (.log _) trivial) fun _ => uses_pure false)).mono
        (fun woken _ _ => ?_) fun _ _ _ => trivial
      refine obeys_unsent ?_
      split
      · exact uses_ensureJobOnline (fun op h => unsent_of_read h)
          (fun id status error finishedAt _ h => unsent_status fun _ => h) fuel
      · exact uses_pure _
  have hrecord : ∀ exc : PyExc, (do
      let _ ← await (.rollback .main)
      JobQueue.markError jobId exc.str
      await (.log (.jobError jobId exc.str)) : Code Unit).Uses (MakesOn P (Unsent attempt)) :=
    fun exc => Uses.bind (hop (.rollback .main) trivial) fun _ => Uses.bind (herror _) fun _ =>
      hop (.log _) trivial
  unfold executeJob withSession
  rw [obeys_bind, obeys_tryCatch, obeys_tryCatch, obeys_bind]
  have hclose : ∀ {α : Type} (next : Code α), next.Uses (MakesOn P (Unsent attempt)) →
      Obeys (otherAttempts P attempt) (fun _ _ => True) (fun _ _ => True) ()
        (await (.close .main) >>= fun _ => next) :=
    fun next h => obeys_unsent (Uses.bind (hop (.close .main) trivial) fun _ => h)
  refine hprocess.mono (fun _ _ _ => ?_) fun exc _ _ => ?_
  · refine (obeys_unsent (Uses.bind hdone fun _ => hop (.commit .main) trivial)).mono (fun u _ _ => ?_)
      fun exc _ _ => ?_
    · exact hclose _ (uses_pure _)
    · refine (obeys_unsent (hrecord exc)).mono (fun u _ _ => ?_) fun exc _ _ => ?_
      · exact hclose _ (uses_pure _)
      · exact (hclose _ (uses_raise exc)).mono (fun u _ _ => hclose _ (uses_pure u)) fun _ _ h => h
  · refine (obeys_unsent (hrecord exc)).mono (fun u _ _ => ?_) fun exc _ _ => ?_
    · exact hclose _ (uses_pure _)
    · exact (hclose _ (uses_raise exc)).mono (fun u _ _ => hclose _ (uses_pure u)) fun _ _ h => h

/-- A new attempt gets an identifier of the run, and a refreshed row is the right one. -/
theorem possible_soloExec {s : Solo} (hfresh : ∀ n, (s.inputs n).fresh ≠ attempt) (op : Op) :
    (otherAttempts P attempt).possible () op (soloExec P op s).1 := by
  cases op with
  | stmt slot st =>
    rcases executeStmt_cases P slot (s.inputs 0) [] s.shared s.store st with
      ⟨e, status, h, -⟩ | ⟨r, -, -, hrun, h⟩
    · simp only [soloExec, executeOp, h]
    · simp only [soloExec, executeOp, h]
      cases st with
      | attemptInsert f =>
        simp only [Stmt.run, bind_eq_ok, pure_eq_ok] at hrun
        obtain ⟨_, -, _, -, _, -, _, -, -, -, -, -, -, -, rfl⟩ := hrun
        exact hfresh 0
      | attemptRefresh id =>
        simp only [Stmt.run] at hrun
        split at hrun
        · rename_i a hfind
          cases hrun
          have hid := List.find?_some (p := fun a : WakeAttempt => a.id == id) hfind
          exact beq_iff_eq.mp hid
        · cases hrun
      | _ => trivial
  | _ => trivial

/-- What such code leaves, run alone: the attempt is not recorded as sent. -/
theorem notSent_of_obeys {α : Type} {p : Code α} {inputs : Nat → Input} {sh : Shared}
    (hp : Obeys (otherAttempts P attempt) (fun _ _ => True) (fun _ _ => True) () p)
    (hfresh : ∀ n, (inputs n).fresh ≠ attempt) (h : sh.db.NotSent attempt) :
    (runSolo P p inputs sh).2.shared.db.NotSent attempt := by
  let R : Unit → Solo → Prop := fun _ s =>
    s.store.Only (Unsent attempt) ∧ s.shared.db.NotSent attempt ∧
      ∀ n, (s.inputs n).fresh ≠ attempt
  have step : ∀ (g : Unit) (s : Solo) (op : Op), R g s → MakesOn P (Unsent attempt) op →
      (otherAttempts P attempt).possible g op (soloExec P op s).1 ∧ R () (soloExec P op s).2 := by
    intro g s op hR hop
    obtain ⟨hst, hdb, hnew⟩ := hR
    have hexec : (soloExec P op s).2.store.Only (Unsent attempt) ∧
        Reaches (Unsent attempt) s.shared.db (soloExec P op s).2.shared.db := executeOp_only hop hst
    obtain ⟨hst', hreaches⟩ := hexec
    exact ⟨possible_soloExec hnew op, hst',
      hreaches.invariant (·.NotSent attempt) (fun w db hw hd => hw.apply hd) hdb,
      fun n => hnew (n + 1)⟩
  have hinit : R () (Solo.init inputs sh) := ⟨Store.only_empty, h, hfresh⟩
  obtain ⟨_, hend, -⟩ := hp.run (R := R) step hinit
  exact hend.2.1

end Worker

/-! ## The attempt of a direct wake is recorded as sent -/

section Sent
variable {P : Platform}

theorem text_beq (u v : Uuid) : (u.text == v.text) = (u == v) := by
  by_cases h : u = v
  · rw [h, beq_self_eq_true, beq_self_eq_true]
  · rw [beq_eq_false_iff_ne.mpr h, beq_eq_false_iff_ne.mpr fun h' => h (Uuid.text_injective h')]

theorem Database.attemptRecord_text (db : Database) (id : Uuid) :
    db.attemptRecord id.text =
      (db.attempts.find? (·.id == id)).map fun a => (a.status, a.error) := by
  simp only [Database.attemptRecord, text_beq]

/-- The attempt is on record as sent. -/
def Database.RecordedSent (db : Database) (id : String) : Prop :=
  ∃ error, db.attemptRecord id = some (.sent, error)

theorem Database.NotSent.not_recorded {db : Database} {attempt : Uuid} (h : db.NotSent attempt) :
    ¬ db.RecordedSent attempt.text := by
  rintro ⟨error, hrecord⟩
  rw [Database.attemptRecord_text, Option.map_eq_some_iff] at hrecord
  obtain ⟨a, ha, heq⟩ := hrecord
  exact h a ha (congrArg Prod.fst heq)

/-- A wake that returns has recorded its attempt as sent. -/
theorem recordedSent_of_runs_wake {a : WakeArgs} {s s' : Solo} {id : String}
    (h : (WakeService.wake P a).Runs (soloExec P) s id s') :
    s'.store.main.status = .active ∧ s'.view.RecordedSent id := by
  obtain ⟨found, s₁, -, h⟩ := runs_bind.mp h
  split at h
  · exact (runs_raise.mp h).elim
  split at h
  · exact (runs_raise.mp h).elim
  obtain ⟨attempt, s₂, hcreate, h⟩ := runs_bind.mp h
  obtain ⟨strategy, s₃, hstrategy, h⟩ := runs_bind.mp h
  obtain ⟨u, s₄, hsend, hreturn⟩ := runs_bind.mp h
  obtain ⟨rfl, rfl⟩ := runs_pure.mp hreturn
  -- the row that was refreshed is there
  have hrow : ∃ row, s₂.view.attempts.find? (·.id == attempt.id) = some row := by
    obtain ⟨aid, s', -, hrefresh⟩ := runs_bind.mp hcreate
    obtain ⟨-, -, r, hrun, rfl, rfl⟩ := runs_execute_iff.mp hrefresh
    simp only [Stmt.run] at hrun
    split at hrun
    · rename_i row hfind
      cases hrun
      have hid := List.find?_some (p := fun a : WakeAttempt => a.id == aid) hfind
      refine ⟨row, ?_⟩
      rw [Solo.ran_view, beq_iff_eq.mp hid]
      exact hfind
    · cases hrun
  rcases runs_tryCatch.mp hsend with hsend | ⟨e, s₅, -, hsend⟩
  swap
  · obtain ⟨now, s₆, -, hsend⟩ := runs_bind.mp hsend
    obtain ⟨u, s₇, -, hsend⟩ := runs_bind.mp hsend
    exact (runs_raise.mp hsend).elim
  obtain ⟨u, s₅, hsent, hupdate⟩ := runs_bind.mp hsend
  have hsame : s₅.view = s₂.view := by
    have hadds : s₃.Adds (fun w => w.effect ∈ [Effect.send]) s₅ :=
      Runs.adds _ (uses_effect rfl (by simp)) (by simp) (by simp) hsent
    have hkeeps : Untouched (fun w => w.effect ∈ [Effect.send]) (fun db => db) := by
      intro w db hw
      cases w <;> exact absurd hw (by simp [Write.effect])
    exact (hadds.keeps hkeeps).trans (Runs.same uses_getStrategy hstrategy).view
  obtain ⟨hactive, -, r, hrun, -, rfl⟩ := runs_execute_iff.mp hupdate
  simp only [Stmt.run, bind_eq_ok, uuidParam_eq_ok, require_eq_ok, pure_eq_ok] at hrun
  obtain ⟨id, hid, -, -, rfl⟩ := hrun
  rw [Uuid.parse?_text] at hid
  obtain rfl := Option.some.inj hid
  obtain ⟨row, hrow⟩ := hrow
  refine ⟨hactive, (row.setStatus .sent none none).error, ?_⟩
  rw [Solo.ran_view, hsame, Database.attemptRecord_text]
  show ((updateRows (·.id == attempt.id) (·.setStatus .sent none none) s₂.view.attempts).find?
    (·.id == attempt.id)).map _ = _
  have hsame' : ∀ row : WakeAttempt,
      ((row.setStatus .sent none none).id == attempt.id) = (row.id == attempt.id) := fun _ => rfl
  rw [find?_updateRows_of_same hsame', hrow]
  have hmatch : (row.id == attempt.id) = true :=
    List.find?_some (p := fun a : WakeAttempt => a.id == attempt.id) hrow
  simp only [Option.map_some, hmatch, if_true]
  rfl

theorem attemptId_errorResponse (route : Route) (e : PyExc) :
    (errorResponse route e).attemptId = none := by
  unfold errorResponse
  split
  · split <;> rfl
  all_goals rfl

/-- A request that returned the identifier of an attempt was not answered with an error. -/
theorem runs_of_attemptId {req : Request} {inputs : Nat → Input} {sh : Shared} {id : String}
    (h : (response P req inputs sh).bind Response.attemptId = some id) :
    ∃ r s', (endpoint P req).Runs (soloExec P) (Solo.init inputs sh) r s' ∧ r.attemptId = some id ∧
      serve P req inputs sh = s'.shared := by
  obtain ⟨r, hr, hid⟩ := Option.bind_eq_some_iff.mp h
  rw [serve_eq]
  unfold response runSolo handle respond at hr
  rw [eval_tryCatch] at hr
  rcases heval : (endpoint P req).eval (soloExec P) (Solo.init inputs sh) with ⟨r' | e | _, s'⟩
  · rw [heval] at hr
    cases hr
    exact ⟨r, s', heval, hid, by rw [heval]⟩
  · rw [heval] at hr
    cases hr
    rw [attemptId_errorResponse] at hid
    cases hid
  · rw [heval] at hr
    cases hr

/-- An accepted direct wake leaves the attempt that it returned recorded as sent. -/
theorem recordedSent_of_direct {req : Request} {machineId id : String}
    {body : JsonBody WakeRequest} {inputs : Nat → Input} {sh : Shared}
    (hroute : req.route = .wakeMachineDirect machineId body)
    (h : (response P req inputs sh).bind Response.attemptId = some id) :
    (serve P req inputs sh).db.RecordedSent id := by
  obtain ⟨r, s', hrun, hid, hserve⟩ := runs_of_attemptId h
  rw [hserve]
  rw [endpoint, hroute] at hrun
  dsimp only at hrun
  rw [wakeMachineDirect_eq] at hrun
  cases body with
  | malformed => exact (runs_raise.mp hrun).elim
  | mistyped =>
    obtain ⟨s₁, h⟩ := runs_getDbSession hrun
    obtain ⟨d, s₂, -, h⟩ := runs_bind.mp h
    exact (runs_raise.mp h).elim
  | typed b =>
    obtain ⟨s₁, h, hview⟩ := runs_getDbSession_view hrun
    obtain ⟨token, s₂, -, h⟩ := runs_bind.mp h
    split at h
    · obtain ⟨id', hwake, rfl⟩ := runs_directWake h
      obtain ⟨hactive, hsent⟩ := recordedSent_of_runs_wake hwake
      cases hid
      rw [hview hactive]
      exact hsent
    · exact (runs_raise.mp h).elim

end Sent

/-! ## A machine that does not exist -/

section Missing
variable {P : Platform} {req : Request} {machineId : String} {body : JsonBody WakeRequest}
  {inputs : Nat → Input} {sh : Shared}

/-- A statement that reads nothing of a missing machine. -/
theorem missing_of_runs {s s' : Solo} {found : Option Machine}
    (h : (SqlMachineRepository.getById machineId).Runs (soloExec P) s found s')
    (hmissing : s.view.machine? machineId = none) : found = none := by
  rcases runs_guardUuid h with ⟨hvalid, h⟩ | ⟨-, h, -⟩
  · obtain ⟨-, -, r, hrun, rfl, rfl⟩ := runs_execute_iff.mp h
    simp only [Stmt.run, bind_eq_ok, uuidParam_eq_ok, pure_eq_ok] at hrun
    obtain ⟨id, hid, rfl⟩ := hrun
    simpa [Database.machine?, hvalid, hid] using hmissing
  · exact h

/-- A queued wake of a missing machine is refused. -/
theorem queued_missing (hroute : req.route = .wakeMachine machineId body)
    (hmissing : sh.db.machine? machineId = none) :
    (response P req inputs sh).bind Response.attemptId = none := by
  refine Option.eq_none_iff_forall_ne_some.mpr fun id h => ?_
  obtain ⟨r, s', hrun, -, -⟩ := runs_of_attemptId h
  rw [endpoint, hroute] at hrun
  obtain ⟨b, c, user, s₁, s₂, -, -, hdeps, hend⟩ := runs_withBody hrun
  obtain ⟨found, s₃, hget, hend⟩ := runs_bind.mp hend
  have hview : s₁.view = sh.db := (Runs.same uses_csrfProtectedUser hdeps).view
  rw [missing_of_runs hget (by rw [hview]; exact hmissing)] at hend
  exact (runs_raise.mp hend).elim

/-- A direct wake of a missing machine sends nothing. -/
theorem direct_missing (hroute : req.route = .wakeMachineDirect machineId body)
    (hmissing : sh.db.machine? machineId = none) : sendsPacket P req inputs sh = false := by
  refine Bool.eq_false_iff.mpr fun h => ?_
  obtain ⟨token, s₁, b, hrun, -, -, hready⟩ := wakeReady_of_sendsPacket hroute h
  have hadds : (Solo.init inputs sh).Adds (fun w => w.effect ∈ [Effect.touchToken]) s₁ :=
    Runs.adds _ (uses_getApiToken (by simp)) (by simp) (by simp) hrun
  have hkeeps : Untouched (fun w => w.effect ∈ [Effect.touchToken]) Database.machines := by
    intro w db hw
    exact (machines_touched db (by simpa using hw)).1
  obtain ⟨id, m, hid, hm, -⟩ := hready.machine
  rw [hadds.keeps hkeeps, Solo.view_init] at hm
  have hfound : sh.db.machine? machineId = some m :=
    machine?_eq_some.mpr ⟨hready.valid, id, hid, hm⟩
  rw [hmissing] at hfound
  cases hfound

theorem sentArgs_eq_nil {ops : List Op} (h : ops.any isSend = false) : sentArgs ops = [] := by
  refine List.filterMap_eq_nil_iff.mpr fun op hop => ?_
  have hno := List.any_eq_false.mp h op hop
  cases op with
  | send strategy mac interface broadcast => exact (hno rfl).elim
  | _ => rfl

theorem not_polling_of_within {es : List Effect} (hstatus : .attemptStatus ∉ es) {op : Op}
    (h : Within es op) : isPolling op = false := by
  cases op with
  | stmt slot st =>
    cases st with
    | attemptUpdateStatus id status error finishedAt => exact (hstatus (h _ rfl)).elim
    | _ => rfl
  | _ => rfl

/-- A queued request leaves sending and polling to the worker. -/
theorem queued_quiet (hroute : req.route = .wakeMachine machineId body) :
    (requestOps P req inputs sh).any isSend = false ∧
      (requestOps P req inputs sh).any isPolling = false := by
  have huses : (handle P req).Uses (Within [.newAttempt, .newJob, .commit, .reset]) := by
    have hwithin : (handle P req).Uses (Within req.route.effects) := handle_within
    rwa [hroute] at hwithin
  constructor
  · refine List.any_eq_false.mpr fun op hop => Bool.eq_false_iff.mp ?_
    exact not_send_of_within (by simp) (huses.of_mem_trace hop)
  · refine List.any_eq_false.mpr fun op hop => Bool.eq_false_iff.mp ?_
    exact not_polling_of_within (by simp) (huses.of_mem_trace hop)

/-- A direct wake never polls. -/
theorem direct_quiet (hroute : req.route = .wakeMachineDirect machineId body) :
    (requestOps P req inputs sh).any isPolling = false := by
  have hread : ∀ {α : Type} {p : Code α} (es : List Effect), .attemptStatus ∉ es →
      p.Uses (Within es) → p.Uses fun op => isPolling op = false :=
    fun es hes hp => hp.mono fun op => not_polling_of_within hes
  have hsession : Sessions fun op => isPolling op = false := fun _ => ⟨rfl, rfl, rfl⟩
  have hupdate : ∀ id status error finishedAt, status ≠ .waking →
      (SqlWakeAttemptRepository.updateStatus id status error finishedAt).Uses
        fun op => isPolling op = false := by
    intro id status error finishedAt h
    refine (uses_perform _).mpr ?_
    cases status with
    | waking => exact (h rfl).elim
    | _ => rfl
  have huses : (handle P req).Uses fun op => isPolling op = false := by
    refine Uses.tryCatch ?_ fun _ => uses_pure _
    rw [endpoint, hroute]
    refine uses_withBody (hread [.touchToken] (by simp) (uses_getApiToken (by simp))) hsession
      fun token b => Uses.bind (Uses.tryCatch ?_ fun exc => ?_) fun _ => uses_pure _
    swap
    · split <;> exact uses_raise _
    refine Uses.bind (hread [] (by simp) uses_machineGetById) fun found => ?_
    cases found with
    | none => exact uses_raise _
    | some machine =>
      dsimp only
      split
      · exact uses_raise _
      refine Uses.bind (hread [.newAttempt] (by simp) (uses_attemptCreate (by simp))) fun attempt =>
        Uses.bind (hread [] (by simp) uses_getStrategy) fun strategy =>
        Uses.bind (Uses.tryCatch ?_ fun exc => ?_) fun _ => uses_pure _
      · exact Uses.bind ((uses_perform _).mpr rfl) fun _ => hupdate _ _ _ _ (by simp)
      · exact Uses.bind ((uses_perform _).mpr rfl) fun _ =>
          Uses.bind (hupdate _ _ _ _ (by simp)) fun _ => uses_raise _
  refine List.any_eq_false.mpr fun op hop => Bool.eq_false_iff.mp ?_
  exact huses.of_mem_trace hop

end Missing

/-! ## Agreement -/

section Agreement
variable {P : Platform} {sh : Shared} {machineId : String} {b : WakeRequest}
  {outcome : Option String} {queued direct : Request}
  {inputs workerInputs directInputs : Nat → Input}

/-- The attempt of a queued wake of a machine that exists is never recorded as sent. -/
theorem queued_not_recorded {m : Machine} (fuel : Nat)
    (h : BothWays P sh machineId b outcome queued direct inputs workerInputs directInputs)
    (hm : sh.db.machine? machineId = some m) :
    ∃ record, (queuedOutcome P fuel queued inputs workerInputs sh).accepted = true ∧
      (queuedOutcome P fuel queued inputs workerInputs sh).final = record ∧
      ∀ error, record ≠ some (.sent, error) := by
  obtain ⟨r, s', hrun, n, a, j, hid, ha, hpending, hdb⟩ := completes_wakeMachine h hm
  have hresponse : response P queued inputs sh = some r := by
    unfold response runSolo
    rw [hrun]
  have hafter : (serve P queued inputs sh).db = sh.db.after [.insertAttempt a, .insertJob j] := by
    unfold serve runSolo
    rw [hrun]
    exact hdb
  have hunsent : (serve P queued inputs sh).db.NotSent a.id := by
    rw [hafter]
    intro row hrow
    change (sh.db.attempts ++ [a]).find? _ = some row at hrow
    rw [List.find?_append, List.find?_eq_none.mpr fun c hc => by
      simpa [ha] using h.newAttempt n c hc, Option.none_or, List.find?_singleton] at hrow
    simp only [beq_self_eq_true, if_true, Option.some.injEq] at hrow
    rw [← hrow, hpending]
    exact nofun
  have hprocessed : (processed P fuel a.id.text workerInputs
      (serve P queued inputs sh)).2.NotSent a.id := by
    unfold processed
    split
    · rename_i job _
      refine notSent_of_obeys obeys_executeJob (fun k => ?_) (Unsent.apply ?_ hunsent)
      · rw [ha]
        exact h.newInWorker k n
      · trivial
    · exact hunsent
  refine ⟨_, ?_, rfl, fun error herror => hprocessed.not_recorded ⟨error, ?_⟩⟩
  · simp only [queuedOutcome, hresponse, Option.bind_some, hid, Option.isSome_some]
  · rw [← ha] at hid
    simpa only [queuedOutcome, hresponse, Option.bind_some, hid] using herror

/-- The two ways agree exactly when the machine does not exist. -/
theorem wakes_agree_iff (P : Platform) (sh : Shared) (machineId : String) (b : WakeRequest)
    (outcome : Option String) (queued direct : Request)
    (inputs workerInputs directInputs : Nat → Input) (fuel : Nat)
    (h : BothWays P sh machineId b outcome queued direct inputs workerInputs directInputs) :
    Agree b outcome (queuedOutcome P fuel queued inputs workerInputs sh)
      (directOutcome P direct directInputs sh) ↔ sh.db.machine? machineId = none := by
  constructor
  · rintro ⟨hsame, -⟩
    refine Option.eq_none_iff_forall_ne_some.mpr fun m hm => ?_
    obtain ⟨record, haccepted, hfinal, hunsent⟩ := queued_not_recorded fuel h hm
    rw [hsame] at haccepted hfinal
    obtain ⟨id, hid⟩ := Option.isSome_iff_exists.mp haccepted
    obtain ⟨error, hsent⟩ := recordedSent_of_direct h.directRoute hid
    refine hunsent error (hfinal.symm.trans ?_)
    rw [directOutcome, hid]
    exact hsent
  · intro hmissing
    have hqueued : (response P queued inputs sh).bind Response.attemptId = none :=
      queued_missing h.queuedRoute hmissing
    have hsends : sendsPacket P direct directInputs sh = false :=
      direct_missing h.directRoute hmissing
    have hdirect : (response P direct directInputs sh).bind Response.attemptId = none := by
      refine Option.eq_none_iff_forall_ne_some.mpr fun id hid => ?_
      obtain ⟨r, s', hrun, -, -⟩ := runs_of_attemptId hid
      rw [sendsPacket_of_runs h.directRoute hrun] at hsends
      cases hsends
    rw [sendsPacket, performs_eq_any] at hsends
    obtain ⟨hsilent, hpolled⟩ : (requestOps P queued inputs sh).any isSend = false ∧
        (requestOps P queued inputs sh).any isPolling = false := queued_quiet h.queuedRoute
    have hdirectPolled : (requestOps P direct directInputs sh).any isPolling = false :=
      direct_quiet h.directRoute
    have hnothing : queuedOutcome P fuel queued inputs workerInputs sh = ⟨false, [], false, none⟩ := by
      simp only [queuedOutcome, hqueued, List.append_nil, sentArgs_eq_nil hsilent, hpolled,
        Option.bind_none, Option.isSome_none]
    refine ⟨?_, ?_⟩
    · rw [hnothing]
      simp only [directOutcome, hdirect, requestOps, sentArgs_eq_nil hsends, Option.bind_none,
        Option.isSome_none]
      rw [← requestOps, hdirectPolled]
    · rw [hnothing]
      simp

end Agreement

/-- A wake requested both ways in the installation with a token. -/
theorem BothWays.sample (machineId : String) :
    BothWays Platform.signing (Shared.withToken none) machineId {} none
      (adminRequest (.wakeMachine machineId (.typed {})))
      (tokenRequest (.wakeMachineDirect machineId (.typed {})))
      (Input.signing 6) (Input.signing 7) (Input.signing 6) where
  queuedRoute := rfl
  directRoute := rfl
  valid := by decide
  session := by
    have htoken : (adminRequest (.wakeMachine machineId (.typed {}))).csrfToken =
        Platform.sampleCsrf := by
      show orElse (some Platform.sampleCsrf) "" = Platform.sampleCsrf
      decide +kernel
    have hloads : ∀ time, Platform.signing.csrfLoads time Platform.sampleCsrf =
        some (sampleSession.text, Platform.sampleSecret) := fun time => by
      simp only [Platform.signing, beq_self_eq_true, if_true]
    refine ⟨sampleSession.text, _, _, rfl, fun n => ⟨sampleSession, Uuid.parse?_text _, rfl, rfl,
      ?_, rfl⟩, ?_, fun n => ?_⟩
    · show sampleTime ≤ sampleTime + DateTime.hours 12
      decide
    · rw [htoken]
      decide +kernel
    · rw [htoken]
      exact hloads _
  token := by
    refine ⟨Platform.sampleToken, ApiToken.sample none, ?_, by decide +kernel⟩
    show bearerToken (some ("Bearer " ++ Platform.sampleToken)) = some Platform.sampleToken
    decide +kernel
  faultless := fun _ => ⟨rfl, rfl, rfl⟩
  newAttempt := fun _ _ h => (nomatch h)
  newJob := fun _ _ h => (nomatch h)
  newInWorker := by
    intro n k
    show Uuid.ofNat 7 ≠ Uuid.ofNat 6
    decide +kernel
  strategies := by decide
  strategy := fun _ => ⟨rfl, rfl⟩

theorem wakes_agree_iff_sample :
    let machineId := (Uuid.ofNat 4).text
    Agree {} none
      (queuedOutcome Platform.signing 1 (adminRequest (.wakeMachine machineId (.typed {})))
        (Input.signing 6) (Input.signing 7) (Shared.withToken none))
      (directOutcome Platform.signing (tokenRequest (.wakeMachineDirect machineId (.typed {})))
        (Input.signing 6) (Shared.withToken none)) :=
  (wakes_agree_iff Platform.signing _ _ {} none _ _ _ _ _ 1 (BothWays.sample _)).mpr
    (by decide +kernel)

/-- A machine that exists: the attempt of the queued wake stays pending, and that of the
direct wake is sent. -/
theorem wakes_disagree :
    ¬ ∀ (sh : Shared) (machineId : String) (b : WakeRequest) (outcome : Option String)
        (queued direct : Request) (inputs workerInputs directInputs : Nat → Input) (fuel : Nat),
      BothWays Platform.signing sh machineId b outcome queued direct inputs workerInputs
        directInputs →
      Agree b outcome (queuedOutcome Platform.signing fuel queued inputs workerInputs sh)
        (directOutcome Platform.signing direct directInputs sh) := by
  intro h
  have hsame := (h _ _ _ _ _ _ _ _ _ 1 (BothWays.sample (Uuid.ofNat 3).text)).1
  revert hsame
  decide +kernel

end WolMonkey
