import Mathlib.Logic.Function.Basic
import WolMonkey.Library.Pool
import WolMonkey.Model.Statements

/-!
# Awaited operations and transactions

The interface between the application's code and everything it awaits, and how one
awaited operation is executed.

Every thread (a request, or one iteration of a worker) has two database sessions: the one
that the request or the job works in, and the one that the job queue opens for itself. A
transaction collects its changes on top of the committed tables (`READ COMMITTED`: each
statement sees what is committed when it runs). A failed statement aborts the transaction,
and committing an aborted transaction commits nothing; after a failed flush the session
refuses everything until it is rolled back.

A change waits while another open transaction holds a lock on the same row, the same value
of a unique column, or a row that a foreign key needs; `FOR UPDATE SKIP LOCKED` does not
wait.
-/

namespace WolMonkey

open Programs

/-- The exceptions of the application. -/
inductive PyExc where
  | http (status : Nat) (detail : String) (headers : List (String × String))
  /-- `RequestValidationError`. -/
  | validation
  | authentication (message : String)
  | wake (message : String)
  | value (message : String)
  | runtime (message : String)
  | attributeError (message : String)
  | database (error : DbError)
deriving DecidableEq

/-- `str(exc)`. A database error is represented by the name of its class. -/
def PyExc.str : PyExc → String
  | http status detail _ => toString status ++ ": " ++ detail
  | validation => "RequestValidationError"
  | authentication message | wake message | value message | runtime message
  | attributeError message => message
  | database .invalidParameter => "DBAPIError"
  | database .dataError => "DataError"
  | database .integrityError => "IntegrityError"
  | database .operationalError => "OperationalError"
  | database .invalidRequest => "InvalidRequestError"
  | database .inFailedTransaction => "InFailedSQLTransactionError"
  | database .pendingRollback => "PendingRollbackError"

/-! ## Operations -/

/-- The session of the request or job, and the session of the job queue. -/
inductive Slot where
  | main
  | queue
deriving DecidableEq

/-- Log records that say how a job went. -/
inductive LogRecord where
  | jobWakeFailed (jobId error : String)
  | jobEnsureOnlineDone (jobId : String) (status : AttemptStatus)
  | jobError (jobId error : String)
deriving DecidableEq

inductive Op where
  | stmt (slot : Slot) (s : Stmt)
  | commit (slot : Slot)
  | rollback (slot : Slot)
  | close (slot : Slot)
  /-- `datetime.now(UTC)`. -/
  | now
  | checkLoginRate (ip : String)
  | hashPassword (plain : String)
  /-- `secrets.token_hex`. -/
  | tokenHex (bytes : Nat)
  | csrfDumps (sid sec : String)
  | csrfLoads (token : String)
  /-- `strategy.wake(mac=…, interface=…, broadcast=…)`. -/
  | send (strategy : WakeStrategy) (mac : String) (interface broadcast : Option String)
  /-- A ping and a TCP connection to a host, side by side. -/
  | probe (host : String) (sshPort : Int)
  | sleep
  /-- Read a file below `/proc/net`. -/
  | readProc (file : String)
  | log (record : LogRecord)

abbrev Op.Answer : Op → Type
  | .stmt _ s => s.Answer
  | .commit _ | .rollback _ | .close _ => Unit
  | .now => DateTime
  | .checkLoginRate _ => Unit
  | .hashPassword _ | .tokenHex _ | .csrfDumps _ _ => String
  | .csrfLoads _ => Option (String × String)
  | .send _ _ _ _ => Unit
  | .probe _ _ => ProbeResult
  | .sleep => Unit
  | .readProc _ => String
  | .log _ => Unit

/-- The interface of the application's code. -/
abbrev app : Interface := ⟨Op, Op.Answer, PyExc⟩

/-- Application code that returns `α`. -/
abbrev Code (α : Type) := Program app α

abbrev raise {α : Type} (e : PyExc) : Code α := Program.raise e

/-- Await a statement of a session. -/
def execute (slot : Slot) (s : Stmt) : Code s.Answer := Program.perform (I := app) (.stmt slot s)

/-- Await an operation that is not a statement. -/
def await (op : Op) : Code op.Answer := Program.perform (I := app) op

/-! ## Transactions -/

inductive TxStatus where
  | active
  /-- A statement failed on the server: every further statement is refused, and a commit
  commits nothing. -/
  | aborted
  /-- A flush failed: the session wants to be rolled back first. -/
  | inactive
deriving DecidableEq

structure Tx where
  writes : List Write := []
  /-- Job rows locked by `FOR UPDATE`. -/
  locks : List Uuid := []
  status : TxStatus := .active
deriving DecidableEq

structure Store where
  main : Tx := {}
  queue : Tx := {}
deriving DecidableEq

namespace Store

def tx (st : Store) : Slot → Tx
  | .main => st.main
  | .queue => st.queue

def setTx (st : Store) : Slot → Tx → Store
  | .main, tx => { st with main := tx }
  | .queue, tx => { st with queue := tx }

@[simp] theorem tx_setTx_self (st : Store) (s : Slot) (tx : Tx) : (st.setTx s tx).tx s = tx := by
  cases s <;> rfl

theorem tx_setTx_of_ne {s s' : Slot} (h : s ≠ s') (st : Store) (tx : Tx) :
    (st.setTx s tx).tx s' = st.tx s' := by
  cases s <;> cases s' <;> first | rfl | exact absurd rfl h

end Store

/-! ## Locks -/

/-- What a change locks. -/
inductive RowKey where
  | user (id : Uuid)
  | username (name : String)
  | machine (id : Uuid)
  | machineMac (mac : String)
  | attempt (id : Uuid)
  | session (id : Uuid)
  | token (id : Uuid)
  | tokenHash (hash : String)
  | setupState
  | setting (key : String)
  | job (id : Uuid)
  | jobOfAttempt (attemptId : Uuid)
deriving DecidableEq

/-- The keys that a change locks against every other change of them. -/
def Write.exclusive (db : Database) : Write → List RowKey
  | insertUser u => [.user u.id, .username u.username]
  | setLastLogin id _ | setPasswordHash id _ => [.user id]
  | insertMachine m => [.machine m.id, .machineMac m.macAddress]
  | updateMachine id c _ => .machine id :: (c.macAddress.map RowKey.machineMac).toList
  | deleteMachine id =>
    .machine id :: ((db.attempts.filter (·.machineId == id)).map (RowKey.attempt ·.id) ++
      (db.jobs.filter (·.machineId == id)).map (RowKey.job ·.id) ++
      (db.tokens.filter (·.machineId == some id)).map (RowKey.token ·.id))
  | insertAttempt a => [.attempt a.id]
  | setAttemptStatus id _ _ _ => [.attempt id]
  | insertSession s => [.session s.id]
  | revokeSession id => [.session id]
  | insertToken t => [.token t.id, .tokenHash t.tokenHash]
  | revokeToken id _ | touchToken id _ => [.token id]
  | insertSetup _ | updateSetup _ => [.setupState]
  | insertSetting s => [.setting s.key]
  | updateSetting k _ => [.setting k]
  | insertJob j => [.job j.id, .jobOfAttempt j.attemptId]
  | setJobRunning id _ | setJobDone id | setJobError id _ => [.job id]

/-- The rows that a change needs to stay: the targets of its foreign keys. -/
def Write.needs : Write → List RowKey
  | insertAttempt a => [.machine a.machineId]
  | insertJob j => [.machine j.machineId, .attempt j.attemptId]
  | insertToken t => (t.machineId.map RowKey.machine).toList
  | _ => []

/-- The rows that a change takes away. -/
def Write.removes : Write → List RowKey
  | deleteMachine id => [.machine id]
  | _ => []

/-- The second of two changes has to wait for the transaction of the first. -/
def Write.conflicts (db : Database) (first second : Write) : Bool :=
  (first.exclusive db).any (second.exclusive db).contains ||
    first.needs.any second.removes.contains || first.removes.any second.needs.contains

/-- Job rows that a transaction holds. -/
def Tx.heldJobs (tx : Tx) : List Uuid :=
  tx.locks ++ tx.writes.filterMap fun
    | .insertJob j => some j.id
    | .setJobRunning id _ | .setJobDone id | .setJobError id _ => some id
    | _ => none

def Store.heldJobs (st : Store) : List Uuid := st.main.heldJobs ++ st.queue.heldJobs

/-! ## Executing an operation -/

/-- What all threads share: the committed tables, the buckets of the login limiter and the
identifiers that were drawn so far. -/
structure Shared where
  db : Database
  rateBuckets : String → List Rat
  issued : List Uuid

/-- The job rows that other transactions hold: those of other threads, and of the other
session of the same thread. -/
def lockedJobs (others : List Store) (st : Store) : Slot → List Uuid
  | .main => others.flatMap Store.heldJobs ++ st.queue.heldJobs
  | .queue => others.flatMap Store.heldJobs ++ st.main.heldJobs

/-- The other open transactions. -/
def otherTxs (others : List Store) (st : Store) : Slot → List Tx
  | .main => others.flatMap (fun o => [o.main, o.queue]) ++ [st.queue]
  | .queue => others.flatMap (fun o => [o.main, o.queue]) ++ [st.main]

/-- The change has to wait for the transaction. -/
def Tx.blocks (db : Database) (tx : Tx) (w : Write) : Bool :=
  tx.writes.any (fun v => v.conflicts db w) ||
    (w.exclusive db).any fun
      | .job id => tx.locks.contains id
      | _ => false

/-- The statement draws a new identifier. -/
def Stmt.inserts : Stmt → Bool
  | userInsert _ _ _ | machineInsert _ | attemptInsert _ | sessionInsert _ _ _ _ _
  | tokenInsert _ _ _ _ _ | jobInsert _ _ _ _ => true
  | _ => false

/-! ### The login limiter -/

def loginWindow : Rat := 60

def loginMaxAttempts : Nat := 5

/-- `_check_login_rate` on the buckets: whether the call is admitted, and the new buckets. -/
def checkLoginRate (now : Rat) (ip : String) (buckets : String → List Rat) :
    Bool × (String → List Rat) :=
  let timestamps := (buckets ip).filter fun t => now - t < loginWindow
  if loginMaxAttempts ≤ timestamps.length then (false, Function.update buckets ip timestamps)
  else (true, Function.update buckets ip (timestamps ++ [now]))

def tooManyLogins : PyExc :=
  .http 429 "Too many login attempts — please wait before trying again." [("Retry-After", "60")]

section Execution
variable (P : Platform)

/-- A statement in a transaction. -/
def executeStmt (slot : Slot) (s : Stmt) (inp : Input) (others : List Store) (sh : Shared)
    (st : Store) : Except PyExc s.Answer × Store :=
  let tx := st.tx slot
  let failWith (e : DbError) (status : TxStatus) : Except PyExc s.Answer × Store :=
    (.error (.database e), st.setTx slot { tx with status })
  let failed : TxStatus := if s.isFlush then .inactive else .aborted
  match tx.status with
  | .inactive => failWith .pendingRollback .inactive
  | .aborted => failWith .inFailedTransaction (if s.isFlush then .inactive else .aborted)
  | .active =>
    match inp.fault with
    | some _ => failWith .operationalError failed
    | none =>
      match s.run P inp (lockedJobs others st slot) (sh.db.after tx.writes) with
      | .error .invalidParameter => failWith .invalidParameter (if s.isFlush then .inactive else .active)
      | .error e => failWith e failed
      | .ok r =>
        (.ok r.answer,
          st.setTx slot { tx with writes := tx.writes ++ r.writes, locks := tx.locks ++ r.locks })

/-- Commit: the changes of the transaction reach the tables. -/
def executeCommit (slot : Slot) (inp : Input) (sh : Shared) (st : Store) :
    Except PyExc Unit × Shared × Store :=
  let tx := st.tx slot
  let committed : Shared := { sh with db := sh.db.after tx.writes }
  match tx.status, inp.fault with
  | .inactive, _ => (.error (.database .pendingRollback), sh, st)
  | _, some .refused => (.error (.database .operationalError), sh, st.setTx slot {})
  | .aborted, some .lost => (.error (.database .operationalError), sh, st.setTx slot {})
  | .active, some .lost => (.error (.database .operationalError), committed, st.setTx slot {})
  | .aborted, none => (.ok (), sh, st.setTx slot {})
  | .active, none => (.ok (), committed, st.setTx slot {})

def executeOp (op : Op) (inp : Input) (others : List Store) (sh : Shared) (st : Store) :
    Except PyExc op.Answer × Shared × Store :=
  match op with
  | .stmt slot s =>
    let r := executeStmt P slot s inp others sh st
    (r.1, if s.inserts then { sh with issued := inp.fresh :: sh.issued } else sh, r.2)
  | .commit slot => executeCommit slot inp sh st
  | .rollback slot =>
    match inp.fault with
    | some _ => (.error (.database .operationalError), sh, st.setTx slot {})
    | none => (.ok (), sh, st.setTx slot {})
  | .close slot => (.ok (), sh, st.setTx slot {})
  | .now => (.ok inp.now, sh, st)
  | .checkLoginRate ip =>
    let r := checkLoginRate inp.monotonic ip sh.rateBuckets
    (if r.1 then .ok () else .error tooManyLogins, { sh with rateBuckets := r.2 }, st)
  | .hashPassword plain => (.ok (P.argon2Hash inp.random plain), sh, st)
  | .tokenHex _ => (.ok inp.random, sh, st)
  | .csrfDumps sid sec => (.ok (P.csrfDumps inp.now sid sec), sh, st)
  | .csrfLoads token => (.ok (P.csrfLoads inp.now token), sh, st)
  | .send _ _ _ _ =>
    match inp.sendError with
    | some message => (.error (.runtime message), sh, st)
    | none => (.ok (), sh, st)
  | .probe _ _ => (.ok inp.probe, sh, st)
  | .sleep => (.ok (), sh, st)
  | .readProc _ => (.ok inp.text, sh, st)
  | .log _ => (.ok (), sh, st)

/-- The operation does not have to wait for another transaction, and an identifier that it
draws is new. -/
def enabledOp (op : Op) (inp : Input) (others : List Store) (sh : Shared) (st : Store) : Bool :=
  match op with
  | .stmt slot s =>
    (!s.inserts || !sh.issued.contains inp.fresh) &&
      match s.run P inp (lockedJobs others st slot) (sh.db.after (st.tx slot).writes) with
      | .error _ => true
      | .ok r => r.writes.all fun w => (otherTxs others st slot).all fun tx => !tx.blocks sh.db w
  | _ => true

/-- The machine that executes the application's operations. -/
def machine : Programs.Machine app where
  Shared := Shared
  Store := Store
  Input := Input
  empty := {}
  enabled := enabledOp P
  exec := executeOp P

end Execution

end WolMonkey
