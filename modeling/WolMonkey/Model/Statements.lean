import WolMonkey.Model.Tables

/-!
# SQL statements

The statements that the repositories and the job queue send, one constructor for each
place that awaits the database. `Stmt.run` executes a statement on the tables that its
transaction sees: it returns the answer, the changes it makes and the job rows it locks,
or the class of the error that the driver or the server raises.

The database checks what the migrations declare: primary keys, unique columns, foreign
keys, `CHECK` constraints, the lengths of `VARCHAR(n)` columns, and text without NUL
characters. How PostgreSQL reads `INET` and `MACADDR` values is the parameter `Platform`.

An ORM insert is the flush of a new object followed by its refresh, and an ORM update the
flush of the columns that differ from the object that was loaded.
-/

namespace WolMonkey

/-- The result of checking a password against an Argon2 hash. -/
inductive PasswordCheck where
  | verified
  | mismatch
  | invalidHash
deriving DecidableEq

/-- The functions that other software supplies: the input functions of two column types,
SHA-256, Argon2, the signed, timed serializer and the Unicode tables. -/
structure Platform where
  inet : String → Option String
  macaddr : String → Option String
  sha256 : String → String
  argon2Hash : (salt plain : String) → String
  argon2Verify : (hash plain : String) → PasswordCheck
  argon2NeedsRehash : String → Bool
  /-- `dumps({"sid": …, "sec": …})` at a time. -/
  csrfDumps : DateTime → (sid sec : String) → String
  /-- `loads(token, max_age=3600)` at a time; `none` is a rejected token. -/
  csrfLoads : DateTime → String → Option (String × String)
  /-- `str.isprintable` for one character beyond ASCII. -/
  printable : Char → Bool
  /-- `str.lower` of text that is not ASCII. -/
  lower : String → String

/-- The classes of errors that awaiting the database raises. -/
inductive DbError where
  /-- A parameter that the driver cannot encode: the server never sees the statement. -/
  | invalidParameter
  | dataError
  | integrityError
  | operationalError
  | invalidRequest
  | inFailedTransaction
  | pendingRollback
deriving DecidableEq

/-! ## Column types -/

/-- `TEXT`: no NUL character. -/
def textOk (s : String) : Bool := !s.toList.contains '\x00'

/-- `VARCHAR(n)`: spaces past the length are cut off, anything else past it is an error. -/
def varchar (n : Nat) (s : String) : Option String :=
  if textOk s then
    if s.toList.length ≤ n then some s
    else if (s.toList.drop n).all (· == ' ') then some (String.ofList (s.toList.take n))
    else none
  else none

def int4Ok (n : Int) : Bool := -2147483648 ≤ n && n ≤ 2147483647

def Scalar.storable : Scalar → Bool
  | str s => textOk s
  | _ => true

/-- An optional column: `NULL` is accepted. -/
def nullable {α β : Type} (f : α → Option β) : Option α → Option (Option β)
  | none => some none
  | some a => (f a).map some

/-! ## Statements -/

/-- The keyword arguments of `SqlMachineRepository.create`. -/
structure MachineFields where
  name : String
  ipAddress : String
  macAddress : String
  sshPort : Int
  hostname : Option String
  wakeInterface : Option String
  wakeStrategy : String
  broadcastAddress : Option String
  enabled : Bool
deriving DecidableEq

/-- The keyword arguments of `SqlWakeAttemptRepository.create`. -/
structure AttemptFields where
  machineId : String
  actorType : String
  actorId : String
  strategy : String
  ensureOnline : Bool
  pollTimeoutS : Int
deriving DecidableEq

inductive Stmt where
  -- users
  | userGet (id : String)
  | userByUsername (username : String)
  | userInsert (username passwordHash role : String)
  | userRefresh (id : Uuid)
  | userSetLastLogin (id : String)
  | userSetPasswordHash (id hash : String)
  | userCount
  -- machines
  | machineGet (id : String)
  | machineList (enabledOnly : Bool)
  | machineInsert (fields : MachineFields)
  | machineUpdate (loaded : Machine) (columns : MachineColumns)
  | machineRefresh (id : Uuid)
  /-- `session.delete` loads the children of its relationships. -/
  | machineChildren (id : Uuid)
  | machineDelete (id : Uuid) (children : Bool)
  -- wake attempts
  | attemptInsert (fields : AttemptFields)
  | attemptRefresh (id : Uuid)
  | attemptGet (id : String)
  | attemptUpdateStatus (id : String) (status : AttemptStatus) (error : Option String)
      (finishedAt : Option DateTime)
  | attemptActive (machineId : String)
  -- sessions
  | sessionInsert (userId csrfSecret : String) (expiresAt : DateTime) (ip userAgent : Option String)
  | sessionRefresh (id : Uuid)
  | sessionGet (id : String)
  | sessionRevoke (id : String)
  -- API tokens
  | tokenInsert (name tokenHash tokenPrefix userId : String) (machineId : Option String)
  | tokenRefresh (id : Uuid)
  | tokenByHash (hash : String)
  | tokenListActive
  | tokenListForMachine (machineId : String)
  | tokenRevoke (id : String)
  | tokenTouch (id : String)
  -- setup state
  | setupGet
  | setupInsert (state : SetupState)
  | setupUpdate (loaded : SetupState) (columns : SetupColumns)
  | setupRefresh
  -- settings
  | settingGet (key : String)
  | settingInsert (key : String) (value : Scalar)
  | settingUpdate (loaded : Setting) (value : Scalar)
  | settingList
  -- wake jobs
  | jobClaim
  | jobSetRunning (id : Uuid) (time : DateTime)
  | jobInsert (machineId attemptId jobType : String) (payload : JsonObject)
  | jobRefresh (id : Uuid)
  | jobSetDone (id : String)
  | jobSetError (id error : String)
deriving DecidableEq

namespace Stmt

abbrev Answer : Stmt → Type
  | userGet _ | userByUsername _ => Option User
  | userInsert _ _ _ => Uuid
  | userRefresh _ => User
  | userSetLastLogin _ | userSetPasswordHash _ _ => Unit
  | userCount => Nat
  | machineGet _ => Option Machine
  | machineList _ => List Machine
  | machineInsert _ => Uuid
  | machineUpdate _ _ => Unit
  | machineRefresh _ => Machine
  | machineChildren _ => Bool
  | machineDelete _ _ => Unit
  | attemptInsert _ => Uuid
  | attemptRefresh _ => WakeAttempt
  | attemptGet _ | attemptActive _ => Option WakeAttempt
  | attemptUpdateStatus _ _ _ _ => Unit
  | sessionInsert _ _ _ _ _ => Uuid
  | sessionRefresh _ => Session
  | sessionGet _ => Option Session
  | sessionRevoke _ => Unit
  | tokenInsert _ _ _ _ _ => Uuid
  | tokenRefresh _ => ApiToken
  | tokenByHash _ => Option ApiToken
  | tokenListActive | tokenListForMachine _ => List ApiToken
  | tokenRevoke _ | tokenTouch _ => Unit
  | setupGet => Option SetupState
  | setupInsert _ | setupUpdate _ _ => Unit
  | setupRefresh => SetupState
  | settingGet _ => Option Setting
  | settingInsert _ _ | settingUpdate _ _ => Unit
  | settingList => List Setting
  | jobClaim => Option WakeJob
  | jobSetRunning _ _ => Unit
  | jobInsert _ _ _ _ => Uuid
  | jobRefresh _ => WakeJob
  | jobSetDone _ | jobSetError _ _ => Unit

/-- The statement is the flush of ORM objects: when it fails, the session refuses to do
anything more until it is rolled back. -/
def isFlush : Stmt → Bool
  | userInsert _ _ _ | machineInsert _ | machineUpdate _ _ | machineDelete _ _
  | attemptInsert _ | sessionInsert _ _ _ _ _ | tokenInsert _ _ _ _ _ | setupInsert _
  | setupUpdate _ _ | settingInsert _ _ | settingUpdate _ _ | jobSetRunning _ _
  | jobInsert _ _ _ _ => true
  | _ => false

end Stmt

/-! ## Executing a statement -/

/-- What one awaited operation takes from outside: the clocks, new identifiers and random
text, the outcome of a send and of a probe, the content of a file, and whether the
database call fails. -/
inductive Fault where
  /-- The call raises and has no effect. -/
  | refused
  /-- A commit takes effect, but its acknowledgement is lost and the call raises. -/
  | lost
deriving DecidableEq

structure Input where
  now : DateTime := 0
  monotonic : Rat := 0
  fresh : Uuid := Uuid.ofNat 0
  random : String := ""
  fault : Option Fault := none
  sendError : Option String := none
  probe : ProbeResult := ⟨false, false⟩
  text : String := ""

/-- A bound UUID parameter. -/
def uuidParam (s : String) : Except DbError Uuid :=
  match Uuid.parse? s with
  | some u => .ok u
  | none => .error .invalidParameter

def optionalUuidParam : Option String → Except DbError (Option Uuid)
  | none => .ok none
  | some s => (uuidParam s).map some

/-- A check that the server makes; it raises `e` when the check fails. -/
def require (ok : Bool) (e : DbError) : Except DbError Unit :=
  if ok then .ok () else .error e

/-- A value that the server has to accept. -/
def accepted {α : Type} : Option α → Except DbError α
  | some a => .ok a
  | none => .error .dataError

/-- `ORDER BY created_at LIMIT 1`. -/
def oldestJob : List WakeJob → Option WakeJob :=
  List.foldl (fun best j =>
    match best with
    | none => some j
    | some b => if j.createdAt < b.createdAt then some j else some b) none

/-- `ORDER BY started_at DESC LIMIT 1`. -/
def newestAttempt : List WakeAttempt → Option WakeAttempt :=
  List.foldl (fun best a =>
    match best with
    | none => some a
    | some b => if b.startedAt < a.startedAt then some a else some b) none

/-- The column that is sent when an attribute of a loaded object was assigned: none when
the value did not change. -/
def changed {α : Type} [DecidableEq α] (loaded : α) : Option α → Option α
  | some v => if v = loaded then none else some v
  | none => none

/-- The assigned attributes of a loaded machine that differ from what was loaded. -/
def MachineColumns.changedFrom (c : MachineColumns) (m : Machine) : MachineColumns where
  name := changed m.name c.name
  hostname := changed m.hostname c.hostname
  ipAddress := changed m.ipAddress c.ipAddress
  macAddress := changed m.macAddress c.macAddress
  sshPort := changed m.sshPort c.sshPort
  wakeInterface := changed m.wakeInterface c.wakeInterface
  wakeStrategy := changed m.wakeStrategy c.wakeStrategy
  broadcastAddress := changed m.broadcastAddress c.broadcastAddress
  enabled := changed m.enabled c.enabled

def SetupColumns.changedFrom (c : SetupColumns) (s : SetupState) : SetupColumns where
  completed := changed s.completed c.completed
  currentStep := changed s.currentStep c.currentStep
  completedSteps := changed s.completedSteps c.completedSteps

def wakeStrategyOk (s : String) : Bool := s == "etherwake" || s == "udp_broadcast"

def sshPortOk (n : Int) : Bool := 1 ≤ n && n ≤ 65535

section Run
variable (P : Platform)

/-- The values of a machine row as the server stores them. -/
def MachineFields.stored (f : MachineFields) : Option MachineFields := do
  let name ← varchar 255 f.name
  let hostname ← nullable (varchar 255) f.hostname
  let ipAddress ← P.inet f.ipAddress
  let macAddress ← P.macaddr f.macAddress
  let wakeInterface ← nullable (varchar 50) f.wakeInterface
  let wakeStrategy ← varchar 20 f.wakeStrategy
  let broadcastAddress ← nullable P.inet f.broadcastAddress
  if int4Ok f.sshPort then
    some { f with name, hostname, ipAddress, macAddress, wakeInterface, wakeStrategy,
                  broadcastAddress }
  else none

/-- The new values of machine columns as the server stores them. -/
def MachineColumns.stored (c : MachineColumns) : Option MachineColumns := do
  let name ← nullable (varchar 255) c.name
  let hostname ← nullable (nullable (varchar 255)) c.hostname
  let ipAddress ← nullable P.inet c.ipAddress
  let macAddress ← nullable P.macaddr c.macAddress
  let wakeInterface ← nullable (nullable (varchar 50)) c.wakeInterface
  let wakeStrategy ← nullable (varchar 20) c.wakeStrategy
  let broadcastAddress ← nullable (nullable P.inet) c.broadcastAddress
  if c.sshPort.all int4Ok then
    some { c with name, hostname, ipAddress, macAddress, wakeInterface, wakeStrategy,
                  broadcastAddress }
  else none

/-- What executing a statement yields: its answer, its changes and the job rows it locks. -/
structure Executed (s : Stmt) where
  answer : s.Answer
  writes : List Write := []
  locks : List Uuid := []

namespace Stmt

/-- Execute a statement on the tables that its transaction sees. `locked` are the job rows
that other transactions have locked. -/
def run (inp : Input) (locked : List Uuid) (db : Database) :
    (s : Stmt) → Except DbError (Executed s)
  | userGet id => do
    let id ← uuidParam id
    return { answer := db.users.find? (·.id == id) }
  | userByUsername username => do
    require (textOk username) .dataError
    return { answer := db.users.find? (·.username == username) }
  | userInsert username passwordHash role => do
    let username ← accepted (varchar 150 username)
    require (textOk passwordHash) .dataError
    require (!db.users.any (·.id == inp.fresh)) .integrityError
    require (!db.users.any (·.username == username)) .integrityError
    return { answer := inp.fresh
             writes := [.insertUser ⟨inp.fresh, username, passwordHash, role, none⟩] }
  | userRefresh id =>
    match db.users.find? (·.id == id) with
    | some u => return { answer := u }
    | none => throw .invalidRequest
  | userSetLastLogin id => do
    let id ← uuidParam id
    return { answer := (), writes := [.setLastLogin id inp.now] }
  | userSetPasswordHash id hash => do
    let id ← uuidParam id
    require (textOk hash) .dataError
    return { answer := (), writes := [.setPasswordHash id hash] }
  | userCount => return { answer := db.users.length }
  | machineGet id => do
    let id ← uuidParam id
    return { answer := db.machines.find? (·.id == id) }
  | machineList enabledOnly =>
    return { answer := if enabledOnly then db.machines.filter (·.enabled) else db.machines }
  | machineInsert fields => do
    let f ← accepted (fields.stored P)
    require (sshPortOk f.sshPort && wakeStrategyOk f.wakeStrategy) .integrityError
    require (!db.machines.any (·.id == inp.fresh)) .integrityError
    require (!db.machines.any (·.macAddress == f.macAddress)) .integrityError
    return { answer := inp.fresh
             writes := [.insertMachine
               { id := inp.fresh, name := f.name, hostname := f.hostname
                 ipAddress := f.ipAddress, macAddress := f.macAddress, sshPort := f.sshPort
                 wakeInterface := f.wakeInterface, wakeStrategy := f.wakeStrategy
                 broadcastAddress := f.broadcastAddress, enabled := f.enabled
                 createdAt := inp.now, updatedAt := inp.now }] }
  | machineUpdate loaded columns =>
    let c := columns.changedFrom loaded
    if c = {} then return { answer := () }
    else do
      let c ← accepted (c.stored P)
      require (c.sshPort.all sshPortOk && c.wakeStrategy.all wakeStrategyOk) .integrityError
      require (!db.machines.any fun m => m.id != loaded.id && c.macAddress == some m.macAddress)
        .integrityError
      return { answer := (), writes := [.updateMachine loaded.id c inp.now] }
  | machineRefresh id =>
    match db.machines.find? (·.id == id) with
    | some m => return { answer := m }
    | none => throw .invalidRequest
  | machineChildren id =>
    return { answer := db.attempts.any (·.machineId == id) || db.probeResults.any (·.machineId == id) }
  | machineDelete id children => do
    -- the loaded children are first detached from the machine, and their column is NOT NULL
    require (!children) .integrityError
    return { answer := (), writes := [.deleteMachine id] }
  | attemptInsert f => do
    let machineId ← uuidParam f.machineId
    let actorType ← accepted (varchar 20 f.actorType)
    let actorId ← accepted (varchar 255 f.actorId)
    let strategy ← accepted (varchar 20 f.strategy)
    require (int4Ok f.pollTimeoutS) .dataError
    require (!db.attempts.any (·.id == inp.fresh)) .integrityError
    require (db.machines.any (·.id == machineId)) .integrityError
    return { answer := inp.fresh
             writes := [.insertAttempt
               { id := inp.fresh, machineId, actorType, actorId, strategy, status := .pending
                 ensureOnline := f.ensureOnline, pollTimeoutS := f.pollTimeoutS, error := none
                 startedAt := inp.now, finishedAt := none }] }
  | attemptRefresh id =>
    match db.attempts.find? (·.id == id) with
    | some a => return { answer := a }
    | none => throw .invalidRequest
  | attemptGet id => do
    let id ← uuidParam id
    return { answer := db.attempts.find? (·.id == id) }
  | attemptUpdateStatus id status error finishedAt => do
    let id ← uuidParam id
    require (error.all textOk) .dataError
    return { answer := (), writes := [.setAttemptStatus id status error finishedAt] }
  | attemptActive machineId => do
    let machineId ← uuidParam machineId
    return { answer := newestAttempt
               (db.attempts.filter fun a => a.machineId == machineId && a.status.isActive) }
  | sessionInsert userId csrfSecret expiresAt ip userAgent => do
    let userId ← uuidParam userId
    let csrfSecret ← accepted (varchar 128 csrfSecret)
    let ip ← accepted (nullable P.inet ip)
    require (userAgent.all textOk) .dataError
    require (!db.sessions.any (·.id == inp.fresh)) .integrityError
    require (db.users.any (·.id == userId)) .integrityError
    return { answer := inp.fresh
             writes := [.insertSession
               { id := inp.fresh, userId, csrfSecret, ip, userAgent, expiresAt
                 revoked := false, createdAt := inp.now }] }
  | sessionRefresh id =>
    match db.sessions.find? (·.id == id) with
    | some s => return { answer := s }
    | none => throw .invalidRequest
  | sessionGet id => do
    let id ← uuidParam id
    return { answer := db.sessions.find? (·.id == id) }
  | sessionRevoke id => do
    let id ← uuidParam id
    return { answer := (), writes := [.revokeSession id] }
  | tokenInsert name tokenHash tokenPrefix userId machineId => do
    let name ← accepted (varchar 255 name)
    let tokenHash ← accepted (varchar 128 tokenHash)
    let tokenPrefix ← accepted (varchar 16 tokenPrefix)
    let userId ← uuidParam userId
    let machineId ← optionalUuidParam machineId
    require (!db.tokens.any (·.id == inp.fresh)) .integrityError
    require (!db.tokens.any (·.tokenHash == tokenHash)) .integrityError
    require (db.users.any (·.id == userId)) .integrityError
    require (machineId.all fun m => db.machines.any (·.id == m)) .integrityError
    return { answer := inp.fresh
             writes := [.insertToken
               { id := inp.fresh, userId, machineId, name, tokenHash, tokenPrefix
                 lastUsedAt := none, revokedAt := none, createdAt := inp.now }] }
  | tokenRefresh id =>
    match db.tokens.find? (·.id == id) with
    | some t => return { answer := t }
    | none => throw .invalidRequest
  | tokenByHash hash => do
    require (textOk hash) .dataError
    return { answer := db.tokens.find? fun t => t.tokenHash == hash && t.revokedAt == none }
  | tokenListActive => return { answer := db.tokens.filter (·.revokedAt == none) }
  | tokenListForMachine machineId => do
    let machineId ← uuidParam machineId
    return { answer := db.tokens.filter fun t => t.machineId == some machineId && t.revokedAt == none }
  | tokenRevoke id => do
    let id ← uuidParam id
    return { answer := (), writes := [.revokeToken id inp.now] }
  | tokenTouch id => do
    let id ← uuidParam id
    return { answer := (), writes := [.touchToken id inp.now] }
  | setupGet => return { answer := db.setupState }
  | setupInsert state => do
    require db.setupState.isNone .integrityError
    return { answer := (), writes := [.insertSetup state] }
  | setupUpdate loaded columns =>
    let c := columns.changedFrom loaded
    if c = {} then return { answer := () }
    else do
      let currentStep ← accepted (nullable (varchar 50) c.currentStep)
      require (c.completedSteps.all (·.all textOk)) .dataError
      return { answer := (), writes := [.updateSetup { c with currentStep }] }
  | setupRefresh =>
    match db.setupState with
    | some s => return { answer := s }
    | none => throw .invalidRequest
  | settingGet key => do
    require (textOk key) .dataError
    return { answer := db.settings.find? (·.key == key) }
  | settingInsert key value => do
    let key ← accepted (varchar 100 key)
    require value.storable .dataError
    require (!db.settings.any (·.key == key)) .integrityError
    return { answer := (), writes := [.insertSetting ⟨key, .object [("v", value)]⟩] }
  | settingUpdate loaded value =>
    if loaded.value.holds value then return { answer := () }
    else do
      require value.storable .dataError
      return { answer := (), writes := [.updateSetting loaded.key (.object [("v", value)])] }
  | settingList => return { answer := db.settings }
  | jobClaim =>
    match oldestJob (db.jobs.filter fun j => j.status == .queued && !locked.contains j.id) with
    | some j => return { answer := some j, locks := [j.id] }
    | none => return { answer := none }
  | jobSetRunning id time => return { answer := (), writes := [.setJobRunning id time] }
  | jobInsert machineId attemptId jobType payload => do
    let machineId ← uuidParam machineId
    let attemptId ← uuidParam attemptId
    require (payload.all fun kv => textOk kv.1 && kv.2.storable) .dataError
    require (jobType == "wake" || jobType == "ensure_online") .integrityError
    require (!db.jobs.any (·.id == inp.fresh)) .integrityError
    require (!db.jobs.any (·.attemptId == attemptId)) .integrityError
    require (db.machines.any (·.id == machineId)) .integrityError
    require (db.attempts.any (·.id == attemptId)) .integrityError
    return { answer := inp.fresh
             writes := [.insertJob
               { id := inp.fresh, machineId, attemptId, jobType, status := .queued, payload
                 claimedAt := none, createdAt := inp.now }] }
  | jobRefresh id =>
    match db.jobs.find? (·.id == id) with
    | some j => return { answer := j }
    | none => throw .invalidRequest
  | jobSetDone id => do
    let id ← uuidParam id
    return { answer := (), writes := [.setJobDone id] }
  | jobSetError id error => do
    let id ← uuidParam id
    require (textOk error) .dataError
    return { answer := (), writes := [.setJobError id error] }

end Stmt
end Run

end WolMonkey
