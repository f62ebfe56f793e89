import WolMonkey.Model.Domain

/-!
# Tables and row changes

The rows of `app/persistence/models.py` and the changes that statements make to them. A
transaction is a list of `Write`s on top of the committed tables; `Write.apply` is all that
can ever happen to a table.

Columns that no code of the application reads are left out: the creation times of users
and setup state, the scopes of tokens, the times of settings, and the content of probe
results and audit events, which nothing writes.
-/

namespace WolMonkey

/-! ## JSON columns -/

inductive Scalar where
  | null
  | bool (b : Bool)
  | int (n : Int)
  | str (s : String)
deriving DecidableEq

abbrev JsonObject := List (String × Scalar)

/-- A JSONB column: an object, or a bare value. -/
inductive Jsonb where
  | object (fields : JsonObject)
  | scalar (v : Scalar)
deriving DecidableEq

namespace Scalar

/-- `str(value)`. -/
def pyStr : Scalar → String
  | null => "None"
  | bool true => "True"
  | bool false => "False"
  | int n => toString n
  | str s => s

/-- Python's `==`: a truth value equals the number 0 or 1. -/
def pyEq : Scalar → Scalar → Bool
  | bool b, int n => n == if b then 1 else 0
  | int n, bool b => n == if b then 1 else 0
  | x, y => x == y

/-- `bool(value)`. -/
def truthy : Scalar → Bool
  | null => false
  | bool b => b
  | int n => n != 0
  | str s => s != ""

end Scalar

/-- `payload.get(key, default)`. -/
def JsonObject.get (fields : JsonObject) (key : String) (default : Scalar) : Scalar :=
  (fields.lookup key).getD default

/-- The column equals `{"v": value}`. -/
def Jsonb.holds : Jsonb → Scalar → Bool
  | object [("v", v)], value => v.pyEq value
  | _, _ => false

/-! ## Rows -/

structure User where
  id : Uuid
  username : String
  passwordHash : String
  role : String
  lastLoginAt : Option DateTime
deriving DecidableEq

structure Machine where
  id : Uuid
  name : String
  hostname : Option String
  ipAddress : String
  macAddress : String
  sshPort : Int
  wakeInterface : Option String
  wakeStrategy : String
  broadcastAddress : Option String
  enabled : Bool
  createdAt : DateTime
  updatedAt : DateTime
deriving DecidableEq

structure WakeAttempt where
  id : Uuid
  machineId : Uuid
  actorType : String
  actorId : String
  strategy : String
  status : AttemptStatus
  ensureOnline : Bool
  pollTimeoutS : Int
  error : Option String
  startedAt : DateTime
  finishedAt : Option DateTime
deriving DecidableEq

structure WakeJob where
  id : Uuid
  machineId : Uuid
  attemptId : Uuid
  jobType : String
  status : JobStatus
  payload : JsonObject
  claimedAt : Option DateTime
  createdAt : DateTime
deriving DecidableEq

structure ProbeResultRow where
  id : Uuid
  machineId : Uuid
deriving DecidableEq

structure Session where
  id : Uuid
  userId : Uuid
  csrfSecret : String
  ip : Option String
  userAgent : Option String
  expiresAt : DateTime
  revoked : Bool
  createdAt : DateTime
deriving DecidableEq

structure ApiToken where
  id : Uuid
  userId : Uuid
  machineId : Option Uuid
  name : String
  tokenHash : String
  tokenPrefix : String
  lastUsedAt : Option DateTime
  revokedAt : Option DateTime
  createdAt : DateTime
deriving DecidableEq

/-- The singleton row. `completedSteps` holds the keys of the JSON object; every value in
it is `true`. -/
structure SetupState where
  completed : Bool
  currentStep : String
  completedSteps : List String
deriving DecidableEq

structure Setting where
  key : String
  value : Jsonb
deriving DecidableEq

structure Database where
  users : List User
  machines : List Machine
  attempts : List WakeAttempt
  jobs : List WakeJob
  probeResults : List ProbeResultRow
  sessions : List Session
  tokens : List ApiToken
  setupState : Option SetupState
  settings : List Setting
deriving DecidableEq

def Database.empty : Database := ⟨[], [], [], [], [], [], [], none, []⟩

/-! ## Changes of rows -/

/-- New values of machine columns; a column without a value is not touched. The keyword
arguments of `SqlMachineRepository.update` and the columns of an `UPDATE` have this form. -/
structure MachineColumns where
  name : Option String := none
  hostname : Option (Option String) := none
  ipAddress : Option String := none
  macAddress : Option String := none
  sshPort : Option Int := none
  wakeInterface : Option (Option String) := none
  wakeStrategy : Option String := none
  broadcastAddress : Option (Option String) := none
  enabled : Option Bool := none
deriving DecidableEq

/-- New values of the columns of the setup state. -/
structure SetupColumns where
  completed : Option Bool := none
  currentStep : Option String := none
  completedSteps : Option (List String) := none
deriving DecidableEq

/-- One change of one row, as an `INSERT`, an `UPDATE` or a `DELETE` makes it. -/
inductive Write where
  | insertUser (user : User)
  | setLastLogin (id : Uuid) (time : DateTime)
  | setPasswordHash (id : Uuid) (hash : String)
  | insertMachine (machine : Machine)
  | updateMachine (id : Uuid) (columns : MachineColumns) (time : DateTime)
  | deleteMachine (id : Uuid)
  | insertAttempt (attempt : WakeAttempt)
  | setAttemptStatus (id : Uuid) (status : AttemptStatus) (error : Option String)
      (finishedAt : Option DateTime)
  | insertSession (session : Session)
  | revokeSession (id : Uuid)
  | insertToken (token : ApiToken)
  | revokeToken (id : Uuid) (time : DateTime)
  | touchToken (id : Uuid) (time : DateTime)
  | insertSetup (state : SetupState)
  | updateSetup (columns : SetupColumns)
  | insertSetting (setting : Setting)
  | updateSetting (key : String) (value : Jsonb)
  | insertJob (job : WakeJob)
  | setJobRunning (id : Uuid) (time : DateTime)
  | setJobDone (id : Uuid)
  | setJobError (id : Uuid) (error : String)
deriving DecidableEq

def Machine.set (m : Machine) (c : MachineColumns) (time : DateTime) : Machine :=
  { m with
    name := c.name.getD m.name
    hostname := c.hostname.getD m.hostname
    ipAddress := c.ipAddress.getD m.ipAddress
    macAddress := c.macAddress.getD m.macAddress
    sshPort := c.sshPort.getD m.sshPort
    wakeInterface := c.wakeInterface.getD m.wakeInterface
    wakeStrategy := c.wakeStrategy.getD m.wakeStrategy
    broadcastAddress := c.broadcastAddress.getD m.broadcastAddress
    enabled := c.enabled.getD m.enabled
    updatedAt := time }

def SetupState.set (s : SetupState) (c : SetupColumns) : SetupState where
  completed := c.completed.getD s.completed
  currentStep := c.currentStep.getD s.currentStep
  completedSteps := c.completedSteps.getD s.completedSteps

/-- `UPDATE … SET status, error?, finished_at?`: an absent value leaves the column alone. -/
def WakeAttempt.setStatus (a : WakeAttempt) (status : AttemptStatus) (error : Option String)
    (finishedAt : Option DateTime) : WakeAttempt :=
  { a with
    status := status
    error := error.orElse fun _ => a.error
    finishedAt := finishedAt.orElse fun _ => a.finishedAt }

def WakeJob.run (j : WakeJob) (time : DateTime) : WakeJob :=
  { j with status := .running, claimedAt := some time }

def WakeJob.finish (j : WakeJob) : WakeJob := { j with status := .done }

/-- The payload of a failed job is replaced by its error. -/
def WakeJob.fail (j : WakeJob) (error : String) : WakeJob :=
  { j with status := .error, payload := [("error", .str error)] }

/-- Change the rows with `p`. -/
def updateRows {α : Type} (p : α → Bool) (f : α → α) (rows : List α) : List α :=
  rows.map fun r => if p r then f r else r

/-- `DELETE FROM machines` with the declared `ON DELETE` actions: attempts, jobs and probe
results go with the machine, jobs go with their attempt, and tokens lose their machine. -/
def Database.deleteMachine (db : Database) (id : Uuid) : Database :=
  let gone := db.attempts.filter (·.machineId == id)
  { db with
    machines := db.machines.filter (·.id != id)
    attempts := db.attempts.filter (·.machineId != id)
    jobs := db.jobs.filter fun j => j.machineId != id && !gone.any (·.id == j.attemptId)
    probeResults := db.probeResults.filter (·.machineId != id)
    tokens := updateRows (·.machineId == some id) (fun t => { t with machineId := none })
      db.tokens }

def Write.apply (db : Database) : Write → Database
  | insertUser u => { db with users := db.users ++ [u] }
  | setLastLogin id t =>
    { db with
      users := updateRows (·.id == id) (fun u => { u with lastLoginAt := some t }) db.users }
  | setPasswordHash id h =>
    { db with
      users := updateRows (·.id == id) (fun u => { u with passwordHash := h }) db.users }
  | insertMachine m => { db with machines := db.machines ++ [m] }
  | updateMachine id c t =>
    { db with machines := updateRows (·.id == id) (·.set c t) db.machines }
  | deleteMachine id => db.deleteMachine id
  | insertAttempt a => { db with attempts := db.attempts ++ [a] }
  | setAttemptStatus id s e f =>
    { db with attempts := updateRows (·.id == id) (·.setStatus s e f) db.attempts }
  | insertSession s => { db with sessions := db.sessions ++ [s] }
  | revokeSession id =>
    { db with
      sessions := updateRows (·.id == id) (fun s => { s with revoked := true }) db.sessions }
  | insertToken t => { db with tokens := db.tokens ++ [t] }
  | revokeToken id t =>
    { db with
      tokens := updateRows (·.id == id) (fun k => { k with revokedAt := some t }) db.tokens }
  | touchToken id t =>
    { db with
      tokens := updateRows (·.id == id) (fun k => { k with lastUsedAt := some t }) db.tokens }
  | insertSetup s => { db with setupState := some s }
  | updateSetup c => { db with setupState := db.setupState.map (·.set c) }
  | insertSetting s => { db with settings := db.settings ++ [s] }
  | updateSetting k v =>
    { db with
      settings := updateRows (·.key == k) (fun s => { s with value := v }) db.settings }
  | insertJob j => { db with jobs := db.jobs ++ [j] }
  | setJobRunning id t => { db with jobs := updateRows (·.id == id) (·.run t) db.jobs }
  | setJobDone id => { db with jobs := updateRows (·.id == id) (·.finish) db.jobs }
  | setJobError id e => { db with jobs := updateRows (·.id == id) (·.fail e) db.jobs }

/-- The tables as a transaction sees them: the committed tables with its own changes. -/
def Database.after (db : Database) (writes : List Write) : Database :=
  writes.foldl Write.apply db

@[simp] theorem Database.after_nil (db : Database) : db.after [] = db := rfl

@[simp] theorem Database.after_cons (db : Database) (w : Write) (ws : List Write) :
    db.after (w :: ws) = (w.apply db).after ws := rfl

@[simp] theorem Database.after_append (db : Database) (ws vs : List Write) :
    db.after (ws ++ vs) = (db.after ws).after vs := List.foldl_append

/-! ## Rows that a write leaves alone -/

section UpdateRows
variable {α : Type} {p : α → Bool} {f : α → α} {rows : List α}

@[simp] theorem length_updateRows : (updateRows p f rows).length = rows.length := by
  simp [updateRows]

theorem mem_updateRows {r : α} :
    r ∈ updateRows p f rows ↔ ∃ s ∈ rows, (if p s then f s else s) = r := by
  simp [updateRows]

/-- A column that the update does not touch keeps its values. -/
theorem map_updateRows {β : Type} {g : α → β} (h : ∀ r, g (f r) = g r) :
    (updateRows p f rows).map g = rows.map g := by
  simp only [updateRows, List.map_map]
  refine List.map_congr_left fun r _ => ?_
  simp only [Function.comp_apply]
  split
  · exact h r
  · rfl

theorem updateRows_eq_self (h : ∀ r ∈ rows, p r = true → f r = r) :
    updateRows p f rows = rows := by
  refine (List.map_congr_left fun r hr => ?_).trans (List.map_id _)
  simp only [id_eq]
  split
  · rename_i hp
    exact h r hr hp
  · rfl

/-- Rows outside the search, before and after their change, are not found. -/
theorem find?_updateRows {q : α → Bool} (h : ∀ r, p r = true → q r = false ∧ q (f r) = false) :
    (updateRows p f rows).find? q = rows.find? q := by
  induction rows with
  | nil => rfl
  | cons r rows ih =>
    have hcons : updateRows p f (r :: rows) = (if p r then f r else r) :: updateRows p f rows := rfl
    rw [hcons, List.find?_cons, List.find?_cons, ih]
    by_cases hp : p r = true
    · simp only [hp, if_true, (h r hp).1, (h r hp).2]
    · simp only [hp, Bool.false_eq_true, if_false]

/-- A search that the update does not disturb finds the updated row. -/
theorem find?_updateRows_of_same {q : α → Bool} (h : ∀ r, q (f r) = q r) :
    (updateRows p f rows).find? q = (rows.find? q).map fun r => if p r then f r else r := by
  rw [updateRows, List.find?_map]
  congr 2
  funext r
  simp only [Function.comp_apply]
  split
  · exact h r
  · rfl

end UpdateRows

end WolMonkey
