import WolMonkey.Model.Effects

/-!
# Repositories

The SQLAlchemy repositories of `app/persistence/repositories.py`. All of them work in the
session of their request or job. A record that is created is flushed and refreshed; the
readers of identifiers ask `_is_valid_uuid` before they ask the database.

Repository methods that no route and no worker calls are left out.
-/

namespace WolMonkey

open Programs

/-- `_is_valid_uuid(value)` guards a query; an invalid identifier names nothing. -/
def guardUuid {α : Type} (value : String) (absent : α) (query : Code α) : Code α :=
  if isValidUuid value then query else pure absent

namespace SqlUserRepository

def getById (userId : String) : Code (Option User) :=
  guardUuid userId none (execute .main (.userGet userId))

def getByUsername (username : String) : Code (Option User) :=
  execute .main (.userByUsername username)

def create (username passwordHash : String) : Code User := do
  let id ← execute .main (.userInsert username passwordHash "admin")
  execute .main (.userRefresh id)

def updateLastLogin (userId : String) : Code Unit := execute .main (.userSetLastLogin userId)

def updatePasswordHash (userId passwordHash : String) : Code Unit :=
  execute .main (.userSetPasswordHash userId passwordHash)

def count : Code Nat := execute .main .userCount

end SqlUserRepository

namespace SqlMachineRepository

def getById (machineId : String) : Code (Option Machine) :=
  guardUuid machineId none (execute .main (.machineGet machineId))

def listAll (enabledOnly : Bool := false) : Code (List Machine) :=
  execute .main (.machineList enabledOnly)

def create (fields : MachineFields) : Code Machine := do
  let id ← execute .main (.machineInsert fields)
  execute .main (.machineRefresh id)

def update (machineId : String) (columns : MachineColumns) : Code (Option Machine) :=
  guardUuid machineId none do
    match ← execute .main (.machineGet machineId) with
    | none => return none
    | some model =>
      execute .main (.machineUpdate model columns)
      let updated ← execute .main (.machineRefresh model.id)
      return some updated

def delete (machineId : String) : Code Bool :=
  guardUuid machineId false do
    match ← execute .main (.machineGet machineId) with
    | none => return false
    | some model =>
      let children ← execute .main (.machineChildren model.id)
      execute .main (.machineDelete model.id children)
      return true

end SqlMachineRepository

namespace SqlWakeAttemptRepository

def create (fields : AttemptFields) : Code WakeAttempt := do
  let id ← execute .main (.attemptInsert fields)
  execute .main (.attemptRefresh id)

def getById (attemptId : String) : Code (Option WakeAttempt) :=
  guardUuid attemptId none (execute .main (.attemptGet attemptId))

def updateStatus (attemptId : String) (status : AttemptStatus) (error : Option String := none)
    (finishedAt : Option DateTime := none) : Code Unit :=
  execute .main (.attemptUpdateStatus attemptId status error finishedAt)

def getActiveForMachine (machineId : String) : Code (Option WakeAttempt) :=
  execute .main (.attemptActive machineId)

end SqlWakeAttemptRepository

namespace SqlSessionRepository

def create (userId csrfSecret : String) (expiresAt : DateTime) (ip userAgent : Option String) :
    Code Session := do
  let id ← execute .main (.sessionInsert userId csrfSecret expiresAt ip userAgent)
  execute .main (.sessionRefresh id)

def getById (sessionId : String) : Code (Option Session) :=
  guardUuid sessionId none (execute .main (.sessionGet sessionId))

def revoke (sessionId : String) : Code Unit := execute .main (.sessionRevoke sessionId)

end SqlSessionRepository

namespace SqlApiTokenRepository

def create (name tokenHash tokenPrefix userId : String) (machineId : Option String) :
    Code ApiToken := do
  let id ← execute .main (.tokenInsert name tokenHash tokenPrefix userId machineId)
  execute .main (.tokenRefresh id)

def getByHash (tokenHash : String) : Code (Option ApiToken) :=
  execute .main (.tokenByHash tokenHash)

def listActive : Code (List ApiToken) := execute .main .tokenListActive

def listForMachine (machineId : String) : Code (List ApiToken) :=
  guardUuid machineId [] (execute .main (.tokenListForMachine machineId))

def revoke (tokenId : String) : Code Unit := execute .main (.tokenRevoke tokenId)

def touchLastUsed (tokenId : String) : Code Unit := execute .main (.tokenTouch tokenId)

end SqlApiTokenRepository

/-- `SetupStateModel()`: the defaults of the columns. -/
def SetupState.initial : SetupState := ⟨false, "welcome", []⟩

namespace SqlSetupStateRepository

def get : Code SetupState := do
  match ← execute .main .setupGet with
  | some model => return model
  | none =>
    execute .main (.setupInsert SetupState.initial)
    execute .main .setupRefresh

/-- Assign the columns and flush. -/
def assign (columns : SetupColumns) : Option SetupState → Code Unit
  | some model => execute .main (.setupUpdate model columns)
  | none => execute .main (.setupInsert (SetupState.initial.set columns))

def update (columns : SetupColumns) : Code SetupState := do
  let model ← execute .main .setupGet
  assign columns model
  execute .main .setupRefresh

end SqlSetupStateRepository

namespace SqlSettingsRepository

/-- `model.value.get("v")`: only an object has the method. -/
def valueOf : Jsonb → Code Scalar
  | .object fields => pure (fields.get "v" .null)
  | .scalar _ => raise (.attributeError "object has no attribute 'get'")

/-- A missing setting is `None`. -/
def get (key : String) : Code Scalar := do
  match ← execute .main (.settingGet key) with
  | none => return .null
  | some model => valueOf model.value

def set (key : String) (value : Scalar) : Code Unit := do
  match ← execute .main (.settingGet key) with
  | none => execute .main (.settingInsert key value)
  | some model => execute .main (.settingUpdate model value)

def valuesOf : List Setting → Code (List (String × Scalar))
  | [] => pure []
  | r :: rows => do
    let v ← valueOf r.value
    let rest ← valuesOf rows
    return (r.key, v) :: rest

def getAll : Code (List (String × Scalar)) := do
  let rows ← execute .main .settingList
  valuesOf rows

end SqlSettingsRepository

end WolMonkey
