import WolMonkey.Model.Security

/-!
# JSON API

The endpoints under `/api`: `app/api/auth.py`, `setup.py`, `machines.py`, `wake.py` and
`health.py`. Each endpoint is the code that runs for a request, dependencies included.
-/

namespace WolMonkey

open Programs

namespace Api
variable (P : Platform) (req : Request)

def health : Code Response := pure { body := .health "ok" "0.1.0" }

/-! ## Authentication -/

/-- `request.client.host if request.client else "unknown"`. -/
def loginIp : String := req.clientHost.getD "unknown"

/-- `login`, once the limiter has admitted the call. -/
def loginAdmitted (body : LoginRequest) : Code Response := do
  let session ← Program.tryCatch
    (AuthService.login P body.username body.password (some (loginIp req)) req.userAgent)
    (fun exc => match exc with
      | .authentication _ => raise (.http 401 "Invalid credentials" [])
      | exc => raise exc)
  let csrfToken ← generateCsrfToken session.id.text session.csrfSecret
  return { cookie := .set session.id.text (sessionLifetimeHours * 3600)
           body := .csrfToken csrfToken }

def login (body : JsonBody LoginRequest) : Code Response :=
  withBody body (checked LoginRequest.valid) (pure ()) fun _ body => do
    let _ ← await (.checkLoginRate (loginIp req))
    loginAdmitted P req body

def logout : Code Response :=
  getDbSession do
    let (session, _) ← getCurrentSessionAndUser req
    AuthService.logout session.id.text
    return { status := 204, cookie := .delete }

def me : Code Response :=
  getDbSession do
    let user ← getUserFromSessionOrToken P req
    return { body := .me user.id.text user.username user.role }

def createToken (body : JsonBody TokenCreateRequest) : Code Response :=
  withBody body (checked TokenCreateRequest.valid) (csrfProtectedUser req) fun user body => do
    let (raw, record) ← AuthService.createApiToken P body.name user.id.text body.machineId
    return { status := 201
             body := .tokenCreated record.id.text record.name record.tokenPrefix raw }

def listTokens (machineId : Option String) : Code Response :=
  getDbSession do
    let _ ← getCurrentUser req
    match machineId with
    | some machineId => do
      let tokens ← AuthService.listApiTokensForMachine machineId
      return { body := .tokenList tokens }
    | none => do
      let tokens ← AuthService.listApiTokens
      return { body := .tokenList tokens }

def revokeToken (tokenId : String) : Code Response :=
  getDbSession do
    let _ ← csrfProtectedUser req
    AuthService.revokeApiToken tokenId
    return { status := 204 }

/-! ## Setup wizard -/

def requireIncomplete : Code Unit := do
  if ← SetupStateService.isComplete then raise (.http 410 "Setup already completed" [])
  else return

def setupStatus : Code Response :=
  getDbSession do
    let state ← SetupStateService.getState
    return { body := .setupStatus state.completed state.currentStep state.completedSteps
                       wizardSteps }

def setupAdmin (body : JsonBody AdminCreateRequest) : Code Response :=
  withBody body (checked AdminCreateRequest.valid) (pure ()) fun _ body => do
    requireIncomplete
    let user ← Program.tryCatch (AuthService.createAdmin body.username body.password)
      (fun exc => match exc with
        | .authentication message => raise (.http 409 message [])
        | exc => raise exc)
    SetupStateService.advance "admin_account"
    return { status := 201, body := .adminCreated user.id.text user.username }

/-- The settings that both network steps store. -/
def saveNetwork (body : NetworkConfigRequest) : Code Unit := do
  SettingsService.set "wake_interface" (.str body.wakeInterface)
  SettingsService.set "default_wake_strategy" (.str body.defaultWakeStrategy)
  SettingsService.set "default_poll_timeout_s" (.int body.defaultPollTimeoutS)

def setupNetwork (body : JsonBody NetworkConfigRequest) : Code Response :=
  withBody body (checked NetworkConfigRequest.valid) (pure ()) fun _ body => do
    requireIncomplete
    saveNetwork body
    SetupStateService.advance "network"
    return { body := .status "ok" }

def setupComplete : Code Response :=
  getDbSession do
    requireIncomplete
    SetupStateService.advance "complete"
    return { body := .status "setup_complete" }

/-! ## Machines -/

def machineNotFound : PyExc := .http 404 "Machine not found" []

def listMachines (enabledOnly : Param Bool) : Code Response :=
  getDbSession do
    let _ ← getUserFromSessionOrToken P req
    match enabledOnly.read false with
    | none => raise .validation
    | some enabledOnly => do
      let records ← SqlMachineRepository.listAll enabledOnly
      return { body := .machineList records }

def createMachine (body : JsonBody MachineCreate) : Code Response :=
  withBody body MachineCreate.validated (csrfProtectedUser req) fun _ fields => do
    let record ← SqlMachineRepository.create fields
    return { status := 201, body := .machine record }

/-- Answer with a machine, or with 404. -/
def machineOr404 (record : Option Machine) : Code Response :=
  match record with
  | some record => pure { body := .machine record }
  | none => raise machineNotFound

def getMachine (machineId : String) : Code Response :=
  getDbSession do
    let _ ← getUserFromSessionOrToken P req
    let record ← SqlMachineRepository.getById machineId
    machineOr404 record

/-- The fields of the body that are not null. -/
def updates (b : MachineUpdate) : MachineColumns where
  name := b.name
  hostname := b.hostname.map some
  ipAddress := b.ipAddress
  macAddress := b.macAddress
  sshPort := b.sshPort
  wakeInterface := b.wakeInterface.map some
  wakeStrategy := b.wakeStrategy.map WakeStrategy.value
  broadcastAddress := b.broadcastAddress.map some
  enabled := b.enabled

def updateMachine (machineId : String) (body : JsonBody MachineUpdate) : Code Response :=
  withBody body (checked MachineUpdate.valid) (csrfProtectedUser req) fun _ body => do
    if updates body = {} then do
      let record ← SqlMachineRepository.getById machineId
      machineOr404 record
    else do
      let record ← SqlMachineRepository.update machineId (updates body)
      machineOr404 record

def deleteMachine (machineId : String) : Code Response :=
  getDbSession do
    let _ ← csrfProtectedUser req
    let deleted ← SqlMachineRepository.delete machineId
    if deleted then return { status := 204 } else raise machineNotFound

/-! ## Waking machines -/

/-- `body.strategy.value if body.strategy else None`. -/
def strategyName (body : WakeRequest) : Option String := body.strategy.map WakeStrategy.value

/-- The payload of a wake job. -/
def wakePayload (machineId attemptId actorId : String) (body : WakeRequest) : JsonObject :=
  [("machine_id", .str machineId), ("attempt_id", .str attemptId),
    ("ensure_online", .bool body.ensureOnline), ("poll_timeout_s", .int body.pollTimeoutS),
    ("strategy_override", match strategyName body with | some s => .str s | none => .null),
    ("actor_type", .str "user"), ("actor_id", .str actorId)]

/-- Enqueue a wake job. The worker process executes it. -/
def wakeMachine (machineId : String) (body : JsonBody WakeRequest) : Code Response :=
  withBody body (checked WakeRequest.valid) (csrfProtectedUser req) fun user body => do
    match ← SqlMachineRepository.getById machineId with
    | none => raise machineNotFound
    | some machine => do
      let attempt ← SqlWakeAttemptRepository.create
        { machineId, actorType := "user", actorId := user.id.text
          strategy := (strategyName body).getD machine.wakeStrategy
          ensureOnline := body.ensureOnline, pollTimeoutS := body.pollTimeoutS }
      -- the attempt row has to be visible to the job queue's own session
      let _ ← await (.commit .main)
      let _ ← JobQueue.enqueue machineId attempt.id.text "wake"
        (wakePayload machineId attempt.id.text user.id.text body)
      return { body := .wake attempt.id.text AttemptStatus.pending.value "Wake job queued" }

/-- Direct wake: bypasses the job queue. -/
def wakeMachineDirect (machineId : String) (body : JsonBody WakeRequest) : Code Response :=
  withBody body (checked WakeRequest.valid) (getApiToken P req) fun token body => do
    let attemptId ← Program.tryCatch
      (WakeService.wake P
        { machineId, actorType := "api_token", actorId := token.id.text
          ensureOnline := body.ensureOnline, pollTimeoutS := body.pollTimeoutS
          strategyOverride := strategyName body })
      (fun exc => match exc with
        | .wake message => raise (.http 422 message [])
        | exc => raise exc)
    return { body := .wake attemptId AttemptStatus.sent.value "Wake packet sent" }

def getAttemptStatus (machineId attemptId : String) : Code Response :=
  getDbSession do
    let _ ← getUserFromSessionOrToken P req
    match ← SqlWakeAttemptRepository.getById attemptId with
    | none => raise (.http 404 "Attempt not found" [])
    | some attempt =>
      if attempt.machineId.text = machineId then return { body := .attempt attempt }
      else raise (.http 404 "Attempt not found" [])

def machineStatus (machineId : String) : Code Response :=
  getDbSession do
    let _ ← getUserFromSessionOrToken P req
    match ← SqlMachineRepository.getById machineId with
    | none => raise machineNotFound
    | some machine => do
      let result ← StateProbe.probeMachine machine
      return { body := .machineStatus machineId result }

end Api

end WolMonkey
