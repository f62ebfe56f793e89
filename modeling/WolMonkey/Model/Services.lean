import WolMonkey.Model.Repositories

/-!
# Services

The service layer: settings, the setup wizard, authentication, waking a machine and polling
until it is online. Log lines are left out, except those that say how a job went.
-/

namespace WolMonkey

open Programs

/-! ## Python text -/

/-- The digits of `repr` escapes: `\x41`, `\u2028`, `\U0001f600`. -/
def hexEscape (width n : Nat) : List Char := (Uuid.digitsOfNat width n).map Uuid.hexChar

/-- `repr(s)` of a string. -/
def pyRepr (P : Platform) (s : String) : String :=
  let cs := s.toList
  let quote := if cs.contains '\'' && !cs.contains '"' then '"' else '\''
  let escape := fun c : Char =>
    let n := c.toNat
    if c == quote || c == '\\' then ['\\', c]
    else if c == '\t' then ['\\', 't']
    else if c == '\n' then ['\\', 'n']
    else if c == '\r' then ['\\', 'r']
    else if n < 0x20 || n == 0x7f then '\\' :: 'x' :: hexEscape 2 n
    else if n < 0x7f || P.printable c then [c]
    else if n < 0x100 then '\\' :: 'x' :: hexEscape 2 n
    else if n < 0x10000 then '\\' :: 'u' :: hexEscape 4 n
    else '\\' :: 'U' :: hexEscape 8 n
  String.ofList (quote :: cs.flatMap escape ++ [quote])

/-! ## Settings -/

namespace SettingsService

def set (key : String) (value : Scalar) : Code Unit := SqlSettingsRepository.set key value

def getAll : Code (List (String × Scalar)) := SqlSettingsRepository.getAll

end SettingsService

/-! ## Setup wizard -/

def wizardSteps : List String := ["welcome", "admin_account", "network", "first_machine", "complete"]

namespace SetupStateService

def getState : Code SetupState := SqlSetupStateRepository.get

def isComplete : Code Bool := do
  let record ← SqlSetupStateRepository.get
  return record.completed

/-- `completed_steps[step] = True`. -/
def markStep (steps : List String) (step : String) : List String :=
  if steps.contains step then steps else steps ++ [step]

/-- The step after `step`; a step without a successor stays. -/
def nextStep (step : String) : String :=
  match wizardSteps.idxOf? step with
  | some idx => (wizardSteps[idx + 1]?).getD step
  | none => step

/-- Mark a wizard step as done and advance to the next. -/
def advance (step : String) : Code Unit := do
  let record ← SqlSetupStateRepository.get
  let completedSteps := markStep record.completedSteps step
  if step == "complete" then do
    let _ ← SqlSetupStateRepository.update
      { completed := some true, currentStep := some step, completedSteps := some completedSteps }
    return
  else do
    let _ ← SqlSetupStateRepository.update
      { completed := some false, currentStep := some (nextStep step)
        completedSteps := some completedSteps }
    return

/-- Retreat one step: un-complete the current step and return to the previous one. -/
def goBack (fromStep : String) : Code String := do
  let record ← SqlSetupStateRepository.get
  match wizardSteps.idxOf? fromStep with
  | none => return fromStep
  | some 0 => return "welcome"
  | some (idx + 1) =>
    let prevStep := (wizardSteps[idx]?).getD fromStep
    let _ ← SqlSetupStateRepository.update
      { completed := some false, currentStep := some prevStep
        completedSteps := some ((record.completedSteps.erase fromStep).erase prevStep) }
    return prevStep

end SetupStateService

/-! ## Authentication -/

def sessionCookieName : String := "wm_session"

def sessionLifetimeHours : Int := 12

section Auth
variable (P : Platform)

/-- `verify_password`: an invalid hash raises, a mismatch is `False`. -/
def verifyPassword (plain hashed : String) : Code Bool :=
  match P.argon2Verify hashed plain with
  | .verified => pure true
  | .mismatch => pure false
  | .invalidHash => raise (.value "")

def tokenScheme : String := "wm"

/-- `generate_token`: the raw token, its prefix and its hash. -/
def generateToken : Code (String × String × String) := do
  let tokenPrefix ← await (.tokenHex 4)
  let secret ← await (.tokenHex 20)
  let raw := tokenScheme ++ "_" ++ tokenPrefix ++ "_" ++ secret
  return (raw, tokenPrefix, P.sha256 raw)

namespace AuthService

def adminExists : Code Bool := do
  let count ← SqlUserRepository.count
  return decide (0 < count)

def createAdmin (username password : String) : Code User := do
  if ← adminExists then raise (.authentication "Admin account already exists")
  else do
    let pwHash ← await (.hashPassword password)
    SqlUserRepository.create username pwHash

/-- Store a new hash when the parameters of the hasher have changed. -/
def rehash (user : User) (password : String) : Code Unit :=
  if P.argon2NeedsRehash user.passwordHash then do
    let newHash ← await (.hashPassword password)
    SqlUserRepository.updatePasswordHash user.id.text newHash
  else pure ()

/-- What `login` does once the credentials are checked. -/
def openSession (user : User) (password : String) (ip userAgent : Option String) :
    Code Session := do
  rehash P user password
  let now ← await .now
  let csrfSecret ← await (.tokenHex 32)
  let session ← SqlSessionRepository.create user.id.text csrfSecret
    (now + DateTime.hours sessionLifetimeHours) ip userAgent
  SqlUserRepository.updateLastLogin user.id.text
  return session

def login (username password : String) (ip userAgent : Option String) : Code Session := do
  match ← SqlUserRepository.getByUsername username with
  | none => raise (.authentication "Invalid credentials")
  | some user =>
    if ← verifyPassword P password user.passwordHash then openSession P user password ip userAgent
    else raise (.authentication "Invalid credentials")

def logout (sessionId : String) : Code Unit := SqlSessionRepository.revoke sessionId

def validateSession (sessionId : String) : Code (Session × User) := do
  match ← SqlSessionRepository.getById sessionId with
  | none => raise (.authentication "Invalid or revoked session")
  | some session =>
    if session.revoked then raise (.authentication "Invalid or revoked session")
    else do
      let now ← await .now
      if session.expiresAt < now then raise (.authentication "Session expired")
      else do
        match ← SqlUserRepository.getById session.userId.text with
        | none => raise (.authentication "User not found")
        | some user => return (session, user)

/-- Returns the raw token and its record. -/
def createApiToken (name userId : String) (machineId : Option String) :
    Code (String × ApiToken) := do
  let (raw, tokenPrefix, tokenHash) ← generateToken P
  let record ← SqlApiTokenRepository.create name tokenHash tokenPrefix userId machineId
  return (raw, record)

def validateApiToken (rawToken : String) : Code ApiToken := do
  match ← SqlApiTokenRepository.getByHash (P.sha256 rawToken) with
  | none => raise (.authentication "Invalid API token")
  | some record =>
    if record.revokedAt.isSome then raise (.authentication "API token has been revoked")
    else do
      SqlApiTokenRepository.touchLastUsed record.id.text
      return record

def revokeApiToken (tokenId : String) : Code Unit := SqlApiTokenRepository.revoke tokenId

def listApiTokens : Code (List ApiToken) := SqlApiTokenRepository.listActive

def listApiTokensForMachine (machineId : String) : Code (List ApiToken) :=
  SqlApiTokenRepository.listForMachine machineId

end AuthService
end Auth

/-! ## Waking a machine -/

/-- `get_strategy(name)`. -/
def getStrategy (P : Platform) (name : String) : Code WakeStrategy :=
  if name == "etherwake" then pure .etherwake
  else if name == "udp_broadcast" then pure .udpBroadcast
  else raise (.value ("Unknown wake strategy: " ++ pyRepr P name ++
    ". Choose from ['etherwake', 'udp_broadcast']"))

/-- `a or b` for an optional string. -/
def orElse (a : Option String) (b : String) : String :=
  match a with
  | some s => if s == "" then b else s
  | none => b

/-- The keyword arguments of `WakeService.wake`. -/
structure WakeArgs where
  machineId : String
  actorType : String
  actorId : String
  ensureOnline : Bool
  pollTimeoutS : Int
  strategyOverride : Option String
deriving DecidableEq

namespace WakeService
variable (P : Platform)

/-- The attempt exists; send the packet and record how it went. -/
def sendAndRecord (machine : Machine) (attempt : WakeAttempt) (strategy : WakeStrategy) :
    Code String := do
  Program.tryCatch
    (do
      let _ ← await (.send strategy machine.macAddress machine.wakeInterface machine.broadcastAddress)
      SqlWakeAttemptRepository.updateStatus attempt.id.text .sent)
    (fun exc => do
      let now ← await .now
      SqlWakeAttemptRepository.updateStatus attempt.id.text .failed (some exc.str) (some now)
      raise (.wake ("Wake failed: " ++ exc.str)))
  return attempt.id.text

/-- Send WoL packet, record attempt, return attempt id. -/
def wake (a : WakeArgs) : Code String := do
  match ← SqlMachineRepository.getById a.machineId with
  | none => raise (.wake ("Machine " ++ pyRepr P a.machineId ++ " not found"))
  | some machine =>
    if !machine.enabled then raise (.wake ("Machine " ++ pyRepr P a.machineId ++ " is disabled"))
    else do
      let strategyName := orElse a.strategyOverride machine.wakeStrategy
      let attempt ← SqlWakeAttemptRepository.create
        { machineId := a.machineId, actorType := a.actorType, actorId := a.actorId
          strategy := strategyName, ensureOnline := a.ensureOnline
          pollTimeoutS := a.pollTimeoutS }
      let strategy ← getStrategy P strategyName
      sendAndRecord machine attempt strategy

end WakeService

/-! ## Waiting until a machine is online -/

namespace StateProbe

/-- Probe a host; when nothing answers, retry with the address. -/
def probe (host : String) (sshPort : Int) (ipFallback : Option String) : Code ProbeResult := do
  let result ← await (.probe host sshPort)
  match ipFallback with
  | some ip =>
    if !(result.pingOk || result.tcpSshOk) && ip != "" && ip != host then await (.probe ip sshPort)
    else return result
  | none => return result

/-- `probe(host=machine.hostname or machine.ip_address, …)` with the address as fallback
when the machine has a hostname. -/
def probeMachine (machine : Machine) : Code ProbeResult :=
  probe (orElse machine.hostname machine.ipAddress) machine.sshPort
    (if machine.hostname.getD "" == "" then none else some machine.ipAddress)

end StateProbe

namespace EnsureOnlineService

/-- The polling loop. -/
def poll (attemptId : String) (machine : Machine) (deadline : DateTime) (timeoutS : Int) :
    Nat → Code AttemptStatus
  | 0 => Program.stuck
  | fuel + 1 => do
    let now ← await .now
    if now - deadline ≥ DateTime.seconds timeoutS then do
      let finished ← await .now
      SqlWakeAttemptRepository.updateStatus attemptId .timeout
        (some ("Machine did not come online within " ++ toString timeoutS ++ "s")) (some finished)
      return .timeout
    else do
      let result ← StateProbe.probeMachine machine
      match result.derivedState with
      | .online => do
        let finished ← await .now
        SqlWakeAttemptRepository.updateStatus attemptId .online none (some finished)
        return .online
      | _ => do
        await .sleep
        poll attemptId machine deadline timeoutS fuel

/-- Poll until online, timed out, or failed. Updates the attempt record throughout. -/
def run (fuel : Nat) (attemptId : String) : Code AttemptStatus := do
  match ← SqlWakeAttemptRepository.getById attemptId with
  | none => return .failed
  | some attempt =>
    match ← SqlMachineRepository.getById attempt.machineId.text with
    | none => do
      let now ← await .now
      SqlWakeAttemptRepository.updateStatus attemptId .failed (some "Machine not found") (some now)
      return .failed
    | some machine => do
      SqlWakeAttemptRepository.updateStatus attemptId .waking
      poll attemptId machine attempt.startedAt attempt.pollTimeoutS fuel

end EnsureOnlineService

end WolMonkey
