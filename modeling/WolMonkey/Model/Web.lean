import WolMonkey.Model.Api

/-!
# Web pages and forms

The server-rendered routes of `app/api/web.py`. The hidden form field `_csrf` that the
templates send is not a parameter of any of these routes.
-/

namespace WolMonkey

open Programs

namespace Web
variable (P : Platform) (req : Request)

/-- `_get_csrf`: a token for the session of the cookie, or the empty string. -/
def getCsrf : Code String :=
  let sessionId := req.cookie.getD ""
  if sessionId == "" then pure ""
  else
    Program.tryCatch
      (do
        let (session, _) ← AuthService.validateSession sessionId
        generateCsrfToken session.id.text session.csrfSecret)
      (fun _ => pure "")

/-- `_require_web_auth`: the user of the session cookie. -/
def requireWebAuth : Code (Option User) :=
  let sessionId := req.cookie.getD ""
  if sessionId == "" then pure none
  else
    Program.tryCatch
      (do
        let (_, user) ← AuthService.validateSession sessionId
        return some user)
      (fun _ => pure none)

/-- A page behind the login: everybody else is sent to the login page. -/
def withWebAuth (page : User → Code Response) : Code Response := do
  match ← requireWebAuth req with
  | none => return redirect "/login"
  | some user => page user

/-! ## Setup wizard -/

def root : Code Response :=
  getDbSession do
    if ← SetupStateService.isComplete then return redirect "/machines"
    else do
      let state ← SetupStateService.getState
      return redirect ("/setup/" ++ state.currentStep)

/-- `WIZARD_STEPS.index(step)`. -/
def stepIndex (step : String) : Code Nat :=
  match wizardSteps.idxOf? step with
  | some idx => pure idx
  | none => raise (.value (pyRepr P step ++ " is not in list"))

def setupPage (step : String) : Code Response :=
  getDbSession do
    if ← SetupStateService.isComplete then return redirect "/machines"
    else do
      let state ← SetupStateService.getState
      let currentStep := state.currentStep
      if !wizardSteps.contains step then return redirect ("/setup/" ++ currentStep)
      else do
        let wanted ← stepIndex P step
        let current ← stepIndex P currentStep
        -- only the current step or a step before it
        if wanted > current then return redirect ("/setup/" ++ currentStep)
        else return { body := .page (.setupWizard step none none) }

def setupWelcomePost : Code Response :=
  getDbSession do
    SetupStateService.advance "welcome"
    return redirect "/setup/admin_account"

def setupAdminPost (form : CredentialsForm) : Code Response :=
  withForm form.read fun (username, password) => do
    let refused ← Program.tryCatch
      (do
        let _ ← AuthService.createAdmin username password
        return none)
      (fun exc => match exc with
        | .authentication message => pure (some message)
        | exc => raise exc)
    match refused with
    | some message =>
      return { status := 422
               body := .page (.setupWizard "admin_account" (some message) (some username)) }
    | none => do
      SetupStateService.advance "admin_account"
      -- log in, so that the session cookie is set before the network step
      let session ← AuthService.login P username password req.clientHost req.userAgent
      return { redirect "/setup/network" with
               cookie := .set session.id.text (sessionLifetimeHours * 3600) }

def setupNetworkPost (form : NetworkForm) : Code Response :=
  withForm form.read fun fields => do
    Api.saveNetwork fields
    SetupStateService.advance "network"
    return redirect "/setup/first_machine"

def setupBack (step : String) : Code Response :=
  getDbSession do
    let prev ← SetupStateService.goBack step
    return redirect ("/setup/" ++ prev)

def setupSkipMachine : Code Response :=
  getDbSession do
    SetupStateService.advance "first_machine"
    SetupStateService.advance "complete"
    return redirect "/setup/complete"

/-! ## Login and logout -/

def loginPage : Code Response := pure { body := .page (.login none none) }

def loginPost (form : CredentialsForm) : Code Response :=
  withForm form.read fun (username, password) => do
    let session ← Program.tryCatch
      (do
        let session ← AuthService.login P username password req.clientHost req.userAgent
        return some session)
      (fun exc => match exc with
        | .authentication _ => pure none
        | exc => raise exc)
    match session with
    | none =>
      return { status := 401
               body := .page (.login (some "Invalid username or password.") (some username)) }
    | some session =>
      return { redirect "/machines" with
               cookie := .set session.id.text (sessionLifetimeHours * 3600) }

/-- Revoke the session that the cookie names; errors are suppressed. -/
def revokeCookie : Code Unit :=
  let sessionId := req.cookie.getD ""
  if sessionId == "" then pure ()
  else Program.tryCatch (AuthService.logout sessionId) (fun _ => pure ())

def logoutPost : Code Response :=
  getDbSession do
    revokeCookie req
    return { redirect "/login" with cookie := .delete }

/-! ## Machines -/

def machinesPage : Code Response :=
  getDbSession <| withWebAuth req fun user => do
    let machines ← SqlMachineRepository.listAll
    let csrf ← getCsrf req
    return { body := .page (.machines machines user csrf) }

def machineNewPage : Code Response :=
  getDbSession <| withWebAuth req fun _ => do
    let csrf ← getCsrf req
    return { body := .page (.machineForm none csrf none) }

/-- `value or None`. -/
def orNone (value : String) : Option String := if value == "" then none else some value

/-- The machine that the form for a new machine describes. -/
def newMachine (f : MachineFormFields) : MachineFields where
  name := f.name
  ipAddress := f.ipAddress
  macAddress := f.macAddress
  sshPort := f.sshPort
  hostname := orNone f.hostname
  wakeInterface := orNone f.wakeInterface
  wakeStrategy := f.wakeStrategy
  broadcastAddress := orNone f.broadcastAddress
  enabled := f.enabled == "1"

def machineNewPost (form : MachineForm) : Code Response :=
  withForm form.read fun fields => withWebAuth req fun _ => do
    let csrf ← getCsrf req
    let error ← Program.tryCatch
      (do
        let _ ← SqlMachineRepository.create (newMachine fields)
        return none)
      (fun exc => pure (some exc.str))
    match error with
    | some error =>
      return { status := 422, body := .page (.machineForm none csrf (some error)) }
    | none =>
      if req.fromQuery = some "setup" then do
        SetupStateService.advance "first_machine"
        SetupStateService.advance "complete"
        return redirect "/setup/complete"
      else return redirect "/machines"

def machineEditPage (machineId : String) : Code Response :=
  getDbSession <| withWebAuth req fun _ => do
    match ← SqlMachineRepository.getById machineId with
    | none => return redirect "/machines"
    | some machine => do
      let csrf ← getCsrf req
      return { body := .page (.machineForm (some machine) csrf none) }

/-- `_clean`: an empty string or the literal "None" is no value. -/
def clean (v : String) : Option String :=
  let stripped := String.ofList (strip isSpace v.toList)
  if stripped == "" || stripped == "None" then none else some stripped

/-- The columns that the form for an existing machine assigns. -/
def editedMachine (f : MachineFormFields) : MachineColumns where
  name := some f.name
  ipAddress := some f.ipAddress
  macAddress := some f.macAddress
  sshPort := some f.sshPort
  hostname := some (clean f.hostname)
  wakeInterface := some (clean f.wakeInterface)
  wakeStrategy := some f.wakeStrategy
  broadcastAddress := some (clean f.broadcastAddress)
  enabled := some (f.enabled == "1")

def machineEditPost (machineId : String) (form : MachineForm) : Code Response :=
  withForm form.read fun fields => withWebAuth req fun _ => do
    let csrf ← getCsrf req
    Program.tryCatch
      (do
        match ← SqlMachineRepository.update machineId (editedMachine fields) with
        | none => return redirect "/machines"
        | some _ => return redirect "/machines")
      (fun exc => do
        -- the session may be poisoned by a failed flush
        let _ ← await (.rollback .main)
        let machine ← SqlMachineRepository.getById machineId
        return { status := 422, body := .page (.machineForm machine csrf (some exc.str)) })

/-! ## Tokens, SSH setup and settings -/

/-- `tokens_by_machine.setdefault(t.machine_id, []).append(t)`, for every token. -/
def groupTokens (tokens : List ApiToken) : List (Option Uuid × List ApiToken) :=
  tokens.foldl (fun groups t =>
    if groups.any (·.1 == t.machineId) then
      groups.map fun g => if g.1 == t.machineId then (g.1, g.2 ++ [t]) else g
    else groups ++ [(t.machineId, [t])]) []

def tokensPage : Code Response :=
  getDbSession <| withWebAuth req fun _ => do
    let machines ← SqlMachineRepository.listAll
    let csrf ← getCsrf req
    let allTokens ← AuthService.listApiTokens
    return { body := .page (.tokens machines (groupTokens allTokens) csrf) }

/-- `str(request.base_url).rstrip("/")`. -/
def rstripSlash (s : String) : String :=
  String.ofList (s.toList.reverse.dropWhile (· == '/')).reverse

def sshSetupPage : Code Response :=
  getDbSession <| withWebAuth req fun _ => do
    let machines ← SqlMachineRepository.listAll
    let csrf ← getCsrf req
    let tokens ← AuthService.listApiTokens
    return { body := .page (.sshSetup machines csrf (rstripSlash req.baseUrl) tokens.length) }

def settingsPage : Code Response :=
  getDbSession <| withWebAuth req fun _ => do
    let settings ← SettingsService.getAll
    let csrf ← getCsrf req
    return { body := .page (.settings settings csrf false) }

def settingsPost (form : SettingsForm) : Code Response :=
  withForm form.read fun fields => withWebAuth req fun _ => do
    Api.saveNetwork fields.network
    SettingsService.set "allow_api_tokens" (.bool (fields.allowApiTokens == "1"))
    SettingsService.set "session_lifetime_hours" (.int fields.sessionLifetimeHours)
    let settings ← SettingsService.getAll
    let csrf ← getCsrf req
    return { body := .page (.settings settings csrf true) }

end Web

end WolMonkey
