import WolMonkey.Model.Worker

/-!
# Requests and responses

A request is a route with its parsed body and the parts of the HTTP request that the
application reads; a response is a status, a redirect target, headers, an effect on the
session cookie and a body.

A JSON body is `malformed` when it is not JSON at all (the request is answered before any
dependency runs), `mistyped` when it is JSON of another shape (the dependencies run first),
and otherwise a typed value whose field constraints are checked here. A form field or query
parameter is absent, invalid for its type, or a value.
-/

namespace WolMonkey

open Programs

/-! ## Bodies and parameters -/

inductive JsonBody (α : Type) where
  | malformed
  | mistyped
  | typed (body : α)
deriving DecidableEq

inductive Param (α : Type) where
  | absent
  | invalid
  | value (a : α)
deriving DecidableEq

namespace Param

/-- A query parameter or a form field that is not text: a missing one has its default. -/
def read {α : Type} (default : α) : Param α → Option α
  | absent => some default
  | invalid => none
  | value a => some a

/-- A text field of a form: an empty one counts as missing. -/
def readText (default : String) : Param String → Option String
  | absent => some default
  | invalid => none
  | value s => some (if s == "" then default else s)

end Param

/-- `Field(min_length=…, max_length=…)`. -/
def lengthIn (s : String) (min max : Nat) : Bool :=
  min ≤ s.toList.length && s.toList.length ≤ max

/-- `Field(ge=…, le=…)`. -/
def inRange (n min max : Int) : Bool := min ≤ n && n ≤ max

structure LoginRequest where
  username : String
  password : String
deriving DecidableEq

def LoginRequest.valid (b : LoginRequest) : Bool :=
  lengthIn b.username 1 150 && lengthIn b.password 1 1024

/-- The scopes are stored and never read. -/
structure TokenCreateRequest where
  name : String
  machineId : Option String
deriving DecidableEq

def TokenCreateRequest.valid (b : TokenCreateRequest) : Bool := lengthIn b.name 1 255

structure AdminCreateRequest where
  username : String
  password : String
deriving DecidableEq

def AdminCreateRequest.valid (b : AdminCreateRequest) : Bool :=
  lengthIn b.username 3 150 && lengthIn b.password 12 1024

structure NetworkConfigRequest where
  wakeInterface : String := ""
  defaultWakeStrategy : String := "etherwake"
  defaultPollTimeoutS : Int := 120
deriving DecidableEq

def NetworkConfigRequest.valid (b : NetworkConfigRequest) : Bool :=
  lengthIn b.wakeInterface 0 32 && lengthIn b.defaultWakeStrategy 0 20 &&
    inRange b.defaultPollTimeoutS 10 600

structure WakeRequest where
  ensureOnline : Bool := false
  pollTimeoutS : Int := 120
  strategy : Option WakeStrategy := none
deriving DecidableEq

def WakeRequest.valid (b : WakeRequest) : Bool := inRange b.pollTimeoutS 10 600

structure MachineCreate where
  name : String
  ipAddress : String
  macAddress : String
  sshPort : Int := 22
  hostname : Option String := none
  wakeInterface : Option String := none
  wakeStrategy : WakeStrategy := .etherwake
  broadcastAddress : Option String := none
  enabled : Bool := true
deriving DecidableEq

/-! ### Addresses -/

def isHex (c : Char) : Bool := (Uuid.hexDigit? c).isSome

/-- The rest of `_MAC_RE` when `n` groups with a colon are still to come; `$` also matches
before a final newline. -/
def macGroups : Nat → List Char → Bool
  | 0, [a, b] => isHex a && isHex b
  | 0, [a, b, '\n'] => isHex a && isHex b
  | n + 1, a :: b :: ':' :: rest => isHex a && isHex b && macGroups n rest
  | _, _ => false

/-- `_validate_mac`. -/
def validateMac (v : String) : Option String :=
  if macGroups 5 v.toList then some (String.ofList (v.toList.map Char.toLower)) else none

/-- One part of an IPv4 address: at most three digits, without a leading zero. -/
def octetOk (cs : List Char) : Bool :=
  !cs.isEmpty && cs.all (fun c => 48 ≤ c.toNat && c.toNat ≤ 57) && cs.length ≤ 3 &&
    (cs == ['0'] || cs.head? != some '0') &&
    cs.foldl (fun n c => 10 * n + (c.toNat - 48)) 0 ≤ 255

/-- `IPv4Address(s)` does not raise. -/
def ipv4Ok (cs : List Char) : Bool :=
  let octets := cs.splitOn '.'
  octets.length == 4 && octets.all octetOk

def hextetOk (cs : List Char) : Bool := !cs.isEmpty && cs.all isHex && cs.length ≤ 4

/-- The parts of an IPv6 address, with an IPv4 suffix counted as two hextets. -/
def hextets (cs : List Char) : Option (List (List Char)) :=
  let parts := cs.splitOn ':'
  let last := (parts.getLast?).getD []
  if parts.length < 3 then none
  else if last.contains '.' then
    if ipv4Ok last then some (parts.dropLast ++ [['0'], ['0']]) else none
  else some parts

/-- The part of an IPv6 address before its scope; a scope is not empty. -/
def dropScope (cs : List Char) : Option (List Char) :=
  match cs.splitOn '%' with
  | [addr] => some addr
  | [addr, scope] => if scope.isEmpty then none else some addr
  | _ => none

/-- `IPv6Address(s)` does not raise. -/
def ipv6Ok (cs : List Char) : Bool :=
  match (dropScope cs).bind hextets with
  | none => false
  | some parts =>
    let inner := (parts.drop 1).dropLast
    let first := (parts.head?).getD []
    let last := (parts.getLast?).getD []
    if parts.length > 9 then false
    else match inner.idxOf? [] with
      | none => parts.length == 8 && parts.all hextetOk
      | some i =>
        -- the parts before and after the `::`; an empty end belongs to the `::`
        let hi := if first.isEmpty then [] else first :: inner.take i
        let lo := if last.isEmpty then [] else inner.drop (i + 1) ++ [last]
        !(inner.drop (i + 1)).contains [] &&
          (!first.isEmpty || i == 0) && (!last.isEmpty || i + 1 == inner.length) &&
          hi.length + lo.length ≤ 7 && hi.all hextetOk && lo.all hextetOk

/-- `_validate_ip`: `ipaddress.ip_address(v)` does not raise. -/
def ipAddressOk (v : String) : Bool :=
  !v.toList.contains '/' && (ipv4Ok v.toList || ipv6Ok v.toList)

/-- `MachineCreate`: the length constraints come before the validators. -/
def MachineCreate.validated (b : MachineCreate) : Option MachineFields :=
  if lengthIn b.name 1 255 && lengthIn b.ipAddress 7 45 && lengthIn b.macAddress 17 17 &&
      inRange b.sshPort 1 65535 && b.hostname.all (lengthIn · 0 253) &&
      b.wakeInterface.all (lengthIn · 0 32) && b.broadcastAddress.all (lengthIn · 0 45) &&
      ipAddressOk b.ipAddress && b.broadcastAddress.all ipAddressOk then
    (validateMac b.macAddress).map fun macAddress =>
      { name := b.name, ipAddress := b.ipAddress, macAddress, sshPort := b.sshPort
        hostname := b.hostname, wakeInterface := b.wakeInterface
        wakeStrategy := b.wakeStrategy.value, broadcastAddress := b.broadcastAddress
        enabled := b.enabled }
  else none

structure MachineUpdate where
  name : Option String := none
  ipAddress : Option String := none
  macAddress : Option String := none
  sshPort : Option Int := none
  hostname : Option String := none
  wakeInterface : Option String := none
  wakeStrategy : Option WakeStrategy := none
  broadcastAddress : Option String := none
  enabled : Option Bool := none
deriving DecidableEq

def MachineUpdate.valid (b : MachineUpdate) : Bool :=
  b.name.all (lengthIn · 1 255) && b.ipAddress.all (lengthIn · 7 45) &&
    b.macAddress.all (lengthIn · 17 17) && b.sshPort.all (inRange · 1 65535)

/-- The fields of the machine form. -/
structure MachineForm where
  name : Param String := .absent
  ipAddress : Param String := .absent
  macAddress : Param String := .absent
  sshPort : Param Int := .absent
  hostname : Param String := .absent
  wakeInterface : Param String := .absent
  wakeStrategy : Param String := .absent
  broadcastAddress : Param String := .absent
  enabled : Param String := .absent
deriving DecidableEq

/-- The parameters of `machine_new_post` and `machine_edit_post`. -/
structure MachineFormFields where
  name : String
  ipAddress : String
  macAddress : String
  sshPort : Int
  hostname : String
  wakeInterface : String
  wakeStrategy : String
  broadcastAddress : String
  enabled : String
deriving DecidableEq

def MachineForm.read (f : MachineForm) : Option MachineFormFields := do
  return {
    name := ← f.name.readText ""
    ipAddress := ← f.ipAddress.readText ""
    macAddress := ← f.macAddress.readText ""
    sshPort := ← f.sshPort.read 22
    hostname := ← f.hostname.readText ""
    wakeInterface := ← f.wakeInterface.readText ""
    wakeStrategy := ← f.wakeStrategy.readText "etherwake"
    broadcastAddress := ← f.broadcastAddress.readText ""
    enabled := ← f.enabled.readText "" }

structure CredentialsForm where
  username : Param String := .absent
  password : Param String := .absent
deriving DecidableEq

def CredentialsForm.read (f : CredentialsForm) : Option (String × String) := do
  return (← f.username.readText "", ← f.password.readText "")

structure NetworkForm where
  wakeInterface : Param String := .absent
  defaultWakeStrategy : Param String := .absent
  defaultPollTimeoutS : Param Int := .absent
deriving DecidableEq

def NetworkForm.read (f : NetworkForm) : Option NetworkConfigRequest := do
  return {
    wakeInterface := ← f.wakeInterface.readText ""
    defaultWakeStrategy := ← f.defaultWakeStrategy.readText "etherwake"
    defaultPollTimeoutS := ← f.defaultPollTimeoutS.read 120 }

structure SettingsForm extends NetworkForm where
  allowApiTokens : Param String := .absent
  sessionLifetimeHours : Param Int := .absent
deriving DecidableEq

/-- The parameters of `settings_post`. -/
structure SettingsFields where
  network : NetworkConfigRequest
  allowApiTokens : String
  sessionLifetimeHours : Int
deriving DecidableEq

def SettingsForm.read (f : SettingsForm) : Option SettingsFields := do
  return {
    network := ← f.toNetworkForm.read
    allowApiTokens := ← f.allowApiTokens.readText ""
    sessionLifetimeHours := ← f.sessionLifetimeHours.read 12 }

/-! ## Routes -/

inductive Route where
  -- JSON API
  | health
  | apiLogin (body : JsonBody LoginRequest)
  | apiLogout
  | me
  | createToken (body : JsonBody TokenCreateRequest)
  | listTokens (machineId : Option String)
  | revokeToken (tokenId : String)
  | setupStatus
  | setupAdmin (body : JsonBody AdminCreateRequest)
  | setupNetwork (body : JsonBody NetworkConfigRequest)
  | setupComplete
  | listInterfaces
  | discoverHosts
  | listMachines (enabledOnly : Param Bool)
  | createMachine (body : JsonBody MachineCreate)
  | getMachine (machineId : String)
  | updateMachine (machineId : String) (body : JsonBody MachineUpdate)
  | deleteMachine (machineId : String)
  | wakeMachine (machineId : String) (body : JsonBody WakeRequest)
  | wakeMachineDirect (machineId : String) (body : JsonBody WakeRequest)
  | getAttemptStatus (machineId attemptId : String)
  | machineStatus (machineId : String)
  -- web pages and forms
  | root
  | setupPage (step : String)
  | setupWelcomePost
  | setupAdminPost (form : CredentialsForm)
  | setupNetworkPost (form : NetworkForm)
  | setupBack (step : String)
  | setupSkipMachine
  | loginPage
  | loginPost (form : CredentialsForm)
  | logoutPost
  | machinesPage
  | machineNewPage
  | machineNewPost (form : MachineForm)
  | machineEditPage (machineId : String)
  | machineEditPost (machineId : String) (form : MachineForm)
  | tokensPage
  | sshSetupPage
  | settingsPage
  | settingsPost (form : SettingsForm)
deriving DecidableEq

/-- The route is mounted under `/api`. -/
def Route.isApi : Route → Bool
  | health | apiLogin _ | apiLogout | me | createToken _ | listTokens _ | revokeToken _
  | setupStatus | setupAdmin _ | setupNetwork _ | setupComplete | listInterfaces
  | discoverHosts | listMachines _ | createMachine _ | getMachine _ | updateMachine _ _
  | deleteMachine _ | wakeMachine _ _ | wakeMachineDirect _ _ | getAttemptStatus _ _
  | machineStatus _ => true
  | _ => false

structure Request where
  route : Route
  /-- The cookie `wm_session`. -/
  cookie : Option String := none
  authorization : Option String := none
  /-- The header `X-CSRF-Token`. -/
  csrfHeader : Option String := none
  /-- The form field `X-CSRF-Token`. -/
  csrfForm : Option String := none
  clientHost : Option String := none
  userAgent : Option String := none
  /-- The query parameter `from`. -/
  fromQuery : Option String := none
  baseUrl : String := ""
deriving DecidableEq

/-! ## Responses -/

structure NetworkInterface where
  name : String
  type : String
  isLoopback : Bool
  isVirtual : Bool
  isUp : Bool
  isRunning : Bool
  ipAddresses : List String
deriving DecidableEq

structure DiscoveredHost where
  ipAddress : String
  macAddress : String
  interface : String
  isReachable : Bool
  isWireless : Bool
deriving DecidableEq

/-- What a template is rendered with. -/
inductive Page where
  | setupWizard (step : String) (error username : Option String)
  | login (error username : Option String)
  | machines (machines : List Machine) (user : User) (csrfToken : String)
  | machineForm (machine : Option Machine) (csrfToken : String) (error : Option String)
  | tokens (machines : List Machine) (byMachine : List (Option Uuid × List ApiToken))
      (csrfToken : String)
  | sshSetup (machines : List Machine) (csrfToken baseUrl : String) (tokenCount : Nat)
  | settings (settings : List (String × Scalar)) (csrfToken : String) (saved : Bool)
  | error (status : Nat) (detail : String)
deriving DecidableEq

inductive Body where
  | empty
  | detail (detail : String)
  | validationError
  | health (status version : String)
  | csrfToken (token : String)
  | me (id username role : String)
  | tokenCreated (id name tokenPrefix rawToken : String)
  | tokenList (tokens : List ApiToken)
  | setupStatus (completed : Bool) (currentStep : String) (completedSteps steps : List String)
  | adminCreated (id username : String)
  | status (status : String)
  | interfaces (interfaces : List NetworkInterface)
  | hosts (hosts : List DiscoveredHost)
  | machineList (machines : List Machine)
  | machine (machine : Machine)
  | wake (attemptId status message : String)
  | attempt (attempt : WakeAttempt)
  | machineStatus (machineId : String) (result : ProbeResult)
  | page (page : Page)
deriving DecidableEq

/-- The `Set-Cookie` header of `wm_session`. -/
inductive CookieEffect where
  | keep
  | set (sessionId : String) (maxAge : Int)
  | delete
deriving DecidableEq

structure Response where
  status : Nat := 200
  location : Option String := none
  headers : List (String × String) := []
  cookie : CookieEffect := .keep
  body : Body := .empty
deriving DecidableEq

/-- `_redirect(url)`. -/
def redirect (url : String) : Response := { status := 303, location := some url }

def errorPage (status : Nat) (detail : String) : Response :=
  { status, body := .page (.error status detail) }

/-- The exception handlers of the application. -/
def errorResponse (route : Route) : PyExc → Response
  | .http 404 _ _ =>
    if route.isApi then { status := 404, body := .detail "Not found" }
    else errorPage 404 "Page not found."
  | .http status detail headers => { status, headers, body := .detail detail }
  | .validation => { status := 422, body := .validationError }
  | _ => errorPage 500 "An unexpected error occurred."

/-- The response of code that may raise. -/
def respond (route : Route) (body : Code Response) : Code Response :=
  Program.tryCatch body fun exc => pure (errorResponse route exc)

end WolMonkey
