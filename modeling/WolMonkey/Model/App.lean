import WolMonkey.Model.System
import WolMonkey.Model.Web

/-!
# The application

The handler of every route, the threads of the running system (requests and iterations of
workers), and the execution of single requests one after the other.
-/

namespace WolMonkey

open Programs

section App
variable (P : Platform)

/-- The endpoint of a route. -/
def endpoint (req : Request) : Code Response :=
  match req.route with
  | .health => Api.health
  | .apiLogin body => Api.login P req body
  | .apiLogout => Api.logout req
  | .me => Api.me P req
  | .createToken body => Api.createToken P req body
  | .listTokens machineId => Api.listTokens req machineId
  | .revokeToken tokenId => Api.revokeToken req tokenId
  | .setupStatus => Api.setupStatus
  | .setupAdmin body => Api.setupAdmin body
  | .setupNetwork body => Api.setupNetwork body
  | .setupComplete => Api.setupComplete
  | .listInterfaces => Api.listInterfaces P req
  | .discoverHosts => Api.discoverHosts P req
  | .listMachines enabledOnly => Api.listMachines P req enabledOnly
  | .createMachine body => Api.createMachine req body
  | .getMachine machineId => Api.getMachine P req machineId
  | .updateMachine machineId body => Api.updateMachine req machineId body
  | .deleteMachine machineId => Api.deleteMachine req machineId
  | .wakeMachine machineId body => Api.wakeMachine req machineId body
  | .wakeMachineDirect machineId body => Api.wakeMachineDirect P req machineId body
  | .getAttemptStatus machineId attemptId => Api.getAttemptStatus P req machineId attemptId
  | .machineStatus machineId => Api.machineStatus P req machineId
  | .root => Web.root
  | .setupPage step => Web.setupPage P step
  | .setupWelcomePost => Web.setupWelcomePost
  | .setupAdminPost form => Web.setupAdminPost P req form
  | .setupNetworkPost form => Web.setupNetworkPost form
  | .setupBack step => Web.setupBack step
  | .setupSkipMachine => Web.setupSkipMachine
  | .loginPage => Web.loginPage
  | .loginPost form => Web.loginPost P req form
  | .logoutPost => Web.logoutPost req
  | .machinesPage => Web.machinesPage req
  | .machineNewPage => Web.machineNewPage req
  | .machineNewPost form => Web.machineNewPost req form
  | .machineEditPage machineId => Web.machineEditPage req machineId
  | .machineEditPost machineId form => Web.machineEditPost req machineId form
  | .tokensPage => Web.tokensPage req
  | .sshSetupPage => Web.sshSetupPage req
  | .settingsPage => Web.settingsPage req
  | .settingsPost form => Web.settingsPost req form

/-- A request, from its route to its response. -/
def handle (req : Request) : Code Response := respond req.route (endpoint P req)

/-! ## Threads -/

/-- What runs: a request, or an iteration of a worker with some fuel for its polling. -/
inductive Label where
  | request (req : Request)
  | worker (fuel : Nat)
deriving DecidableEq

/-- How a thread ends. -/
inductive Result where
  | response (r : Response)
  | iterated

def start : Label → Code Result
  | .request req => do
    let r ← handle P req
    return .response r
  | .worker fuel => do
    workerIteration P fuel
    return .iterated

/-- The running system: all its threads over the shared state. -/
abbrev System.World := Programs.World (machine P) Label Result

/-- The system before anything runs. -/
def System.World.init (db : Database) (issued : List Uuid) : System.World P :=
  { shared := { db, rateBuckets := fun _ => [], issued }, threads := [], clock := 0 }

/-! ## One request at a time -/

/-- The state of a request that runs alone: what is shared, its transactions, and the
inputs that are still to come. -/
structure Solo where
  shared : Shared
  store : Store
  inputs : Nat → Input

/-- Execute an operation of the only running thread. -/
def soloExec (op : Op) (s : Solo) : Except PyExc op.Answer × Solo :=
  let r := executeOp P op (s.inputs 0) [] s.shared s.store
  (r.1, ⟨r.2.1, r.2.2, fun n => s.inputs (n + 1)⟩)

/-- A request that starts: no open changes. -/
def Solo.init (inputs : Nat → Input) (sh : Shared) : Solo := ⟨sh, {}, inputs⟩

/-- Run code alone, from the shared state and with the inputs. -/
def runSolo {α : Type} (code : Code α) (inputs : Nat → Input) (sh : Shared) :
    Outcome app α × Solo :=
  code.eval (soloExec P) (Solo.init inputs sh)

/-- The shared state after a request. -/
def serve (req : Request) (inputs : Nat → Input) (sh : Shared) : Shared :=
  (runSolo P (handle P req) inputs sh).2.shared

/-- The shared state after requests that are served one after the other. -/
def serveAll : List (Request × (Nat → Input)) → Shared → Shared
  | [], sh => sh
  | (req, inputs) :: rest, sh => serveAll rest (serve P req inputs sh)

end App

end WolMonkey
