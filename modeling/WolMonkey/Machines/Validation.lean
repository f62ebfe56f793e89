import WolMonkey.Facts.Wizard
import WolMonkey.Machines.MacAddress

/-!
# The fields of stored machines

Four routes write machines. `MachineCreate` validates its fields; `MachineUpdate` checks
lengths only, and the two forms check nothing, so what they store is what the database
accepts: among other things an empty name, and an address with a prefix. The stored machines
satisfy the declared validation exactly as far as these three routes are given fields that
satisfy it.
-/

namespace WolMonkey

open Programs Program

/-! ## Valid machines -/

def nameOk (name : String) : Bool := lengthIn name 1 255

/-- Six octets. -/
def macOk (mac : String) : Bool := macGroups 5 mac.toList

/-- The declared validation of a machine. -/
structure Machine.Valid (m : Machine) : Prop where
  name : nameOk m.name = true
  ipAddress : ipAddressOk m.ipAddress = true
  broadcastAddress : m.broadcastAddress.all ipAddressOk = true
  macAddress : macOk m.macAddress = true
  sshPort : sshPortOk m.sshPort = true
  wakeStrategy : wakeStrategyOk m.wakeStrategy = true

def Database.MachinesValid (db : Database) : Prop := ∀ m ∈ db.machines, m.Valid

/-- Columns whose new values satisfy the validation. -/
structure MachineColumns.Valid (c : MachineColumns) : Prop where
  name : c.name.all nameOk = true
  ipAddress : c.ipAddress.all ipAddressOk = true
  broadcastAddress : c.broadcastAddress.all (·.all ipAddressOk) = true
  macAddress : c.macAddress.all macOk = true
  sshPort : c.sshPort.all sshPortOk = true
  wakeStrategy : c.wakeStrategy.all wakeStrategyOk = true

/-- The change writes valid machines only. -/
def Write.ValidMachines : Write → Prop
  | insertMachine m => m.Valid
  | updateMachine _ c _ => c.Valid
  | _ => True

theorem all_getD {α : Type} {p : α → Bool} {new : Option α} {old : α} (hnew : new.all p = true)
    (hold : p old = true) : p (new.getD old) = true := by
  cases new with
  | none => exact hold
  | some a => exact hnew

theorem Machine.Valid.set {m : Machine} {c : MachineColumns} (hm : m.Valid) (hc : c.Valid)
    (time : DateTime) : (m.set c time).Valid where
  name := all_getD hc.name hm.name
  ipAddress := all_getD hc.ipAddress hm.ipAddress
  broadcastAddress := all_getD (p := fun a : Option String => a.all ipAddressOk) hc.broadcastAddress
    hm.broadcastAddress
  macAddress := all_getD hc.macAddress hm.macAddress
  sshPort := all_getD hc.sshPort hm.sshPort
  wakeStrategy := all_getD hc.wakeStrategy hm.wakeStrategy

/-- A change that writes valid machines keeps all machines valid. -/
theorem Write.ValidMachines.apply {w : Write} (hw : w.ValidMachines) {db : Database}
    (h : db.MachinesValid) : (w.apply db).MachinesValid := by
  cases w with
  | insertMachine m =>
    intro m' hm'
    rcases List.mem_append.mp hm' with hm' | hm'
    · exact h m' hm'
    · obtain rfl := List.mem_singleton.mp hm'
      exact hw
  | updateMachine id c time =>
    intro m' hm'
    obtain ⟨m, hm, rfl⟩ := mem_updateRows.mp hm'
    split
    · exact (h m hm).set hw time
    · exact h m hm
  | deleteMachine id => exact fun m hm => h m (List.mem_filter.mp hm).1
  | _ => exact h

/-! ## What the database stores -/

/-- The documented behaviour of the two column types: the text of a stored host address is a
host address, and a stored MAC address has six octets. -/
structure Platform.Addresses (P : Platform) : Prop where
  inet : ∀ s v, P.inet s = some v → ipAddressOk s = true → ipAddressOk v = true
  macaddr : ∀ s v, P.macaddr s = some v → macOk v = true

/-- The column accepts the address without a prefix, or not at all. -/
def Platform.storesHost (P : Platform) (address : String) : Bool := (P.inet address).all ipAddressOk

/-- Fields for a new machine that are stored in a valid form. -/
structure MachineFields.Fit (P : Platform) (f : MachineFields) : Prop where
  name : f.name ≠ ""
  ipAddress : P.storesHost f.ipAddress = true
  broadcastAddress : f.broadcastAddress.all P.storesHost = true

/-- New values of columns that are stored in a valid form. -/
structure MachineColumns.Fit (P : Platform) (c : MachineColumns) : Prop where
  name : c.name ≠ some ""
  ipAddress : c.ipAddress.all P.storesHost = true
  broadcastAddress : c.broadcastAddress.all (·.all P.storesHost) = true

section Stored
variable {P : Platform}

/-- A name that is not empty is stored with a length from 1 to 255. -/
theorem nameOk_of_varchar {s v : String} (h : varchar 255 s = some v) (hs : s ≠ "") :
    nameOk v = true := by
  have hlength : 0 < s.toList.length := by
    rw [List.length_pos_iff]
    intro hnil
    exact hs (String.toList_inj.mp hnil)
  unfold varchar at h
  split at h
  · split at h
    · rename_i hle
      cases h
      simp only [nameOk, lengthIn, Bool.and_eq_true, decide_eq_true_eq]
      omega
    · split at h
      · cases h
        simp only [nameOk, lengthIn, String.toList_ofList, List.length_take, Bool.and_eq_true,
          decide_eq_true_eq]
        omega
      · cases h
  · cases h

theorem nullable_eq_some {α β : Type} {f : α → Option β} {x : Option α} {y : Option β}
    (h : nullable f x = some y) :
    (x = none ∧ y = none) ∨ ∃ a b, x = some a ∧ y = some b ∧ f a = some b := by
  cases x with
  | none =>
    cases h
    exact .inl ⟨rfl, rfl⟩
  | some a =>
    obtain ⟨b, hb, rfl⟩ := Option.map_eq_some_iff.mp h
    exact .inr ⟨a, b, rfl, rfl, hb⟩

/-- What `f` makes of every value with `p` has `q`. -/
theorem all_nullable {α β : Type} {f : α → Option β} {p : α → Bool} {q : β → Bool}
    (hf : ∀ a b, f a = some b → p a = true → q b = true) {x : Option α} {y : Option β}
    (h : nullable f x = some y) (hx : x.all p = true) : y.all q = true := by
  rcases nullable_eq_some h with ⟨rfl, rfl⟩ | ⟨a, b, rfl, rfl, hb⟩
  · rfl
  · exact hf a b hb hx

theorem storesHost_inet {s v : String} (h : P.inet s = some v) (hs : P.storesHost s = true) :
    ipAddressOk v = true := by
  rw [Platform.storesHost, h] at hs
  exact hs

variable (hP : P.Addresses)
include hP

theorem storesHost_of_ipAddressOk {s : String} (h : ipAddressOk s = true) :
    P.storesHost s = true := by
  unfold Platform.storesHost
  cases hv : P.inet s with
  | none => rfl
  | some v => exact hP.inet s v hv h

/-- Inserting a machine whose fields fit writes a valid machine. -/
theorem uses_machineInsert {f : MachineFields} (hf : f.Fit P) :
    (execute .main (.machineInsert f)).Uses (MakesOn P Write.ValidMachines) := by
  refine (uses_perform _).mpr fun inp locked db r hr w hw => ?_
  simp only [Stmt.run, bind_eq_ok, accepted_eq_ok, require_eq_ok, pure_eq_ok, Bool.and_eq_true]
    at hr
  obtain ⟨g, hstored, -, ⟨hport, hstrategy⟩, -, -, -, -, rfl⟩ := hr
  obtain rfl := List.mem_singleton.mp hw
  simp only [MachineFields.stored, Option.bind_eq_bind, Option.bind_eq_some_iff] at hstored
  obtain ⟨name, hname, hostname, -, ip, hip, mac, hmac, interface, -, strategy, -, broadcast,
    hbroadcast, hg⟩ := hstored
  split at hg
  · cases hg
    exact
      { name := nameOk_of_varchar hname hf.name
        ipAddress := storesHost_inet hip hf.ipAddress
        broadcastAddress := all_nullable (fun a b => storesHost_inet) hbroadcast
          hf.broadcastAddress
        macAddress := hP.macaddr _ _ hmac
        sshPort := hport
        wakeStrategy := hstrategy }
  · cases hg

/-- Updating columns whose new values fit writes valid columns. -/
theorem uses_machineUpdateStmt {loaded : Machine} {c : MachineColumns} (hc : c.Fit P) :
    (execute .main (.machineUpdate loaded c)).Uses (MakesOn P Write.ValidMachines) := by
  refine (uses_perform _).mpr fun inp locked db r hr w hw => ?_
  simp only [Stmt.run] at hr
  split at hr
  · rw [pure_eq_ok] at hr
    subst hr
    cases hw
  simp only [bind_eq_ok, accepted_eq_ok, require_eq_ok, pure_eq_ok, Bool.and_eq_true] at hr
  obtain ⟨g, hstored, -, ⟨hport, hstrategy⟩, -, -, rfl⟩ := hr
  obtain rfl := List.mem_singleton.mp hw
  -- the columns that are sent are among those that were assigned
  have changed_name : ∀ {α : Type} [DecidableEq α] (old : α) {new : Option α} {v : α},
      changed old new = some v → new = some v := by
    intro α _ old new v h
    unfold changed at h
    split at h
    · split at h
      · cases h
      · exact h
    · cases h
  simp only [MachineColumns.stored, MachineColumns.changedFrom, Option.bind_eq_bind,
    Option.bind_eq_some_iff] at hstored
  obtain ⟨name, hname, hostname, -, ip, hip, mac, hmac, interface, -, strategy, -, broadcast,
    hbroadcast, hg⟩ := hstored
  obtain ⟨-, hg⟩ := Option.ite_none_right_eq_some.mp hg
  cases hg
  refine ⟨?_, all_nullable (fun a b => storesHost_inet) hip (changed_all hc.ipAddress), ?_, ?_,
    hport, hstrategy⟩
  · rcases nullable_eq_some hname with ⟨-, rfl⟩ | ⟨a, b, ha, rfl, hb⟩
    · rfl
    · exact nameOk_of_varchar hb fun h => hc.name (h ▸ changed_name _ ha)
  · refine all_nullable (p := fun a : Option String => a.all P.storesHost) (fun a b hb ha => ?_)
      hbroadcast (changed_all hc.broadcastAddress)
    exact all_nullable (fun a b => storesHost_inet) hb ha
  · rcases nullable_eq_some hmac with ⟨-, rfl⟩ | ⟨a, b, -, rfl, hb⟩
    · rfl
    · exact hP.macaddr _ _ hb

end Stored

/-! ## Requests -/

/-- The request is refused for want of a session, or stores its fields in a valid form. -/
def StoresValid (P : Platform) (sh : Shared) (req : Request) (inputs : Nat → Input) : Prop :=
  match req.route with
  | .updateMachine _ body =>
    NoLiveCookie sh.db inputs req ∨
      ∀ b, body = .typed b → b.valid = true → (Api.updates b).Fit P
  | .machineNewPost form =>
    NoLiveCookie sh.db inputs req ∨ ∀ f, form.read = some f → (Web.newMachine f).Fit P
  | .machineEditPost _ form =>
    NoLiveCookie sh.db inputs req ∨ ∀ f, form.read = some f → (Web.editedMachine f).Fit P
  | _ => True

section Requests
variable {P : Platform} {req : Request}

theorem validMachines_of_effect {w : Write} (h : w.effect ≠ .newMachine)
    (h' : w.effect ≠ .editMachine) : w.ValidMachines := by
  cases w with
  | insertMachine m => exact (h rfl).elim
  | updateMachine id c time => exact (h' rfl).elim
  | _ => trivial

/-- Code that writes no machine. -/
theorem uses_validMachines (es : List Effect) {α : Type} {p : Code α} (hp : p.Uses (Within es))
    (hnew : .newMachine ∉ es) (hedit : .editMachine ∉ es) :
    p.Uses (MakesOn P Write.ValidMachines) := by
  refine hp.mono fun op hop => makesOn_of_within (fun w hw => ?_) hop
  refine validMachines_of_effect (fun h => ?_) (fun h => ?_)
  · exact hnew (h ▸ hw)
  · exact hedit (h ▸ hw)

theorem sessions_validMachines : Sessions (MakesOn P Write.ValidMachines) :=
  fun _ => ⟨trivial, trivial, trivial⟩

variable (hP : P.Addresses)
include hP

theorem uses_validCreate {f : MachineFields} (hf : f.Fit P) :
    (SqlMachineRepository.create f).Uses (MakesOn P Write.ValidMachines) :=
  Uses.bind (uses_machineInsert hP hf) fun _ =>
    uses_validMachines [] (uses_read rfl) (by simp) (by simp)

theorem uses_validUpdate {id : String} {c : MachineColumns} (hc : c.Fit P) :
    (SqlMachineRepository.update id c).Uses (MakesOn P Write.ValidMachines) := by
  unfold SqlMachineRepository.update guardUuid
  split
  · refine Uses.bind (uses_validMachines [] (uses_read rfl) (by simp) (by simp)) fun found => ?_
    cases found with
    | none => exact uses_pure _
    | some model =>
      refine Uses.bind (uses_machineUpdateStmt hP hc) fun _ => Uses.bind ?_ fun _ => uses_pure _
      exact uses_validMachines [] (uses_read rfl) (by simp) (by simp)
  · exact uses_pure _

/-- The validated fields of `MachineCreate` fit. -/
theorem fit_of_validated {b : MachineCreate} {f : MachineFields} (h : b.validated = some f) :
    f.Fit P := by
  unfold MachineCreate.validated at h
  split at h
  swap
  · cases h
  rename_i hchecks
  simp only [Bool.and_eq_true] at hchecks
  obtain ⟨mac, -, rfl⟩ := Option.map_eq_some_iff.mp h
  obtain ⟨⟨⟨⟨⟨⟨⟨⟨hname, -⟩, -⟩, -⟩, -⟩, -⟩, -⟩, hip⟩, hbroadcast⟩ := hchecks
  refine ⟨fun hempty => ?_, storesHost_of_ipAddressOk hP hip, ?_⟩
  · dsimp only at hempty
    rw [hempty] at hname
    revert hname
    decide
  · dsimp only
    cases hb : b.broadcastAddress with
    | none => rfl
    | some address =>
      rw [hb] at hbroadcast
      exact storesHost_of_ipAddressOk hP hbroadcast

/-- The code of a request whose fields fit writes valid machines only. -/
theorem endpoint_validMachines
    (hfit : match req.route with
      | .updateMachine _ body => ∀ b, body = .typed b → b.valid = true → (Api.updates b).Fit P
      | .machineNewPost form => ∀ f, form.read = some f → (Web.newMachine f).Fit P
      | .machineEditPost _ form => ∀ f, form.read = some f → (Web.editedMachine f).Fit P
      | _ => True) :
    (endpoint P req).Uses (MakesOn P Write.ValidMachines) := by
  by_cases hquiet : .newMachine ∉ req.route.effects ∧ .editMachine ∉ req.route.effects
  · exact uses_validMachines _ endpoint_within hquiet.1 hquiet.2
  have hreads : ∀ {α : Type} {p : Code α}, p.Uses (Within []) →
      p.Uses (MakesOn P Write.ValidMachines) := fun hp =>
    uses_validMachines [] hp (by simp) (by simp)
  have hadvance : ∀ step, (SetupStateService.advance step).Uses (MakesOn P Write.ValidMachines) :=
    fun step => uses_validMachines [.newSetup, .editSetup] (uses_advance (by simp) (by simp))
      (by simp) (by simp)
  unfold endpoint
  cases hroute : req.route
  all_goals first
    | (exfalso; simp [hroute, Route.effects] at hquiet; done)
    | simp only [hroute] at hfit
  case createMachine body =>
    refine uses_withBody_of (hreads uses_csrfProtectedUser) sessions_validMachines
      fun _ b f _ hf => ?_
    exact Uses.bind (uses_validCreate hP (fit_of_validated hP hf)) fun _ => uses_pure _
  case updateMachine machineId body =>
    refine uses_withBody_of (hreads uses_csrfProtectedUser) sessions_validMachines
      fun _ b c hb hc => ?_
    obtain ⟨hvalid, rfl⟩ := checked_eq_some.mp hc
    have answer : ∀ record, (Api.machineOr404 record).Uses (MakesOn P Write.ValidMachines) := by
      intro record
      cases record <;> simp [Api.machineOr404]
    split
    · exact Uses.bind (hreads uses_machineGetById) answer
    · exact Uses.bind (uses_validUpdate hP (hfit b hb hvalid)) answer
  case machineNewPost form =>
    refine uses_withForm_of sessions_validMachines fun f hf => ?_
    refine Uses.bind (hreads uses_requireWebAuth) fun found => ?_
    cases found with
    | none => exact uses_pure _
    | some user =>
      refine Uses.bind (hreads uses_getCsrf) fun csrf => Uses.bind ?_ fun error => ?_
      · exact Uses.tryCatch (Uses.bind (uses_validCreate hP (hfit f hf)) fun _ => uses_pure _)
          fun _ => uses_pure _
      · cases error with
        | some error => exact uses_pure _
        | none =>
          dsimp only
          split
          · exact Uses.bind (hadvance _) fun _ => Uses.bind (hadvance _) fun _ => uses_pure _
          · exact uses_pure _
  case machineEditPost machineId form =>
    refine uses_withForm_of sessions_validMachines fun f hf => ?_
    refine Uses.bind (hreads uses_requireWebAuth) fun found => ?_
    cases found with
    | none => exact uses_pure _
    | some user =>
      refine Uses.bind (hreads uses_getCsrf) fun csrf => Uses.tryCatch ?_ fun exc => ?_
      · refine Uses.bind (uses_validUpdate hP (hfit f hf)) fun updated => ?_
        cases updated <;> exact uses_pure _
      · exact Uses.bind ((uses_perform _).mpr trivial) fun _ =>
          Uses.bind (hreads uses_machineGetById) fun _ => uses_pure _

/-- One request keeps the stored machines valid. -/
theorem serve_machinesValid {inputs : Nat → Input} {sh : Shared} (h : sh.db.MachinesValid)
    (hreq : StoresValid P sh req inputs) : (serve P req inputs sh).db.MachinesValid := by
  by_cases hlive : NoLiveCookie sh.db inputs req ∧
      (∃ machineId body, req.route = .updateMachine machineId body) ∨
      NoLiveCookie sh.db inputs req ∧ (∃ form, req.route = .machineNewPost form) ∨
      NoLiveCookie sh.db inputs req ∧ ∃ machineId form, req.route = .machineEditPost machineId form
  · have hsame : (serve P req inputs sh).db = sh.db := by
      rw [serve_eq, endpoint]
      rcases hlive with ⟨hlive, machineId, body, hroute⟩ | ⟨hlive, form, hroute⟩ |
        ⟨hlive, machineId, form, hroute⟩
      · rw [hroute]
        exact withBody_csrf_blocked hlive
      · rw [hroute]
        exact withForm_webAuth_blocked hlive
      · rw [hroute]
        exact withForm_webAuth_blocked hlive
    rw [hsame]
    exact h
  · have huses : (endpoint P req).Uses (MakesOn P Write.ValidMachines) := by
      refine endpoint_validMachines hP ?_
      unfold StoresValid at hreq
      split
      · rename_i machineId body hroute
        simp only [hroute] at hreq
        exact hreq.resolve_left fun hno => hlive (.inl ⟨hno, machineId, body, hroute⟩)
      · rename_i form hroute
        simp only [hroute] at hreq
        exact hreq.resolve_left fun hno => hlive (.inr (.inl ⟨hno, form, hroute⟩))
      · rename_i machineId form hroute
        simp only [hroute] at hreq
        exact hreq.resolve_left fun hno => hlive (.inr (.inr ⟨hno, machineId, form, hroute⟩))
      · trivial
    exact (serve_reaches_of_uses huses inputs sh).invariant Database.MachinesValid
      (fun w db hw hdb => hw.apply hdb) h

/-- The stored machines satisfy the declared validation in every state that requests reach,
when each request that changes a machine without `MachineCreate` is given fields that are
stored in a valid form, or has no live session. -/
theorem stored_machines_valid (run : List (Request × (Nat → Input))) (sh : Shared)
    (h : sh.db.MachinesValid) (hrun : Throughout P (StoresValid P) run sh) :
    (serveAll P run sh).db.MachinesValid := by
  induction run generalizing sh with
  | nil => exact h
  | cons step rest ih =>
    obtain ⟨req, inputs⟩ := step
    exact ih _ (serve_machinesValid hP h hrun.1) hrun.2

end Requests

/-! ## The sample installation -/

theorem Platform.signing_addresses : Platform.signing.Addresses where
  inet := by
    intro s v h hs
    have : (if ipAddressOk s then some s else none) = some v := h
    rw [if_pos hs] at this
    cases this
    exact hs
  macaddr := by
    intro s v h
    have : validateMac s = some v := h
    unfold validateMac at this
    split at this
    · rename_i hmac
      cases this
      rw [macOk, String.toList_ofList]
      exact macGroups_toLower hmac
    · cases this

/-- A machine is added and renamed. -/
theorem stored_machines_valid_sample :
    let run := firstSteps ++
      [(adminRequest (.updateMachine (Uuid.ofNat 3).text (.typed { name := some "backup" })),
        Input.signing 4)]
    (serveAll Platform.signing run Shared.fresh).db.MachinesValid := by
  intro run
  refine stored_machines_valid Platform.signing_addresses run Shared.fresh
    (fun m hm => by cases hm) ⟨trivial, trivial, .inr ?_, trivial⟩
  intro b hb _
  cases hb
  exact ⟨by decide, rfl, rfl⟩

/-- The machine form adds a machine without a name. -/
theorem machine_form_unvalidated :
    ¬ ∀ run : List (Request × (Nat → Input)),
      (serveAll Platform.signing run Shared.fresh).db.MachinesValid := by
  intro h
  let run : List (Request × (Nat → Input)) := firstSteps ++
    [(adminRequest (.machineNewPost
        { ipAddress := .value "192.168.1.11", macAddress := .value "aa:bb:cc:dd:ee:00" }),
      Input.signing 4)]
  have hstored : ((serveAll Platform.signing run Shared.fresh).db.machines.any fun m =>
      m.name == "") = true := by decide +kernel
  obtain ⟨m, hm, hname⟩ := List.any_eq_true.mp hstored
  have hok := (h run m hm).name
  rw [beq_iff_eq.mp hname] at hok
  revert hok
  decide

end WolMonkey
