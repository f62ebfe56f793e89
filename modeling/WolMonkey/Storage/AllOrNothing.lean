import WolMonkey.Facts.Transactions

/-!
# Requests with several writes

Requests that write several rows do so in one transaction. Wherever a statement or the
commit of such a request fails, the tables stay as they were; when nothing fails, all its
changes are committed together, unless its code raises and gives them up.
-/

namespace WolMonkey

open Programs Program

/-- The routes that write several rows, or one row in several statements. -/
def Route.multiWrite : Route → Bool
  | setupAdmin _ | setupAdminPost _ | setupNetwork _ | setupNetworkPost _ | setupSkipMachine
  | settingsPost _ | machineNewPost _ | machineEditPost _ _ | apiLogin _ | loginPost _
  | createToken _ | updateMachine _ _ => true
  | _ => false

section Bodies
variable {P : Platform} {α β : Type}

/-! ## Guards -/

/-- Asking anything but the database does not touch the transaction. -/
theorem obeys_ask (op : Op) {g : Phase} {post : op.Answer → Phase → Prop}
    {failed : PyExc → Phase → Prop} (hpermits : g.permits op) (hnext : ∀ r, g.next op r = g)
    (h : ∀ a, post a g) (h' : ∀ e, failed e g) : Obeys transaction post failed g (await op) :=
  obeys_await.mpr ⟨hpermits, fun a _ => by dsimp only; rw [hnext]; exact h a,
    fun e _ => by dsimp only; rw [hnext]; exact h' e⟩

/-- Reading in an untouched transaction. -/
theorem obeys_read {s : Stmt} (heffect : s.effect = none) {post : s.Answer → Phase → Prop}
    (h : ∀ a, s.encodable = true → post a .untouched) :
    Obeys transaction post (fun _ g => g ≠ Phase.torn) Phase.untouched (execute .main s) := by
  refine obeys_execute.mpr ⟨⟨rfl, by simp⟩, fun a ha => ?_, fun e _ => ?_⟩
  · simp only [Phase.next, if_pos heffect]
    exact h a ha.2
  · simp only [Phase.next]
    split <;> simp

/-- Validating a session reads; when it returns, the cookie was encodable. -/
theorem obeys_validateSession (cookie : String) :
    Obeys transaction
      (fun _ g => g = Phase.untouched ∧ (Uuid.parse? cookie).isSome = true)
      (fun _ g => g ≠ Phase.torn) Phase.untouched (AuthService.validateSession cookie) := by
  have hraise : ∀ {α : Type} {post : α → Phase → Prop} {e : PyExc},
      Obeys transaction post (fun _ g => g ≠ Phase.torn) Phase.untouched (raise e) :=
    fun {_ _ _} => (obeys_raise _).mpr nofun
  unfold AuthService.validateSession SqlSessionRepository.getById guardUuid
  rw [obeys_bind]
  split
  swap
  · exact (obeys_pure _).mpr hraise
  refine obeys_read (s := .sessionGet cookie) rfl fun found hencodable => ?_
  cases found with
  | none => exact hraise
  | some session =>
    dsimp only
    split
    · exact hraise
    · rw [obeys_bind]
      refine obeys_ask .now trivial (fun _ => rfl) (fun now => ?_) nofun
      split
      · exact hraise
      · unfold SqlUserRepository.getById guardUuid
        rw [obeys_bind]
        split
        swap
        · exact (obeys_pure _).mpr hraise
        refine obeys_read (s := .userGet session.userId.text) rfl fun user _ => ?_
        cases user with
        | none => exact hraise
        | some user => exact (obeys_pure _).mpr ⟨rfl, hencodable⟩

/-- A guard that lets a request through leaves the transaction untouched. -/
theorem obeys_csrfProtectedUser (req : Request) :
    Obeys transaction (fun _ g => g = Phase.untouched) (fun _ _ => True) Phase.untouched
      (csrfProtectedUser req) := by
  unfold csrfProtectedUser getCurrentSessionAndUser
  rw [obeys_bind]
  cases req.cookie with
  | none => exact (obeys_raise _).mpr trivial
  | some cookie =>
    dsimp only
    rw [obeys_tryCatch]
    refine (obeys_validateSession cookie).mono ?_ fun _ _ _ => (obeys_raise _).mpr trivial
    rintro ⟨session, user⟩ g ⟨rfl, -⟩
    rw [obeys_bind]
    unfold requireCsrf
    split
    · exact (obeys_raise _).mpr trivial
    · unfold validateCsrfToken
      rw [obeys_bind, obeys_bind]
      refine obeys_ask (.csrfLoads req.csrfToken) trivial (fun _ => rfl) (fun data => ?_)
        fun _ => trivial
      rw [obeys_pure]
      split
      · exact (obeys_pure _).mpr ((obeys_pure _).mpr rfl)
      · exact (obeys_raise _).mpr trivial

/-- The guard of the forms either lets a request through with everything untouched, or sends
it away before anything was changed. -/
theorem obeys_requireWebAuth (req : Request) :
    Obeys transaction
      (fun found g => match found with
        | some _ => g = Phase.untouched ∧ (Uuid.parse? (req.cookie.getD "")).isSome = true
        | none => g ≠ Phase.torn)
      (fun _ _ => True) Phase.untouched (Web.requireWebAuth req) := by
  unfold Web.requireWebAuth
  dsimp only
  split
  · exact (obeys_pure _).mpr nofun
  · rw [obeys_tryCatch, obeys_bind]
    refine (obeys_validateSession _).mono (fun su g h => ?_) fun _ g h => ?_
    · exact (obeys_pure _).mpr h
    · exact (obeys_pure _).mpr h

/-- A statement in a steady phase: when it raises, something has failed. -/
theorem obeys_stmt (s : Stmt) {g : Phase} (hg : g.steady = true) {post : s.Answer → Phase → Prop}
    (h : ∀ a g', Phase.steady g' = true → post a g') :
    Obeys transaction post (fun _ g => Phase.fine g = false) g (execute .main s) := by
  refine obeys_execute.mpr ⟨⟨rfl, fun h => ?_⟩, fun a ha => h a _ ?_, fun e _ => ?_⟩
  · rw [h] at hg
    cases hg
  · cases g with
    | untouched =>
      simp only [Phase.next]
      split <;> rfl
    | _ => exact hg
  · simp only [Phase.next]
    split
    · cases g <;> rfl
    · rfl

/-- Updating a machine: an exception means that something has failed. -/
theorem obeys_machineUpdate {machineId : String} {columns : MachineColumns} {g : Phase}
    (hg : g.steady = true) :
    Obeys transaction (fun _ g => Phase.steady g = true) (fun _ g => Phase.fine g = false) g
      (SqlMachineRepository.update machineId columns) := by
  unfold SqlMachineRepository.update guardUuid
  split
  swap
  · exact (obeys_pure _).mpr hg
  rw [obeys_bind]
  refine obeys_stmt (.machineGet machineId) hg fun found g₁ hg₁ => ?_
  cases found with
  | none => exact (obeys_pure _).mpr hg₁
  | some model =>
    dsimp only
    rw [obeys_bind]
    refine obeys_stmt (.machineUpdate model columns) hg₁ fun _ g₂ hg₂ => ?_
    rw [obeys_bind]
    refine obeys_stmt (.machineRefresh model.id) hg₂ fun updated g₃ hg₃ => ?_
    exact (obeys_pure _).mpr hg₃

/-! ## Bodies of the routes -/

theorem ne_torn_of_steady {g : Phase} (h : g.steady = true) : g ≠ .torn := by
  rintro rfl
  cases h

/-- Plain code behind a guard. -/
theorem obeys_of_plain {p : Code α} (hp : p.Uses Op.plain) {g : Phase} (hg : g.steady = true) :
    Obeys transaction (fun _ g => g ≠ Phase.torn) (fun _ _ => True) g p :=
  (obeys_plain hp hg).mono (fun _ _ h => ne_torn_of_steady h) fun _ _ _ => trivial

theorem safe_of_plain {p : Code α} (hp : p.Uses Op.plain) : Safe p := obeys_of_plain hp rfl

/-- What runs behind the guard of the JSON routes. -/
theorem safe_guarded {req : Request} {f : User → Code α}
    (h : ∀ u, Obeys transaction (fun _ g => g ≠ Phase.torn) (fun _ _ => True) Phase.untouched
      (f u)) : Safe (csrfProtectedUser req >>= f) := by
  unfold Safe
  rw [obeys_bind]
  refine (obeys_csrfProtectedUser req).mono ?_ fun _ _ _ => trivial
  rintro u g rfl
  exact h u

/-- What runs behind the guard of the forms. -/
theorem safe_webAuth {req : Request} {page : User → Code Response}
    (h : (Uuid.parse? (req.cookie.getD "")).isSome = true → ∀ u,
      Obeys transaction (fun _ g => g ≠ Phase.torn) (fun _ _ => True) Phase.untouched (page u)) :
    Safe (Web.withWebAuth req page) := by
  unfold Safe Web.withWebAuth
  rw [obeys_bind]
  refine (obeys_requireWebAuth req).mono ?_ fun _ _ _ => trivial
  rintro (_ | u) g hg
  · exact (obeys_pure _).mpr hg
  · obtain ⟨rfl, hcookie⟩ := hg
    exact h hcookie u

theorem obeys_machineOr404 {record : Option Machine} {g : Phase} (hg : g.steady = true) :
    Obeys transaction (fun _ g => g ≠ Phase.torn) (fun _ _ => True) g
      (Api.machineOr404 record) := by
  cases record with
  | none => exact (obeys_raise _).mpr trivial
  | some m => exact (obeys_pure _).mpr (ne_torn_of_steady hg)

/-- The form for an existing machine: after an exception it rolls back, and then it reads. -/
theorem safe_machineEditPost {req : Request} {machineId : String} {fields : MachineFormFields} :
    Safe (Web.withWebAuth req fun _ => do
      let csrf ← Web.getCsrf req
      Program.tryCatch
        (do
          match ← SqlMachineRepository.update machineId (Web.editedMachine fields) with
          | none => return redirect "/machines"
          | some _ => return redirect "/machines")
        (fun exc => do
          let _ ← await (.rollback .main)
          let machine ← SqlMachineRepository.getById machineId
          return { status := 422
                   body := .page (.machineForm machine csrf (some exc.str)) })) := by
  refine safe_webAuth fun hcookie _ => ?_
  rw [obeys_bind]
  refine (obeys_plain (plain_getCsrf hcookie) rfl).mono (fun csrf g hg => ?_) fun _ _ _ => trivial
  rw [obeys_tryCatch, obeys_bind]
  refine (obeys_machineUpdate hg).mono (fun updated g₁ hg₁ => ?_) fun exc g₁ hg₁ => ?_
  · cases updated <;> exact (obeys_pure _).mpr (ne_torn_of_steady hg₁)
  · rw [obeys_bind]
    refine obeys_await.mpr ⟨⟨rfl, hg₁⟩, fun _ _ => ?_, fun _ _ => trivial⟩
    unfold SqlMachineRepository.getById guardUuid
    rw [obeys_bind]
    split
    · refine (obeys_execute (s := .machineGet machineId)).mpr
        ⟨⟨rfl, fun _ => rfl⟩, fun _ _ => ?_, fun _ _ => trivial⟩
      exact (obeys_pure _).mpr nofun
    · exact (obeys_pure _).mpr ((obeys_pure _).mpr nofun)

end Bodies

/-! ## Requests -/

section Requests
variable {P : Platform} {req : Request} {inputs : Nat → Input} {sh : Shared} {α : Type}

theorem withBody_allOrNothing {β γ δ : Type} {body : JsonBody β} {validate : β → Option γ}
    {deps : Code δ} {endpoint : δ → γ → Code α}
    (hmistyped : Safe (deps >>= fun _ => (raise PyExc.validation : Code α)))
    (h : ∀ b, Safe (deps >>= fun d => match validate b with
      | some c => endpoint d c
      | none => raise PyExc.validation)) :
    let r := ((withBody body validate deps endpoint).eval (journaled P)
      (Solo.init inputs sh, {})).2
    AllOrNothing sh.db r.1.shared.db r.2 := by
  cases body with
  | malformed => exact ⟨fun _ => rfl, fun _ => rfl⟩
  | mistyped => exact getDbSession_allOrNothing hmistyped inputs sh
  | typed b => exact getDbSession_allOrNothing (h b) inputs sh

/-- A route without dependencies. -/
theorem withBody_plain {β γ : Type} {body : JsonBody β} {validate : β → Option γ}
    {endpoint : γ → Code α} (he : ∀ c, (endpoint c).Uses Op.plain) :
    let r := ((withBody body validate (Pure.pure ()) fun _ => endpoint).eval (journaled P)
      (Solo.init inputs sh, {})).2
    AllOrNothing sh.db r.1.shared.db r.2 := by
  refine withBody_allOrNothing (safe_of_plain (Uses.bind (uses_pure _) fun _ => uses_raise _))
    fun b => ?_
  refine safe_of_plain (Uses.bind (uses_pure _) fun _ => ?_)
  cases validate b with
  | none => exact uses_raise _
  | some c => exact he c

/-- A route behind the guard of the JSON routes. -/
theorem withBody_guarded {β γ : Type} {body : JsonBody β} {validate : β → Option γ}
    {endpoint : User → γ → Code α}
    (he : ∀ u c, Obeys transaction (fun _ g => g ≠ Phase.torn) (fun _ _ => True) Phase.untouched
      (endpoint u c)) :
    let r := ((withBody body validate (csrfProtectedUser req) endpoint).eval (journaled P)
      (Solo.init inputs sh, {})).2
    AllOrNothing sh.db r.1.shared.db r.2 := by
  refine withBody_allOrNothing (safe_guarded fun _ => (obeys_raise _).mpr trivial)
    fun b => safe_guarded fun u => ?_
  cases validate b with
  | none => exact (obeys_raise _).mpr trivial
  | some c => exact he u c

theorem withForm_allOrNothing {γ : Type} {form : Option γ} {endpoint : γ → Code α}
    (h : ∀ c, Safe (endpoint c)) :
    let r := ((withForm form endpoint).eval (journaled P) (Solo.init inputs sh, {})).2
    AllOrNothing sh.db r.1.shared.db r.2 := by
  cases form with
  | none => exact getDbSession_allOrNothing ((obeys_raise _).mpr trivial) inputs sh
  | some c => exact getDbSession_allOrNothing (h c) inputs sh

/-- The code of a route with several writes. -/
theorem endpoint_allOrNothing (h : req.route.multiWrite = true) :
    let r := ((endpoint P req).eval (journaled P) (Solo.init inputs sh, {})).2
    AllOrNothing sh.db r.1.shared.db r.2 := by
  unfold endpoint
  cases hroute : req.route
  all_goals first
    | (exfalso; simp [hroute, Route.multiWrite] at h; done)
    | skip
  case apiLogin body =>
    refine withBody_plain fun b => Uses.bind (plain_await trivial) fun _ => ?_
    refine Uses.bind (Uses.tryCatch plain_login fun exc => ?_) fun session =>
      Uses.bind (plain_await trivial) fun _ => uses_pure _
    split <;> simp
  case createToken body =>
    exact withBody_guarded fun u b => obeys_of_plain
      (Uses.bind plain_createApiToken fun _ => uses_pure _) rfl
  case setupAdmin body =>
    refine withBody_plain fun b => Uses.bind plain_requireIncomplete fun _ => ?_
    refine Uses.bind (Uses.tryCatch plain_createAdmin fun exc => ?_) fun user =>
      Uses.bind plain_advance fun _ => uses_pure _
    split <;> simp
  case setupNetwork body =>
    refine withBody_plain fun b => Uses.bind plain_requireIncomplete fun _ => ?_
    exact Uses.bind plain_saveNetwork fun _ => Uses.bind plain_advance fun _ => uses_pure _
  case updateMachine machineId body =>
    refine withBody_guarded fun u b => ?_
    split
    · unfold SqlMachineRepository.getById guardUuid
      rw [obeys_bind]
      split
      · exact (obeys_stmt (.machineGet machineId) rfl fun _ _ hg => obeys_machineOr404 hg).mono
          (fun _ _ h => h) fun _ _ _ => trivial
      · exact (obeys_pure _).mpr (obeys_machineOr404 rfl)
    · rw [obeys_bind]
      exact (obeys_machineUpdate rfl).mono (fun _ _ hg => obeys_machineOr404 hg)
        fun _ _ _ => trivial
  case setupAdminPost form =>
    refine withForm_allOrNothing fun credentials => safe_of_plain (Uses.bind ?_ fun refused => ?_)
    · refine Uses.tryCatch (Uses.bind plain_createAdmin fun _ => uses_pure _) fun exc => ?_
      split <;> simp
    · cases refused with
      | some message => exact uses_pure _
      | none =>
        exact Uses.bind plain_advance fun _ => Uses.bind plain_login fun _ => uses_pure _
  case setupNetworkPost form =>
    exact withForm_allOrNothing fun fields => safe_of_plain
      (Uses.bind plain_saveNetwork fun _ => Uses.bind plain_advance fun _ => uses_pure _)
  case setupSkipMachine =>
    exact getDbSession_allOrNothing (safe_of_plain
      (Uses.bind plain_advance fun _ => Uses.bind plain_advance fun _ => uses_pure _)) inputs sh
  case loginPost form =>
    refine withForm_allOrNothing fun credentials => safe_of_plain (Uses.bind ?_ fun session => ?_)
    · refine Uses.tryCatch (Uses.bind plain_login fun _ => uses_pure _) fun exc => ?_
      split <;> simp
    · cases session <;> exact uses_pure _
  case machineNewPost form =>
    refine withForm_allOrNothing fun fields => safe_webAuth fun hcookie _ => obeys_of_plain ?_ rfl
    refine Uses.bind (plain_getCsrf hcookie) fun csrf => Uses.bind ?_ fun error => ?_
    · exact Uses.tryCatch (Uses.bind plain_machineCreate fun _ => uses_pure _) fun _ => uses_pure _
    · cases error with
      | some error => exact uses_pure _
      | none =>
        dsimp only
        split
        · exact Uses.bind plain_advance fun _ => Uses.bind plain_advance fun _ => uses_pure _
        · exact uses_pure _
  case machineEditPost machineId form =>
    exact withForm_allOrNothing fun fields => safe_machineEditPost
  case settingsPost form =>
    refine withForm_allOrNothing fun fields => safe_webAuth fun hcookie _ => obeys_of_plain ?_ rfl
    refine Uses.bind plain_saveNetwork fun _ => Uses.bind plain_settingsSet fun _ => ?_
    refine Uses.bind plain_settingsSet fun _ => Uses.bind plain_settingsGetAll fun _ => ?_
    exact Uses.bind (plain_getCsrf hcookie) fun _ => uses_pure _

/-- Wherever a statement or the commit of a request with several writes fails, the tables
are the same as before; when nothing fails, all its changes are committed together if its
code returns, and none if it raises. -/
theorem writes_all_or_nothing (P : Platform) (req : Request) (inputs : Nat → Input) (sh : Shared)
    (h : req.route.multiWrite = true) :
    AllOrNothing sh.db (serve P req inputs sh).db (journal P req inputs sh) := by
  -- turning an exception into a response changes neither the tables nor the journal
  have hhandle : ((handle P req).eval (journaled P) (Solo.init inputs sh, {})).2 =
      ((endpoint P req).eval (journaled P) (Solo.init inputs sh, {})).2 := by
    unfold handle respond
    rw [eval_tryCatch]
    split
    · rename_i e x' hrun
      rw [hrun]
      rfl
    · rfl
  have hserve : serve P req inputs sh =
      ((handle P req).eval (journaled P) (Solo.init inputs sh, {})).2.1.shared := by
    unfold serve runSolo
    rw [eval_watch (soloExec P) (Journal.note P) (handle P req) (Solo.init inputs sh, {})]
  rw [hserve, journal, hhandle]
  exact endpoint_allOrNothing h

end Requests

/-- Creating the administrator when the third database call fails. -/
theorem writes_all_or_nothing_sample :
    let req : Request :=
      { route := .setupAdminPost ⟨.value "admin", .value Platform.samplePassword⟩ }
    let inputs : Nat → Input := fun n =>
      { Input.signing 2 n with fault := if n = 3 then some .refused else none }
    AllOrNothing Database.empty (serve Platform.signing req inputs Shared.fresh).db
      (journal Platform.signing req inputs Shared.fresh) :=
  writes_all_or_nothing Platform.signing _ _ Shared.fresh rfl

/-- A new installation with a user, whose wizard has not been opened. -/
def Shared.unopened : Shared :=
  { Shared.fresh with db :=
    { Database.empty with
      users := [⟨Uuid.ofNat 2, "admin", Platform.sampleHash, "admin", some sampleTime⟩] } }

/-- Creating a second administrator gives up the row of the wizard that the request has
inserted, although nothing has failed. -/
theorem raised_writes_given_up :
    ¬ ∀ (req : Request) (inputs : Nat → Input) (sh : Shared), req.route.multiWrite = true →
      let j := journal Platform.sample req inputs sh
      (j.failed = true → (serve Platform.sample req inputs sh).db = sh.db) ∧
        (j.failed = false → (serve Platform.sample req inputs sh).db = sh.db.after j.writes) := by
  intro h
  have hrow := (h { route := .setupAdmin (.typed ⟨"root", Platform.samplePassword⟩) } Input.quiet
    Shared.unopened rfl).2 (by decide +kernel)
  have hsetup := congrArg Database.setupState hrow
  revert hsetup
  decide +kernel

end WolMonkey
