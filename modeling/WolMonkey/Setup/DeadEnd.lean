import WolMonkey.Facts.Answers
import WolMonkey.Facts.Forms

/-!
# The wizard's pages and their forms

Each page of the wizard has a form for its step and, but for the first page, a Back button.
Going back undoes the bookkeeping of a step, not its effects: the administrator who was
created stays. On the page for the administrator the form is then refused, and this is the
only page on which the wizard can come to a stop. It stops nowhere as long as Back is never
pressed on the page after it.
-/

namespace WolMonkey

open Programs Program

/-- The form of a step's page, sent with values that its controls are meant for: credentials
within the account policy and settings within their bounds, without NUL characters. The form
of the last page before the end skips the first machine. -/
def SubmitsPage (step : String) (req : Request) : Bool :=
  match req.route with
  | .setupWelcomePost => step == "welcome"
  | .setupAdminPost form =>
    step == "admin_account" &&
      form.read.any fun c => AdminCreateRequest.valid ⟨c.1, c.2⟩ && textOk c.1
  | .setupNetworkPost form =>
    step == "network" &&
      form.read.any fun b => b.valid && textOk b.wakeInterface && textOk b.defaultWakeStrategy
  | .setupSkipMachine => step == "first_machine"
  | _ => false

/-- The Back button of a step's page. -/
def PressesBack (step : String) (req : Request) : Bool :=
  match req.route with
  | .setupBack s => s == step && ["admin_account", "network", "first_machine"].contains step
  | _ => false

/-- The request uses a form of the page that the wizard displays, while there is one. -/
def OnPage (db : Database) (req : Request) : Bool :=
  !db.setup.completed &&
    (SubmitsPage db.setup.currentStep req || PressesBack db.setup.currentStep req)

/-- The wizard asks for an administrator, and there is one already. -/
def Database.DeadEnd (db : Database) : Prop :=
  db.setup.currentStep = "admin_account" ∧ db.users ≠ []

/-- The request is accepted, and the wizard is at the next step or completed. -/
def MovesOn (P : Platform) (req : Request) (inputs : Nat → Input) (sh : Shared) : Prop :=
  (∃ r, response P req inputs sh = some r ∧ r.status = 303) ∧
    ((serve P req inputs sh).db.setup.completed = true ∨
      (serve P req inputs sh).db.setup.currentStep =
        SetupStateService.nextStep sh.db.setup.currentStep)

/-! ## What a page does -/

/-- What a form of the displayed page changes. -/
inductive Turn (db db' : Database) (req : Request) : Prop
  /-- A step without an effect on the users is done. -/
  | step (setup : db'.setup = db.setup.advanced db.setup.currentStep) (users : db'.users = db.users)
      (at_step : db.setup.currentStep = "welcome" ∨ db.setup.currentStep = "network")
  /-- The administrator is created. -/
  | account (setup : db'.setup = db.setup.advanced "admin_account") (none : db.users = [])
      (users : db'.users ≠ []) (at_step : db.setup.currentStep = "admin_account")
  /-- The last steps are done. -/
  | finish (setup : db'.setup = (db.setup.advanced "first_machine").advanced "complete")
      (users : db'.users = db.users)
  /-- The step before is the current one again. -/
  | back (setup : db'.setup = db.setup.retreated db.setup.currentStep)
      (users : db'.users = db.users) (route : req.route = .setupBack db.setup.currentStep)
      (at_step : db.setup.currentStep ∈ ["admin_account", "network", "first_machine"])

section Step
variable {P : Platform} {req : Request} {inputs : Nat → Input} {sh : Shared}

variable (P inputs sh) in
/-- The tables after a request in a database session. -/
theorem serve_session (es : List Effect) {body : Code Response}
    (hend : endpoint P req = getDbSession body) (hb : body.Uses (Within es)) (hc : .commit ∉ es) :
    (serve P req inputs sh).db = sh.db ∨
      ∃ r s', body.Runs (soloExec P) (Solo.init inputs sh) r s' ∧
        (serve P req inputs sh).db = s'.view := by
  rw [serve_eq, hend]
  rcases getDbSession_db (P := P) hb hc (Solo.init inputs sh) with h | ⟨r, s', hrun, -, h⟩
  · exact .inl h
  · exact .inr ⟨r, s', hrun, h⟩

/-- A route that is not about accounts keeps the users. -/
theorem serve_users (h : .newUser ∉ req.route.effects ∧ .lastLogin ∉ req.route.effects ∧
    .passwordHash ∉ req.route.effects) : (serve P req inputs sh).db.users = sh.db.users :=
  (serve_reaches req inputs sh).keeps (untouched_users h.1 h.2.1 h.2.2)

theorem turn_welcome (hroute : req.route = .setupWelcomePost)
    (hstep : sh.db.setup.currentStep = "welcome") :
    (serve P req inputs sh).db = sh.db ∨ Turn sh.db (serve P req inputs sh).db req := by
  have husers : (serve P req inputs sh).db.users = sh.db.users :=
    serve_users (by simp [hroute, Route.effects])
  have hend : endpoint P req = getDbSession (SetupStateService.advance "welcome" >>= fun _ =>
      Pure.pure (redirect "/setup/admin_account")) := by rw [endpoint, hroute]; rfl
  rcases serve_session P inputs sh [.newSetup, .editSetup] hend
    (Uses.bind (uses_advance (by simp) (by simp)) fun _ => uses_pure _) (by simp) with
    h | ⟨r, s', hrun, h⟩
  · exact .inl h
  · obtain ⟨u, s₁, hadvance, hreturn⟩ := runs_bind.mp hrun
    obtain ⟨-, rfl⟩ := runs_pure.mp hreturn
    refine .inr (.step ?_ husers (.inl hstep))
    rw [h, runs_advance_of_mem (by decide) hadvance, hstep]
    rfl

theorem turn_network {form : NetworkForm} (hroute : req.route = .setupNetworkPost form)
    (hstep : sh.db.setup.currentStep = "network") :
    (serve P req inputs sh).db = sh.db ∨ Turn sh.db (serve P req inputs sh).db req := by
  have husers : (serve P req inputs sh).db.users = sh.db.users :=
    serve_users (by simp [hroute, Route.effects])
  have hserve : (serve P req inputs sh).db = ((Web.setupNetworkPost form).eval (soloExec P)
      (Solo.init inputs sh)).2.shared.db := by rw [serve_eq, endpoint, hroute]
  have huses : ∀ fields, (Api.saveNetwork fields >>= fun _ => SetupStateService.advance "network" >>=
      fun _ => Pure.pure (redirect "/setup/first_machine")).Uses
        (Within [.newSetting, .editSetting, .newSetup, .editSetup]) := fun fields =>
    Uses.bind (uses_saveNetwork (by simp) (by simp)) fun _ =>
      Uses.bind (uses_advance (by simp) (by simp)) fun _ => uses_pure _
  rcases withForm_db (P := P) _ huses (by simp) (Solo.init inputs sh) with
    h | ⟨fields, r, s', -, hrun, -, h⟩
  · exact .inl (hserve.trans h)
  · obtain ⟨u₁, s₁, hsave, hrun⟩ := runs_bind.mp hrun
    obtain ⟨u₂, s₂, hadvance, hreturn⟩ := runs_bind.mp hrun
    obtain ⟨-, rfl⟩ := runs_pure.mp hreturn
    have hkept := setup_adds (Runs.adds [.newSetting, .editSetting]
      (uses_saveNetwork (by simp) (by simp)) (by simp) (by simp) hsave) (by simp) (by simp)
    have hview : (serve P req inputs sh).db = s₂.view := hserve.trans h
    refine .inr (.step ?_ husers (.inr hstep))
    rw [hview, runs_advance_of_mem (by decide) hadvance, hkept, hstep]
    rfl

theorem turn_skip (hroute : req.route = .setupSkipMachine) :
    (serve P req inputs sh).db = sh.db ∨ Turn sh.db (serve P req inputs sh).db req := by
  have husers : (serve P req inputs sh).db.users = sh.db.users :=
    serve_users (by simp [hroute, Route.effects])
  have hend : endpoint P req = getDbSession (SetupStateService.advance "first_machine" >>= fun _ =>
      SetupStateService.advance "complete" >>= fun _ => Pure.pure (redirect "/setup/complete")) := by
    rw [endpoint, hroute]; rfl
  rcases serve_session P inputs sh [.newSetup, .editSetup] hend
    (Uses.bind (uses_advance (by simp) (by simp)) fun _ =>
      Uses.bind (uses_advance (by simp) (by simp)) fun _ => uses_pure _) (by simp) with
    h | ⟨r, s', hrun, h⟩
  · exact .inl h
  · obtain ⟨u₁, s₁, hfirst, hrun⟩ := runs_bind.mp hrun
    obtain ⟨u₂, s₂, hlast, hreturn⟩ := runs_bind.mp hrun
    obtain ⟨-, rfl⟩ := runs_pure.mp hreturn
    refine .inr (.finish ?_ husers)
    rw [h, runs_advance_of_mem (by decide) hlast, runs_advance_of_mem (by decide) hfirst]
    rfl

theorem turn_back (hroute : req.route = .setupBack sh.db.setup.currentStep)
    (hstep : sh.db.setup.currentStep ∈ ["admin_account", "network", "first_machine"]) :
    (serve P req inputs sh).db = sh.db ∨ Turn sh.db (serve P req inputs sh).db req := by
  have husers : (serve P req inputs sh).db.users = sh.db.users :=
    serve_users (by simp [hroute, Route.effects])
  have hend : endpoint P req = getDbSession (SetupStateService.goBack sh.db.setup.currentStep >>=
      fun prev => Pure.pure (redirect ("/setup/" ++ prev))) := by rw [endpoint, hroute]; rfl
  rcases serve_session P inputs sh [.newSetup, .editSetup] hend
    (Uses.bind (uses_goBack (by simp) (by simp)) fun _ => uses_pure _) (by simp) with
    h | ⟨r, s', hrun, h⟩
  · exact .inl h
  · obtain ⟨prev, s₁, hback, hreturn⟩ := runs_bind.mp hrun
    obtain ⟨-, rfl⟩ := runs_pure.mp hreturn
    refine .inr (.back ?_ husers hroute hstep)
    rw [h, runs_goBack hback]
    rfl

theorem turn_account {form : CredentialsForm} (hroute : req.route = .setupAdminPost form)
    (hstep : sh.db.setup.currentStep = "admin_account") :
    (serve P req inputs sh).db = sh.db ∨ Turn sh.db (serve P req inputs sh).db req := by
  have hserve : (serve P req inputs sh).db = ((Web.setupAdminPost P req form).eval (soloExec P)
      (Solo.init inputs sh)).2.shared.db := by rw [serve_eq, endpoint, hroute]
  rcases setupAdminPost_cases P req inputs sh form with
    h | ⟨username, password, user, s₁, u, s₂, session, s₃, hform, hcreate, hadvance, hlogin, h⟩
  · exact .inl (hserve.trans h)
  · have hnone : sh.db.users = [] := (runs_createAdmin hcreate).1
    obtain ⟨row, -, -, hview₁⟩ := runs_createAdmin_row hcreate
    have hview₂ := runs_advance_of_mem (by decide) hadvance
    have hadds := Runs.adds (P := P) [.lastLogin, .passwordHash, .newSession]
      (uses_login (by simp) (by simp) (by simp)) (by simp) (by simp) hlogin
    refine .inr (.account ?_ hnone ?_ hstep)
    · rw [hserve, h, setup_adds hadds (by simp) (by simp), hview₂, hview₁]
      rfl
    · rw [hserve, h]
      refine hadds.invariant (fun db => db.users ≠ []) (fun w db _ h => users_apply_ne_nil w h) ?_
      rw [hview₂, hview₁]
      exact List.append_ne_nil_of_right_ne_nil _ (List.cons_ne_nil _ _)

variable (P inputs) in
/-- A form of the displayed page changes nothing, or it takes its turn. -/
theorem serve_onPage (hpage : OnPage sh.db req = true) :
    (serve P req inputs sh).db = sh.db ∨ Turn sh.db (serve P req inputs sh).db req := by
  simp only [OnPage, Bool.and_eq_true, Bool.or_eq_true] at hpage
  obtain ⟨-, hpage⟩ := hpage
  cases hroute : req.route with
  | setupWelcomePost =>
    simp only [SubmitsPage, PressesBack, hroute, Bool.false_eq_true, or_false, beq_iff_eq] at hpage
    exact turn_welcome hroute hpage
  | setupAdminPost form =>
    simp only [SubmitsPage, PressesBack, hroute, Bool.false_eq_true, or_false,
      Bool.and_eq_true, beq_iff_eq] at hpage
    exact turn_account hroute hpage.1
  | setupNetworkPost form =>
    simp only [SubmitsPage, PressesBack, hroute, Bool.false_eq_true, or_false,
      Bool.and_eq_true, beq_iff_eq] at hpage
    exact turn_network hroute hpage.1
  | setupSkipMachine => exact turn_skip hroute
  | setupBack step =>
    simp only [SubmitsPage, PressesBack, hroute, Bool.false_eq_true, false_or, Bool.and_eq_true,
      beq_iff_eq, List.contains_iff_mem] at hpage
    obtain ⟨rfl, hstep⟩ := hpage
    exact turn_back hroute hstep
  | _ => simp [SubmitsPage, PressesBack, hroute] at hpage

end Step

/-! ## The states of the wizard -/

/-- The page before, and that the wizard is not completed there. -/
theorem retreated_page {x : SetupState} {step : String}
    (h : step ∈ ["admin_account", "network", "first_machine"]) :
    (x.retreated step).completed = false ∧
      SetupStateService.nextStep (x.retreated step).currentStep = step ∧
      (x.retreated step).currentStep ∈ wizardSteps.take 3 := by
  simp only [List.mem_cons, List.not_mem_nil, or_false] at h
  rcases h with rfl | rfl | rfl
  · exact ⟨rfl, rfl, by show "welcome" ∈ _; decide⟩
  · exact ⟨rfl, rfl, by show "admin_account" ∈ _; decide⟩
  · exact ⟨rfl, rfl, by show "network" ∈ _; decide⟩

/-- Where the forms of the pages lead: the row can be stored, the wizard is at a page unless
it is completed, and past the page for the administrator there is one. -/
structure OnCourse (db : Database) : Prop where
  stored : db.setup.Stored
  page : db.setup.completed = false → db.setup.currentStep ∈ wizardSteps.take 4
  administrator : db.setup.currentStep = "network" ∨ db.setup.currentStep = "first_machine" →
    db.users ≠ []

/-- Before the account step is done there is no user. -/
def BeforeAccount (db : Database) : Prop :=
  db.setup.completed = false →
    db.setup.currentStep = "welcome" ∨ db.setup.currentStep = "admin_account" → db.users = []

section Invariant
variable {db db' : Database} {req : Request}

theorem advanced_currentStep {x : SetupState} {step : String} (h : step ≠ "complete") :
    (x.advanced step).currentStep = SetupStateService.nextStep step := by
  simp [SetupState.advanced, h]

theorem advanced_complete {x : SetupState} : (x.advanced "complete").completed = true ∧
    (x.advanced "complete").currentStep = "complete" := ⟨rfl, rfl⟩

theorem Turn.onCourse (hturn : Turn db db' req) (h : OnCourse db) : OnCourse db' := by
  have hstored := h.stored
  cases hturn with
  | step setup users at_step =>
    rcases at_step with hstep | hstep
    · rw [hstep] at setup
      have hnext : db'.setup.currentStep = "admin_account" := by
        rw [setup, advanced_currentStep (by decide)]
        rfl
      refine ⟨setup ▸ hstored.advanced (by decide), fun _ => ?_, fun hlate => ?_⟩
      · rw [hnext]
        decide
      · rw [hnext] at hlate
        exact absurd hlate (by decide)
    · rw [hstep] at setup
      have hnext : db'.setup.currentStep = "first_machine" := by
        rw [setup, advanced_currentStep (by decide)]
        rfl
      refine ⟨setup ▸ hstored.advanced (by decide), fun _ => ?_, fun _ => ?_⟩
      · rw [hnext]
        decide
      · rw [users]
        exact h.administrator (.inl hstep)
  | account setup none users at_step =>
    refine ⟨setup ▸ hstored.advanced (by decide), fun _ => ?_, fun _ => users⟩
    rw [setup, advanced_currentStep (by decide)]
    decide
  | finish setup users =>
    obtain ⟨hcompleted, hlast⟩ := advanced_complete (x := db.setup.advanced "first_machine")
    refine ⟨setup ▸ (hstored.advanced (by decide)).advanced (by decide), fun hopen => ?_,
      fun hlate => ?_⟩
    · rw [setup, hcompleted] at hopen
      cases hopen
    · rw [setup, hlast] at hlate
      exact absurd hlate (by decide)
  | back setup users route at_step =>
    obtain ⟨-, hnext, hpage⟩ := retreated_page (x := db.setup) at_step
    refine ⟨setup ▸ hstored.retreated _, fun _ => ?_, fun hlate => ?_⟩
    · rw [setup]
      have hearlier : wizardSteps.take 3 ⊆ wizardSteps.take 4 := by decide
      exact hearlier hpage
    · -- only the page before the last one lies behind the page for the administrator
      rw [users]
      rw [setup] at hlate
      rcases hlate with hlate | hlate
      · rw [hlate] at hnext
        exact h.administrator (.inr hnext.symm)
      · rw [hlate] at hpage
        exact absurd hpage (by decide)

/-- Unless Back is pressed on the page after the account step, no user is there before it. -/
theorem Turn.beforeAccount (hturn : Turn db db' req) (hopen : db.setup.completed = false)
    (h : BeforeAccount db) (hreq : req.route ≠ .setupBack "network") : BeforeAccount db' := by
  intro hopen' hearly
  cases hturn with
  | step setup users at_step =>
    rw [users]
    rcases at_step with hstep | hstep
    · exact h hopen (.inl hstep)
    · rw [setup, hstep, advanced_currentStep (by decide)] at hearly
      exact absurd hearly (by decide)
  | account setup none users at_step =>
    rw [setup, advanced_currentStep (by decide)] at hearly
    exact absurd hearly (by decide)
  | finish setup users =>
    rw [setup, advanced_complete.2] at hearly
    exact absurd hearly (by decide)
  | back setup users route at_step =>
    rw [users]
    obtain ⟨-, hnext, -⟩ := retreated_page (x := db.setup) at_step
    rw [setup] at hearly
    rcases hearly with hearly | hearly
    · rw [hearly] at hnext
      exact h hopen (.inr hnext.symm)
    · rw [hearly] at hnext
      rw [← hnext] at route
      exact absurd route hreq

end Invariant

/-! ## Submitting the current page -/

/-- Nothing disturbs the request: no database call fails, Argon2 verifies its own hash of the
password that is sent, and the session that it opens can be stored. -/
structure Served (P : Platform) (req : Request) (inputs : Nat → Input) (db : Database) : Prop where
  fault : ∀ n, (inputs n).fault = none
  argon2 : ∀ form c, req.route = .setupAdminPost form → form.read = some c → ∀ salt,
    textOk (P.argon2Hash salt c.2) = true ∧ P.argon2Verify (P.argon2Hash salt c.2) c.2 = .verified
  session : SessionFits P inputs req.clientHost req.userAgent db

section Forward
variable {P : Platform} {req : Request} {inputs : Nat → Input} {sh : Shared}

theorem movesOn_of_completes (h : (endpoint P req).Completes (soloExec P) (Solo.init inputs sh)
    fun r s' => r.status = 303 ∧ (s'.shared.db.setup.completed = true ∨
      s'.shared.db.setup.currentStep = SetupStateService.nextStep sh.db.setup.currentStep)) :
    MovesOn P req inputs sh := by
  obtain ⟨r, s', hrun, hstatus, hmoved⟩ := h
  obtain ⟨hresponse, hserve⟩ := response_of_runs hrun
  refine ⟨⟨r, hresponse, hstatus⟩, ?_⟩
  rw [hserve]
  exact hmoved

variable (hstored : sh.db.setup.Stored) (hserved : Served P req inputs sh.db)
include hstored hserved

theorem movesOn_welcome (hroute : req.route = .setupWelcomePost)
    (hstep : sh.db.setup.currentStep = "welcome") : MovesOn P req inputs sh := by
  refine movesOn_of_completes ?_
  rw [endpoint, hroute]
  refine completes_session (Q := fun (r : Response) db => r.status = 303 ∧
    (db.setup.completed = true ∨
      db.setup.currentStep = SetupStateService.nextStep sh.db.setup.currentStep)) hserved.fault ?_
  refine (completes_advance hserved.fault (by decide) (Solo.open_init inputs sh) hstored).bind ?_
  rintro u s₁ ⟨h₁, hview⟩
  refine completes_pure ⟨h₁, rfl, .inr ?_⟩
  rw [hview, Database.setup_withSetup, advanced_currentStep (by decide), hstep]

theorem movesOn_network {form : NetworkForm} {fields : NetworkConfigRequest}
    (hroute : req.route = .setupNetworkPost form) (hform : form.read = some fields)
    (hinterface : textOk fields.wakeInterface = true)
    (hstrategy : textOk fields.defaultWakeStrategy = true)
    (hstep : sh.db.setup.currentStep = "network") : MovesOn P req inputs sh := by
  refine movesOn_of_completes ?_
  rw [endpoint, hroute]
  show (Web.setupNetworkPost form).Completes _ _ _
  unfold Web.setupNetworkPost withForm
  rw [hform]
  refine completes_session (Q := fun (r : Response) db => r.status = 303 ∧
    (db.setup.completed = true ∨
      db.setup.currentStep = SetupStateService.nextStep sh.db.setup.currentStep)) hserved.fault ?_
  have hsave := completes_saveNetwork (P := P) hserved.fault hinterface hstrategy
    (Solo.open_init inputs sh)
  have hkeeps : ∀ u s', (Api.saveNetwork fields).Runs (soloExec P) (Solo.init inputs sh) u s' →
      s'.view.setup = sh.db.setup := fun u s' hrun =>
    setup_adds (Runs.adds [.newSetting, .editSetting] (uses_saveNetwork (by simp) (by simp))
      (by simp) (by simp) hrun) (by simp) (by simp)
  refine (hsave.and_runs hkeeps).bind ?_
  rintro u s₁ ⟨h₁, hkept⟩
  refine (completes_advance hserved.fault (by decide) h₁ (by rw [hkept]; exact hstored)).bind ?_
  rintro u s₂ ⟨h₂, hview⟩
  refine completes_pure ⟨h₂, rfl, .inr ?_⟩
  rw [hview, Database.setup_withSetup, advanced_currentStep (by decide), hstep]

theorem movesOn_skip (hroute : req.route = .setupSkipMachine) : MovesOn P req inputs sh := by
  refine movesOn_of_completes ?_
  rw [endpoint, hroute]
  refine completes_session (Q := fun (r : Response) db => r.status = 303 ∧
    (db.setup.completed = true ∨
      db.setup.currentStep = SetupStateService.nextStep sh.db.setup.currentStep)) hserved.fault ?_
  refine (completes_advance hserved.fault (by decide) (Solo.open_init inputs sh) hstored).bind ?_
  rintro u s₁ ⟨h₁, hview₁⟩
  have hstored₁ : s₁.view.setup.Stored := by
    rw [hview₁]
    exact hstored.advanced (by decide)
  refine (completes_advance hserved.fault (by decide) h₁ hstored₁).bind ?_
  rintro u s₂ ⟨h₂, hview₂⟩
  refine completes_pure ⟨h₂, rfl, .inl ?_⟩
  rw [hview₂]
  rfl

theorem movesOn_account {form : CredentialsForm} {c : String × String}
    (hroute : req.route = .setupAdminPost form) (hform : form.read = some c)
    (hvalid : AdminCreateRequest.valid ⟨c.1, c.2⟩ = true) (htext : textOk c.1 = true)
    (hstep : sh.db.setup.currentStep = "admin_account") (hnone : sh.db.users = []) :
    MovesOn P req inputs sh := by
  have hlength : c.1.toList.length ≤ 150 := by
    simp only [AdminCreateRequest.valid, lengthIn, Bool.and_eq_true, decide_eq_true_eq] at hvalid
    exact hvalid.1.2
  have hargon := hserved.argon2 form c hroute hform
  refine movesOn_of_completes ?_
  rw [endpoint, hroute]
  refine (completes_setupAdminPost hserved.fault hform hnone
    ⟨varchar_eq_self hlength htext, htext, fun salt => (hargon salt).1,
      fun salt => (hargon salt).2, hserved.session⟩ hstored).mono ?_
  rintro r s' ⟨hstatus, -, hsetup⟩
  refine ⟨hstatus, .inr ?_⟩
  rw [hsetup, advanced_currentStep (by decide), hstep]

omit hstored hserved in
/-- With a user the form for the administrator changes nothing. -/
theorem serve_account_refused {form : CredentialsForm} (hroute : req.route = .setupAdminPost form)
    (husers : sh.db.users ≠ []) : (serve P req inputs sh).db = sh.db := by
  rw [serve_eq, endpoint, hroute]
  rcases setupAdminPost_cases P req inputs sh form with
    h | ⟨username, password, user, s₁, -, -, -, -, -, hcreate, -⟩
  · exact h
  · exact absurd (runs_createAdmin hcreate).1 husers

/-- The current page can be submitted exactly when it is not the dead end. -/
theorem movesOn_iff (hopen : sh.db.setup.completed = false)
    (hsubmit : SubmitsPage sh.db.setup.currentStep req = true) :
    MovesOn P req inputs sh ↔ ¬ sh.db.DeadEnd := by
  constructor
  · rintro ⟨-, hmoved⟩ ⟨hstep, husers⟩
    cases hroute : req.route with
    | setupAdminPost form =>
      rw [serve_account_refused hroute husers, hopen, hstep] at hmoved
      exact absurd hmoved (by decide)
    | _ => simp [SubmitsPage, hroute, hstep] at hsubmit
  · intro hlive
    cases hroute : req.route with
    | setupWelcomePost =>
      simp only [SubmitsPage, hroute, beq_iff_eq] at hsubmit
      exact movesOn_welcome hstored hserved hroute hsubmit
    | setupAdminPost form =>
      simp only [SubmitsPage, hroute, Bool.and_eq_true, beq_iff_eq, Option.any_eq_true] at hsubmit
      obtain ⟨hstep, c, hform, hvalid, htext⟩ := hsubmit
      have hnone : sh.db.users = [] := by
        by_contra husers
        exact hlive ⟨hstep, husers⟩
      exact movesOn_account hstored hserved hroute hform hvalid htext hstep hnone
    | setupNetworkPost form =>
      simp only [SubmitsPage, hroute, Bool.and_eq_true, beq_iff_eq, Option.any_eq_true] at hsubmit
      obtain ⟨hstep, fields, hform, ⟨-, hinterface⟩, hstrategy⟩ := hsubmit
      exact movesOn_network hstored hserved hroute hform hinterface hstrategy hstep
    | setupSkipMachine => exact movesOn_skip hstored hserved hroute
    | _ => simp [SubmitsPage, hroute] at hsubmit

end Forward

/-! ## Runs -/

/-- The forms of the displayed pages stay on course. -/
theorem onCourse_run (P : Platform) (run : List (Request × (Nat → Input))) {sh : Shared}
    (h : OnCourse sh.db) (hrun : Throughout P (fun sh req _ => OnPage sh.db req = true) run sh) :
    OnCourse (serveAll P run sh).db := by
  induction run generalizing sh with
  | nil => exact h
  | cons step rest ih =>
    obtain ⟨req, inputs⟩ := step
    refine ih ?_ hrun.2
    rcases serve_onPage P inputs hrun.1 with hsame | hturn
    · rw [hsame]
      exact h
    · exact hturn.onCourse h

/-- Without Back on the page after it, the account step is not submitted twice. -/
theorem beforeAccount_run (P : Platform) (run : List (Request × (Nat → Input))) {sh : Shared}
    (h : BeforeAccount sh.db)
    (hrun : Throughout P (fun sh req _ => OnPage sh.db req = true) run sh)
    (hback : ∀ step ∈ run, step.1.route ≠ .setupBack "network") :
    BeforeAccount (serveAll P run sh).db := by
  induction run generalizing sh with
  | nil => exact h
  | cons step rest ih =>
    obtain ⟨req, inputs⟩ := step
    refine ih ?_ hrun.2 fun step hstep => hback step (List.mem_cons_of_mem _ hstep)
    have hopen : sh.db.setup.completed = false := by
      have hpage := hrun.1
      simp only [OnPage, Bool.and_eq_true, Bool.not_eq_true'] at hpage
      exact hpage.1
    rcases serve_onPage P inputs hrun.1 with hsame | hturn
    · rw [hsame]
      exact h
    · exact hturn.beforeAccount hopen h (hback _ List.mem_cons_self)

/-- **The wizard's dead end.** In every state that the forms of the displayed pages reach in a
new installation, while the wizard is not completed, the form of the current page moves on,
if nothing disturbs it, exactly when the wizard does not ask for an administrator who exists
already. In a run that does not press Back on the network page it always does. -/
theorem wizard_dead_end (P : Platform) (run : List (Request × (Nat → Input))) (start : Shared)
    (husers : start.db.users = []) (hfresh : start.db.setup = SetupState.initial)
    (hrun : Throughout P (fun sh req _ => OnPage sh.db req = true) run start)
    (hopen : (serveAll P run start).db.setup.completed = false) (req : Request)
    (inputs : Nat → Input)
    (hsubmit : SubmitsPage (serveAll P run start).db.setup.currentStep req = true)
    (hserved : Served P req inputs (serveAll P run start).db) :
    (MovesOn P req inputs (serveAll P run start) ↔ ¬ (serveAll P run start).db.DeadEnd) ∧
    ((∀ step ∈ run, step.1.route ≠ .setupBack "network") →
      MovesOn P req inputs (serveAll P run start)) := by
  have hstart : OnCourse start.db := by
    refine ⟨?_, fun _ => ?_, fun hlate => ?_⟩
    · rw [hfresh]
      rfl
    · rw [hfresh]
      decide
    · rw [hfresh] at hlate
      exact absurd hlate (by decide)
  have hcourse := onCourse_run P run hstart hrun
  have hiff := movesOn_iff hcourse.stored hserved hopen hsubmit
  refine ⟨hiff, fun hback => hiff.mpr ?_⟩
  rintro ⟨hstep, hsome⟩
  have hbefore := beforeAccount_run P run (fun _ _ => husers) hrun hback
  exact hsome (hbefore hopen (.inr hstep))

/-- The first two pages of a new installation. -/
def wizardPages : List (Request × (Nat → Input)) :=
  [({ route := .setupWelcomePost }, Input.quiet),
    ({ route := .setupAdminPost ⟨.value "admin", .value Platform.samplePassword⟩ },
      Input.signing 2)]

/-- The same pages, and back to the second one. -/
def wizardPagesBack : List (Request × (Nat → Input)) :=
  [({ route := .setupWelcomePost }, Input.quiet),
    ({ route := .setupAdminPost ⟨.value "admin", .value Platform.samplePassword⟩ },
      Input.signing 2),
    ({ route := .setupBack "network" }, Input.quiet)]

/-- The tables of an installation that has only got its administrator, with this row of the
wizard. -/
def Database.administered (x : SetupState) : Database :=
  { Database.empty with
    users := Database.installed.users, sessions := Database.installed.sessions
    setupState := some x }

theorem serveAll_wizardPages :
    (serveAll Platform.sample wizardPages Shared.fresh).db =
      Database.administered ⟨false, "network", ["welcome", "admin_account"]⟩ := by
  decide +kernel

theorem serveAll_wizardPagesBack :
    (serveAll Platform.sample wizardPagesBack Shared.fresh).db =
      Database.administered ⟨false, "admin_account", ["welcome"]⟩ := by
  decide +kernel

/-- After the account step the network page moves on. -/
theorem wizard_dead_end_sample :
    MovesOn Platform.sample { route := .setupNetworkPost {} } (Input.signing 3)
      (serveAll Platform.sample wizardPages Shared.fresh) := by
  have hpages : Throughout Platform.sample (fun sh req _ => OnPage sh.db req = true) wizardPages
      Shared.fresh := ⟨by decide +kernel, by decide +kernel, trivial⟩
  refine (wizard_dead_end Platform.sample wizardPages Shared.fresh rfl rfl hpages ?_
    { route := .setupNetworkPost {} } (Input.signing 3) ?_ ⟨fun _ => rfl, ?_, ?_⟩).2 (by decide)
  · rw [serveAll_wizardPages]
    rfl
  · rw [serveAll_wizardPages]
    decide
  · intro form c hroute
    cases hroute
  · rw [serveAll_wizardPages]
    exact sessionFits_signing rfl

/-- Back on the network page, and the form for the administrator is refused. -/
theorem wizard_stops :
    ¬ ∀ (run : List (Request × (Nat → Input))),
      Throughout Platform.sample (fun sh req _ => OnPage sh.db req = true) run Shared.fresh →
      (serveAll Platform.sample run Shared.fresh).db.setup.completed = false →
      ∀ (req : Request) (inputs : Nat → Input),
        SubmitsPage (serveAll Platform.sample run Shared.fresh).db.setup.currentStep req = true →
        Served Platform.sample req inputs (serveAll Platform.sample run Shared.fresh).db →
        MovesOn Platform.sample req inputs (serveAll Platform.sample run Shared.fresh) := by
  intro h
  have hnetwork : OnPage (serveAll Platform.sample wizardPages Shared.fresh).db
      { route := .setupBack "network" } = true := by
    rw [serveAll_wizardPages]
    decide
  have hpages : Throughout Platform.sample (fun sh req _ => OnPage sh.db req = true)
      wizardPagesBack Shared.fresh := ⟨by decide +kernel, by decide +kernel, hnetwork, trivial⟩
  have husers : (serveAll Platform.sample wizardPagesBack Shared.fresh).db.users ≠ [] := by
    rw [serveAll_wizardPagesBack]
    exact List.cons_ne_nil _ _
  have hserved : Served Platform.sample
      { route := .setupAdminPost ⟨.value "admin", .value Platform.samplePassword⟩ }
      (Input.signing 3) (serveAll Platform.sample wizardPagesBack Shared.fresh).db := by
    refine ⟨fun _ => rfl, ?_, ?_⟩
    · rintro form c hroute hform salt
      cases hroute
      cases hform
      show textOk Platform.sampleHash = true ∧
        Platform.sample.argon2Verify Platform.sampleHash Platform.samplePassword = .verified
      decide
    · rw [serveAll_wizardPagesBack]
      exact sessionFits_signing rfl
  obtain ⟨-, hmoved⟩ := h wizardPagesBack hpages (by rw [serveAll_wizardPagesBack]; rfl) _
    (Input.signing 3) (by rw [serveAll_wizardPagesBack]; decide) hserved
  rw [serve_account_refused rfl husers, serveAll_wizardPagesBack] at hmoved
  exact absurd hmoved (by decide)

end WolMonkey
