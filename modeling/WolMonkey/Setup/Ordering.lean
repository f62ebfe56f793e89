import WolMonkey.Facts.Accounts
import WolMonkey.Facts.Settings
import WolMonkey.Facts.Wizard

/-!
# The order of the wizard's steps

The steps of the wizard are in order when the finished steps are the first ones, the current
step is the next one, and the wizard is completed when all are finished. `advance` and
`go_back` take their step from the route or from the path and never compare it with the
current step, so the order is kept exactly by submissions of the current step or the one
before it, and by retreats from the current step or a neighbour of it.
-/

namespace WolMonkey

open Programs Program

namespace SetupState

/-- The finished steps are a prefix of the steps, the current step is the first one after it
(the last one when all are finished), and the wizard is completed when all are finished. -/
def OrderedAt (k : Nat) (x : SetupState) : Prop :=
  x.completedSteps.Perm (wizardSteps.take k) ∧
    x.currentStep = (wizardSteps[k]?).getD "complete" ∧
    (x.completed = true ↔ k = wizardSteps.length)

def Ordered (x : SetupState) : Prop := ∃ k ≤ wizardSteps.length, x.OrderedAt k

/-- Submitting the step keeps the order: it is the current step, or the one before it while
the wizard is not completed. -/
def mayAdvance (x : SetupState) (step : String) : Bool :=
  step == x.currentStep || (!x.completed && SetupStateService.nextStep step == x.currentStep)

/-- Going back from the step keeps the order: the step has no predecessor, or it is the
current step, or a neighbour of it while the wizard is not completed. -/
def mayGoBack (x : SetupState) (step : String) : Bool :=
  !(wizardSteps.drop 1).contains step || step == x.currentStep ||
    (!x.completed && (SetupStateService.nextStep step == x.currentStep ||
      step == SetupStateService.nextStep x.currentStep))

/-- Finishing the last two steps at once keeps the order. -/
def maySkip (x : SetupState) : Bool :=
  x.currentStep == "first_machine" || x.currentStep == "complete"

/-! ## The service -/

/-- The row in which the first `k` steps are finished. -/
def finished (k : Nat) : SetupState where
  completed := k == wizardSteps.length
  currentStep := (wizardSteps[k]?).getD "complete"
  completedSteps := wizardSteps.take k

/-- Two rows with the same flag, the same step and the same finished steps. -/
structure Like (x y : SetupState) : Prop where
  completed : x.completed = y.completed
  currentStep : x.currentStep = y.currentStep
  completedSteps : x.completedSteps.Perm y.completedSteps

theorem orderedAt_iff {k : Nat} {x : SetupState} : x.OrderedAt k ↔ x.Like (finished k) := by
  constructor
  · rintro ⟨hsteps, hstep, hcompleted⟩
    refine ⟨?_, hstep, hsteps⟩
    rw [Bool.eq_iff_iff, hcompleted]
    exact beq_iff_eq.symm
  · rintro ⟨hcompleted, hstep, hsteps⟩
    refine ⟨hsteps, hstep, ?_⟩
    rw [hcompleted]
    exact beq_iff_eq

theorem Like.ordered {x y : SetupState} (h : x.Like y) (hy : y.Ordered) : x.Ordered := by
  obtain ⟨k, hk, hsteps, hstep, hcompleted⟩ := hy
  refine ⟨k, hk, h.completedSteps.trans hsteps, h.currentStep.trans hstep, ?_⟩
  rw [h.completed]
  exact hcompleted

theorem Like.advanced {x y : SetupState} (h : x.Like y) (step : String) :
    (x.advanced step).Like (y.advanced step) := by
  refine ⟨rfl, rfl, ?_⟩
  simp only [SetupState.advanced, SetupStateService.markStep]
  have hcontains : x.completedSteps.contains step = y.completedSteps.contains step := by
    rw [Bool.eq_iff_iff, List.contains_iff_mem, List.contains_iff_mem]
    exact h.completedSteps.mem_iff
  rw [hcontains]
  split
  · exact h.completedSteps
  · exact h.completedSteps.append_right _

theorem Like.retreated {x y : SetupState} (h : x.Like y) (step : String) :
    (x.retreated step).Like (y.retreated step) := by
  unfold SetupState.retreated
  split
  · exact ⟨rfl, rfl, (h.completedSteps.erase _).erase _⟩
  · exact h

instance (k : Nat) (x : SetupState) : Decidable (x.OrderedAt k) := inferInstanceAs (Decidable (_ ∧ _))

instance (x : SetupState) : Decidable x.Ordered := inferInstanceAs (Decidable (∃ k ≤ _, _))

/-- Each submission of a step, from each row in order. -/
theorem ordered_finished_advanced : ∀ k ≤ wizardSteps.length, ∀ step ∈ wizardSteps,
    ((finished k).advanced step).Ordered ↔ (finished k).mayAdvance step = true := by
  decide

theorem ordered_finished_retreated : ∀ k ≤ wizardSteps.length, ∀ step ∈ wizardSteps.drop 1,
    ((finished k).retreated step).Ordered ↔ (finished k).mayGoBack step = true := by
  decide

theorem ordered_finished_skipped : ∀ k ≤ wizardSteps.length,
    (((finished k).advanced "first_machine").advanced "complete").Ordered ↔
      (finished k).maySkip = true := by
  decide

section Moves
variable {x : SetupState} {step : String}

theorem Ordered.like (h : x.Ordered) : ∃ k ≤ wizardSteps.length, x.Like (finished k) := by
  obtain ⟨k, hk, hx⟩ := h
  exact ⟨k, hk, orderedAt_iff.mp hx⟩

theorem Ordered.advanced (h : x.Ordered) (hmem : step ∈ wizardSteps)
    (hturn : x.mayAdvance step = true) : (x.advanced step).Ordered := by
  obtain ⟨k, hk, hlike⟩ := h.like
  refine (hlike.advanced step).ordered ((ordered_finished_advanced k hk step hmem).mpr ?_)
  rwa [mayAdvance, hlike.completed, hlike.currentStep] at hturn

theorem Ordered.retreated (h : x.Ordered) (hturn : x.mayGoBack step = true) :
    (x.retreated step).Ordered := by
  obtain ⟨k, hk, hlike⟩ := h.like
  by_cases hmem : step ∈ wizardSteps.drop 1
  · refine (hlike.retreated step).ordered ((ordered_finished_retreated k hk step hmem).mpr ?_)
    rwa [mayGoBack, hlike.completed, hlike.currentStep] at hturn
  · rw [retreated_eq_self (by simpa using hmem)]
    exact h

theorem Ordered.skipped (h : x.Ordered) (hturn : x.maySkip = true) :
    ((x.advanced "first_machine").advanced "complete").Ordered := by
  obtain ⟨k, hk, hlike⟩ := h.like
  refine ((hlike.advanced _).advanced _).ordered ((ordered_finished_skipped k hk).mpr ?_)
  rwa [maySkip, hlike.currentStep] at hturn

end Moves
end SetupState

/-! ## Requests -/

/-- The body is one that the route accepts. -/
def JsonBody.accepts {α : Type} (valid : α → Bool) : JsonBody α → Bool
  | typed b => valid b
  | _ => false

/-- A request that submits a step, or goes back from one, does it in turn, or is refused: a
JSON route of a completed wizard, an account when there is one already, a body or a form
that does not fit. -/
def OnTurn (db : Database) (req : Request) : Bool :=
  match req.route with
  | .setupWelcomePost => db.setup.mayAdvance "welcome"
  | .setupAdmin body =>
    !body.accepts AdminCreateRequest.valid || db.setup.completed || !db.users.isEmpty ||
      db.setup.mayAdvance "admin_account"
  | .setupAdminPost form =>
    form.read.isNone || !db.users.isEmpty || db.setup.mayAdvance "admin_account"
  | .setupNetwork body =>
    !body.accepts NetworkConfigRequest.valid || db.setup.completed || db.setup.mayAdvance "network"
  | .setupNetworkPost form => form.read.isNone || db.setup.mayAdvance "network"
  | .setupComplete => db.setup.completed || db.setup.mayAdvance "complete"
  | .setupSkipMachine => db.setup.maySkip
  | .machineNewPost form =>
    form.read.isNone || req.fromQuery != some "setup" || db.setup.maySkip
  | .setupBack step => db.setup.mayGoBack step
  | _ => true

/-- The wizard's row exists and is in order. -/
def Database.InOrder (db : Database) : Prop := ∃ x, db.setupState = some x ∧ x.Ordered

section Step
variable {P : Platform} {inputs : Nat → Input} {req : Request} {sh : Shared}

theorem inOrder_withSetup {db : Database} {x : SetupState} (h : x.Ordered) :
    (db.withSetup x).InOrder := ⟨x, rfl, h⟩

theorem setup_of_inOrder {db : Database} (h : db.InOrder) :
    db.setup.Ordered ∧ db.withSetup db.setup = db := by
  obtain ⟨x, hx, hordered⟩ := h
  have hsetup : db.setup = x := by rw [Database.setup, hx, Option.getD_some]
  rw [hsetup]
  exact ⟨hordered, Database.withSetup_eq_self hx⟩

/-- A step that was submitted in turn. -/
theorem inOrder_advance {step : String} {u : Unit} {s s' : Solo} (hmem : step ∈ wizardSteps)
    (hordered : s.view.setup.Ordered) (hturn : s.view.setup.mayAdvance step = true)
    (h : (SetupStateService.advance step).Runs (soloExec P) s u s') : s'.view.InOrder := by
  rw [runs_advance_of_mem hmem h]
  exact inOrder_withSetup (hordered.advanced hmem hturn)

/-- The last two steps, submitted at once. -/
theorem inOrder_skip {u₁ u₂ : Unit} {s s₁ s₂ : Solo} (hordered : s.view.setup.Ordered)
    (hturn : s.view.setup.maySkip = true)
    (hfirst : (SetupStateService.advance "first_machine").Runs (soloExec P) s u₁ s₁)
    (hlast : (SetupStateService.advance "complete").Runs (soloExec P) s₁ u₂ s₂) :
    s₂.view.InOrder := by
  rw [runs_advance_of_mem (by decide) hlast, runs_advance_of_mem (by decide) hfirst]
  exact inOrder_withSetup (hordered.skipped hturn)

/-! ### The routes of the wizard -/

section Routes
variable (h : sh.db.InOrder) (hturn : OnTurn sh.db req = true)
include h hturn

theorem inOrder_setupWelcomePost (hroute : req.route = .setupWelcomePost) :
    (Web.setupWelcomePost.eval (soloExec P) (Solo.init inputs sh)).2.shared.db.InOrder := by
  have huses : (SetupStateService.advance "welcome" >>= fun _ =>
      Pure.pure (redirect "/setup/admin_account")).Uses (Within [.newSetup, .editSetup]) :=
    Uses.bind (uses_advance (by simp) (by simp)) fun _ => uses_pure _
  refine getDbSession_post huses (by simp) h fun a s' hrun => ?_
  obtain ⟨u, s₁, hadvance, hreturn⟩ := runs_bind.mp hrun
  obtain ⟨-, rfl⟩ := runs_pure.mp hreturn
  simp only [OnTurn, hroute] at hturn
  exact inOrder_advance (s := Solo.init inputs sh) (by decide) (setup_of_inOrder h).1 hturn hadvance

theorem inOrder_setupBack {step : String} (hroute : req.route = .setupBack step) :
    ((Web.setupBack step).eval (soloExec P) (Solo.init inputs sh)).2.shared.db.InOrder := by
  have huses : (SetupStateService.goBack step >>= fun prev =>
      Pure.pure (redirect ("/setup/" ++ prev))).Uses (Within [.newSetup, .editSetup]) :=
    Uses.bind (uses_goBack (by simp) (by simp)) fun _ => uses_pure _
  refine getDbSession_post huses (by simp) h fun a s' hrun => ?_
  obtain ⟨prev, s₁, hback, hreturn⟩ := runs_bind.mp hrun
  obtain ⟨-, rfl⟩ := runs_pure.mp hreturn
  simp only [OnTurn, hroute] at hturn
  rw [runs_goBack hback]
  exact inOrder_withSetup ((setup_of_inOrder h).1.retreated hturn)

theorem inOrder_setupSkipMachine (hroute : req.route = .setupSkipMachine) :
    (Web.setupSkipMachine.eval (soloExec P) (Solo.init inputs sh)).2.shared.db.InOrder := by
  have huses : (SetupStateService.advance "first_machine" >>= fun _ =>
      SetupStateService.advance "complete" >>= fun _ =>
      Pure.pure (redirect "/setup/complete")).Uses (Within [.newSetup, .editSetup]) :=
    Uses.bind (uses_advance (by simp) (by simp)) fun _ =>
      Uses.bind (uses_advance (by simp) (by simp)) fun _ => uses_pure _
  refine getDbSession_post huses (by simp) h fun a s' hrun => ?_
  obtain ⟨u₁, s₁, hfirst, hrun⟩ := runs_bind.mp hrun
  obtain ⟨u₂, s₂, hlast, hreturn⟩ := runs_bind.mp hrun
  obtain ⟨-, rfl⟩ := runs_pure.mp hreturn
  simp only [OnTurn, hroute] at hturn
  exact inOrder_skip (s := Solo.init inputs sh) (setup_of_inOrder h).1 hturn hfirst hlast

theorem inOrder_setupComplete (hroute : req.route = .setupComplete) :
    (Api.setupComplete.eval (soloExec P) (Solo.init inputs sh)).2.shared.db.InOrder := by
  have huses : (Api.requireIncomplete >>= fun _ => SetupStateService.advance "complete" >>= fun _ =>
      Pure.pure ({ body := .status "setup_complete" } : Response)).Uses
        (Within [.newSetup, .editSetup]) :=
    Uses.bind (uses_requireIncomplete (by simp)) fun _ =>
      Uses.bind (uses_advance (by simp) (by simp)) fun _ => uses_pure _
  refine getDbSession_post huses (by simp) h fun a s' hrun => ?_
  obtain ⟨u₁, s₁, hguard, hrun⟩ := runs_bind.mp hrun
  obtain ⟨u₂, s₂, hadvance, hreturn⟩ := runs_bind.mp hrun
  obtain ⟨-, rfl⟩ := runs_pure.mp hreturn
  obtain ⟨hincomplete, hview⟩ := runs_requireIncomplete hguard
  rw [Solo.view_init] at hincomplete hview
  simp only [OnTurn, hroute, hincomplete, Bool.false_or] at hturn
  refine inOrder_advance (by decide) ?_ ?_ hadvance
  · rw [hview]
    exact (setup_of_inOrder h).1
  · rw [hview]
    exact hturn

theorem inOrder_setupAdmin {body : JsonBody AdminCreateRequest}
    (hroute : req.route = .setupAdmin body) :
    ((Api.setupAdmin body).eval (soloExec P) (Solo.init inputs sh)).2.shared.db.InOrder := by
  refine withBody_post [.newUser, .newSetup, .editSetup] (uses_pure ()) (fun _ b => ?_)
    (by simp) h fun d s₁ b c a s' hdeps hbody hvalid hrun => ?_
  · refine Uses.bind (uses_requireIncomplete (by simp)) fun _ =>
      Uses.bind (Uses.tryCatch (uses_createAdmin (by simp)) fun exc => ?_) fun _ =>
      Uses.bind (uses_advance (by simp) (by simp)) fun _ => uses_pure _
    split <;> simp
  · obtain ⟨-, rfl⟩ := runs_pure.mp hdeps
    obtain ⟨hb, rfl⟩ := checked_eq_some.mp hvalid
    subst hbody
    obtain ⟨u₁, s₁, hguard, hrun⟩ := runs_bind.mp hrun
    obtain ⟨user, s₂, hcatch, hrun⟩ := runs_bind.mp hrun
    obtain ⟨u₃, s₃, hadvance, hreturn⟩ := runs_bind.mp hrun
    obtain ⟨-, rfl⟩ := runs_pure.mp hreturn
    obtain ⟨hincomplete, hview⟩ := runs_requireIncomplete hguard
    rcases runs_tryCatch.mp hcatch with hcreate | ⟨e, s₄, -, hraise⟩
    · obtain ⟨husers, -⟩ := runs_createAdmin hcreate
      have hsetup := setup_adds (Runs.adds [.newUser] (uses_createAdmin (by simp))
        (by simp) (by simp) hcreate) (by simp) (by simp)
      rw [hview, Solo.view_init] at hsetup husers
      rw [Solo.view_init] at hincomplete
      have husers' : sh.db.users = [] := husers
      simp only [OnTurn, hroute, JsonBody.accepts, hb, hincomplete, husers', List.isEmpty_nil,
        Bool.not_true, Bool.false_or] at hturn
      rw [Database.setup_withSetup] at hsetup
      refine inOrder_advance (by decide) ?_ ?_ hadvance
      · rw [hsetup]
        exact (setup_of_inOrder h).1
      · rw [hsetup]
        exact hturn
    · split at hraise <;> exact (runs_raise.mp hraise).elim

theorem inOrder_setupNetwork {body : JsonBody NetworkConfigRequest}
    (hroute : req.route = .setupNetwork body) :
    ((Api.setupNetwork body).eval (soloExec P) (Solo.init inputs sh)).2.shared.db.InOrder := by
  refine withBody_post [.newSetting, .editSetting, .newSetup, .editSetup] (uses_pure ())
    (fun _ b => ?_) (by simp) h fun d s₁ b c a s' hdeps hbody hvalid hrun => ?_
  · exact Uses.bind (uses_requireIncomplete (by simp)) fun _ =>
      Uses.bind (uses_saveNetwork (by simp) (by simp)) fun _ =>
      Uses.bind (uses_advance (by simp) (by simp)) fun _ => uses_pure _
  · obtain ⟨-, rfl⟩ := runs_pure.mp hdeps
    obtain ⟨hb, rfl⟩ := checked_eq_some.mp hvalid
    subst hbody
    obtain ⟨u₁, s₁, hguard, hrun⟩ := runs_bind.mp hrun
    obtain ⟨u₂, s₂, hsave, hrun⟩ := runs_bind.mp hrun
    obtain ⟨u₃, s₃, hadvance, hreturn⟩ := runs_bind.mp hrun
    obtain ⟨-, rfl⟩ := runs_pure.mp hreturn
    obtain ⟨hincomplete, hview⟩ := runs_requireIncomplete hguard
    have hsetup := setup_adds (Runs.adds [.newSetting, .editSetting]
      (uses_saveNetwork (by simp) (by simp)) (by simp) (by simp) hsave) (by simp) (by simp)
    rw [hview, Solo.view_init, Database.setup_withSetup] at hsetup
    rw [Solo.view_init] at hincomplete
    simp only [OnTurn, hroute, JsonBody.accepts, hb, hincomplete, Bool.not_true,
      Bool.false_or] at hturn
    refine inOrder_advance (by decide) ?_ ?_ hadvance
    · rw [hsetup]
      exact (setup_of_inOrder h).1
    · rw [hsetup]
      exact hturn

theorem inOrder_setupNetworkPost {form : NetworkForm}
    (hroute : req.route = .setupNetworkPost form) :
    ((Web.setupNetworkPost form).eval (soloExec P) (Solo.init inputs sh)).2.shared.db.InOrder := by
  refine withForm_post [.newSetting, .editSetting, .newSetup, .editSetup] (fun fields => ?_)
    (by simp) h fun c a s' hform hrun => ?_
  · exact Uses.bind (uses_saveNetwork (by simp) (by simp)) fun _ =>
      Uses.bind (uses_advance (by simp) (by simp)) fun _ => uses_pure _
  · obtain ⟨u₂, s₂, hsave, hrun⟩ := runs_bind.mp hrun
    obtain ⟨u₃, s₃, hadvance, hreturn⟩ := runs_bind.mp hrun
    obtain ⟨-, rfl⟩ := runs_pure.mp hreturn
    have hsetup := setup_adds (Runs.adds [.newSetting, .editSetting]
      (uses_saveNetwork (by simp) (by simp)) (by simp) (by simp) hsave) (by simp) (by simp)
    rw [Solo.view_init] at hsetup
    simp only [OnTurn, hroute, hform, Option.isNone_some, Bool.false_or] at hturn
    refine inOrder_advance (by decide) ?_ ?_ hadvance
    · rw [hsetup]
      exact (setup_of_inOrder h).1
    · rw [hsetup]
      exact hturn

theorem inOrder_setupAdminPost {form : CredentialsForm}
    (hroute : req.route = .setupAdminPost form) :
    ((Web.setupAdminPost P req form).eval (soloExec P)
      (Solo.init inputs sh)).2.shared.db.InOrder := by
  refine withForm_post
    [.newUser, .newSetup, .editSetup, .lastLogin, .passwordHash, .newSession]
    (fun credentials => Uses.bind ?_ fun refused => ?_) (by simp) h fun c a s' hform hrun => ?_
  · refine Uses.tryCatch (Uses.bind (uses_createAdmin (by simp)) fun _ => uses_pure _)
      fun exc => ?_
    split <;> simp
  · cases refused with
    | some message => exact uses_pure _
    | none =>
      exact Uses.bind (uses_advance (by simp) (by simp)) fun _ =>
        Uses.bind (uses_login (by simp) (by simp) (by simp)) fun _ => uses_pure _
  · obtain ⟨refused, s₁, hcreate, hrun⟩ := runs_bind.mp hrun
    rcases runs_tryCatch.mp hcreate with hcreate | ⟨e, s₂, hraised, hcatch⟩
    · obtain ⟨user, s₂, hcreated, hreturn⟩ := runs_bind.mp hcreate
      obtain ⟨rfl, rfl⟩ := runs_pure.mp hreturn
      obtain ⟨husers, -⟩ := runs_createAdmin hcreated
      have hsetup := setup_adds (Runs.adds [.newUser] (uses_createAdmin (by simp))
        (by simp) (by simp) hcreated) (by simp) (by simp)
      obtain ⟨u, s₃, hadvance, hrun⟩ := runs_bind.mp hrun
      obtain ⟨session, s₄, hlogin, hreturn⟩ := runs_bind.mp hrun
      obtain ⟨-, rfl⟩ := runs_pure.mp hreturn
      rw [Solo.view_init] at hsetup husers
      simp only [OnTurn, hroute, hform, husers, Option.isNone_some, List.isEmpty_nil,
        Bool.not_true, Bool.false_or] at hturn
      have hordered : s₃.view.InOrder := by
        refine inOrder_advance (by decide) ?_ ?_ hadvance
        · rw [hsetup]
          exact (setup_of_inOrder h).1
        · rw [hsetup]
          exact hturn
      -- the login that follows leaves the row alone
      have hsame := (Runs.adds [.lastLogin, .passwordHash, .newSession]
        (uses_login (by simp) (by simp) (by simp)) (by simp) (by simp) hlogin).keeps
        (untouched_setupState (by simp) (by simp))
      obtain ⟨x, hx, hxordered⟩ := hordered
      exact ⟨x, hsame.trans hx, hxordered⟩
    · split at hcatch
      · obtain ⟨rfl, rfl⟩ := runs_pure.mp hcatch
        obtain ⟨-, rfl⟩ := runs_pure.mp hrun
        rcases eval_bind_raised.mp hraised with hraised | ⟨user, s₃, -, hraised⟩
        · rw [(createAdmin_refused hraised).view]
          exact h
        · cases hraised
      · exact (runs_raise.mp hcatch).elim

theorem inOrder_machineNewPost {form : MachineForm} (hroute : req.route = .machineNewPost form) :
    ((Web.machineNewPost req form).eval (soloExec P)
      (Solo.init inputs sh)).2.shared.db.InOrder := by
  refine withForm_post [.newMachine, .newSetup, .editSetup] (fun fields =>
    uses_withWebAuth fun _ => ?_) (by simp) h fun fields a s' hform hrun => ?_
  · refine Uses.bind uses_getCsrf fun csrf => Uses.bind (Uses.tryCatch (Uses.bind
      (uses_machineCreate (by simp)) fun _ => uses_pure _) fun _ => uses_pure _) fun error => ?_
    cases error with
    | some error => exact uses_pure _
    | none =>
      dsimp only
      split
      · exact Uses.bind (uses_advance (by simp) (by simp)) fun _ =>
          Uses.bind (uses_advance (by simp) (by simp)) fun _ => uses_pure _
      · exact uses_pure _
  · have keeps : ∀ {α : Type} {p : Code α} {b : α} {s s' : Solo}, p.Uses (Within [.newMachine]) →
        p.Runs (soloExec P) s b s' → s'.view.setupState = s.view.setupState := by
      intro α p b s s' hp hrun
      exact (Runs.adds _ hp (by simp) (by simp) hrun).keeps
        (untouched_setupState (by simp) (by simp))
    obtain ⟨found, s₁, hauth, hrun⟩ := runs_bind.mp hrun
    have hstart := keeps uses_requireWebAuth hauth
    cases found with
    | none =>
      obtain ⟨-, rfl⟩ := runs_pure.mp hrun
      obtain ⟨x, hx, hxordered⟩ := h
      exact ⟨x, hstart.trans hx, hxordered⟩
    | some user =>
      obtain ⟨csrf, s₂, hcsrf, hrun⟩ := runs_bind.mp hrun
      obtain ⟨error, s₃, hcreate, hrun⟩ := runs_bind.mp hrun
      have hcreated : s₃.view.setupState = sh.db.setupState := by
        refine (keeps ?_ hcreate).trans ((keeps uses_getCsrf hcsrf).trans hstart)
        exact Uses.tryCatch (Uses.bind (uses_machineCreate (by simp)) fun _ => uses_pure _)
          fun _ => uses_pure _
      obtain ⟨x, hx, hxordered⟩ := h
      cases error with
      | some error =>
        obtain ⟨-, rfl⟩ := runs_pure.mp hrun
        exact ⟨x, hcreated.trans hx, hxordered⟩
      | none =>
        dsimp only at hrun
        split at hrun
        · rename_i hsetup
          have hsame : s₃.view.setup = x := by rw [Database.setup, hcreated, hx, Option.getD_some]
          have hsh : sh.db.setup = x := by rw [Database.setup, hx, Option.getD_some]
          obtain ⟨u₁, s₄, hfirst, hrun⟩ := runs_bind.mp hrun
          obtain ⟨u₂, s₅, hlast, hreturn⟩ := runs_bind.mp hrun
          obtain ⟨-, rfl⟩ := runs_pure.mp hreturn
          simp only [OnTurn, hroute, hform, hsetup, hsh, Option.isNone_some, bne_self_eq_false,
            Bool.false_or] at hturn
          refine inOrder_skip ?_ ?_ hfirst hlast
          · rw [hsame]
            exact hxordered
          · rw [hsame]
            exact hturn
        · obtain ⟨-, rfl⟩ := runs_pure.mp hrun
          exact ⟨x, hcreated.trans hx, hxordered⟩

end Routes

/-- One request in turn keeps the wizard in order. -/
theorem serve_inOrder (h : sh.db.InOrder) (hturn : OnTurn sh.db req = true) :
    (serve P req inputs sh).db.InOrder := by
  by_cases hquiet : .newSetup ∉ req.route.effects ∧ .editSetup ∉ req.route.effects
  · obtain ⟨x, hx, hordered⟩ := h
    exact ⟨x, ((serve_reaches req inputs sh).keeps
      (untouched_setupState hquiet.1 hquiet.2)).trans hx, hordered⟩
  by_cases hidle : ∀ e ∈ req.route.effects, e ∈ [.newSetup, .commit, .reset]
  · have hsome : sh.db.setupState.isSome = true := by
      obtain ⟨x, hx, -⟩ := h
      rw [hx]
      rfl
    rw [serve_idle hidle hsome]
    exact h
  rw [serve_eq, endpoint]
  cases hroute : req.route
  all_goals first
    | (exfalso; simp [hroute, Route.effects] at hquiet; done)
    | (exfalso; simp [hroute, Route.effects] at hidle; done)
    | skip
  case setupAdmin body => exact inOrder_setupAdmin h hturn hroute
  case setupNetwork body => exact inOrder_setupNetwork h hturn hroute
  case setupComplete => exact inOrder_setupComplete h hturn hroute
  case setupWelcomePost => exact inOrder_setupWelcomePost h hturn hroute
  case setupAdminPost form => exact inOrder_setupAdminPost h hturn hroute
  case setupNetworkPost form => exact inOrder_setupNetworkPost h hturn hroute
  case setupBack step => exact inOrder_setupBack h hturn hroute
  case setupSkipMachine => exact inOrder_setupSkipMachine h hturn hroute
  case machineNewPost form => exact inOrder_machineNewPost h hturn hroute

end Step

/-! ## Runs -/

/-- The wizard stays in order from its fresh row on, in every run whose requests submit
their steps in turn. -/
theorem wizard_in_order (P : Platform) (run : List (Request × (Nat → Input))) (sh : Shared)
    (hfresh : sh.db.setupState = some SetupState.initial)
    (hrun : Throughout P (fun sh req _ => OnTurn sh.db req = true) run sh) :
    ∃ x, (serveAll P run sh).db.setupState = some x ∧ x.Ordered := by
  suffices ∀ sh : Shared, sh.db.InOrder →
      Throughout P (fun sh req _ => OnTurn sh.db req = true) run sh →
      (serveAll P run sh).db.InOrder from
    this sh ⟨SetupState.initial, hfresh, by decide⟩ hrun
  clear hrun hfresh
  intro sh h hrun
  induction run generalizing sh with
  | nil => exact h
  | cons step rest ih =>
    obtain ⟨req, inputs⟩ := step
    exact ih _ (serve_inOrder h hrun.1) hrun.2

/-- A new installation whose wizard has been opened. -/
def Shared.opened : Shared :=
  { Shared.fresh with db := { Database.empty with setupState := some SetupState.initial } }

/-- Two steps, one of them twice, and one step back. -/
theorem wizard_in_order_sample :
    let run : List (Request × (Nat → Input)) :=
      [({ route := .setupWelcomePost }, Input.quiet), ({ route := .setupWelcomePost }, Input.quiet),
        ({ route := .setupAdminPost ⟨.value "admin", .value Platform.samplePassword⟩ },
          Input.signing 2),
        ({ route := .setupBack "network" }, Input.quiet)]
    ∃ x, (serveAll Platform.signing run Shared.opened).db.setupState = some x ∧ x.Ordered := by
  intro run
  refine wizard_in_order Platform.signing run Shared.opened rfl ⟨?_, ?_, ?_, ?_, trivial⟩ <;>
    decide +kernel

/-- A single request completes the wizard before any other step is done. -/
theorem wizard_out_of_order :
    ¬ ∀ run : List (Request × (Nat → Input)),
      ∃ x, (serveAll Platform.sample run Shared.opened).db.setupState = some x ∧ x.Ordered := by
  intro h
  obtain ⟨x, hx, hordered⟩ := h [({ route := .setupComplete }, Input.quiet)]
  have hlast : (serveAll Platform.sample [({ route := .setupComplete }, Input.quiet)]
      Shared.opened).db.setupState = some ⟨true, "complete", ["complete"]⟩ := by decide +kernel
  rw [hlast] at hx
  cases hx
  revert hordered
  decide

end WolMonkey
