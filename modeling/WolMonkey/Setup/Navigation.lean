import WolMonkey.Facts.Answers
import WolMonkey.Facts.Forms

/-!
# Finding the way through the wizard

`setup_page` looks up the stored step in `WIZARD_STEPS` without a guard, and the pages redirect
to the stored step. Every step that is ever stored is a step of the wizard: the services store
successors and predecessors of such steps, although the step to go back from stands in the path
of the request. So the pages never raise, and the redirects end at a page.
-/

namespace WolMonkey

open Programs Program

/-! ## The stored step -/

/-- The change leaves a step of the wizard in the row. -/
def Write.OnWizard : Write → Prop
  | .insertSetup x => x.currentStep ∈ wizardSteps
  | .updateSetup c => ∀ step, c.currentStep = some step → step ∈ wizardSteps
  | _ => True

theorem Write.OnWizard.apply {w : Write} (hw : w.OnWizard) {db : Database}
    (h : db.setup.currentStep ∈ wizardSteps) : (w.apply db).setup.currentStep ∈ wizardSteps := by
  cases w with
  | insertSetup x => exact hw
  | updateSetup c =>
    unfold Database.setup Write.apply at *
    cases hsetup : db.setupState with
    | none =>
      rw [hsetup] at h
      exact h
    | some x =>
      rw [hsetup] at h
      simp only [Option.map_some, Option.getD_some, SetupState.set] at h ⊢
      cases hstep : c.currentStep with
      | none => exact h
      | some step => exact hw step hstep
  | _ => exact h

theorem nextStep_mem : ∀ step ∈ wizardSteps, SetupStateService.nextStep step ∈ wizardSteps := by
  decide

section OnWizard
variable {P : Platform} {α : Type}

/-- Code that does not write the row. -/
theorem uses_onWizard (es : List Effect) {p : Code α} (hp : p.Uses (Within es))
    (hnew : .newSetup ∉ es) (hedit : .editSetup ∉ es) : p.Uses (MakesOn P Write.OnWizard) := by
  refine hp.mono fun op hop => makesOn_of_within (fun w hw => ?_) hop
  cases w with
  | insertSetup x => exact absurd hw hnew
  | updateSetup c => exact absurd hw hedit
  | _ => trivial

theorem sessions_onWizard : Sessions (MakesOn P Write.OnWizard) :=
  fun _ => ⟨trivial, trivial, trivial⟩

theorem onWizard_setupInsert {x : SetupState} (hx : x.currentStep ∈ wizardSteps) :
    (execute .main (.setupInsert x)).Uses (MakesOn P Write.OnWizard) := by
  refine (uses_perform _).mpr fun inp locked db r hr w hw => ?_
  simp only [Stmt.run, bind_eq_ok, pure_eq_ok] at hr
  obtain ⟨-, -, rfl⟩ := hr
  rw [List.mem_singleton.mp hw]
  exact hx

theorem onWizard_setupUpdate {loaded : SetupState} {c : SetupColumns}
    (hc : ∀ step, c.currentStep = some step → step ∈ wizardSteps) :
    (execute .main (.setupUpdate loaded c)).Uses (MakesOn P Write.OnWizard) := by
  refine (uses_perform _).mpr fun inp locked db r hr w hw => ?_
  simp only [Stmt.run] at hr
  split at hr
  · rw [pure_eq_ok] at hr
    subst hr
    exact (List.not_mem_nil hw).elim
  · simp only [bind_eq_ok, accepted_eq_ok, pure_eq_ok] at hr
    obtain ⟨stored, hstored, -, -, rfl⟩ := hr
    rw [List.mem_singleton.mp hw]
    -- the column holds a step of the wizard as it is
    intro step hstep
    have hfits : (c.changedFrom loaded).currentStep.all storableStep = true := by
      refine changed_all ?_
      cases hcurrent : c.currentStep with
      | none => rfl
      | some step' => exact (storableStep_of_mem (hc step' hcurrent)).1
    rw [nullable_eq_self hfits] at hstored
    obtain rfl := Option.some.inj hstored
    have hsame : c.currentStep = some step := by
      simp only [SetupColumns.changedFrom, changed] at hstep
      cases hcurrent : c.currentStep with
      | none =>
        rw [hcurrent] at hstep
        cases hstep
      | some step' =>
        rw [hcurrent] at hstep
        dsimp only at hstep
        split at hstep
        · cases hstep
        · exact hstep
    exact hc step hsame

theorem onWizard_read {st : Stmt} (h : st.effect = none) :
    (execute .main st).Uses (MakesOn P Write.OnWizard) :=
  uses_onWizard [] (uses_read h) (by simp) (by simp)

theorem onWizard_get : SqlSetupStateRepository.get.Uses (MakesOn P Write.OnWizard) := by
  refine Uses.bind (onWizard_read rfl) fun found => ?_
  cases found with
  | some model => exact uses_pure _
  | none => exact Uses.bind (onWizard_setupInsert (by decide)) fun _ => onWizard_read rfl

theorem onWizard_update {c : SetupColumns}
    (hc : ∀ step, c.currentStep = some step → step ∈ wizardSteps) :
    (SqlSetupStateRepository.update c).Uses (MakesOn P Write.OnWizard) := by
  refine Uses.bind (onWizard_read rfl) fun found => Uses.bind ?_ fun _ => onWizard_read rfl
  cases found with
  | some model => exact onWizard_setupUpdate hc
  | none =>
    refine onWizard_setupInsert ?_
    show c.currentStep.getD SetupState.initial.currentStep ∈ wizardSteps
    cases hcurrent : c.currentStep with
    | none => decide
    | some step => exact hc step hcurrent

theorem onWizard_isComplete : SetupStateService.isComplete.Uses (MakesOn P Write.OnWizard) :=
  Uses.bind onWizard_get fun _ => uses_pure _

theorem onWizard_requireIncomplete : Api.requireIncomplete.Uses (MakesOn P Write.OnWizard) := by
  refine Uses.bind onWizard_isComplete fun complete => ?_
  split <;> simp

/-- Advancing from a step of the wizard. -/
theorem onWizard_advance {step : String} (hstep : step ∈ wizardSteps) :
    (SetupStateService.advance step).Uses (MakesOn P Write.OnWizard) := by
  refine Uses.bind onWizard_get fun record => ?_
  dsimp only
  split
  · refine Uses.bind (onWizard_update fun stored h => ?_) fun _ => uses_pure _
    rwa [← Option.some.inj h]
  · refine Uses.bind (onWizard_update fun stored h => ?_) fun _ => uses_pure _
    rw [← Option.some.inj h]
    exact nextStep_mem step hstep

/-- Going back, whatever step the path names. -/
theorem onWizard_goBack {step : String} :
    (SetupStateService.goBack step).Uses (MakesOn P Write.OnWizard) := by
  refine Uses.bind onWizard_get fun record => ?_
  split
  · exact uses_pure _
  · exact uses_pure _
  · rename_i idx hidx
    refine Uses.bind (onWizard_update fun stored h => ?_) fun _ => uses_pure _
    have hlt : idx + 1 < wizardSteps.length := (List.idxOf?_eq_some_iff.mp hidx).1
    have hprev : (wizardSteps[idx]?).getD step ∈ wizardSteps := by
      rw [List.getElem?_eq_getElem (Nat.lt_of_succ_lt hlt)]
      exact List.getElem_mem _
    rwa [← Option.some.inj h]

/-- No route stores anything but steps of the wizard. -/
theorem endpoint_onWizard {req : Request} : (endpoint P req).Uses (MakesOn P Write.OnWizard) := by
  by_cases hquiet : .newSetup ∉ req.route.effects ∧ .editSetup ∉ req.route.effects
  · exact uses_onWizard _ endpoint_within hquiet.1 hquiet.2
  have hcreate : ∀ username password, (AuthService.createAdmin username password).Uses
      (MakesOn P Write.OnWizard) := fun _ _ =>
    uses_onWizard [.newUser] (uses_createAdmin (by simp)) (by simp) (by simp)
  have hsave : ∀ body, (Api.saveNetwork body).Uses (MakesOn P Write.OnWizard) := fun _ =>
    uses_onWizard [.newSetting, .editSetting] (uses_saveNetwork (by simp) (by simp)) (by simp)
      (by simp)
  have hfinish : ∀ r : Response, (SetupStateService.advance "first_machine" >>= fun _ =>
      SetupStateService.advance "complete" >>= fun _ => Pure.pure r).Uses
        (MakesOn P Write.OnWizard) := fun _ =>
    Uses.bind (onWizard_advance (by decide)) fun _ =>
      Uses.bind (onWizard_advance (by decide)) fun _ => uses_pure _
  unfold endpoint
  cases hroute : req.route
  all_goals first
    | (exfalso; simp [hroute, Route.effects] at hquiet; done)
    | dsimp only
  case setupStatus =>
    exact uses_getDbSession (Uses.bind onWizard_get fun _ => uses_pure _) sessions_onWizard
  case setupAdmin body =>
    refine uses_withBody_of (uses_pure _) sessions_onWizard fun _ _ body _ _ => ?_
    refine Uses.bind onWizard_requireIncomplete fun _ => Uses.bind ?_ fun user =>
      Uses.bind (onWizard_advance (by decide)) fun _ => uses_pure _
    refine Uses.tryCatch (hcreate _ _) fun exc => ?_
    split <;> simp
  case setupNetwork body =>
    refine uses_withBody_of (uses_pure _) sessions_onWizard fun _ _ body _ _ => ?_
    exact Uses.bind onWizard_requireIncomplete fun _ => Uses.bind (hsave body) fun _ =>
      Uses.bind (onWizard_advance (by decide)) fun _ => uses_pure _
  case setupComplete =>
    exact uses_getDbSession (Uses.bind onWizard_requireIncomplete fun _ =>
      Uses.bind (onWizard_advance (by decide)) fun _ => uses_pure _) sessions_onWizard
  case root =>
    refine uses_getDbSession (Uses.bind onWizard_isComplete fun complete => ?_) sessions_onWizard
    split
    · exact uses_pure _
    · exact Uses.bind onWizard_get fun _ => uses_pure _
  case setupPage step =>
    refine uses_getDbSession (Uses.bind onWizard_isComplete fun complete => ?_) sessions_onWizard
    split
    · exact uses_pure _
    · refine Uses.bind onWizard_get fun state => ?_
      dsimp only
      split
      · exact uses_pure _
      · have hindex : ∀ s, (Web.stepIndex P s).Uses (MakesOn P Write.OnWizard) := by
          intro s
          unfold Web.stepIndex
          split <;> simp
        refine Uses.bind (hindex step) fun wanted => Uses.bind (hindex _) fun current => ?_
        split <;> exact uses_pure _
  case setupWelcomePost =>
    exact uses_getDbSession (Uses.bind (onWizard_advance (by decide)) fun _ => uses_pure _)
      sessions_onWizard
  case setupAdminPost form =>
    refine uses_withForm_of sessions_onWizard fun credentials _ => Uses.bind ?_ fun refused => ?_
    · refine Uses.tryCatch (Uses.bind (hcreate _ _) fun _ => uses_pure _) fun exc => ?_
      split <;> simp
    · cases refused with
      | some message => exact uses_pure _
      | none =>
        refine Uses.bind (onWizard_advance (by decide)) fun _ => Uses.bind ?_ fun _ => uses_pure _
        exact uses_onWizard [.lastLogin, .passwordHash, .newSession]
          (uses_login (by simp) (by simp) (by simp)) (by simp) (by simp)
  case setupNetworkPost form =>
    refine uses_withForm_of sessions_onWizard fun fields _ => Uses.bind (hsave fields) fun _ =>
      Uses.bind (onWizard_advance (by decide)) fun _ => uses_pure _
  case setupBack step =>
    exact uses_getDbSession (Uses.bind onWizard_goBack fun _ => uses_pure _) sessions_onWizard
  case setupSkipMachine => exact uses_getDbSession (hfinish _) sessions_onWizard
  case machineNewPost form =>
    refine uses_withForm_of sessions_onWizard fun fields _ => ?_
    refine Uses.bind (uses_onWizard [] uses_requireWebAuth (by simp) (by simp)) fun found => ?_
    cases found with
    | none => exact uses_pure _
    | some user =>
      refine Uses.bind (uses_onWizard [] uses_getCsrf (by simp) (by simp)) fun csrf =>
        Uses.bind ?_ fun error => ?_
      · refine Uses.tryCatch (Uses.bind ?_ fun _ => uses_pure _) fun _ => uses_pure _
        exact uses_onWizard [.newMachine] (uses_machineCreate (by simp)) (by simp) (by simp)
      · cases error with
        | some error => exact uses_pure _
        | none =>
          dsimp only
          split
          · exact hfinish _
          · exact uses_pure _

end OnWizard

/-- The step that is stored is one of the wizard, in every state that requests reach. -/
theorem serveAll_currentStep (P : Platform) (run : List (Request × (Nat → Input))) (sh : Shared)
    (h : sh.db.setup.currentStep ∈ wizardSteps) :
    (serveAll P run sh).db.setup.currentStep ∈ wizardSteps := by
  induction run generalizing sh with
  | nil => exact h
  | cons step rest ih =>
    obtain ⟨req, inputs⟩ := step
    refine ih _ ?_
    exact (serve_reaches_of_uses endpoint_onWizard inputs sh).invariant
      (fun db => db.setup.currentStep ∈ wizardSteps) (fun w db hw hdb => hw.apply hdb) h

/-! ## The pages -/

/-- A page of the wizard, from the row that it reads. -/
def wizardPage (page : SetupState → Response) : Code Response :=
  getDbSession do
    if ← SetupStateService.isComplete then return redirect "/machines"
    else do
      let state ← SetupStateService.getState
      return page state

/-- The error is one of the database. -/
def PyExc.OfDatabase (e : PyExc) : Prop := ∃ d, e = .database d

/-- What the page of a step answers. -/
def stepPage (step : String) (x : SetupState) : Response :=
  if !wizardSteps.contains step then redirect ("/setup/" ++ x.currentStep)
  else if wizardSteps.idxOf step > wizardSteps.idxOf x.currentStep then
    redirect ("/setup/" ++ x.currentStep)
  else { body := .page (.setupWizard step none none) }

/-- The routes where the wizard is entered: `/`, and `/setup/{step}`. -/
def entryRoute : Option String → Route
  | none => .root
  | some step => .setupPage step

/-- What they answer. -/
def entryPage : Option String → SetupState → Response
  | none => fun x => redirect ("/setup/" ++ x.currentStep)
  | some step => stepPage step

section Pages
variable {P : Platform} {page : SetupState → Response}

theorem eval_stepIndex {step : String} (h : step ∈ wizardSteps) {s : Solo} :
    (Web.stepIndex P step).eval (soloExec P) s = (.value (wizardSteps.idxOf step), s) := by
  have hindex : ∀ step ∈ wizardSteps, wizardSteps.idxOf? step = some (wizardSteps.idxOf step) := by
    decide
  unfold Web.stepIndex
  rw [hindex step h]
  rfl

/-- While the stored step is one of the wizard, the guardless lookup is one. -/
theorem eval_setupPage {step : String} {s : Solo} (h : s.view.setup.currentStep ∈ wizardSteps) :
    (Web.setupPage P step).eval (soloExec P) s =
      (wizardPage (stepPage step)).eval (soloExec P) s := by
  refine getDbSession_congr (eval_bind_congr fun complete s₁ hcomplete => ?_)
  obtain ⟨-, hview₁⟩ := runs_isComplete hcomplete
  cases complete with
  | true => rfl
  | false =>
    refine eval_bind_congr fun x s₂ hget => ?_
    obtain ⟨rfl, -⟩ := runs_get hget
    rw [hview₁, Database.setup_withSetup] at *
    dsimp only
    unfold stepPage
    cases hknown : wizardSteps.contains step with
    | false => rfl
    | true =>
      have hstep := List.contains_iff_mem.mp hknown
      rw [Bool.not_true, if_neg Bool.false_ne_true, if_neg Bool.false_ne_true, eval_bind,
        eval_stepIndex hstep]
      dsimp only
      rw [eval_bind, eval_stepIndex h]
      dsimp only
      split <;> rfl

theorem eval_entry {req : Request} {entry : Option String} (hroute : req.route = entryRoute entry)
    {s : Solo} (h : s.view.setup.currentStep ∈ wizardSteps) :
    (endpoint P req).eval (soloExec P) s = (wizardPage (entryPage entry)).eval (soloExec P) s := by
  unfold endpoint
  rw [hroute]
  cases entry with
  | none => rfl
  | some step => exact eval_setupPage h

/-- A page of the wizard fails only with the database. -/
theorem failsWith_wizardPage :
    FailsWith (soloExec P) PyExc.OfDatabase (wizardPage page) := by
  have hexecute : ∀ {st : Stmt}, FailsWith (soloExec P) PyExc.OfDatabase (execute .main st) :=
    failsWith_execute fun d => ⟨d, rfl⟩
  have hget : FailsWith (soloExec P) PyExc.OfDatabase SqlSetupStateRepository.get := by
    refine FailsWith.bind hexecute fun found => ?_
    cases found with
    | some model => exact failsWith_pure _
    | none => exact FailsWith.bind hexecute fun _ => hexecute
  refine failsWith_getDbSession (fun d => ⟨d, rfl⟩)
    (FailsWith.bind (FailsWith.bind hget fun _ => failsWith_pure _) fun complete => ?_)
  split
  · exact failsWith_pure _
  · exact FailsWith.bind hget fun _ => failsWith_pure _

variable (P page) in
/-- What a page of the wizard answers when nothing fails, and what it leaves. -/
theorem completes_wizardPage {inputs : Nat → Input} (sh : Shared)
    (hfault : ∀ n, (inputs n).fault = none) :
    (wizardPage page).Completes (soloExec P) (Solo.init inputs sh) fun r s' =>
      (r = if sh.db.setup.completed then redirect "/machines" else page sh.db.setup) ∧
        s'.shared.db.setup = sh.db.setup := by
  refine completes_session (Q := fun r db =>
    (r = if sh.db.setup.completed then redirect "/machines" else page sh.db.setup) ∧
      db.setup = sh.db.setup) hfault ?_
  have hview : (Solo.init inputs sh).view.setup = sh.db.setup := rfl
  refine (completes_isComplete hfault (Solo.open_init inputs sh)).bind ?_
  rintro complete s₁ ⟨hcomplete, hopen, hview₁⟩
  rw [hview] at hcomplete hview₁
  subst hcomplete
  cases hcompleted : sh.db.setup.completed with
  | true =>
    refine completes_pure ⟨hopen, rfl, ?_⟩
    rw [hview₁, Database.setup_withSetup]
  | false =>
    refine ((completes_get hfault hopen).and_runs fun _ _ hrun => runs_get hrun).bind ?_
    rintro x s₂ ⟨hopen₂, rfl, hview₂⟩
    refine completes_pure ⟨hopen₂, ?_, ?_⟩
    · rw [hview₁, Database.setup_withSetup]
      rfl
    · rw [hview₂, Database.setup_withSetup, hview₁, Database.setup_withSetup]

end Pages

/-! ## Following the redirects -/

/-- The route that a browser asks for when it is redirected to a location. -/
def routeAt (location : String) : Option Route :=
  if location == "/machines" then some .machinesPage
  else if location == "/login" then some .loginPage
  else if "/setup/".toList.isPrefixOf location.toList then
    some (.setupPage (String.ofList (location.toList.drop 7)))
  else none

/-- The response that a browser ends with when it follows so many redirects at most. -/
def browse (P : Platform) (inputs : Nat → Nat → Input) : Nat → Request → Shared → Option Response
  | 0, req, sh => response P req (inputs 0) sh
  | n + 1, req, sh =>
    match response P req (inputs (n + 1)) sh with
    | none => none
    | some r =>
      match r.location.bind routeAt with
      | some route => browse P inputs n { req with route } (serve P req (inputs (n + 1)) sh)
      | none => some r

/-- The page that is shown in the end: a step of the wizard that is not after the current one, or
the machines or the login once the setup is completed. -/
def Destination (x : SetupState) (r : Response) : Prop :=
  r.status = 200 ∧ r.location = none ∧
    if x.completed then
      r.body = .page (.login none none) ∨
        ∃ machines user csrf, r.body = .page (.machines machines user csrf)
    else ∃ step ∈ wizardSteps, wizardSteps.idxOf step ≤ wizardSteps.idxOf x.currentStep ∧
      r.body = .page (.setupWizard step none none)

section Browse
variable {P : Platform} {inputs : Nat → Nat → Input} {n : Nat} {req : Request} {sh : Shared}

/-- A response that is no redirect is the last one. -/
theorem browse_page {r : Response} (h : ∀ k, response P req (inputs k) sh = some r)
    (hlocation : r.location = none) : browse P inputs n req sh = some r := by
  cases n with
  | zero => exact h 0
  | succ n =>
    unfold browse
    rw [h (n + 1)]
    dsimp only
    rw [hlocation]
    rfl

/-- A redirect is followed. -/
theorem browse_redirect {location : String} {route : Route}
    (h : response P req (inputs (n + 1)) sh = some (redirect location))
    (hroute : routeAt location = some route) :
    browse P inputs (n + 1) req sh =
      browse P inputs n { req with route } (serve P req (inputs (n + 1)) sh) := by
  rw [browse, h]
  dsimp only [redirect]
  rw [Option.bind_some, hroute]

theorem routeAt_setup {step : String} (h : step ∈ wizardSteps) :
    routeAt ("/setup/" ++ step) = some (.setupPage step) := by
  have hall : ∀ step ∈ wizardSteps, routeAt ("/setup/" ++ step) = some (.setupPage step) := by
    decide
  exact hall step h

/-- The login page is always there. -/
theorem browse_loginPage (hroute : req.route = .loginPage) :
    browse P inputs n req sh = some { body := .page (.login none none) } := by
  refine browse_page (fun k => ?_) rfl
  have hrun : (endpoint P req).Runs (soloExec P) (Solo.init (inputs k) sh)
      { body := .page (.login none none) } (Solo.init (inputs k) sh) := by
    rw [endpoint, hroute]
    exact runs_pure.mpr ⟨rfl, rfl⟩
  exact (response_of_runs hrun).1

/-- A step that is not after the current one is shown. -/
theorem stepPage_shown {step : String} {x : SetupState} (hstep : step ∈ wizardSteps)
    (hle : wizardSteps.idxOf step ≤ wizardSteps.idxOf x.currentStep) :
    stepPage step x = { body := .page (.setupWizard step none none) } := by
  unfold stepPage
  rw [List.contains_iff_mem.mpr hstep, Bool.not_true, if_neg Bool.false_ne_true,
    if_neg (Nat.not_lt.mpr hle)]

/-- While the setup is incomplete, an entry shows a step, or sends to the current one. -/
theorem entryPage_cases (entry : Option String) (x : SetupState) :
    entryPage entry x = redirect ("/setup/" ++ x.currentStep) ∨
      ∃ step ∈ wizardSteps, wizardSteps.idxOf step ≤ wizardSteps.idxOf x.currentStep ∧
        entryPage entry x = { body := .page (.setupWizard step none none) } := by
  cases entry with
  | none => exact .inl rfl
  | some step =>
    by_cases hstep : step ∈ wizardSteps
    · by_cases hle : wizardSteps.idxOf step ≤ wizardSteps.idxOf x.currentStep
      · exact .inr ⟨step, hstep, hle, stepPage_shown hstep hle⟩
      · left
        show stepPage step x = _
        unfold stepPage
        rw [List.contains_iff_mem.mpr hstep, Bool.not_true, if_neg Bool.false_ne_true,
          if_pos (Nat.lt_of_not_le hle)]
    · left
      show stepPage step x = _
      unfold stepPage
      rw [(Bool.not_eq_true _).mp fun h => hstep (List.contains_iff_mem.mp h)]
      rfl

variable (hcalm : ∀ k n, (inputs k n).fault = none)
include hcalm

variable (n req sh) in
/-- The machines page is rendered, or sends to the login page. -/
theorem browse_machinesPage (hroute : req.route = .machinesPage) :
    ∃ r, browse P inputs (n + 1) req sh = some r ∧ r.status = 200 ∧ r.location = none ∧
      (r.body = .page (.login none none) ∨
        ∃ machines user csrf, r.body = .page (.machines machines user csrf)) := by
  have hpage : (Web.machinesPage req).Completes (soloExec P) (Solo.init (inputs (n + 1)) sh)
      fun r _ => r = redirect "/login" ∨
        ∃ machines user csrf, r = { body := .page (.machines machines user csrf) } := by
    refine (completes_getDbSession (Q := fun r _ => r = redirect "/login" ∨
      ∃ machines user csrf, r = { body := .page (.machines machines user csrf) })
      (hcalm (n + 1)) ?_).mono fun r s' ⟨_, _, hr⟩ => hr
    refine (completes_requireWebAuth (hcalm (n + 1)) req (Solo.at_init _ sh)).bind ?_
    rintro found s₁ h₁
    cases found with
    | none => exact completes_pure ⟨_, _, h₁, .inl rfl⟩
    | some user =>
      refine (h₁.read (hcalm (n + 1)) fun inp locked => rfl).bind ?_
      rintro machines s₂ ⟨-, h₂⟩
      refine (completes_getCsrf (hcalm (n + 1)) req h₂).bind ?_
      rintro csrf s₃ h₃
      exact completes_pure ⟨_, _, h₃, .inr ⟨machines, user, csrf, rfl⟩⟩
  obtain ⟨r, s', hrun, hr⟩ := hpage
  have hendpoint : (endpoint P req).Runs (soloExec P) (Solo.init (inputs (n + 1)) sh) r s' := by
    rw [endpoint, hroute]
    exact hrun
  have hresponse := (response_of_runs hendpoint).1
  rcases hr with rfl | ⟨machines, user, csrf, rfl⟩
  · rw [browse_redirect hresponse rfl, browse_loginPage rfl]
    exact ⟨_, rfl, rfl, rfl, .inl rfl⟩
  · refine ⟨{ body := .page (.machines machines user csrf) }, ?_, rfl, rfl,
      .inr ⟨machines, user, csrf, rfl⟩⟩
    unfold browse
    rw [hresponse]
    rfl

/-- What an entry of the wizard answers, and what it leaves. -/
theorem response_entry {entry : Option String} (hroute : req.route = entryRoute entry)
    (hstep : sh.db.setup.currentStep ∈ wizardSteps) (k : Nat) :
    response P req (inputs k) sh =
        some (if sh.db.setup.completed then redirect "/machines" else entryPage entry sh.db.setup) ∧
      (serve P req (inputs k) sh).db.setup = sh.db.setup := by
  obtain ⟨r, s', hrun, hr, hsetup⟩ := completes_wizardPage P (entryPage entry) sh (hcalm k)
  have hendpoint : (endpoint P req).Runs (soloExec P) (Solo.init (inputs k) sh) r s' :=
    (eval_entry (s := Solo.init (inputs k) sh) hroute hstep).trans hrun
  obtain ⟨hresponse, hserve⟩ := response_of_runs hendpoint
  rw [hresponse, hserve, ← hr]
  exact ⟨rfl, hsetup⟩

/-- The redirects end at a page. -/
theorem browse_entry {entry : Option String} (hroute : req.route = entryRoute entry)
    (hstep : sh.db.setup.currentStep ∈ wizardSteps) :
    ∃ r, browse P inputs (n + 2) req sh = some r ∧ Destination sh.db.setup r := by
  obtain ⟨hresponse, hsetup⟩ := response_entry (P := P) hcalm hroute hstep (n + 2)
  cases hcompleted : sh.db.setup.completed with
  | true =>
    rw [hcompleted, if_pos rfl] at hresponse
    obtain ⟨r, hr, hstatus, hlocation, hbody⟩ := browse_machinesPage n
      { req with route := .machinesPage } (serve P req (inputs (n + 2)) sh) hcalm rfl
    refine ⟨r, (browse_redirect hresponse rfl).trans hr, hstatus, hlocation, ?_⟩
    rw [if_pos hcompleted]
    exact hbody
  | false =>
    rw [hcompleted, if_neg Bool.false_ne_true] at hresponse
    rcases entryPage_cases entry sh.db.setup with hpage | ⟨step, hmem, hle, hpage⟩
    · -- one redirect leads to the page of the current step
      rw [hpage] at hresponse
      have hnext : ∀ k, response P { req with route := .setupPage sh.db.setup.currentStep } (inputs k)
          (serve P req (inputs (n + 2)) sh) =
            some { body := .page (.setupWizard sh.db.setup.currentStep none none) } := by
        intro k
        have hentry : ({ req with route := .setupPage sh.db.setup.currentStep } : Request).route =
            entryRoute (some sh.db.setup.currentStep) := rfl
        rw [(response_entry (P := P) hcalm hentry (by rw [hsetup]; exact hstep) k).1, hsetup, hcompleted, if_neg Bool.false_ne_true]
        exact congrArg some (stepPage_shown hstep (Nat.le_refl _))
      refine ⟨_, (browse_redirect hresponse (routeAt_setup hstep)).trans (browse_page hnext rfl),
        rfl, rfl, ?_⟩
      rw [if_neg (by rw [hcompleted]; exact Bool.false_ne_true)]
      exact ⟨_, hstep, Nat.le_refl _, rfl⟩
    · rw [hpage] at hresponse
      refine ⟨{ body := .page (.setupWizard step none none) }, ?_, rfl, rfl, ?_⟩
      · rw [browse, hresponse]
        rfl
      · rw [if_neg (by rw [hcompleted]; exact Bool.false_ne_true)]
        exact ⟨step, hmem, hle, rfl⟩

end Browse

/-- **The way through the wizard.** In every state that requests reach, the stored step is one of
the wizard, the entries of the wizard raise nothing but errors of the database, and when no
database call fails at most three redirects lead from them to a page. -/
theorem wizard_navigation (P : Platform) (run : List (Request × (Nat → Input)))
    (entry : Option String) (req : Request) (hroute : req.route = entryRoute entry) :
    (serveAll P run Shared.fresh).db.setup.currentStep ∈ wizardSteps ∧
    (∀ inputs e s', runSolo P (endpoint P req) inputs (serveAll P run Shared.fresh) =
      (.raised e, s') → e.OfDatabase) ∧
    ∀ inputs : Nat → Nat → Input, (∀ k n, (inputs k n).fault = none) →
      ∃ r, browse P inputs 3 req (serveAll P run Shared.fresh) = some r ∧
        Destination (serveAll P run Shared.fresh).db.setup r := by
  have hstep := serveAll_currentStep P run Shared.fresh (by decide)
  refine ⟨hstep, fun inputs e s' h => ?_, fun inputs hcalm => browse_entry hcalm hroute hstep⟩
  have heval := eval_entry (P := P) hroute
    (s := Solo.init inputs (serveAll P run Shared.fresh)) hstep
  exact (failsWith_wizardPage (P := P) _).2 e s' (heval.symm.trans h)

/-- After going back from the page of the administrator, a later step is asked for. -/
theorem wizard_navigation_sample :
    let run : List (Request × (Nat → Input)) :=
      [({ route := .setupWelcomePost }, Input.quiet),
        ({ route := .setupBack "admin_account" }, Input.quiet)]
    let sh := serveAll Platform.signing run Shared.fresh
    sh.db.setup.currentStep ∈ wizardSteps ∧
      ∃ r, browse Platform.signing (fun _ => Input.quiet) 3 { route := .setupPage "network" } sh =
          some r ∧ Destination sh.db.setup r := by
  intro run sh
  obtain ⟨hstep, -, hbrowse⟩ := wizard_navigation Platform.signing run (some "network")
    { route := .setupPage "network" } rfl
  exact ⟨hstep, hbrowse (fun _ => Input.quiet) fun _ _ => rfl⟩

end WolMonkey
