import WolMonkey.Facts.Accounts

/-!
# A completed installation has an administrator

Two requests complete the wizard without a session: `POST /api/setup/complete` and the form
that skips the first machine. Neither looks at the users. When every such request finds a
user, a completed installation has one in every state that requests reach.
-/

namespace WolMonkey

open Programs Program

/-- The change sets `completed`. -/
def Write.completes : Write → Bool
  | insertSetup s => s.completed
  | updateSetup c => c.completed == some true
  | _ => false

/-- The wizard is marked as complete. -/
def Database.completed (db : Database) : Bool := db.setupState.any (·.completed)

/-- The request completes the wizard. -/
def completing (req : Request) : Bool :=
  match req.route with
  | .setupComplete | .setupSkipMachine => true
  | _ => false

/-! ## Code that does not complete the wizard -/

/-- A change that does not complete the wizard leaves it incomplete. -/
theorem completed_apply {w : Write} (hw : w.completes = false) {db : Database}
    (h : db.completed = false) : (w.apply db).completed = false := by
  cases w <;> first
    | exact h
    | skip
  · exact hw
  · rename_i c
    simp only [Database.completed, Write.apply, Option.any_map,
      SetupState.set] at h ⊢
    cases hc : c.completed with
    | none => simpa [hc] using h
    | some b =>
      have hb : b = false := by simpa [Write.completes, hc] using hw
      cases db.setupState <;> simp [hb]

/-- The operation does not complete the wizard. -/
abbrev KeepsIncomplete : Op → Prop := Makes fun w => w.completes = false

theorem keepsIncomplete_of_within {es : List Effect} (hnew : .newSetup ∉ es)
    (hedit : .editSetup ∉ es) {op : Op} (h : Within es op) : KeepsIncomplete op := by
  cases op with
  | stmt slot s =>
    intro P inp locked db r hr w hw
    have hmem := h _ (Stmt.run_effect r hr w hw)
    cases w <;> first | rfl | skip
    · exact (hnew hmem).elim
    · exact (hedit hmem).elim
  | _ => trivial

section Uses
variable {α : Type}

theorem uses_keepsIncomplete (es : List Effect) {p : Code α} (h : p.Uses (Within es))
    (hnew : .newSetup ∉ es) (hedit : .editSetup ∉ es) : p.Uses KeepsIncomplete :=
  h.mono fun _ => keepsIncomplete_of_within hnew hedit

theorem sessions_keepsIncomplete : Sessions KeepsIncomplete := fun _ => ⟨trivial, trivial, trivial⟩

theorem incomplete_setupInsert {x : SetupState} (hx : x.completed = false) :
    (execute .main (.setupInsert x)).Uses KeepsIncomplete := by
  refine (uses_perform _).mpr fun P inp locked db r hr w hw => ?_
  simp only [Stmt.run, bind_eq_ok, require_eq_ok, pure_eq_ok] at hr
  obtain ⟨-, -, rfl⟩ := hr
  obtain rfl := List.mem_singleton.mp hw
  exact hx

theorem incomplete_setupUpdate {loaded : SetupState} {c : SetupColumns}
    (hc : c.completed ≠ some true) :
    (execute .main (.setupUpdate loaded c)).Uses KeepsIncomplete := by
  refine (uses_perform _).mpr fun P inp locked db r hr w hw => ?_
  simp only [Stmt.run] at hr
  split at hr
  · rw [pure_eq_ok] at hr
    subst hr
    cases hw
  · simp only [bind_eq_ok, require_eq_ok, pure_eq_ok] at hr
    obtain ⟨step, -, -, -, rfl⟩ := hr
    obtain rfl := List.mem_singleton.mp hw
    -- the column that is sent has the new value or is not sent at all
    simp only [Write.completes, SetupColumns.changedFrom, beq_eq_false_iff_ne, ne_eq]
    intro hsent
    unfold changed at hsent
    split at hsent
    · split at hsent
      · cases hsent
      · exact hc (by rw [‹c.completed = _›, hsent])
    · cases hsent

theorem incomplete_read {st : Stmt} (h : st.effect = none) :
    (execute .main st).Uses KeepsIncomplete :=
  uses_keepsIncomplete [] (uses_read h) (by simp) (by simp)

theorem incomplete_get : SqlSetupStateRepository.get.Uses KeepsIncomplete := by
  refine Uses.bind (incomplete_read rfl) fun found => ?_
  cases found with
  | some model => exact uses_pure _
  | none => exact Uses.bind (incomplete_setupInsert rfl) fun _ => incomplete_read rfl

theorem incomplete_update {c : SetupColumns} (hc : c.completed = some false) :
    (SqlSetupStateRepository.update c).Uses KeepsIncomplete := by
  refine Uses.bind (incomplete_read rfl) fun found => Uses.bind ?_ fun _ => incomplete_read rfl
  cases found with
  | some model => exact incomplete_setupUpdate (by simp [hc])
  | none => exact incomplete_setupInsert (by simp [SetupState.set, hc])

theorem incomplete_isComplete : SetupStateService.isComplete.Uses KeepsIncomplete :=
  Uses.bind incomplete_get fun _ => uses_pure _

theorem incomplete_advance {step : String} (h : step ≠ "complete") :
    (SetupStateService.advance step).Uses KeepsIncomplete := by
  refine Uses.bind incomplete_get fun record => ?_
  dsimp only
  split
  · rename_i hstep
    exact absurd (beq_iff_eq.mp hstep) h
  · exact Uses.bind (incomplete_update rfl) fun _ => uses_pure _

theorem incomplete_goBack {step : String} :
    (SetupStateService.goBack step).Uses KeepsIncomplete := by
  refine Uses.bind incomplete_get fun record => ?_
  split
  · exact uses_pure _
  · exact uses_pure _
  · exact Uses.bind (incomplete_update rfl) fun _ => uses_pure _

theorem incomplete_requireIncomplete : Api.requireIncomplete.Uses KeepsIncomplete := by
  refine Uses.bind incomplete_isComplete fun complete => ?_
  split <;> simp

theorem incomplete_saveNetwork {body : NetworkConfigRequest} :
    (Api.saveNetwork body).Uses KeepsIncomplete :=
  uses_keepsIncomplete [.newSetting, .editSetting] (uses_saveNetwork (by simp) (by simp))
    (by simp) (by simp)

theorem incomplete_createAdmin {username password : String} :
    (AuthService.createAdmin username password).Uses KeepsIncomplete :=
  uses_keepsIncomplete [.newUser] (uses_createAdmin (by simp)) (by simp) (by simp)

theorem incomplete_login {P : Platform} {username password : String}
    {ip userAgent : Option String} :
    (AuthService.login P username password ip userAgent).Uses KeepsIncomplete :=
  uses_keepsIncomplete [.lastLogin, .passwordHash, .newSession]
    (uses_login (by simp) (by simp) (by simp)) (by simp) (by simp)

end Uses

section Routes
variable {P : Platform} {req : Request}

theorem incomplete_setupPage {step : String} :
    (Web.setupPage P step).Uses KeepsIncomplete := by
  refine uses_getDbSession (Uses.bind incomplete_isComplete fun complete => ?_)
    sessions_keepsIncomplete
  split
  · simp
  · refine Uses.bind incomplete_get fun state => ?_
    dsimp only
    split
    · simp
    · have index : ∀ s, (Web.stepIndex P s).Uses KeepsIncomplete := by
        intro s
        unfold Web.stepIndex
        split <;> simp
      refine Uses.bind (index step) fun wanted => Uses.bind (index _) fun current => ?_
      split <;> simp

theorem incomplete_setupAdmin {body : JsonBody AdminCreateRequest} :
    (Api.setupAdmin body).Uses KeepsIncomplete := by
  refine uses_withBody (uses_pure _) sessions_keepsIncomplete fun _ body => ?_
  refine Uses.bind incomplete_requireIncomplete fun _ => Uses.bind ?_ fun user => ?_
  · refine Uses.tryCatch incomplete_createAdmin fun exc => ?_
    split <;> simp
  · exact Uses.bind (incomplete_advance (by decide)) fun _ => uses_pure _

theorem incomplete_setupAdminPost {form : CredentialsForm} :
    (Web.setupAdminPost P req form).Uses KeepsIncomplete := by
  refine uses_withForm sessions_keepsIncomplete fun credentials => Uses.bind ?_ fun refused => ?_
  · refine Uses.tryCatch (Uses.bind incomplete_createAdmin fun _ => uses_pure _) fun exc => ?_
    split <;> simp
  · cases refused with
    | some message => exact uses_pure _
    | none =>
      exact Uses.bind (incomplete_advance (by decide)) fun _ =>
        Uses.bind incomplete_login fun _ => uses_pure _

/-- Every route but the two that complete the wizard, and the form for a new machine, which
wants a session. -/
theorem endpoint_keepsIncomplete (hcompleting : completing req = false)
    (hnew : ∀ form, req.route ≠ .machineNewPost form) :
    (endpoint P req).Uses KeepsIncomplete := by
  by_cases hquiet : .newSetup ∉ req.route.effects ∧ .editSetup ∉ req.route.effects
  · exact uses_keepsIncomplete _ endpoint_within hquiet.1 hquiet.2
  unfold endpoint
  cases hroute : req.route
  all_goals first
    | (exfalso; simp [hroute, Route.effects] at hquiet; done)
    | skip
  case setupStatus =>
    exact uses_getDbSession (Uses.bind incomplete_get fun _ => uses_pure _)
      sessions_keepsIncomplete
  case setupAdmin body => exact incomplete_setupAdmin
  case setupNetwork body =>
    exact uses_withBody (uses_pure _) sessions_keepsIncomplete fun _ body =>
      Uses.bind incomplete_requireIncomplete fun _ => Uses.bind incomplete_saveNetwork fun _ =>
        Uses.bind (incomplete_advance (by decide)) fun _ => uses_pure _
  case setupComplete => simp [completing, hroute] at hcompleting
  case root =>
    refine uses_getDbSession (Uses.bind incomplete_isComplete fun complete => ?_)
      sessions_keepsIncomplete
    split
    · exact uses_pure _
    · exact Uses.bind incomplete_get fun _ => uses_pure _
  case setupPage step => exact incomplete_setupPage
  case setupWelcomePost =>
    exact uses_getDbSession (Uses.bind (incomplete_advance (by decide)) fun _ => uses_pure _)
      sessions_keepsIncomplete
  case setupAdminPost form => exact incomplete_setupAdminPost
  case setupNetworkPost form =>
    exact uses_withForm sessions_keepsIncomplete fun fields =>
      Uses.bind incomplete_saveNetwork fun _ =>
        Uses.bind (incomplete_advance (by decide)) fun _ => uses_pure _
  case setupBack step =>
    exact uses_getDbSession (Uses.bind incomplete_goBack fun _ => uses_pure _)
      sessions_keepsIncomplete
  case setupSkipMachine => simp [completing, hroute] at hcompleting
  case machineNewPost form => exact absurd hroute (hnew form)

end Routes

/-! ## Runs -/

/-- Without a user no cookie names a live session. -/
theorem noLiveCookie_of_no_user {db : Database} (h : db.users = []) (inputs : Nat → Input)
    (req : Request) : NoLiveCookie db inputs req := by
  rintro n cookie session user - ⟨id, -, -, -, -, huser⟩
  rw [h] at huser
  cases huser

/-- One request: a completed installation has a user after it. -/
theorem serve_administrator {P : Platform} {req : Request} {inputs : Nat → Input} {sh : Shared}
    (hinv : sh.db.completed = true → sh.db.users ≠ [])
    (hreq : completing req = true → sh.db.users ≠ []) :
    (serve P req inputs sh).db.completed = true → (serve P req inputs sh).db.users ≠ [] := by
  by_cases husers : sh.db.users = []
  · have hincomplete : sh.db.completed = false :=
      Bool.eq_false_iff.mpr fun h => hinv h husers
    have hcompleting : completing req = false :=
      Bool.eq_false_iff.mpr fun h => hreq h husers
    suffices (serve P req inputs sh).db.completed = false by simp [this]
    by_cases hnew : ∃ form, req.route = .machineNewPost form
    · obtain ⟨form, hroute⟩ := hnew
      have hlive := noLiveCookie_of_no_user husers inputs req
      rw [serve_eq, endpoint, hroute]
      exact (congrArg Database.completed (withForm_webAuth_blocked hlive)).trans hincomplete
    · have hmeek := endpoint_keepsIncomplete (P := P) hcompleting fun form h => hnew ⟨form, h⟩
      exact (serve_reaches_of_uses (hmeek.mono fun _ hop => hop.on P) inputs sh).invariant (·.completed = false)
        (fun w db hw h => completed_apply hw h) hincomplete
  · intro _
    exact (serve_reaches req inputs sh).invariant (·.users ≠ [])
      (fun w db _ h => users_apply_ne_nil w h) husers

/-- A completed installation has an administrator, in every state that requests to a new
installation reach, when each request that completes the wizard finds a user. -/
theorem completed_has_administrator (P : Platform) (run : List (Request × (Nat → Input)))
    (hrun : Throughout P (fun sh req _ => completing req = true → sh.db.users ≠ []) run
      Shared.fresh) :
    (serveAll P run Shared.fresh).db.completed = true →
      (serveAll P run Shared.fresh).db.users ≠ [] := by
  suffices ∀ sh : Shared, (sh.db.completed = true → sh.db.users ≠ []) →
      Throughout P (fun sh req _ => completing req = true → sh.db.users ≠ []) run sh →
      (serveAll P run sh).db.completed = true → (serveAll P run sh).db.users ≠ [] from
    this _ nofun hrun
  clear hrun
  intro sh hinv hrun
  induction run generalizing sh with
  | nil => exact hinv
  | cons step rest ih =>
    obtain ⟨req, inputs⟩ := step
    exact ih _ (serve_administrator hinv hrun.1) hrun.2

/-- The JSON routes of the wizard in their order. -/
theorem completed_has_administrator_sample :
    let run : List (Request × (Nat → Input)) :=
      [({ route := .setupAdmin (.typed ⟨"admin", Platform.samplePassword⟩) }, Input.quiet),
        ({ route := .setupComplete }, Input.quiet)]
    (serveAll Platform.sample run Shared.fresh).db.completed = true ∧
      (serveAll Platform.sample run Shared.fresh).db.users ≠ [] := by
  intro run
  have hcompleted : (serveAll Platform.sample run Shared.fresh).db.completed = true := by
    decide +kernel
  refine ⟨hcompleted, completed_has_administrator Platform.sample run ⟨nofun, ?_, trivial⟩
    hcompleted⟩
  decide +kernel

/-- A single request to a new installation completes it without a user. -/
theorem completed_without_administrator :
    ¬ ∀ run : List (Request × (Nat → Input)),
      (serveAll Platform.sample run Shared.fresh).db.completed = true →
        (serveAll Platform.sample run Shared.fresh).db.users ≠ [] := by
  intro h
  exact h [({ route := .setupComplete }, Input.quiet)] (by decide +kernel) (by decide +kernel)

end WolMonkey
