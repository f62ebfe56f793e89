import WolMonkey.Facts.Forms
import WolMonkey.Setup.Ordering

/-!
# The account policy

The first account can be created with a JSON request or with the wizard's form. The JSON
route validates the credentials and refuses a completed wizard; the form route passes
whatever it is given on to the database and then logs in with it. The policy holds of every
account exactly as long as the form is sent credentials that the policy allows or that the
database, or the login, turns down.
-/

namespace WolMonkey

open Programs Program

/-- The request asks for the first account. -/
def Request.bootstraps (req : Request) : Bool :=
  match req.route with
  | .setupAdmin _ | .setupAdminPost _ => true
  | _ => false

/-- The credentials that such a request sends. -/
def Request.credentials (req : Request) : Option AdminCreateRequest :=
  match req.route with
  | .setupAdmin (.typed c) => some c
  | .setupAdminPost form => form.read.map fun c => ⟨c.1, c.2⟩
  | _ => none

/-- The row is an account with these credentials. -/
def User.CreatedWith (P : Platform) (c : AdminCreateRequest) (row : User) : Prop :=
  row.username = c.username ∧ ∃ salt, row.passwordHash = P.argon2Hash salt c.password

/-- The JSON route accepts the credentials. -/
def Database.acceptsJson (db : Database) (c : AdminCreateRequest) : Bool :=
  db.users.isEmpty && !db.setup.completed && c.valid && textOk c.username

/-- The form accepts the credentials from a client. -/
def Database.acceptsForm (P : Platform) (db : Database) (req : Request) (c : AdminCreateRequest) :
    Bool :=
  db.users.isEmpty && textOk c.username && c.username.toList.length ≤ 150 &&
    (nullable P.inet req.clientHost).isSome && req.userAgent.all textOk

/-- The form is sent credentials that the policy allows, or that it turns down: there is an
account already, the name is not one that the column takes as it is, or the login that
follows cannot store its session. -/
def WithinPolicy (P : Platform) (db : Database) (req : Request) : Bool :=
  match req.route with
  | .setupAdminPost form =>
    form.read.all fun c => !db.acceptsForm P req ⟨c.1, c.2⟩ || AdminCreateRequest.valid ⟨c.1, c.2⟩
  | _ => true

/-- The request leaves an account that was not there. -/
def Creates (P : Platform) (req : Request) (inputs : Nat → Input) (sh : Shared) : Prop :=
  ∃ row ∈ (serve P req inputs sh).db.users, row ∉ sh.db.users

/-! ## What the routes leave -/

theorem of_varchar_eq_self {n : Nat} {s : String} (h : varchar n s = some s) :
    textOk s = true ∧ s.toList.length ≤ n := by
  unfold varchar at h
  split at h
  · rename_i htext
    refine ⟨htext, ?_⟩
    split at h
    · assumption
    · split at h
      · have hlist : s.toList.take n = s.toList := by
          have := congrArg String.toList (Option.some.inj h)
          rwa [String.toList_ofList] at this
        have hlength := congrArg List.length hlist
        rw [List.length_take] at hlength
        omega
      · cases h
  · cases h

theorem textOk_of_varchar {n : Nat} {s : String} (h : (varchar n s).isSome = true) :
    textOk s = true := by
  unfold varchar at h
  split at h
  · assumption
  · cases h

section Routes
variable {P : Platform} {req : Request} {inputs : Nat → Input} {sh : Shared}

/-- The names of the users do not change in a login. -/
theorem untouched_usernames (id : Uuid) :
    Untouched (Write.OfLogin id) (fun db => db.users.map (·.username)) := by
  intro w db hw
  cases w with
  | setLastLogin i t => exact map_updateRows fun u => rfl
  | setPasswordHash i hash => exact map_updateRows fun u => rfl
  | insertSession row => rfl
  | _ => exact hw.elim

/-- Changes that store hashes of one password, on rows that have such hashes. -/
theorem hashed_apply {password : String} {w : Write} (hw : w.Hashes P password) {db : Database}
    (h : ∀ row ∈ db.users, ∃ salt, row.passwordHash = P.argon2Hash salt password) :
    ∀ row ∈ (w.apply db).users, ∃ salt, row.passwordHash = P.argon2Hash salt password := by
  intro row hrow
  cases w with
  | insertUser u =>
    rcases List.mem_append.mp hrow with hold | hnew
    · exact h row hold
    · rw [List.mem_singleton.mp hnew]
      exact hw
  | setLastLogin i t =>
    obtain ⟨old, hold, rfl⟩ := mem_updateRows.mp hrow
    split <;> exact h old hold
  | setPasswordHash i hash =>
    obtain ⟨old, hold, rfl⟩ := mem_updateRows.mp hrow
    split
    · exact hw
    · exact h old hold
  | _ => exact h row hrow

/-- What the form leaves: the tables as they were, or accounts with its credentials. -/
theorem serve_setupAdminPost {form : CredentialsForm} (hroute : req.route = .setupAdminPost form) :
    (serve P req inputs sh).db = sh.db ∨
      ∃ c, req.credentials = some c ∧ sh.db.acceptsForm P req c = true ∧
        ∀ row ∈ (serve P req inputs sh).db.users, row.CreatedWith P c := by
  rw [serve_eq, endpoint, hroute]
  rcases setupAdminPost_cases P req inputs sh form with
    h | ⟨username, password, user, s₁, u, s₂, session, s₃, hform, hcreate, hadvance, hlogin, hdb⟩
  · exact .inl h
  · refine .inr ⟨⟨username, password⟩, ?_, ?_⟩
    · simp only [Request.credentials, hroute, hform, Option.map_some]
    have hnone : sh.db.users = [] := (runs_createAdmin hcreate).1
    obtain ⟨row, hname, hsalt, hview⟩ := runs_createAdmin_row hcreate
    have hadvanced := runs_advance_of_mem (by decide) hadvance
    have husers : s₂.view.users = [row] := by
      rw [hadvanced, hview]
      exact congrArg (· ++ [row]) hnone
    obtain ⟨found, hfound, -, hadds, hip, hua⟩ := runs_login hlogin
    have hnamed : row.username = username := by
      have hmem := List.mem_of_find?_eq_some hfound
      rw [husers, List.mem_singleton] at hmem
      subst hmem
      exact beq_iff_eq.mp (List.find?_some (p := fun u : User => u.username == username) hfound)
    rw [hnamed] at hname
    obtain ⟨htext, hlength⟩ := of_varchar_eq_self hname
    refine ⟨?_, fun r hr => ?_⟩
    · simp [Database.acceptsForm, hnone, htext, hlength, hip, hua]
    · rw [hdb] at hr
      have hnames := hadds.keeps (untouched_usernames found.id)
      rw [husers] at hnames
      have hr' : r.username ∈ s₃.view.users.map (·.username) := List.mem_map_of_mem hr
      rw [hnames, List.map_singleton, List.mem_singleton] at hr'
      refine ⟨hr'.trans hnamed, ?_⟩
      have hhashes := (runs_login_hashes hlogin).invariant
        (fun db => ∀ row ∈ db.users, ∃ salt, row.passwordHash = P.argon2Hash salt password)
        (fun w db hw h => hashed_apply hw h)
      refine hhashes ?_ r hr
      rw [husers]
      intro row' hrow'
      rw [List.mem_singleton.mp hrow']
      exact hsalt

/-- What the JSON route leaves. -/
theorem serve_setupAdmin {body : JsonBody AdminCreateRequest} (hroute : req.route = .setupAdmin body) :
    (serve P req inputs sh).db = sh.db ∨
      ∃ c, req.credentials = some c ∧ c.valid = true ∧ sh.db.acceptsJson c = true ∧
        ∀ row ∈ (serve P req inputs sh).db.users, row.CreatedWith P c := by
  rw [serve_eq, endpoint, hroute]
  rcases setupAdmin_cases (P := P) with
    h | ⟨c, user, u₀, s₀, s₁, u, s₂, hbody, hvalid, hguard, hcreate, hadvance, hdb⟩
  · exact .inl h
  · obtain ⟨hincomplete, hview₀⟩ := runs_requireIncomplete hguard
    have hnone : sh.db.users = [] := by
      have := (runs_createAdmin hcreate).1
      rwa [hview₀] at this
    obtain ⟨row, hname, hsalt, hview⟩ := runs_createAdmin_row hcreate
    have htext : textOk c.username = true := textOk_of_varchar (by rw [hname]; rfl)
    have hlength : c.username.toList.length ≤ 150 := by
      simp only [AdminCreateRequest.valid, lengthIn, Bool.and_eq_true, decide_eq_true_eq] at hvalid
      exact hvalid.1.2
    have hnamed : row.username = c.username := by
      rw [varchar_eq_self hlength htext] at hname
      exact (Option.some.inj hname).symm
    refine .inr ⟨c, ?_, hvalid, ?_, fun r hr => ?_⟩
    · simp only [Request.credentials, hroute, hbody]
    · have hincomplete' : sh.db.setup.completed = false := hincomplete
      simp [Database.acceptsJson, hnone, hincomplete', hvalid, htext]
    · rw [hdb, runs_advance_of_mem (by decide) hadvance, hview, hview₀] at hr
      have husers : r ∈ sh.db.users ++ [row] := hr
      rw [hnone, List.nil_append, List.mem_singleton] at husers
      rw [husers]
      exact ⟨hnamed, hsalt⟩

/-! ## Credentials that the routes accept -/

/-- Nothing disturbs the request: no database call fails, the identifier and the secret of
its session are new, Argon2 verifies its own hash of the password, and the row of the wizard
has texts that can be stored. -/
structure Undisturbed (P : Platform) (c : AdminCreateRequest) (inputs : Nat → Input)
    (db : Database) : Prop where
  fault : ∀ n, (inputs n).fault = none
  fresh : ∀ n, db.sessions.any (·.id == (inputs n).fresh) = false
  secret : ∀ n, (varchar 128 (inputs n).random).isSome = true
  hash : ∀ salt, textOk (P.argon2Hash salt c.password) = true
  verify : ∀ salt, P.argon2Verify (P.argon2Hash salt c.password) c.password = .verified
  steps : db.setup.Stored

/-- A request that returns and leaves accounts where there were none has created one. -/
theorem creates_of_completes (hnone : sh.db.users = [])
    (h : (endpoint P req).Completes (soloExec P) (Solo.init inputs sh) fun _ s' =>
      s'.shared.db.users ≠ []) : Creates P req inputs sh := by
  obtain ⟨r, s', hrun, husers⟩ := h
  have hdb : (serve P req inputs sh).db = s'.shared.db := by
    rw [serve_eq, show (endpoint P req).eval _ _ = _ from hrun]
  obtain ⟨row, hrow⟩ := List.exists_mem_of_ne_nil _ husers
  refine ⟨row, hdb ▸ hrow, ?_⟩
  rw [hnone]
  exact List.not_mem_nil

variable {c : AdminCreateRequest} (hc : Undisturbed P c inputs sh.db)
include hc

theorem creates_setupAdmin (h : sh.db.acceptsJson c = true)
    (hroute : req.route = .setupAdmin (.typed c)) : Creates P req inputs sh := by
  simp only [Database.acceptsJson, Bool.and_eq_true, Bool.not_eq_true', List.isEmpty_iff] at h
  obtain ⟨⟨⟨hnone, hincomplete⟩, hvalid⟩, htext⟩ := h
  have hname : (varchar 150 c.username).isSome = true := by
    simp only [AdminCreateRequest.valid, lengthIn, Bool.and_eq_true, decide_eq_true_eq] at hvalid
    rw [varchar_eq_self hvalid.1.2 htext]
    rfl
  refine creates_of_completes hnone ?_
  rw [endpoint, hroute]
  refine completes_session (Q := fun _ db => db.users ≠ []) hc.fault ?_
  refine (completes_pure (Q := fun _ s' => s' = Solo.init inputs sh) rfl).bind ?_
  rintro u s rfl
  simp only [checked, hvalid, if_true]
  have hguard : Api.requireIncomplete.Completes (soloExec P) (Solo.init inputs sh) fun _ s' =>
      s'.Open inputs := by
    refine (completes_isComplete hc.fault (Solo.open_init inputs sh)).bind ?_
    rintro complete s₁ ⟨rfl, h₁, -⟩
    rw [Solo.view_init, hincomplete]
    exact completes_pure h₁
  refine (hguard.and_runs fun _ _ hrun => runs_requireIncomplete hrun).bind ?_
  rintro u s₁ ⟨h₁, -, hview₁⟩
  have hempty : s₁.view.users = [] := by
    rw [hview₁]
    exact hnone
  have hcreate := completes_createAdmin hc.fault hname (fun n => hc.hash _) hempty h₁
  refine ((hcreate.and_runs fun _ _ hrun => runs_createAdmin_row hrun).tryCatch).bind ?_
  rintro user s₂ ⟨h₂, row, -, -, hview₂⟩
  have hstored : s₂.view.setup.Stored := by
    rw [hview₂, hview₁]
    exact hc.steps
  refine (completes_advance hc.fault (by decide) h₂ hstored).bind ?_
  rintro u s₃ ⟨h₃, hview₃⟩
  refine completes_pure ⟨h₃, ?_⟩
  rw [hview₃, hview₂]
  exact List.append_ne_nil_of_right_ne_nil _ (List.cons_ne_nil _ _)

theorem creates_setupAdminPost (h : sh.db.acceptsForm P req c = true) {form : CredentialsForm}
    (hform : form.read = some (c.username, c.password))
    (hroute : req.route = .setupAdminPost form) : Creates P req inputs sh := by
  simp only [Database.acceptsForm, Bool.and_eq_true, List.isEmpty_iff, decide_eq_true_eq] at h
  obtain ⟨⟨⟨⟨hnone, htext⟩, hlength⟩, hip⟩, hua⟩ := h
  refine creates_of_completes hnone ?_
  rw [endpoint, hroute]
  exact (completes_setupAdminPost hc.fault hform hnone
    ⟨varchar_eq_self hlength htext, htext, hc.hash, hc.verify,
      ⟨hip, hua, hc.fresh, hc.secret⟩⟩ hc.steps).mono fun _ _ h => h.2.1

end Routes

/-! ## Runs -/

section Runs
variable {P : Platform} {req : Request} {inputs : Nat → Input} {sh : Shared}

/-- One request: every account was there before, or the request asked for it with credentials
that the policy allows. -/
theorem serve_withinPolicy (hreq : req.bootstraps = true) (hpolicy : WithinPolicy P sh.db req = true)
    {row : User} (hrow : row ∈ (serve P req inputs sh).db.users) :
    row ∈ sh.db.users ∨
      ∃ c, req.credentials = some c ∧ c.valid = true ∧ row.CreatedWith P c := by
  cases hroute : req.route with
  | setupAdmin body =>
    rcases serve_setupAdmin hroute with h | ⟨c, hc, hvalid, -, hcreated⟩
    · rw [h] at hrow
      exact .inl hrow
    · exact .inr ⟨c, hc, hvalid, hcreated row hrow⟩
  | setupAdminPost form =>
    rcases serve_setupAdminPost hroute with h | ⟨c, hc, haccepts, hcreated⟩
    · rw [h] at hrow
      exact .inl hrow
    · refine .inr ⟨c, hc, ?_, hcreated row hrow⟩
      simp only [Request.credentials, hroute, Option.map_eq_some_iff] at hc
      obtain ⟨credentials, hform, rfl⟩ := hc
      simpa only [WithinPolicy, hroute, hform, Option.all_some, haccepts, Bool.not_true,
        Bool.false_or] using hpolicy
  | _ => simp [Request.bootstraps, hroute] at hreq

end Runs

/-- **The account policy.** In every run of requests for the first account whose forms are
sent what the policy allows, or what the form turns down, each account was there before or
was created by a request of the run with a name and a password that the policy allows. And
in every state the two routes agree on credentials, if nothing disturbs them, exactly when
they are among those that both routes accept or neither does. -/
theorem account_policy (P : Platform) :
    (∀ (run : List (Request × (Nat → Input))) (sh : Shared),
      (∀ step ∈ run, step.1.bootstraps = true) →
      Throughout P (fun sh req _ => WithinPolicy P sh.db req = true) run sh →
      ∀ row ∈ (serveAll P run sh).db.users, row ∈ sh.db.users ∨
        ∃ step ∈ run, ∃ c, step.1.credentials = some c ∧ c.valid = true ∧
          row.CreatedWith P c) ∧
    ∀ (req : Request) (inputs : Nat → Input) (sh : Shared) (c : AdminCreateRequest),
      Undisturbed P c inputs sh.db →
      ((Creates P { req with route := .setupAdmin (.typed c) } inputs sh ↔
          Creates P { req with
            route := .setupAdminPost ⟨.value c.username, .value c.password⟩ } inputs sh) ↔
        (sh.db.acceptsJson c = true ↔ sh.db.acceptsForm P req c = true)) := by
  refine ⟨fun run => ?_, fun req inputs sh c hc => ?_⟩
  · induction run with
    | nil => exact fun sh _ _ row hrow => .inl hrow
    | cons step rest ih =>
      intro sh hreqs hrun row hrow
      obtain ⟨req, inputs⟩ := step
      rcases ih (serve P req inputs sh) (fun step hstep => hreqs step (List.mem_cons_of_mem _ hstep))
        hrun.2 row hrow with hold | ⟨step, hstep, hcreated⟩
      · rcases serve_withinPolicy (hreqs _ List.mem_cons_self) hrun.1 hold with hold | hcreated
        · exact .inl hold
        · exact .inr ⟨(req, inputs), List.mem_cons_self, hcreated⟩
      · exact .inr ⟨step, List.mem_cons_of_mem _ hstep, hcreated⟩
  · have hform : (CredentialsForm.mk (.value c.username) (.value c.password)).read =
        some (c.username, c.password) := by
      have hread : ∀ t : String, (Param.value t).readText "" = some t := by
        intro t
        unfold Param.readText
        by_cases ht : t = ""
        · simp [ht]
        · simp [ht]
      simp [CredentialsForm.read, hread]
    have hjson : Creates P { req with route := .setupAdmin (.typed c) } inputs sh ↔
        sh.db.acceptsJson c = true := by
      refine ⟨?_, fun h => creates_setupAdmin hc h rfl⟩
      rintro ⟨row, hrow, hnew⟩
      have hroute : ({ req with route := .setupAdmin (.typed c) } : Request).route =
        .setupAdmin (.typed c) := rfl
      rcases serve_setupAdmin hroute with h | ⟨c', hc', -, h, -⟩
      · rw [h] at hrow
        exact absurd hrow hnew
      · cases hc'
        exact h
    have hpost : Creates P { req with
          route := .setupAdminPost ⟨.value c.username, .value c.password⟩ } inputs sh ↔
        sh.db.acceptsForm P req c = true := by
      refine ⟨?_, fun h => creates_setupAdminPost hc h hform rfl⟩
      rintro ⟨row, hrow, hnew⟩
      have hroute : ({ req with
          route := .setupAdminPost ⟨.value c.username, .value c.password⟩ } : Request).route =
        .setupAdminPost ⟨.value c.username, .value c.password⟩ := rfl
      rcases serve_setupAdminPost hroute with h | ⟨c', hc', h, -⟩
      · rw [h] at hrow
        exact absurd hrow hnew
      · simp only [Request.credentials, hform, Option.map_some, Option.some.injEq] at hc'
        rw [← hc'] at h
        exact h
    rw [hjson, hpost]

/-- The form creates an account that the policy allows; the JSON route would have, too. -/
theorem account_policy_sample :
    let c : AdminCreateRequest := ⟨"admin", Platform.samplePassword⟩
    let form : Route := .setupAdminPost ⟨.value c.username, .value c.password⟩
    let run : List (Request × (Nat → Input)) := [({ route := form }, Input.signing 2)]
    (∀ row ∈ (serveAll Platform.sample run Shared.fresh).db.users, row ∈ Shared.fresh.db.users ∨
      ∃ step ∈ run, ∃ c, step.1.credentials = some c ∧ c.valid = true ∧
        row.CreatedWith Platform.sample c) ∧
    (Creates Platform.sample { route := .setupAdmin (.typed c) } (Input.signing 2) Shared.fresh ↔
      Creates Platform.sample { route := form } (Input.signing 2) Shared.fresh) := by
  intro c form run
  have hpolicy := account_policy Platform.sample
  refine ⟨hpolicy.1 run Shared.fresh (by decide) ⟨by decide +kernel, trivial⟩, ?_⟩
  refine (hpolicy.2 { route := form } (Input.signing 2) Shared.fresh c
    ⟨fun _ => rfl, fun _ => rfl, fun _ => ?_, fun _ => ?_, fun _ => ?_, rfl⟩).mpr ?_
  · show (varchar 128 Platform.sampleSecret).isSome = true
    decide
  · show textOk Platform.sampleHash = true
    decide
  · show Platform.sample.argon2Verify Platform.sampleHash Platform.samplePassword = .verified
    decide
  · decide +kernel

/-- The form takes a name of two characters, which the policy does not allow. -/
theorem account_policy_bypassed :
    ¬ ∀ run : List (Request × (Nat → Input)), (∀ step ∈ run, step.1.bootstraps = true) →
      ∀ row ∈ (serveAll Platform.sample run Shared.fresh).db.users,
        ∃ c : AdminCreateRequest, c.valid = true ∧ row.CreatedWith Platform.sample c := by
  intro h
  have hrow := h [({ route := .setupAdminPost ⟨.value "ab", .value Platform.samplePassword⟩ },
    Input.signing 2)] (by decide)
    ⟨Uuid.ofNat 2, "ab", Platform.sampleHash, "admin", some sampleTime⟩ (by decide +kernel)
  obtain ⟨c, hvalid, hname, -⟩ := hrow
  simp only [AdminCreateRequest.valid, ← hname, Bool.and_eq_true] at hvalid
  exact absurd hvalid.1 (by decide)

end WolMonkey
