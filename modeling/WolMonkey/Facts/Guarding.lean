import WolMonkey.Facts.Obedience

/-!
# Guarding

Which credentials a route asks for, and what the history of a request shows about them. The
code of every route only looks credentials up until its history shows those that the route
asks for; from then on it does what it likes.
-/

namespace WolMonkey

open Programs Program

/-! ## Guards -/

/-- The credentials that a route asks for. -/
inductive Guard where
  | anyone
  | session
  /-- A session, and a CSRF token that was signed for it. -/
  | csrf
  | token
  /-- A session, or else a token. -/
  | either
deriving DecidableEq

def Route.guard : Route → Guard
  | createToken _ | revokeToken _ | createMachine _ | updateMachine _ _ | deleteMachine _
  | wakeMachine _ _ => .csrf
  | wakeMachineDirect _ _ => .token
  | me | listMachines _ | getMachine _ | getAttemptStatus _ _ | machineStatus _ => .either
  | apiLogout | listTokens _ | listInterfaces | discoverHosts | machinesPage | machineNewPage
  | machineNewPost _ | machineEditPage _ | machineEditPost _ _ | tokensPage | sshSetupPage
  | settingsPage | settingsPost _ => .session
  | _ => .anyone

/-- The operations of the guards: they look credentials up, read the time, load a CSRF token
and note the use of a token; and the transaction may end. -/
def Op.checks : Op → Bool
  | .stmt .main (.sessionGet _) | .stmt .main (.userGet _) | .stmt .main (.tokenByHash _)
  | .stmt .main (.tokenTouch _) | .now | .csrfLoads _ | .commit .main | .rollback .main
  | .close .main => true
  | _ => false

/-! ## What a history shows -/

/-- The operation was performed, with this answer. -/
abbrev Answered (done : List (Event app)) (op : Op) (a : op.Answer) : Prop :=
  (⟨op, .ok a⟩ : Event app) ∈ done

/-- The text names a session that is neither revoked nor expired, and whose user exists. -/
structure ShowsSession (text : String) (s : Session) (u : User) (done : List (Event app)) :
    Prop where
  row : Answered done (.stmt .main (.sessionGet text)) (some s)
  live : s.revoked = false
  unexpired : ∃ now, Answered done .now now ∧ now ≤ s.expiresAt
  user : Answered done (.stmt .main (.userGet s.userId.text)) (some u)

/-- The CSRF token of the request was signed for the session. -/
def ShowsCsrf (req : Request) (s : Session) (done : List (Event app)) : Prop :=
  Answered done (.csrfLoads req.csrfToken) (some (s.id.text, s.csrfSecret))

/-- The request bears a token that is not revoked. -/
structure ShowsToken (P : Platform) (raw : String) (k : ApiToken) (done : List (Event app)) :
    Prop where
  row : Answered done (.stmt .main (.tokenByHash (P.sha256 raw))) (some k)
  live : k.revokedAt = none

/-- The history shows the credentials that the route asks for. -/
def Granted (P : Platform) (req : Request) (done : List (Event app)) : Prop :=
  match req.route.guard with
  | .anyone => True
  | .session => ∃ text s u, req.cookie = some text ∧ ShowsSession text s u done
  | .csrf => ∃ text s u, req.cookie = some text ∧ ShowsSession text s u done ∧
      ShowsCsrf req s done
  | .token => ∃ raw k, bearerToken req.authorization = some raw ∧ ShowsToken P raw k done
  | .either => (∃ text s u, req.cookie = some text ∧ ShowsSession text s u done) ∨
      ∃ raw k, bearerToken req.authorization = some raw ∧ ShowsToken P raw k done

/-- What the code of a thread may do after `done`. -/
def Mediated (P : Platform) : Label → List (Event app) → Op → Prop
  | .request req, done, op => op.checks = true ∨ Granted P req done
  | .worker _, _, _ => True

section Shows
variable {P : Platform} {req : Request} {done : List (Event app)}

theorem ShowsSession.cons {text : String} {s : Session} {u : User}
    (h : ShowsSession text s u done) (e : Event app) : ShowsSession text s u (e :: done) := by
  obtain ⟨now, hnow, hle⟩ := h.unexpired
  exact ⟨List.mem_cons_of_mem _ h.row, h.live, ⟨now, List.mem_cons_of_mem _ hnow, hle⟩,
    List.mem_cons_of_mem _ h.user⟩

theorem ShowsToken.cons {raw : String} {k : ApiToken} (h : ShowsToken P raw k done)
    (e : Event app) : ShowsToken P raw k (e :: done) :=
  ⟨List.mem_cons_of_mem _ h.row, h.live⟩

/-- What a history shows is shown by every longer one. -/
theorem Granted.cons (h : Granted P req done) (e : Event app) : Granted P req (e :: done) := by
  unfold Granted at h ⊢
  cases hguard : req.route.guard with
  | anyone => trivial
  | session =>
    rw [hguard] at h
    obtain ⟨text, s, u, hcookie, hs⟩ := h
    exact ⟨text, s, u, hcookie, hs.cons e⟩
  | csrf =>
    rw [hguard] at h
    obtain ⟨text, s, u, hcookie, hs, hcsrf⟩ := h
    exact ⟨text, s, u, hcookie, hs.cons e, List.mem_cons_of_mem _ hcsrf⟩
  | token =>
    rw [hguard] at h
    obtain ⟨raw, k, hraw, hk⟩ := h
    exact ⟨raw, k, hraw, hk.cons e⟩
  | either =>
    rw [hguard] at h
    rcases h with ⟨text, s, u, hcookie, hs⟩ | ⟨raw, k, hraw, hk⟩
    · exact .inl ⟨text, s, u, hcookie, hs.cons e⟩
    · exact .inr ⟨raw, k, hraw, hk.cons e⟩

end Shows

/-! ## The guards -/

section Guards
variable {P : Platform} {req : Request} {done : List (Event app)}
  {ok : List (Event app) → Op → Prop} (hok : ∀ done op, Op.checks op = true → ok done op)
include hok

theorem obeys_shownSession {text : String} :
    Obeys (history ok) (fun su done' => ShowsSession text su.1 su.2 done') (fun _ _ => True) done
      (AuthService.validateSession text) := by
  unfold AuthService.validateSession SqlSessionRepository.getById guardUuid
  rw [obeys_bind]
  split
  swap
  · exact (obeys_pure _).mpr ((obeys_raise _).mpr trivial)
  refine (obeys_execute (s := .sessionGet text)).mpr ⟨hok _ _ rfl, fun found _ => ?_, fun _ _ => trivial⟩
  cases found with
  | none => exact (obeys_raise _).mpr trivial
  | some s =>
    dsimp only
    split
    · exact (obeys_raise _).mpr trivial
    rename_i hrevoked
    rw [obeys_bind, obeys_await]
    refine ⟨hok _ _ rfl, fun now _ => ?_, fun _ _ => trivial⟩
    split
    · exact (obeys_raise _).mpr trivial
    rename_i hexpired
    unfold SqlUserRepository.getById guardUuid
    rw [obeys_bind]
    split
    swap
    · exact (obeys_pure _).mpr ((obeys_raise _).mpr trivial)
    refine (obeys_execute (s := .userGet s.userId.text)).mpr
      ⟨hok _ _ rfl, fun found _ => ?_, fun _ _ => trivial⟩
    cases found with
    | none => exact (obeys_raise _).mpr trivial
    | some u =>
      refine (obeys_pure _).mpr ⟨?_, by simpa using hrevoked, ⟨now, ?_, Int.not_lt.mp hexpired⟩, ?_⟩
      · exact List.mem_cons_of_mem _ (List.mem_cons_of_mem _ List.mem_cons_self)
      · exact List.mem_cons_of_mem _ List.mem_cons_self
      · exact List.mem_cons_self

theorem obeys_currentSession :
    Obeys (history ok)
      (fun su done' => ∃ text, req.cookie = some text ∧ ShowsSession text su.1 su.2 done')
      (fun _ _ => True) done (getCurrentSessionAndUser req) := by
  unfold getCurrentSessionAndUser
  split
  · exact (obeys_raise _).mpr trivial
  · rename_i text hcookie
    rw [obeys_tryCatch]
    refine (obeys_shownSession hok).mono (fun su done' h => ⟨text, hcookie, h⟩) ?_
    exact fun _ _ _ => (obeys_raise _).mpr trivial

theorem obeys_currentUser :
    Obeys (history ok)
      (fun u done' => ∃ text s, req.cookie = some text ∧ ShowsSession text s u done')
      (fun _ _ => True) done (getCurrentUser req) := by
  unfold getCurrentUser
  rw [obeys_bind]
  refine (obeys_currentSession hok).mono (fun su done' h => ?_) fun _ _ _ => trivial
  obtain ⟨text, hcookie, hs⟩ := h
  exact (obeys_pure _).mpr ⟨text, su.1, hcookie, hs⟩

theorem obeys_csrfGuard :
    Obeys (history ok)
      (fun u done' => ∃ text s, req.cookie = some text ∧ ShowsSession text s u done' ∧
        ShowsCsrf req s done')
      (fun _ _ => True) done (csrfProtectedUser req) := by
  unfold csrfProtectedUser
  rw [obeys_bind]
  refine (obeys_currentSession hok).mono (fun su done' h => ?_) fun _ _ _ => trivial
  obtain ⟨text, hcookie, hs⟩ := h
  obtain ⟨s, u⟩ := su
  dsimp only
  unfold requireCsrf validateCsrfToken
  rw [obeys_bind]
  split
  · exact (obeys_raise _).mpr trivial
  · rw [obeys_bind, obeys_bind, obeys_await]
    refine ⟨hok _ _ rfl, fun data _ => ?_, fun _ _ => trivial⟩
    rw [obeys_pure]
    split
    · rename_i hdata
      refine (obeys_pure _).mpr ((obeys_pure _).mpr ⟨text, s, hcookie, hs.cons _, ?_⟩)
      rw [of_decide_eq_true hdata]
      exact List.mem_cons_self
    · exact (obeys_raise _).mpr trivial

theorem obeys_validateApiToken {raw : String} :
    Obeys (history ok) (fun k done' => ShowsToken P raw k done') (fun _ _ => True) done
      (AuthService.validateApiToken P raw) := by
  unfold AuthService.validateApiToken SqlApiTokenRepository.getByHash
    SqlApiTokenRepository.touchLastUsed
  rw [obeys_bind]
  refine (obeys_execute (s := .tokenByHash (P.sha256 raw))).mpr ⟨hok _ _ rfl, fun found _ => ?_, fun _ _ => trivial⟩
  cases found with
  | none => exact (obeys_raise _).mpr trivial
  | some k =>
    dsimp only
    split
    · exact (obeys_raise _).mpr trivial
    rename_i hrevoked
    rw [obeys_bind]
    refine (obeys_execute (s := .tokenTouch k.id.text)).mpr ⟨hok _ _ rfl, fun _ _ => ?_, fun _ _ => trivial⟩
    refine (obeys_pure _).mpr ⟨List.mem_cons_of_mem _ List.mem_cons_self, ?_⟩
    simpa using hrevoked

theorem obeys_getApiToken :
    Obeys (history ok)
      (fun k done' => ∃ raw, bearerToken req.authorization = some raw ∧ ShowsToken P raw k done')
      (fun _ _ => True) done (getApiToken P req) := by
  unfold getApiToken
  split
  · exact (obeys_raise _).mpr trivial
  · rename_i raw hraw
    rw [obeys_tryCatch]
    refine (obeys_validateApiToken hok).mono (fun k done' h => ⟨raw, hraw, h⟩) ?_
    exact fun _ _ _ => (obeys_raise _).mpr trivial

theorem obeys_sessionOrToken :
    Obeys (history ok)
      (fun _ done' => (∃ text s u, req.cookie = some text ∧ ShowsSession text s u done') ∨
        ∃ raw k, bearerToken req.authorization = some raw ∧ ShowsToken P raw k done')
      (fun _ _ => True) done (getUserFromSessionOrToken P req) := by
  have hsession : Obeys (history ok)
      (fun found done' => ∀ u, found = some u → ∃ text s, req.cookie = some text ∧
        ShowsSession text s u done') (fun _ _ => True) done (sessionUser? req) := by
    unfold sessionUser?
    split
    · exact (obeys_pure _).mpr (by simp)
    · rename_i text hcookie
      rw [obeys_tryCatch, obeys_bind]
      refine (obeys_shownSession hok).mono (fun su done' h => ?_) fun _ _ _ => ?_
      · refine (obeys_pure _).mpr ?_
        rintro u ⟨⟩
        exact ⟨text, su.1, hcookie, h⟩
      · exact (obeys_pure _).mpr (by simp)
  unfold getUserFromSessionOrToken
  rw [obeys_bind]
  refine hsession.mono (fun found done' h => ?_) fun _ _ _ => trivial
  cases found with
  | some u =>
    obtain ⟨text, s, hcookie, hs⟩ := h u rfl
    exact (obeys_pure _).mpr (.inl ⟨text, s, u, hcookie, hs⟩)
  | none =>
    have htoken : Obeys (history ok)
        (fun found done' => found.isSome = true → ∃ raw k,
          bearerToken req.authorization = some raw ∧ ShowsToken P raw k done')
        (fun _ _ => True) done' (tokenUser? P req) := by
      unfold tokenUser? SqlUserRepository.getById guardUuid
      split
      · exact (obeys_pure _).mpr (by simp)
      · rename_i raw hraw
        rw [obeys_tryCatch, obeys_bind]
        refine (obeys_validateApiToken hok).mono (fun k done' hk => ?_) fun _ _ _ => ?_
        · split
          · refine (obeys_execute (s := .userGet k.userId.text)).mpr
              ⟨hok _ _ rfl, fun _ _ _ => ⟨raw, k, hraw, hk.cons _⟩, fun _ _ => ?_⟩
            exact (obeys_pure _).mpr (by simp)
          · exact (obeys_pure _).mpr (by simp)
        · exact (obeys_pure _).mpr (by simp)
    rw [obeys_bind]
    refine htoken.mono (fun found done' h => ?_) fun _ _ _ => trivial
    cases found with
    | none => exact (obeys_raise _).mpr trivial
    | some u => exact (obeys_pure _).mpr (.inr (h rfl))

theorem obeys_webAuth :
    Obeys (history ok)
      (fun found done' => ∀ u, found = some u → ∃ text s, req.cookie = some text ∧
        ShowsSession text s u done') (fun _ _ => True) done (Web.requireWebAuth req) := by
  unfold Web.requireWebAuth
  dsimp only
  split
  · exact (obeys_pure _).mpr (by simp)
  · rename_i hcookie
    have hsome : req.cookie = some (req.cookie.getD "") := by
      cases hc : req.cookie with
      | none => simp [hc] at hcookie
      | some text => rfl
    rw [obeys_tryCatch, obeys_bind]
    refine (obeys_shownSession hok).mono (fun su done' h => ?_) fun _ _ _ => ?_
    · refine (obeys_pure _).mpr ?_
      rintro u ⟨⟩
      exact ⟨_, su.1, hsome, h⟩
    · exact (obeys_pure _).mpr (by simp)

end Guards

/-! ## The routes -/

section Routes
variable {P : Platform} {req : Request} {done : List (Event app)}

/-- What the code of a request may do after what it has done. -/
abbrev guarding (P : Platform) (req : Request) : Monitor app :=
  history (Mediated P (.request req))

theorem checks_guarding (done : List (Event app)) (op : Op) (h : op.checks = true) :
    Mediated P (.request req) done op := .inl h

theorem endsFreely_guarding : EndsFreely (guarding P req) :=
  ⟨fun _ => .inl rfl, fun _ => .inl rfl, fun _ => .inl rfl⟩

/-- With the credentials, everything is permitted. -/
theorem heeds_of_granted {α : Type} {p : Code α} (h : Granted P req done) :
    p.Heeds (guarding P req) done :=
  heeds_of_kept (M := guarding P req) (Q := Granted P req)
    (fun _ _ hg => ⟨.inr hg, fun _ _ => hg.cons _⟩) h

/-- Behind a guard that lets only granted requests through, everything is permitted. -/
theorem heeds_behind {α β : Type} {guard : Code α} {rest : α → Code β}
    (hguard : Obeys (guarding P req) (fun _ done' => Granted P req done') (fun _ _ => True) done
      guard) : (getDbSession (guard >>= rest)).Heeds (guarding P req) done := by
  refine heeds_getDbSession endsFreely_guarding (heeds_bind.mpr ?_)
  exact hguard.mono (fun _ _ h => heeds_of_granted h) fun _ _ _ => trivial

theorem heeds_bodyBehind {α β γ δ : Type} {body : JsonBody β} {validate : β → Option γ}
    {guard : Code δ} {rest : δ → γ → Code α}
    (hguard : Obeys (guarding P req) (fun _ done' => Granted P req done') (fun _ _ => True) done
      guard) : (withBody body validate guard rest).Heeds (guarding P req) done := by
  refine heeds_withBody endsFreely_guarding ?_
  exact hguard.mono (fun _ _ h _ _ _ _ => heeds_of_granted h) fun _ _ _ => trivial

theorem guarding_session (hguard : req.route.guard = .session) :
    Obeys (guarding P req) (fun _ done' => Granted P req done') (fun _ _ => True) done
      (getCurrentSessionAndUser req) := by
  refine (obeys_currentSession checks_guarding).mono (fun su done' h => ?_) fun _ _ _ => trivial
  obtain ⟨text, hcookie, hs⟩ := h
  unfold Granted
  rw [hguard]
  exact ⟨text, su.1, su.2, hcookie, hs⟩

theorem guarding_user (hguard : req.route.guard = .session) :
    Obeys (guarding P req) (fun _ done' => Granted P req done') (fun _ _ => True) done
      (getCurrentUser req) := by
  refine (obeys_currentUser checks_guarding).mono (fun u done' h => ?_) fun _ _ _ => trivial
  obtain ⟨text, s, hcookie, hs⟩ := h
  unfold Granted
  rw [hguard]
  exact ⟨text, s, u, hcookie, hs⟩

theorem guarding_csrf (hguard : req.route.guard = .csrf) :
    Obeys (guarding P req) (fun _ done' => Granted P req done') (fun _ _ => True) done
      (csrfProtectedUser req) := by
  refine (obeys_csrfGuard checks_guarding).mono (fun u done' h => ?_) fun _ _ _ => trivial
  obtain ⟨text, s, hcookie, hs, hcsrf⟩ := h
  unfold Granted
  rw [hguard]
  exact ⟨text, s, u, hcookie, hs, hcsrf⟩

theorem guarding_token (hguard : req.route.guard = .token) :
    Obeys (guarding P req) (fun _ done' => Granted P req done') (fun _ _ => True) done
      (getApiToken P req) := by
  refine (obeys_getApiToken checks_guarding).mono (fun k done' h => ?_) fun _ _ _ => trivial
  obtain ⟨raw, hraw, hk⟩ := h
  unfold Granted
  rw [hguard]
  exact ⟨raw, k, hraw, hk⟩

theorem guarding_either (hguard : req.route.guard = .either) :
    Obeys (guarding P req) (fun _ done' => Granted P req done') (fun _ _ => True) done
      (getUserFromSessionOrToken P req) := by
  refine (obeys_sessionOrToken checks_guarding).mono (fun u done' h => ?_) fun _ _ _ => trivial
  unfold Granted
  rw [hguard]
  exact h

theorem heeds_withWebAuth (hguard : req.route.guard = .session) {page : User → Code Response} :
    (Web.withWebAuth req page).Heeds (guarding P req) done := by
  unfold Web.withWebAuth
  rw [heeds_bind]
  refine (obeys_webAuth checks_guarding).mono (fun found done' h => ?_) fun _ _ _ => trivial
  cases found with
  | none => exact heeds_pure _
  | some u =>
    obtain ⟨text, s, hcookie, hs⟩ := h u rfl
    refine heeds_of_granted ?_
    unfold Granted
    rw [hguard]
    exact ⟨text, s, u, hcookie, hs⟩

theorem heeds_webPage (hguard : req.route.guard = .session) {page : User → Code Response} :
    (getDbSession (Web.withWebAuth req page)).Heeds (guarding P req) done :=
  heeds_getDbSession endsFreely_guarding (heeds_withWebAuth hguard)

theorem heeds_webForm (hguard : req.route.guard = .session) {γ : Type} {form : Option γ}
    {page : γ → User → Code Response} :
    (withForm form fun fields => Web.withWebAuth req (page fields)).Heeds (guarding P req) done :=
  heeds_withForm endsFreely_guarding fun _ _ => heeds_withWebAuth hguard

/-- **Guards come first.** The code of a route only looks credentials up until its history
shows those that the route asks for. -/
theorem heeds_endpoint : (endpoint P req).Heeds (guarding P req) done := by
  by_cases hopen : req.route.guard = .anyone
  · refine heeds_of_granted ?_
    unfold Granted
    rw [hopen]
    trivial
  unfold endpoint
  cases hroute : req.route with
  | apiLogout => exact heeds_behind (guarding_session (by rw [hroute]; rfl))
  | listTokens _ | listInterfaces | discoverHosts =>
    exact heeds_behind (guarding_user (by rw [hroute]; rfl))
  | me | listMachines _ | getMachine _ | getAttemptStatus _ _ | machineStatus _ =>
    exact heeds_behind (guarding_either (by rw [hroute]; rfl))
  | revokeToken _ | deleteMachine _ => exact heeds_behind (guarding_csrf (by rw [hroute]; rfl))
  | createToken _ | createMachine _ | updateMachine _ _ | wakeMachine _ _ =>
    exact heeds_bodyBehind (guarding_csrf (by rw [hroute]; rfl))
  | wakeMachineDirect _ _ => exact heeds_bodyBehind (guarding_token (by rw [hroute]; rfl))
  | machinesPage | machineNewPage | machineEditPage _ | tokensPage | sshSetupPage
  | settingsPage => exact heeds_webPage (by rw [hroute]; rfl)
  | machineNewPost _ | machineEditPost _ _ | settingsPost _ =>
    exact heeds_webForm (by rw [hroute]; rfl)
  | _ => exact absurd (by rw [hroute]; rfl) hopen

theorem mediated_start (label : Label) : (start P label).Heeds (history (Mediated P label)) [] := by
  cases label with
  | request req => exact heeds_start_request heeds_endpoint
  | worker fuel =>
    exact heeds_of_kept (Q := fun _ => True) (fun _ _ _ => ⟨trivial, fun _ _ => trivial⟩) trivial

end Routes

end WolMonkey
