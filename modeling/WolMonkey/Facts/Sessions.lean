import WolMonkey.Facts.Execution

/-!
# Live sessions and live tokens

When a cookie names a live session, and what follows from a guard that lets a request
through: `validate_session` only returns the session and the user of a live session, and
`require_csrf` only returns when the token of the request was made for that session.
-/

namespace WolMonkey

open Programs Program

/-- The cookie names, at a time, a session that is neither revoked nor expired, of a user
that exists. -/
def LiveSession (db : Database) (t : DateTime) (cookie : String) (session : Session)
    (user : User) : Prop :=
  ∃ id, Uuid.parse? cookie = some id ∧ db.sessions.find? (·.id == id) = some session ∧
    session.revoked = false ∧ t ≤ session.expiresAt ∧
    db.users.find? (·.id == session.userId) = some user

/-- The cookie of the request names no live session at any moment of the request. -/
def NoLiveCookie (db : Database) (inputs : Nat → Input) (req : Request) : Prop :=
  ∀ n cookie session user, req.cookie = some cookie →
    ¬ LiveSession db (inputs n).now cookie session user

/-- The token hashes to a row that is not revoked. -/
def LiveToken (P : Platform) (db : Database) (raw : String) (token : ApiToken) : Prop :=
  token ∈ db.tokens ∧ token.tokenHash = P.sha256 raw ∧ token.revokedAt = none

/-- The session that the administrator of a new installation has. -/
theorem liveSession_installed : LiveSession Database.installed sampleTime sampleSession.text
    (Database.installed.sessions.head (by decide)) (Database.installed.users.head (by decide)) := by
  refine ⟨sampleSession, by decide, by decide, by decide, ?_, by decide⟩
  show sampleTime ≤ sampleTime + DateTime.hours 12
  decide

section Guards
variable {P : Platform} {s s' : Solo}

theorem runs_userGetById {id : String} {found : Option User}
    (h : (SqlUserRepository.getById id).Runs (soloExec P) s found s') :
    s.Same s' ∧ ∀ user, found = some user →
      ∃ u, Uuid.parse? id = some u ∧ s.view.users.find? (·.id == u) = some user := by
  refine ⟨Runs.same uses_userGetById h, fun user hfound => ?_⟩
  rcases runs_guardUuid h with ⟨-, h⟩ | ⟨-, h, -⟩
  · obtain ⟨r, hran, rfl⟩ := runs_execute h
    obtain ⟨locked, hrun⟩ := hran.run
    simp only [Stmt.run, bind_eq_ok, uuidParam_eq_ok, pure_eq_ok] at hrun
    obtain ⟨u, hu, rfl⟩ := hrun
    exact ⟨u, hu, hfound⟩
  · rw [h] at hfound
    cases hfound

theorem runs_sessionGetById {id : String} {found : Option Session}
    (h : (SqlSessionRepository.getById id).Runs (soloExec P) s found s') :
    s.Same s' ∧ ∀ session, found = some session →
      ∃ u, Uuid.parse? id = some u ∧ s.view.sessions.find? (·.id == u) = some session := by
  refine ⟨Runs.same uses_sessionGetById h, fun session hfound => ?_⟩
  rcases runs_guardUuid h with ⟨-, h⟩ | ⟨-, h, -⟩
  · obtain ⟨r, hran, rfl⟩ := runs_execute h
    obtain ⟨locked, hrun⟩ := hran.run
    simp only [Stmt.run, bind_eq_ok, uuidParam_eq_ok, pure_eq_ok] at hrun
    obtain ⟨u, hu, rfl⟩ := hrun
    exact ⟨u, hu, hfound⟩
  · rw [h] at hfound
    cases hfound

/-- A session that was validated is live at a moment of the request. -/
theorem runs_validateSession {cookie : String} {session : Session} {user : User}
    (h : (AuthService.validateSession cookie).Runs (soloExec P) s (session, user) s') :
    s.Same s' ∧ ∃ n, LiveSession s.view (s.inputs n).now cookie session user := by
  refine ⟨Runs.same uses_validateSession h, ?_⟩
  unfold AuthService.validateSession at h
  obtain ⟨found, s₁, hget, h⟩ := runs_bind.mp h
  obtain ⟨hsame₁, hfound⟩ := runs_sessionGetById hget
  cases found with
  | none => exact absurd h (by simp [runs_raise])
  | some se =>
    dsimp only at h
    split at h
    · exact absurd h (by simp [runs_raise])
    · rename_i hrevoked
      obtain ⟨now, s₂, hnow, h⟩ := runs_bind.mp h
      obtain ⟨k, hk⟩ := Runs.later hget
      obtain ⟨rfl, hsame₂⟩ := runs_now hnow
      split at h
      · exact absurd h (by simp [runs_raise])
      · rename_i hexpires
        obtain ⟨u, s₃, huser, h⟩ := runs_bind.mp h
        obtain ⟨hsame₃, hu⟩ := runs_userGetById huser
        cases u with
        | none => exact absurd h (by simp [runs_raise])
        | some u =>
          rw [runs_pure] at h
          obtain ⟨hpair, -⟩ := h
          cases hpair
          obtain ⟨id, hid, hrow⟩ := hfound session rfl
          obtain ⟨uid, huid, hurow⟩ := hu user rfl
          rw [Uuid.parse?_text] at huid
          cases huid
          rw [(hsame₁.trans hsame₂).view] at hurow
          have hnow : (s₁.inputs 0).now = (s.inputs (k + 0)).now := by rw [hk]
          refine ⟨k + 0, id, hid, hrow, by simpa using hrevoked, ?_, hurow⟩
          rw [← hnow]
          exact Int.not_lt.mp hexpires

/-- The guard of the JSON routes lets a request through whose cookie names a live session. -/
theorem runs_getCurrentSessionAndUser {req : Request} {session : Session} {user : User}
    (h : (getCurrentSessionAndUser req).Runs (soloExec P) s (session, user) s') :
    s.Same s' ∧ ∃ cookie, req.cookie = some cookie ∧
      ∃ n, LiveSession s.view (s.inputs n).now cookie session user := by
  unfold getCurrentSessionAndUser at h
  split at h
  · exact absurd h (by simp [runs_raise])
  · rename_i cookie hcookie
    rcases runs_tryCatch.mp h with h | ⟨e, s₁, -, h⟩
    · obtain ⟨hsame, hlive⟩ := runs_validateSession h
      exact ⟨hsame, cookie, hcookie, hlive⟩
    · exact absurd h (by simp [runs_raise])

/-- The guard of the web pages: it lets a request with a live session through, and sends
the others on with everything as it was. -/
theorem runs_requireWebAuth {req : Request} {found : Option User}
    (h : (Web.requireWebAuth req).Runs (soloExec P) s found s') :
    s.Same s' ∧ ∀ user, found = some user → ∃ cookie, req.cookie = some cookie ∧
      ∃ session n, LiveSession s.view (s.inputs n).now cookie session user := by
  refine ⟨Runs.same uses_requireWebAuth h, fun user hfound => ?_⟩
  subst hfound
  unfold Web.requireWebAuth at h
  dsimp only at h
  split at h
  · rw [runs_pure] at h
    cases h.1
  · rename_i hempty
    obtain ⟨cookie, hcookie⟩ : ∃ cookie, req.cookie = some cookie := by
      cases hc : req.cookie with
      | none => simp [hc] at hempty
      | some cookie => exact ⟨cookie, rfl⟩
    rw [hcookie, Option.getD_some] at h
    rcases runs_tryCatch.mp h with h | ⟨e, s₁, -, h⟩
    · obtain ⟨⟨session, u⟩, s₁, hvalid, h⟩ := runs_bind.mp h
      rw [runs_pure] at h
      obtain ⟨hu, -⟩ := h
      cases hu
      obtain ⟨-, n, hlive⟩ := runs_validateSession hvalid
      exact ⟨cookie, hcookie, session, n, hlive⟩
    · rw [runs_pure] at h
      cases h.1

/-- The user of a session cookie is the user of a live session. -/
theorem runs_sessionUser? {req : Request} {user : User}
    (h : (sessionUser? req).Runs (soloExec P) s (some user) s') :
    ∃ cookie session n, req.cookie = some cookie ∧
      LiveSession s.view (s.inputs n).now cookie session user := by
  unfold sessionUser? at h
  split at h
  · cases (runs_pure.mp h).1
  · rename_i cookie hcookie
    rcases runs_tryCatch.mp h with h | ⟨e, s₁, -, h⟩
    · obtain ⟨⟨session, u⟩, s₁, hvalid, h⟩ := runs_bind.mp h
      cases (runs_pure.mp h).1
      obtain ⟨-, n, hlive⟩ := runs_validateSession hvalid
      exact ⟨cookie, session, n, hcookie, hlive⟩
    · cases (runs_pure.mp h).1

end Guards

/-! ## Requests without a live session -/

section NoSession
variable {P : Platform} {inputs : Nat → Input} {req : Request} {sh : Shared}

theorem session_blocked (hlive : NoLiveCookie sh.db inputs req) (su : Session × User) (s' : Solo) :
    ¬ (getCurrentSessionAndUser req).Runs (soloExec P) (Solo.init inputs sh) su s' := by
  intro h
  obtain ⟨-, cookie, hcookie, n, hlive'⟩ := runs_getCurrentSessionAndUser h
  exact hlive n cookie su.1 su.2 hcookie hlive'

theorem csrf_blocked (hlive : NoLiveCookie sh.db inputs req) (u : User) (s' : Solo) :
    ¬ (csrfProtectedUser req).Runs (soloExec P) (Solo.init inputs sh) u s' := by
  intro h
  obtain ⟨su, s₁, hsession, -⟩ := runs_bind.mp h
  exact session_blocked hlive su s₁ hsession

/-- A JSON route behind session and CSRF token. -/
theorem withBody_csrf_blocked {α β γ : Type} {body : JsonBody β} {validate : β → Option γ}
    {endpoint : User → γ → Code α} (hlive : NoLiveCookie sh.db inputs req) :
    ((withBody body validate (csrfProtectedUser req) endpoint).eval (soloExec P)
      (Solo.init inputs sh)).2.shared.db = sh.db := by
  have hdeps : (csrfProtectedUser req).Uses (Within []) := uses_csrfProtectedUser
  exact withBody_blocked hdeps (by simp) (csrf_blocked hlive)

/-- The same without a body. -/
theorem getDbSession_csrf_blocked {α : Type} {endpoint : User → Code α}
    (hlive : NoLiveCookie sh.db inputs req) :
    ((getDbSession (csrfProtectedUser req >>= endpoint)).eval (soloExec P)
      (Solo.init inputs sh)).2.shared.db = sh.db := by
  have hdeps : (csrfProtectedUser req).Uses (Within []) := uses_csrfProtectedUser
  exact getDbSession_blocked hdeps (by simp) (csrf_blocked hlive)

/-- A page behind the login sends the request to the login page. -/
theorem withWebAuth_away (hlive : NoLiveCookie sh.db inputs req) (page : User → Code Response) :
    (Web.withWebAuth req page).eval (soloExec P) (Solo.init inputs sh) =
      (Web.requireWebAuth req >>= fun _ => Pure.pure (redirect "/login")).eval (soloExec P)
        (Solo.init inputs sh) := by
  refine eval_bind_congr fun found s₁ hauth => ?_
  cases found with
  | none => rfl
  | some user =>
    obtain ⟨cookie, hcookie, session, n, hlive'⟩ := (runs_requireWebAuth hauth).2 user rfl
    exact (hlive n cookie session user hcookie hlive').elim

/-- A form behind the login. -/
theorem withForm_webAuth_blocked {γ : Type} {form : Option γ} {page : γ → User → Code Response}
    (hlive : NoLiveCookie sh.db inputs req) :
    ((withForm form fun c => Web.withWebAuth req (page c)).eval (soloExec P)
      (Solo.init inputs sh)).2.shared.db = sh.db := by
  cases form with
  | none =>
    have hraise : (raise PyExc.validation : Code Response).Uses (Within []) := uses_raise _
    exact getDbSession_same hraise (by simp) rfl fun a s' h => (runs_raise.mp h).elim
  | some c =>
    have haway := getDbSession_congr (withWebAuth_away (P := P) hlive (page c))
    have hauth : (Web.requireWebAuth req >>= fun _ => Pure.pure (redirect "/login")).Uses
        (Within []) := Uses.bind uses_requireWebAuth fun _ => uses_pure _
    exact (congrArg (fun r => r.2.shared.db) haway).trans
      (getDbSession_same hauth (by simp) rfl fun a s' h => Runs.same hauth h)

end NoSession

end WolMonkey
