import WolMonkey.Model.Requests

/-!
# Sessions, tokens and CSRF

The database session of a request, and the dependencies of `app/security/dependencies.py`.
Dependencies run before the body of a request is looked at; what they raise is the
response.
-/

namespace WolMonkey

open Programs

/-- `get_db_session`: commit at the end; an exception rolls back and goes on. -/
def getDbSession {α : Type} (body : Code α) : Code α :=
  withSession .main <|
    Program.tryCatch
      (do
        let result ← body
        let _ ← await (.commit .main)
        return result)
      (fun exc => do
        let _ ← await (.rollback .main)
        raise exc)

/-- A route with a JSON body: text that is not JSON is answered at once, a body that does
not fit after the dependencies have run. -/
def withBody {β γ δ α : Type} (body : JsonBody β) (validate : β → Option γ) (deps : Code δ)
    (endpoint : δ → γ → Code α) : Code α :=
  match body with
  | .malformed => raise .validation
  | .mistyped => getDbSession do
    let _ ← deps
    raise .validation
  | .typed b => getDbSession do
    let d ← deps
    match validate b with
    | some c => endpoint d c
    | none => raise .validation

/-- The validation of a body whose constraints do not change it. -/
def checked {β : Type} (valid : β → Bool) (b : β) : Option β := if valid b then some b else none

/-- A route whose form fields are checked before its handler runs. -/
def withForm {γ α : Type} (form : Option γ) (endpoint : γ → Code α) : Code α :=
  getDbSession <|
    match form with
    | some c => endpoint c
    | none => raise .validation

/-! ## CSRF tokens -/

def generateCsrfToken (sessionId csrfSecret : String) : Code String :=
  await (.csrfDumps sessionId csrfSecret)

/-- `validate_csrf_token`. -/
def validateCsrfToken (token sessionId csrfSecret : String) : Code Bool := do
  let data ← await (.csrfLoads token)
  return decide (data = some (sessionId, csrfSecret))

/-! ## Dependencies -/

def notAuthenticated : PyExc := .http 401 "Not authenticated" []

def getCurrentSessionAndUser (req : Request) : Code (Session × User) :=
  match req.cookie with
  | none => raise notAuthenticated
  | some c => Program.tryCatch (AuthService.validateSession c) fun _ => raise notAuthenticated

def getCurrentUser (req : Request) : Code User := do
  let (_, user) ← getCurrentSessionAndUser req
  return user

/-- The token of a request: the header when it is not empty, otherwise the form field. -/
def Request.csrfToken (req : Request) : String := orElse req.csrfHeader (req.csrfForm.getD "")

def csrfFailed : PyExc := .http 403 "CSRF validation failed" []

/-- `require_csrf` on the session that is already loaded. -/
def requireCsrf (req : Request) (session : Session) : Code Unit :=
  if req.csrfToken == "" then raise csrfFailed
  else do
    if ← validateCsrfToken req.csrfToken session.id.text session.csrfSecret then return
    else raise csrfFailed

/-- The dependencies `CurrentUser` and `CsrfProtected`. -/
def csrfProtectedUser (req : Request) : Code User := do
  let (session, user) ← getCurrentSessionAndUser req
  requireCsrf req session
  return user

/-- The token of a `Bearer` header. -/
def bearerToken (authorization : Option String) : Option String :=
  match authorization with
  | some h =>
    if "Bearer ".toList.isPrefixOf h.toList then some (String.ofList (h.toList.drop 7)) else none
  | none => none

section Tokens
variable (P : Platform)

def getApiToken (req : Request) : Code ApiToken :=
  match bearerToken req.authorization with
  | none => raise (.http 401 "Bearer token required" [("WWW-Authenticate", "Bearer")])
  | some rawToken =>
    Program.tryCatch (AuthService.validateApiToken P rawToken) fun _ =>
      raise (.http 401 "Invalid or revoked API token" [("WWW-Authenticate", "Bearer")])

/-- The user of a live session cookie, if there is one. -/
def sessionUser? (req : Request) : Code (Option User) :=
  match req.cookie with
  | none => pure none
  | some c =>
    Program.tryCatch
      (do
        let (_, user) ← AuthService.validateSession c
        return some user)
      (fun _ => pure none)

/-- The owner of a live bearer token, if there is one. -/
def tokenUser? (req : Request) : Code (Option User) :=
  match bearerToken req.authorization with
  | none => pure none
  | some rawToken =>
    Program.tryCatch
      (do
        let tokenRecord ← AuthService.validateApiToken P rawToken
        SqlUserRepository.getById tokenRecord.userId.text)
      (fun _ => pure none)

def getUserFromSessionOrToken (req : Request) : Code User := do
  match ← sessionUser? req with
  | some user => return user
  | none =>
    match ← tokenUser? P req with
    | some user => return user
    | none => raise notAuthenticated

end Tokens

end WolMonkey
