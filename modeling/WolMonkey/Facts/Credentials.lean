import WolMonkey.Facts.Accounts
import WolMonkey.Facts.Answers
import WolMonkey.Library.Ledger

/-!
# Sessions and tokens over a run

What the requests of a run say about credentials: a login that is answered with a session
cookie issues a session, a logout revokes the one that its cookie names, and tokens are
issued and revoked by the answers of their two routes. The tables are the book of this
ledger (`Reflects`): every change of a calm request keeps them so.
-/

namespace WolMonkey

open Programs Program Ledgers

/-! ## The ledger of a run -/

/-- The sessions, with their user and the time of their login, and the tokens, with their
raw text and their owner. -/
structure Credentials where
  sessions : Ledger Uuid (Uuid × DateTime) := []
  tokens : Ledger Uuid (String × Uuid) := []
deriving DecidableEq

/-- The identifier that the cookie of a request denotes. -/
def Request.sessionId? (req : Request) : Option Uuid := req.cookie.bind Uuid.parse?

/-- The identifier of the user with a name. -/
def Database.userNamed (db : Database) (username : String) : Option Uuid :=
  (db.users.find? (·.username == username)).map (·.id)

/-- The user whose session the cookie of a request denotes. -/
def Database.sessionOwner (db : Database) (req : Request) : Option Uuid :=
  req.sessionId?.bind fun id => (db.sessions.find? (·.id == id)).map (·.userId)

/-- The session that a response sets the cookie to. -/
def Response.opened (r : Response) : Option Uuid :=
  match r.cookie with
  | .set sessionId _ => Uuid.parse? sessionId
  | _ => none

/-- The identifier and the raw text of the token in a response. -/
def Response.granted (r : Response) : Option (Uuid × String) :=
  match r.body with
  | .tokenCreated id _ _ raw => (Uuid.parse? id).map fun id => (id, raw)
  | _ => none

section Ledger
variable (P : Platform) (req : Request) (inputs : Nat → Input) (sh : Shared)

/-- A login of the user with a name, if it was answered with a session. -/
def loginEntry (username : Option String) : Option (Entry Uuid (Uuid × DateTime)) := do
  let r ← response P req inputs sh
  let id ← r.opened
  let user ← (serve P req inputs sh).db.userNamed (← username)
  return .issue id (user, (inputs 0).now)

/-- A logout, if it was answered with the deletion of the cookie. -/
def logoutEntry : Option (Entry Uuid (Uuid × DateTime)) := do
  let r ← response P req inputs sh
  if r.cookie = .delete then req.sessionId?.map .revoke else none

def sessionEntry : Option (Entry Uuid (Uuid × DateTime)) :=
  match req.route with
  | .apiLogin (.typed body) => loginEntry P req inputs sh (some body.username)
  | .loginPost form | .setupAdminPost form =>
    loginEntry P req inputs sh (form.read.map (·.1))
  | .apiLogout | .logoutPost => logoutEntry P req inputs sh
  | _ => none

def tokenEntry : Option (Entry Uuid (String × Uuid)) :=
  match req.route with
  | .createToken _ => do
    let r ← response P req inputs sh
    let (id, raw) ← r.granted
    let owner ← sh.db.sessionOwner req
    return .issue id (raw, owner)
  | .revokeToken tokenId => do
    let r ← response P req inputs sh
    if r.status = 204 ∧ r.body = .empty then (Uuid.parse? tokenId).map .revoke else none
  | _ => none

/-- The ledger after a request. -/
def Credentials.next (c : Credentials) : Credentials where
  sessions := (sessionEntry P req inputs sh).toList ++ c.sessions
  tokens := (tokenEntry P req inputs sh).toList ++ c.tokens

end Ledger

/-- The ledger after requests that are served one after the other. -/
def Credentials.after (P : Platform) :
    Credentials → List (Request × (Nat → Input)) → Shared → Credentials
  | c, [], _ => c
  | c, (req, inputs) :: rest, sh =>
    Credentials.after P (c.next P req inputs sh) rest (serve P req inputs sh)

/-! ## Tables that reflect a ledger -/

/-- The row of a session in the book: its user and the time of its login. -/
def Session.entered (s : Session) : Row Uuid (Uuid × DateTime) :=
  ⟨s.id, (s.userId, s.expiresAt - DateTime.hours sessionLifetimeHours), s.revoked⟩

/-- The row of a token in the book: its digest and its owner. -/
def ApiToken.entered (t : ApiToken) : Row Uuid (String × Uuid) :=
  ⟨t.id, (t.tokenHash, t.userId), t.revokedAt.isSome⟩

/-- The row of a raw token, with its digest. -/
def digested (P : Platform) (r : Row Uuid (String × Uuid)) : Row Uuid (String × Uuid) :=
  { r with value := (P.sha256 r.value.1, r.value.2) }

/-- The identifiers of the users. -/
def Database.userIds (db : Database) : List Uuid := db.users.map (·.id)

/-- The tables are the books of the ledger, no identifier and no digest occurs twice in
them, and every credential belongs to a user. -/
structure Reflects (P : Platform) (c : Credentials) (db : Database) : Prop where
  sessions : db.sessions.map Session.entered = book c.sessions
  tokens : db.tokens.map ApiToken.entered = (book c.tokens).map (digested P)
  sessionIds : Fresh c.sessions
  tokenIds : Fresh c.tokens
  digests : (db.tokens.map (·.tokenHash)).Nodup
  sessionUsers : ∀ r ∈ book c.sessions, r.value.1 ∈ db.userIds
  tokenUsers : ∀ r ∈ book c.tokens, r.value.2 ∈ db.userIds

section Reflects
variable {P : Platform} {c : Credentials} {db : Database} {s s' : Solo}

theorem reflects_empty (P : Platform) : Reflects P {} Database.empty where
  sessions := rfl
  tokens := rfl
  sessionIds := List.nodup_nil
  tokenIds := List.nodup_nil
  digests := List.nodup_nil
  sessionUsers := nofun
  tokenUsers := nofun

/-- The effects that issue or revoke credentials. -/
def credentialEffects : List Effect := [.newSession, .endSession, .newToken, .endToken]

/-- What the book keeps of the tables. -/
def Database.credentialColumns (db : Database) :
    List (Row Uuid (Uuid × DateTime)) × List (Row Uuid (String × Uuid)) :=
  (db.sessions.map Session.entered, db.tokens.map ApiToken.entered)

theorem credentialColumns_apply {w : Write} (h : w.effect ∉ credentialEffects) (db : Database) :
    (w.apply db).credentialColumns = db.credentialColumns := by
  cases w with
  | insertSession s => exact absurd h (by simp [Write.effect, credentialEffects])
  | revokeSession id => exact absurd h (by simp [Write.effect, credentialEffects])
  | insertToken t => exact absurd h (by simp [Write.effect, credentialEffects])
  | revokeToken id time => exact absurd h (by simp [Write.effect, credentialEffects])
  | deleteMachine id => exact congrArg (Prod.mk _) (map_updateRows fun t => rfl)
  | touchToken id time => exact congrArg (Prod.mk _) (map_updateRows fun t => rfl)
  | _ => rfl

/-- No change removes a user. -/
theorem userIds_apply (w : Write) {db : Database} {id : Uuid} (h : id ∈ db.userIds) :
    id ∈ (w.apply db).userIds := by
  cases w with
  | insertUser u =>
    have hids : ((Write.insertUser u).apply db).userIds = db.userIds ++ [u.id] :=
      List.map_append
    rw [hids]
    exact List.mem_append_left _ h
  | setLastLogin i t =>
    have hids : ((Write.setLastLogin i t).apply db).userIds = db.userIds :=
      map_updateRows fun u => rfl
    rw [hids]
    exact h
  | setPasswordHash i p =>
    have hids : ((Write.setPasswordHash i p).apply db).userIds = db.userIds :=
      map_updateRows fun u => rfl
    rw [hids]
    exact h
  | _ => exact h

/-- The identifiers of the sessions are the keys of their book. -/
theorem Reflects.mem_sessionIds (h : Reflects P c db) {id : Uuid} :
    id ∈ issuedKeys c.sessions ↔ ∃ s ∈ db.sessions, s.id = id := by
  rw [← List.mem_reverse, ← map_key_book, ← h.sessions]
  simp [Session.entered]

theorem Reflects.mem_tokenIds (h : Reflects P c db) {id : Uuid} :
    id ∈ issuedKeys c.tokens ↔ ∃ t ∈ db.tokens, t.id = id := by
  have hkeys : (book c.tokens).map Row.key = (db.tokens.map ApiToken.entered).map Row.key := by
    rw [h.tokens, List.map_map]
    rfl
  rw [← List.mem_reverse, ← map_key_book, hkeys]
  simp [ApiToken.entered]

/-- The hashes of the tokens are the digests in their book. -/
theorem map_tokenHash (db : Database) :
    db.tokens.map (·.tokenHash) = (db.tokens.map ApiToken.entered).map (·.value.1) := by
  rw [List.map_map]
  rfl

/-! ### Changes -/

/-- A change that is not about credentials. -/
theorem Reflects.apply (h : Reflects P c db) {w : Write} (hw : w.effect ∉ credentialEffects) :
    Reflects P c (w.apply db) := by
  have hcolumns := credentialColumns_apply hw db
  have hsessions : (w.apply db).sessions.map Session.entered = db.sessions.map Session.entered :=
    congrArg Prod.fst hcolumns
  have htokens : (w.apply db).tokens.map ApiToken.entered = db.tokens.map ApiToken.entered :=
    congrArg Prod.snd hcolumns
  refine ⟨hsessions.trans h.sessions, htokens.trans h.tokens, h.sessionIds, h.tokenIds, ?_,
    fun r hr => userIds_apply w (h.sessionUsers r hr),
    fun r hr => userIds_apply w (h.tokenUsers r hr)⟩
  rw [map_tokenHash, htokens, ← map_tokenHash]
  exact h.digests

/-- A new session of a user. -/
theorem Reflects.issueSession (h : Reflects P c db) {s : Session} (hrevoked : s.revoked = false)
    (hid : ∀ x ∈ db.sessions, x.id ≠ s.id) (huser : s.userId ∈ db.userIds) :
    Reflects P { c with sessions := .issue s.id s.entered.value :: c.sessions }
      ((Write.insertSession s).apply db) where
  sessions := by
    have hentered : s.entered = ⟨s.id, s.entered.value, false⟩ := by
      rw [Session.entered, hrevoked]
    simp only [Write.apply, List.map_append, h.sessions, List.map_cons, List.map_nil, book,
      Entry.enter]
    rw [← hentered]
  tokens := h.tokens
  sessionIds := by
    refine List.nodup_cons.mpr ⟨fun hmem => ?_, h.sessionIds⟩
    obtain ⟨x, hx, hxid⟩ := h.mem_sessionIds.mp hmem
    exact hid x hx hxid
  tokenIds := h.tokenIds
  digests := h.digests
  sessionUsers := by
    intro r hr
    rcases List.mem_append.mp hr with hr | hr
    · exact h.sessionUsers r hr
    · rw [List.mem_singleton.mp hr]
      exact huser
  tokenUsers := h.tokenUsers

theorem Reflects.revokeSession (h : Reflects P c db) (id : Uuid) :
    Reflects P { c with sessions := .revoke id :: c.sessions }
      ((Write.revokeSession id).apply db) where
  sessions := by
    have hmark : ∀ s : Session, Session.entered (if s.id == id then { s with revoked := true }
        else s) = s.entered.mark id := by
      intro s
      by_cases hs : s.id = id
      · simp [Session.entered, Row.mark, hs]
      · simp [Session.entered, Row.mark, hs]
    simp only [Write.apply, updateRows, List.map_map, Function.comp_def, hmark, book, Entry.enter,
      ← h.sessions]
  tokens := h.tokens
  sessionIds := h.sessionIds
  tokenIds := h.tokenIds
  digests := h.digests
  sessionUsers := by
    intro r hr
    obtain ⟨x, hx, rfl⟩ := List.mem_map.mp hr
    rw [Row.value_mark]
    exact h.sessionUsers x hx
  tokenUsers := h.tokenUsers

/-- A new token of a user. -/
theorem Reflects.issueToken (h : Reflects P c db) {t : ApiToken} {raw : String}
    (hlive : t.revokedAt = none) (hraw : t.tokenHash = P.sha256 raw)
    (hid : ∀ x ∈ db.tokens, x.id ≠ t.id) (hhash : ∀ x ∈ db.tokens, x.tokenHash ≠ t.tokenHash)
    (huser : t.userId ∈ db.userIds) :
    Reflects P { c with tokens := .issue t.id (raw, t.userId) :: c.tokens }
      ((Write.insertToken t).apply db) where
  sessions := h.sessions
  tokens := by
    have hentered : t.entered = digested P ⟨t.id, (raw, t.userId), false⟩ := by
      rw [ApiToken.entered, hlive, hraw]
      rfl
    simp only [Write.apply, List.map_append, h.tokens, List.map_cons, List.map_nil, hentered,
      book, Entry.enter]
  sessionIds := h.sessionIds
  tokenIds := by
    refine List.nodup_cons.mpr ⟨fun hmem => ?_, h.tokenIds⟩
    obtain ⟨x, hx, hxid⟩ := h.mem_tokenIds.mp hmem
    exact hid x hx hxid
  digests := by
    simp only [Write.apply, List.map_append, List.map_cons, List.map_nil]
    refine List.nodup_append.mpr ⟨h.digests, List.nodup_singleton _, fun a ha b hb => ?_⟩
    obtain ⟨x, hx, rfl⟩ := List.mem_map.mp ha
    rw [List.mem_singleton.mp hb]
    exact hhash x hx
  sessionUsers := h.sessionUsers
  tokenUsers := by
    intro r hr
    rcases List.mem_append.mp hr with hr | hr
    · exact h.tokenUsers r hr
    · rw [List.mem_singleton.mp hr]
      exact huser

theorem Reflects.revokeToken (h : Reflects P c db) (id : Uuid) (time : DateTime) :
    Reflects P { c with tokens := .revoke id :: c.tokens }
      ((Write.revokeToken id time).apply db) where
  sessions := h.sessions
  tokens := by
    have hmark : ∀ t : ApiToken, ApiToken.entered (if t.id == id then
        { t with revokedAt := some time } else t) = t.entered.mark id := by
      intro t
      by_cases ht : t.id = id
      · simp [ApiToken.entered, Row.mark, ht]
      · simp [ApiToken.entered, Row.mark, ht]
    have hdigest : ∀ r, digested P (Row.mark id r) = (digested P r).mark id := by
      intro r
      unfold Row.mark digested
      split <;> rfl
    have hmarked := congrArg (List.map (Row.mark id)) h.tokens
    simp only [List.map_map, Function.comp_def] at hmarked
    simp only [Write.apply, updateRows, List.map_map, Function.comp_def, hmark, book, Entry.enter,
      hdigest, hmarked]
  sessionIds := h.sessionIds
  tokenIds := h.tokenIds
  digests := by
    have hsame : ((Write.revokeToken id time).apply db).tokens.map (·.tokenHash) =
        db.tokens.map (·.tokenHash) := map_updateRows fun t => rfl
    rw [hsame]
    exact h.digests
  sessionUsers := h.sessionUsers
  tokenUsers := by
    intro r hr
    obtain ⟨x, hx, rfl⟩ := List.mem_map.mp hr
    rw [Row.value_mark]
    exact h.tokenUsers x hx

/-- Changes that are not about credentials. -/
theorem Reflects.adds (h : Reflects P c s.view) {W : Write → Prop} (hs : s.Adds W s')
    (hW : ∀ w, W w → w.effect ∉ credentialEffects) : Reflects P c s'.view := by
  obtain ⟨hdb, ws, hws, hall⟩ := hs
  have hreaches : Reaches W s.view s'.view := by
    refine ⟨ws, hall, ?_⟩
    rw [Solo.view, hdb, hws, Database.after_append]
    rfl
  exact hreaches.invariant (Reflects P c) (fun w db hw hdb => hdb.apply (hW w hw)) h

theorem Reflects.same (h : Reflects P c s.view) (hs : s.Same s') : Reflects P c s'.view := by
  rw [hs.view]
  exact h

end Reflects

/-! ## Logins -/

/-- The changes of the user that a login makes. -/
def loginUpdates : List Effect := [.lastLogin, .passwordHash]

theorem userNamed_updates {username : String} :
    Untouched (fun w => w.effect ∈ loginUpdates) fun db => db.userNamed username := by
  intro w db hw
  have hupdate : ∀ (p : User → Bool) (f : User → User), (∀ u, (f u).username = u.username) →
      (∀ u, (f u).id = u.id) → ((updateRows p f db.users).find? (·.username == username)).map (·.id) =
        db.userNamed username := by
    intro p f hname hid
    have hfind : ∀ u : User, ((f u).username == username) = (u.username == username) := fun u => by
      rw [hname]
    rw [find?_updateRows_of_same hfind, Option.map_map, Database.userNamed]
    congr 1
    funext u
    simp only [Function.comp_apply]
    split
    · exact hid u
    · rfl
  cases w with
  | setLastLogin i t => exact hupdate _ _ (fun _ => rfl) fun _ => rfl
  | setPasswordHash i hash => exact hupdate _ _ (fun _ => rfl) fun _ => rfl
  | _ => exact absurd hw (by simp [Write.effect, loginUpdates])

/-- What a login at a time leaves: a session of the user with the name, and no other change
of credentials or names. -/
structure LoggedIn (P : Platform) (c : Credentials) (username : String) (t : DateTime)
    (session : Session) (s' : Solo) : Prop where
  active : s'.store.main.status = .active
  reflects : ∃ user, s'.view.userNamed username = some user ∧
    Reflects P { c with sessions := .issue session.id (user, t) :: c.sessions } s'.view

section Logins
variable {P : Platform} {c : Credentials} {s s' : Solo} {t : DateTime}

/-- Every input that is still to come has the time. -/
def Solo.Instant (t : DateTime) (s : Solo) : Prop := ∀ n, (s.inputs n).now = t

theorem Solo.Later.instant (h : s.Later s') (ht : s.Instant t) : s'.Instant t := by
  obtain ⟨k, hk⟩ := h
  intro n
  rw [hk]
  exact ht (k + n)

theorem runs_active {st : Stmt} {a : st.Answer}
    (h : (execute .main st).Runs (soloExec P) s a s') : s'.store.main.status = .active := by
  obtain ⟨r, hran, -⟩ := runs_execute h
  exact hran.active'

/-- A refresh reads the row with the identifier. -/
theorem runs_sessionRefresh_id {id : Uuid} {session : Session}
    (h : (execute .main (.sessionRefresh id)).Runs (soloExec P) s session s') :
    session.id = id ∧ s.Same s' ∧ s'.store.main.status = .active := by
  have hsame := runs_sessionRefresh h
  obtain ⟨r, hran, rfl⟩ := runs_execute h
  obtain ⟨locked, hrun⟩ := hran.run
  simp only [Stmt.run] at hrun
  split at hrun
  · rename_i row hrow
    cases hrun
    exact ⟨by simpa using List.find?_some hrow, hsame, hran.active'⟩
  · cases hrun

/-- The row of a session that was created. -/
theorem runs_sessionCreate_row {userId : Uuid} {secret : String} {expiresAt : DateTime}
    {ip userAgent : Option String} {session : Session}
    (h : (SqlSessionRepository.create userId.text secret expiresAt ip userAgent).Runs (soloExec P) s
      session s') :
    ∃ row : Session, row.id = session.id ∧ row.userId = userId ∧ row.expiresAt = expiresAt ∧
      row.revoked = false ∧ (∀ x ∈ s.view.sessions, x.id ≠ row.id) ∧ userId ∈ s.view.userIds ∧
      s'.view = (Write.insertSession row).apply s.view ∧ s'.store.main.status = .active := by
  obtain ⟨i, s₁, hins, href⟩ := runs_bind.mp h
  obtain ⟨hid, hsame, hactive⟩ := runs_sessionRefresh_id href
  obtain ⟨r, hran, hanswer⟩ := runs_execute hins
  have hview := hran.view
  obtain ⟨locked, hrun⟩ := hran.run
  simp only [Stmt.run, bind_eq_ok, uuidParam_eq_ok, require_eq_ok, accepted_eq_ok, pure_eq_ok,
    Uuid.parse?_text] at hrun
  obtain ⟨uid, huid, sec, -, ipv, -, -, -, -, hfresh, -, huser, rfl⟩ := hrun
  cases huid
  let row : Session :=
    { id := (s.inputs 0).fresh, userId, csrfSecret := sec, ip := ipv, userAgent, expiresAt
      revoked := false, createdAt := (s.inputs 0).now }
  refine ⟨row, hanswer.symm.trans hid.symm, rfl, rfl, rfl, ?_, ?_, ?_, hactive⟩
  · intro x hx
    simp only [Bool.not_eq_true', List.any_eq_false, beq_iff_eq] at hfresh
    exact hfresh x hx
  · obtain ⟨u, hu, hid⟩ := List.any_eq_true.mp huser
    exact List.mem_map.mpr ⟨u, hu, by simpa using hid⟩
  · rw [hsame.view, hview]
    rfl

theorem notMem_loginUpdates {w : Write} (h : w.effect ∈ loginUpdates) :
    w.effect ∉ credentialEffects := by
  intro hmem
  rcases List.mem_cons.mp h with he | h
  · exact absurd hmem (by rw [he]; simp [credentialEffects])
  · exact absurd hmem (by rw [List.mem_singleton.mp h]; simp [credentialEffects])

theorem runs_openSession_loggedIn {user : User} {username password : String}
    {ip userAgent : Option String} {session : Session}
    (ht : s.Instant t) (huser : s.view.userNamed username = some user.id)
    (hreflects : Reflects P c s.view)
    (h : (AuthService.openSession P user password ip userAgent).Runs (soloExec P) s session s') :
    LoggedIn P c username t session s' := by
  obtain ⟨u₁, s₁, hrehash, h⟩ := runs_bind.mp h
  obtain ⟨now, s₂, hnow, h⟩ := runs_bind.mp h
  obtain ⟨secret, s₃, hsecret, h⟩ := runs_bind.mp h
  obtain ⟨created, s₄, hcreate, h⟩ := runs_bind.mp h
  obtain ⟨u₅, s₅, hlast, h⟩ := runs_bind.mp h
  obtain ⟨rfl, rfl⟩ := runs_pure.mp h
  -- the new password hash, and the readings up to the insertion
  have huses : (AuthService.rehash P user password).Uses (Within loginUpdates) := by
    unfold AuthService.rehash
    split
    · exact Uses.bind (uses_await rfl) fun _ => uses_write rfl (by simp [loginUpdates])
    · exact uses_pure _
  have hrehashed := Runs.adds loginUpdates huses (by simp [loginUpdates]) (by simp [loginUpdates])
    hrehash
  obtain ⟨hnow', hsame₂⟩ := runs_now hnow
  have hsame : s₁.Same s₃ := hsame₂.trans (Runs.same (uses_await rfl) hsecret)
  have hreflects₃ : Reflects P c s₃.view :=
    (hreflects.adds hrehashed fun w hw => notMem_loginUpdates hw).same hsame
  have hname₃ : s₃.view.userNamed username = some user.id := by
    rw [hsame.view, hrehashed.keeps userNamed_updates, huser]
  -- the insertion
  obtain ⟨row, hid, howner, hexpires, hrevoked, hfresh, hmem, hview, -⟩ :=
    runs_sessionCreate_row hcreate
  have hreflects₄ := hreflects₃.issueSession hrevoked hfresh (by rw [howner]; exact hmem)
  rw [← hview] at hreflects₄
  -- the time of the login
  have hlastAdds := Runs.adds loginUpdates (uses_write rfl (by simp [loginUpdates]))
    (by simp [loginUpdates]) (by simp [loginUpdates]) hlast
  refine ⟨runs_active hlast, user.id, ?_, ?_⟩
  · rw [hlastAdds.keeps userNamed_updates, hview]
    exact hname₃
  · have hvalue : row.entered.value = (user.id, t) := by
      have hinput : (s₁.inputs 0).now = t := (Runs.later hrehash).instant ht 0
      rw [Session.entered, howner, hexpires, hnow', hinput, add_sub_cancel_right]
    rw [← hid, ← hvalue]
    exact hreflects₄.adds hlastAdds fun w hw => notMem_loginUpdates hw

theorem runs_login_loggedIn {username password : String} {ip userAgent : Option String}
    {session : Session} (ht : s.Instant t) (hreflects : Reflects P c s.view)
    (h : (AuthService.login P username password ip userAgent).Runs (soloExec P) s session s') :
    LoggedIn P c username t session s' := by
  obtain ⟨found, s₁, hget, h⟩ := runs_bind.mp h
  obtain ⟨hfound, hsame⟩ := runs_getByUsername hget
  cases found with
  | none => exact (runs_raise.mp h).elim
  | some user =>
    obtain ⟨verified, s₂, hverify, hopen⟩ := runs_bind.mp h
    have hsame₂ : s₂ = s₁ := by
      unfold verifyPassword at hverify
      split at hverify
      · exact (runs_pure.mp hverify).2.symm
      · exact (runs_pure.mp hverify).2.symm
      · exact (runs_raise.mp hverify).elim
    subst hsame₂
    split at hopen
    · have huser : s₂.view.userNamed username = some user.id := by
        rw [hsame.view, Database.userNamed, ← hfound]
        rfl
      exact runs_openSession_loggedIn ((Runs.later hget).instant ht) huser
        (hreflects.same hsame) hopen
    · exact (runs_raise.mp hopen).elim

end Logins

end WolMonkey
