import WolMonkey.Access.Bookkeeping
import WolMonkey.Facts.Undisturbed

/-!
# Authentication over runs

After any run of requests from an empty store, a session cookie is accepted exactly while
the session that it denotes stands in the ledger of the run and is not older than twelve
hours, a bearer token exactly while it stands, and the combined guard accepts what one of
the two accepts, the session first. What is no longer accepted is never accepted again.
-/

namespace WolMonkey

open Programs Program Ledgers

/-! ## What stands in a ledger -/

/-- The cookie denotes a session of the user that stands and has not expired. -/
def Credentials.HasSession (c : Credentials) (cookie : Option String) (t : DateTime) (user : Uuid) :
    Prop :=
  ∃ text id issued, cookie = some text ∧ Uuid.parse? text = some id ∧
    Standing c.sessions id (user, issued) ∧ t ≤ issued + DateTime.hours sessionLifetimeHours

/-- The header bears the raw text of a token of the user that stands. -/
def Credentials.HasToken (c : Credentials) (authorization : Option String) (user : Uuid) : Prop :=
  ∃ raw id, authorization = some ("Bearer " ++ raw) ∧ Standing c.tokens id (raw, user)

/-- The strings that are hashed: the tokens that were issued, and the one that is borne. -/
def Occurs (texts : Set String) (c : Credentials) (authorization : Option String) : Prop :=
  (∀ id raw user, Issued c.tokens id (raw, user) → raw ∈ texts) ∧
    ∀ raw, authorization = some ("Bearer " ++ raw) → raw ∈ texts

theorem bearerToken_eq_some {authorization : Option String} {raw : String} :
    bearerToken authorization = some raw ↔ authorization = some ("Bearer " ++ raw) := by
  have hlist : ("Bearer " ++ raw).toList = "Bearer ".toList ++ raw.toList := String.toList_append
  cases authorization with
  | none => exact ⟨nofun, nofun⟩
  | some h =>
    simp only [bearerToken, Option.some.injEq]
    constructor
    · intro heq
      split at heq
      · rename_i hprefix
        cases heq
        obtain ⟨rest, hrest⟩ := List.isPrefixOf_iff_prefix.mp hprefix
        have hdrop : h.toList.drop 7 = rest := by
          rw [← hrest]
          rfl
        apply String.toList_injective
        rw [hdrop, String.toList_append, ← hrest]
        exact congrArg _ String.toList_ofList.symm
      · cases heq
    · rintro rfl
      have hprefix : "Bearer ".toList.isPrefixOf ("Bearer " ++ raw).toList = true := by
        rw [hlist]
        exact List.isPrefixOf_iff_prefix.mpr (List.prefix_append _ _)
      rw [if_pos hprefix, hlist]
      have hdrop : ("Bearer ".toList ++ raw.toList).drop 7 = raw.toList := rfl
      rw [hdrop, String.ofList_toList]

/-- In rows with distinct keys, a search by key finds the row. -/
theorem find?_of_nodup {α κ : Type} [DecidableEq κ] {key : α → κ} {rows : List α}
    (hnodup : (rows.map key).Nodup) {r : α} (hr : r ∈ rows) :
    rows.find? (fun x => key x == key r) = some r := by
  cases hfind : rows.find? (fun x => key x == key r) with
  | none => exact absurd (List.find?_eq_none.mp hfind r hr) (by simp)
  | some x =>
    have hkey : key x = key r := by simpa using List.find?_some hfind
    rw [List.inj_on_of_nodup_map hnodup (List.mem_of_find?_eq_some hfind) hr hkey]

section Tables
variable {P : Platform} {c : Credentials} {db : Database}

theorem Reflects.nodup_sessionIds (h : Reflects P c db) : (db.sessions.map (·.id)).Nodup := by
  have hkeys : db.sessions.map (·.id) = (book c.sessions).map Row.key := by
    rw [← h.sessions, List.map_map]
    rfl
  rw [hkeys]
  exact fresh_iff_nodup.mp h.sessionIds

theorem exists_user {id : Uuid} (h : id ∈ db.userIds) :
    ∃ user, db.users.find? (·.id == id) = some user ∧ user.id = id := by
  obtain ⟨u, hu, hid⟩ := List.mem_map.mp h
  have hsome : (db.users.find? (·.id == id)).isSome = true :=
    List.find?_isSome.mpr ⟨u, hu, by simpa using hid⟩
  obtain ⟨user, hfind⟩ := Option.isSome_iff_exists.mp hsome
  exact ⟨user, hfind, by simpa using List.find?_some hfind⟩

/-- The live sessions of the tables are the sessions that stand and have not expired. -/
theorem Reflects.hasSession_iff (h : Reflects P c db) {cookie : Option String} {t : DateTime}
    {user : Uuid} :
    c.HasSession cookie t user ↔ ∃ text session u, cookie = some text ∧
      LiveSession db t text session u ∧ u.id = user := by
  constructor
  · rintro ⟨text, id, issued, hcookie, hid, hstands, hexpires⟩
    have hrow := mem_book.mpr hstands
    have huser := h.sessionUsers _ hrow
    rw [← h.sessions] at hrow
    obtain ⟨session, hmem, hentered⟩ := List.mem_map.mp hrow
    obtain ⟨hsid, hvalue, hrevoked⟩ := Row.mk.inj hentered
    obtain ⟨howner, htime⟩ := Prod.mk.inj hvalue
    obtain ⟨u, hfind, huid⟩ := exists_user huser
    refine ⟨text, session, u, hcookie, ⟨id, hid, ?_, hrevoked, ?_, ?_⟩, huid⟩
    · rw [← hsid]
      exact find?_of_nodup h.nodup_sessionIds hmem
    · rw [← htime] at hexpires
      simpa using hexpires
    · rw [howner]
      exact hfind
  · rintro ⟨text, session, u, hcookie, ⟨id, hid, hfind, hrevoked, hexpires, huser⟩, rfl⟩
    have hmem := List.mem_of_find?_eq_some hfind
    have hsid : session.id = id := by simpa using List.find?_some hfind
    have howner : u.id = session.userId := by simpa using List.find?_some huser
    have hrow : session.entered ∈ book c.sessions := by
      rw [← h.sessions]
      exact List.mem_map_of_mem hmem
    refine ⟨text, id, session.expiresAt - DateTime.hours sessionLifetimeHours, hcookie, hid, ?_, ?_⟩
    · rw [howner, ← mem_book, ← hsid, ← hrevoked]
      exact hrow
    · simpa using hexpires

/-- The live tokens of the tables are the tokens that stand. -/
theorem Reflects.hasToken_iff (h : Reflects P c db) (hdigest : P.Digests) {texts : Set String}
    (hinj : Set.InjOn P.sha256 texts) {authorization : Option String}
    (hoccurs : Occurs texts c authorization) {user : Uuid} :
    c.HasToken authorization user ↔ ∃ raw token, bearerToken authorization = some raw ∧
      db.liveToken? P raw = some token ∧ token.userId = user := by
  constructor
  · rintro ⟨raw, id, hauth, hstands⟩
    have hrow : digested P ⟨id, (raw, user), false⟩ ∈ db.tokens.map ApiToken.entered := by
      rw [h.tokens]
      exact List.mem_map_of_mem (mem_book.mpr hstands)
    obtain ⟨token, hmem, hentered⟩ := List.mem_map.mp hrow
    obtain ⟨-, hvalue, hrevoked⟩ := Row.mk.inj hentered
    obtain ⟨hhash, howner⟩ := Prod.mk.inj hvalue
    refine ⟨raw, token, bearerToken_eq_some.mpr hauth, ?_, howner⟩
    rw [Database.liveToken?, if_pos (hdigest raw).1]
    cases hfind : db.tokens.find? fun t => t.tokenHash == P.sha256 raw && t.revokedAt == none with
    | none =>
      have hno := List.find?_eq_none.mp hfind token hmem
      have hlive : token.revokedAt = none := by simpa using hrevoked
      simp [hhash, hlive] at hno
    | some x =>
      have hfound := List.find?_some hfind
      simp only [Bool.and_eq_true, beq_iff_eq] at hfound
      have hsame : x.tokenHash = token.tokenHash := hfound.1.trans hhash.symm
      rw [List.inj_on_of_nodup_map h.digests (List.mem_of_find?_eq_some hfind) hmem hsame]
  · rintro ⟨raw, token, hbearer, hlive, rfl⟩
    have hauth := bearerToken_eq_some.mp hbearer
    rw [Database.liveToken?, if_pos (hdigest raw).1] at hlive
    have hfound := List.find?_some hlive
    simp only [Bool.and_eq_true, beq_iff_eq] at hfound
    have hrow : token.entered ∈ (book c.tokens).map (digested P) := by
      rw [← h.tokens]
      exact List.mem_map_of_mem (List.mem_of_find?_eq_some hlive)
    obtain ⟨⟨id, ⟨raw', owner⟩, revoked⟩, hmem, hentered⟩ := List.mem_map.mp hrow
    obtain ⟨-, hvalue, hrevoked⟩ := Row.mk.inj hentered
    obtain ⟨hhash, howner⟩ := Prod.mk.inj hvalue
    have hnot : revoked = false := by
      have hsome : revoked = token.revokedAt.isSome := hrevoked
      rw [hsome, hfound.2]
      rfl
    have hdigests : P.sha256 raw' = P.sha256 raw := hhash.trans hfound.1
    rw [hnot] at hmem
    have hstands := mem_book.mp hmem
    have hraw : raw' = raw :=
      hinj (hoccurs.1 id raw' owner hstands.issued) (hoccurs.2 raw hauth) hdigests
    have howner' : owner = token.userId := howner
    rw [hraw, howner'] at hstands
    exact ⟨raw, id, hauth, hstands⟩

end Tables

/-! ## Verdicts -/

/-- What a guard returns for a request that starts, if it lets the request through. -/
def verdict (P : Platform) {α : Type} (guard : Code α) (inputs : Nat → Input) (sh : Shared) :
    Option α :=
  match (runSolo P guard inputs sh).1 with
  | .value a => some a
  | _ => none

section Verdicts
variable {P : Platform} {req : Request} {inputs : Nat → Input} {sh : Shared} {c : Credentials}

theorem verdict_eq_some {α : Type} {guard : Code α} {a : α} :
    verdict P guard inputs sh = some a ↔
      ∃ s', guard.Runs (soloExec P) (Solo.init inputs sh) a s' := by
  unfold verdict runSolo
  rcases heval : guard.eval (soloExec P) (Solo.init inputs sh) with ⟨b | e | _, s₁⟩
  all_goals rw [heval]
  · constructor
    · intro h
      cases h
      exact ⟨s₁, heval⟩
    · rintro ⟨s', hrun⟩
      cases heval.symm.trans hrun
      rfl
  all_goals
    refine ⟨fun h => (nomatch h), ?_⟩
    rintro ⟨s', hrun⟩
    cases heval.symm.trans hrun

theorem completes_verdict {α : Type} {guard : Code α} {Q : α → Solo → Prop}
    (h : guard.Completes (soloExec P) (Solo.init inputs sh) Q) :
    ∃ a, verdict P guard inputs sh = some a ∧ ∃ s', Q a s' := by
  obtain ⟨a, s', hrun, hQ⟩ := h
  exact ⟨a, verdict_eq_some.mpr ⟨s', hrun⟩, s', hQ⟩

/-- A live session at the time of a calm request is live all through the request. -/
theorem live_throughout (hcalm : Calm inputs) {text : String} {session : Session} {user : User} :
    (∃ n, LiveSession sh.db (inputs n).now text session user) →
      ∀ n, LiveSession sh.db (inputs n).now text session user := by
  rintro ⟨m, hlive⟩ n
  rw [(hcalm m).2, ← (hcalm n).2] at hlive
  exact hlive

/-- The guard for a session accepts exactly the sessions that stand and have not expired. -/
theorem verdict_session (hc : Reflects P c sh.db) (hcalm : Calm inputs) (user : Uuid) :
    (verdict P (getCurrentSessionAndUser req) inputs sh).map (·.2.id) = some user ↔
      c.HasSession req.cookie (inputs 0).now user := by
  rw [hc.hasSession_iff]
  constructor
  · intro h
    obtain ⟨⟨session, u⟩, hverdict, hid⟩ := Option.map_eq_some_iff.mp h
    obtain ⟨s', hrun⟩ := verdict_eq_some.mp hverdict
    obtain ⟨-, cookie, hcookie, hlive⟩ := runs_getCurrentSessionAndUser hrun
    exact ⟨cookie, session, u, hcookie, live_throughout hcalm hlive 0, hid⟩
  · rintro ⟨cookie, session, u, hcookie, hlive, rfl⟩
    have hthroughout := live_throughout hcalm ⟨0, hlive⟩
    have hcompletes : (getCurrentSessionAndUser req).Completes (soloExec P) (Solo.init inputs sh)
        fun a s' => a = (session, u) ∧ s'.At inputs sh.db [] [] := by
      unfold getCurrentSessionAndUser
      rw [hcookie]
      exact (completes_validateSession (fun n => (hcalm n).1) (Solo.at_init inputs sh)
        hthroughout).tryCatch
    obtain ⟨a, hverdict, s', rfl, -⟩ := completes_verdict hcompletes
    rw [hverdict]
    rfl

/-- The guard for a token accepts exactly the live tokens. -/
theorem verdict_token_iff (hcalm : Calm inputs) :
    (verdict P (getApiToken P req) inputs sh).isSome = true ↔
      ∃ raw token, bearerToken req.authorization = some raw ∧
        sh.db.liveToken? P raw = some token := by
  rw [Option.isSome_iff_exists]
  constructor
  · rintro ⟨token, hverdict⟩
    obtain ⟨s', hrun⟩ := verdict_eq_some.mp hverdict
    cases hraw : bearerToken req.authorization with
    | none =>
      unfold getApiToken at hrun
      rw [hraw] at hrun
      exact (runs_raise.mp hrun).elim
    | some raw =>
      obtain ⟨-, -, hlive, -⟩ := runs_validateApiToken ((runs_getApiToken hraw).mp hrun)
      exact ⟨raw, token, rfl, hlive⟩
  · rintro ⟨raw, token, hraw, hlive⟩
    obtain ⟨s', hrun⟩ := exists_runs_validateApiToken (P := P) (s := Solo.init inputs sh) rfl
      (fun n _ => (hcalm n).1) hlive
    exact ⟨token, verdict_eq_some.mpr ⟨s', (runs_getApiToken hraw).mpr hrun⟩⟩

/-! ### Either credential -/

theorem failsWith_validateApiToken {Q : PyExc → Prop} {raw : String} (hQ : ∀ e, Q e) :
    FailsWith (soloExec P) Q (AuthService.validateApiToken P raw) := by
  have hexecute : ∀ {st : Stmt}, FailsWith (soloExec P) Q (execute .main st) :=
    failsWith_execute fun d => hQ _
  refine FailsWith.bind hexecute fun found => ?_
  cases found with
  | none => exact failsWith_raise (hQ _)
  | some record =>
    dsimp only
    split
    · exact failsWith_raise (hQ _)
    · exact FailsWith.bind hexecute fun _ => failsWith_pure _

/-- Looking for the user of a session cookie always returns, and finds exactly the user of a
session that stands and has not expired. -/
theorem completes_sessionUser? (req) (hc : Reflects P c sh.db) (hcalm : Calm inputs) :
    (sessionUser? req).Completes (soloExec P) (Solo.init inputs sh) fun found s' =>
      s'.At inputs sh.db [] [] ∧
        ∀ user, found.map (·.id) = some user ↔ c.HasSession req.cookie (inputs 0).now user := by
  have hnever : FailsWith (soloExec P) (fun _ => False) (sessionUser? req) := by
    unfold sessionUser?
    split
    · exact failsWith_pure _
    · exact FailsWith.tryCatch (R := fun _ => True) (FailsWith.bind
        (failsWith_validateSession fun _ => trivial) fun _ => failsWith_pure _)
        fun _ _ => failsWith_pure _
  have hlooks : (sessionUser? req).Uses Op.looksUp := by
    unfold sessionUser?
    split
    · exact uses_pure _
    · exact Uses.tryCatch (Uses.bind looksUp_validateSession fun _ => uses_pure _)
        fun _ => uses_pure _
  obtain ⟨found, s', hrun, hat⟩ :=
    (Solo.at_init inputs sh).lookUp (fun n => (hcalm n).1) hlooks hnever
  refine ⟨found, s', hrun, hat, fun user => ?_⟩
  rw [hc.hasSession_iff]
  constructor
  · intro hfound
    obtain ⟨u, rfl, hid⟩ := Option.map_eq_some_iff.mp hfound
    obtain ⟨cookie, session, n, hcookie, hlive⟩ := runs_sessionUser? hrun
    exact ⟨cookie, session, u, hcookie, live_throughout hcalm ⟨n, hlive⟩ 0, hid⟩
  · rintro ⟨cookie, session, u, hcookie, hlive, rfl⟩
    have hcompletes : (sessionUser? req).Completes (soloExec P) (Solo.init inputs sh)
        fun found s' => found = some u ∧ s'.At inputs sh.db [] [] := by
      unfold sessionUser?
      rw [hcookie]
      refine ((completes_validateSession (fun n => (hcalm n).1) (Solo.at_init inputs sh)
        (live_throughout hcalm ⟨0, hlive⟩)).bind ?_).tryCatch
      rintro _ s₁ ⟨rfl, h₁⟩
      exact completes_pure ⟨rfl, h₁⟩
    obtain ⟨found', s'', hrun', rfl, -⟩ := hcompletes
    cases hrun.symm.trans hrun'
    rfl

/-- Looking for the owner of a bearer token always returns, and finds exactly the owner of a
live token. -/
theorem completes_tokenUser? (req) (hc : Reflects P c sh.db) (hcalm : Calm inputs) {s : Solo}
    (hs : s.At inputs sh.db [] []) :
    (tokenUser? P req).Completes (soloExec P) s fun found _ =>
      ∀ user, found.map (·.id) = some user ↔ ∃ raw token,
        bearerToken req.authorization = some raw ∧ sh.db.liveToken? P raw = some token ∧
          token.userId = user := by
  have hview : s.view = sh.db := by
    rw [Solo.view, hs.db, hs.store]
    rfl
  have hactive : s.store.main.status = .active := by rw [hs.store]
  have hfault : ∀ n, (s.inputs n).fault = none := by
    obtain ⟨k, hk⟩ := hs.later
    intro n
    rw [hk]
    exact (hcalm _).1
  have hnever : FailsWith (soloExec P) (fun _ => False) (tokenUser? P req) := by
    unfold tokenUser?
    split
    · exact failsWith_pure _
    · exact FailsWith.tryCatch (R := fun _ => True) (FailsWith.bind
        (failsWith_validateApiToken fun _ => trivial) fun _ =>
          failsWith_guardUuid (failsWith_execute fun _ => trivial)) fun _ _ => failsWith_pure _
  obtain ⟨found, s', hrun⟩ := exists_runs_of_failsWith hnever s
  refine ⟨found, s', hrun, fun user => ?_⟩
  constructor
  · intro hfound
    obtain ⟨u, rfl, hid⟩ := Option.map_eq_some_iff.mp hfound
    unfold tokenUser? at hrun
    split at hrun
    · cases (runs_pure.mp hrun).1
    rename_i raw hraw
    rcases runs_tryCatch.mp hrun with hrun | ⟨e, s₁, -, hrun⟩
    swap
    · cases (runs_pure.mp hrun).1
    obtain ⟨token, s₁, hvalidate, huser⟩ := runs_bind.mp hrun
    obtain ⟨-, -, hlive, -⟩ := runs_validateApiToken hvalidate
    obtain ⟨-, hfind⟩ := runs_userGetById huser
    obtain ⟨id, hparse, hrow⟩ := hfind u rfl
    rw [Uuid.parse?_text] at hparse
    cases hparse
    have howner : u.id = token.userId := by simpa using List.find?_some hrow
    rw [hview] at hlive
    exact ⟨raw, token, hraw, hlive, howner.symm.trans hid⟩
  · rintro ⟨raw, token, hraw, hlive, rfl⟩
    obtain ⟨s₁, hvalidate⟩ := exists_runs_validateApiToken (P := P) hactive
      (fun n _ => hfault n) (by rw [hview]; exact hlive)
    obtain ⟨-, -, -, w, hw, hview₁, hactive₁, hinputs⟩ := runs_validateApiToken hvalidate
    -- the owner of the token is a user
    have howner : token.userId ∈ sh.db.userIds := by
      unfold Database.liveToken? at hlive
      split at hlive
      swap
      · cases hlive
      have hrow : token.entered ∈ (book c.tokens).map (digested P) := by
        rw [← hc.tokens]
        exact List.mem_map_of_mem (List.mem_of_find?_eq_some hlive)
      obtain ⟨r, hr, hentered⟩ := List.mem_map.mp hrow
      have huser := hc.tokenUsers r hr
      rwa [show r.value.2 = token.userId from congrArg (fun r => r.value.2) hentered] at huser
    obtain ⟨u, hfind, hid⟩ := exists_user (userIds_apply w howner)
    let r : Executed (.userGet token.userId.text) := ⟨some u, [], []⟩
    have hget : (SqlUserRepository.getById token.userId.text).Runs (soloExec P) s₁ (some u)
        (s₁.ran r) := by
      refine runs_guardUuid_of (isValidUuid_text _) (runs_execute_iff.mpr ⟨hactive₁, ?_, r, ?_, rfl,
        rfl⟩)
      · rw [hinputs]
        exact hfault 2
      · rw [hview₁, hview]
        simp only [Stmt.run, uuidParam_eq_ok.mpr (Uuid.parse?_text token.userId)]
        exact congrArg (fun found => (.ok ⟨found, [], []⟩ : Except DbError (Executed
          (.userGet token.userId.text)))) hfind
    have hrun' : (tokenUser? P req).Runs (soloExec P) s (some u) (s₁.ran r) := by
      unfold tokenUser?
      rw [hraw]
      exact runs_tryCatch.mpr (.inl (runs_bind.mpr ⟨token, s₁, hvalidate, hget⟩))
    cases hrun.symm.trans hrun'
    exact congrArg some hid

/-- The guard for either credential takes the user of the session if there is one, and the
owner of the token otherwise. -/
theorem verdict_either (hc : Reflects P c sh.db) (hcalm : Calm inputs) (user : Uuid) :
    (verdict P (getUserFromSessionOrToken P req) inputs sh).map (·.id) = some user ↔
      c.HasSession req.cookie (inputs 0).now user ∨
        (¬ ∃ other, c.HasSession req.cookie (inputs 0).now other) ∧ ∃ raw token,
          bearerToken req.authorization = some raw ∧ sh.db.liveToken? P raw = some token ∧
            token.userId = user := by
  obtain ⟨bySession, s₁, hsession, hat, hiff⟩ := completes_sessionUser? req hc hcalm
  cases bySession with
  | some u =>
    have hverdict : verdict P (getUserFromSessionOrToken P req) inputs sh = some u :=
      verdict_eq_some.mpr ⟨s₁, runs_bind.mpr ⟨some u, s₁, hsession, runs_pure.mpr ⟨rfl, rfl⟩⟩⟩
    have hhas := (hiff u.id).mp rfl
    rw [hverdict]
    constructor
    · intro h
      exact .inl ((hiff user).mp h)
    · rintro (h | ⟨hno, -⟩)
      · exact (hiff user).mpr h
      · exact (hno ⟨u.id, hhas⟩).elim
  | none =>
    have hno : ¬ ∃ other, c.HasSession req.cookie (inputs 0).now other := by
      rintro ⟨other, hother⟩
      cases (hiff other).mpr hother
    obtain ⟨byToken, s₂, htoken, hiff'⟩ := completes_tokenUser? req hc hcalm hat
    have hrest : verdict P (getUserFromSessionOrToken P req) inputs sh = byToken := by
      cases byToken with
      | some u =>
        refine verdict_eq_some.mpr ⟨s₂, runs_bind.mpr ⟨none, s₁, hsession, ?_⟩⟩
        exact runs_bind.mpr ⟨some u, s₂, htoken, runs_pure.mpr ⟨rfl, rfl⟩⟩
      | none =>
        rw [Option.eq_none_iff_forall_ne_some]
        intro u hu
        obtain ⟨s', hrun⟩ := verdict_eq_some.mp hu
        obtain ⟨found, t₁, hfound, hrun⟩ := runs_bind.mp hrun
        cases hsession.symm.trans hfound
        obtain ⟨found, t₂, hfound, hrun⟩ := runs_bind.mp hrun
        cases htoken.symm.trans hfound
        exact (runs_raise.mp hrun).elim
    rw [hrest, hiff' user]
    constructor
    · exact fun h => .inr ⟨hno, h⟩
    · rintro (h | ⟨-, h⟩)
      · exact (hno ⟨user, h⟩).elim
      · exact h

end Verdicts

/-! ## Runs -/

theorem serveAll_append (P : Platform) (run more : List (Request × (Nat → Input))) (sh : Shared) :
    serveAll P (run ++ more) sh = serveAll P more (serveAll P run sh) := by
  induction run generalizing sh with
  | nil => rfl
  | cons step run ih => exact ih _

theorem Credentials.after_append (P : Platform) (c : Credentials)
    (run more : List (Request × (Nat → Input))) (sh : Shared) :
    c.after P (run ++ more) sh = (c.after P run sh).after P more (serveAll P run sh) := by
  induction run generalizing c sh with
  | nil => rfl
  | cons step run ih => exact ih _ _

/-- Ledgers only grow. -/
theorem Credentials.after_extends (P : Platform) (c : Credentials)
    (run : List (Request × (Nat → Input))) (sh : Shared) :
    ∃ sessions tokens, (c.after P run sh).sessions = sessions ++ c.sessions ∧
      (c.after P run sh).tokens = tokens ++ c.tokens := by
  induction run generalizing c sh with
  | nil => exact ⟨[], [], rfl, rfl⟩
  | cons step run ih =>
    obtain ⟨sessions, tokens, hsessions, htokens⟩ :=
      ih (c.next P step.1 step.2 sh) (serve P step.1 step.2 sh)
    refine ⟨sessions ++ (sessionEntry P step.1 step.2 sh).toList,
      tokens ++ (tokenEntry P step.1 step.2 sh).toList, ?_, ?_⟩
    · rw [List.append_assoc]
      exact hsessions
    · rw [List.append_assoc]
      exact htokens

/-- The guards decide about a request as the ledger says. -/
structure Decides (P : Platform) (c : Credentials) (req : Request) (inputs : Nat → Input)
    (sh : Shared) : Prop where
  session : ∀ user, (verdict P (getCurrentSessionAndUser req) inputs sh).map (·.2.id) = some user ↔
    c.HasSession req.cookie (inputs 0).now user
  token : (verdict P (getApiToken P req) inputs sh).isSome = true ↔
    ∃ owner, c.HasToken req.authorization owner
  either : ∀ user, (verdict P (getUserFromSessionOrToken P req) inputs sh).map (·.id) = some user ↔
    c.HasSession req.cookie (inputs 0).now user ∨
      (¬ ∃ other, c.HasSession req.cookie (inputs 0).now other) ∧
        c.HasToken req.authorization user

/-- A session or a token of the ledger that the guards reject in one request, they reject in
another one too. -/
structure StaysRejected (P : Platform) (c : Credentials) (req req' : Request)
    (inputs inputs' : Nat → Input) (sh sh' : Shared) : Prop where
  session : ∀ id issued, req.sessionId? = some id → req'.sessionId? = some id →
    Issued c.sessions id issued → verdict P (getCurrentSessionAndUser req) inputs sh = none →
      verdict P (getCurrentSessionAndUser req') inputs' sh' = none
  token : ∀ id raw owner, req.authorization = some ("Bearer " ++ raw) →
    req'.authorization = some ("Bearer " ++ raw) → Issued c.tokens id (raw, owner) →
      verdict P (getApiToken P req) inputs sh = none →
        verdict P (getApiToken P req') inputs' sh' = none

section Runs
variable {P : Platform} {c : Credentials} {req : Request} {inputs : Nat → Input} {sh : Shared}
  {texts : Set String}

theorem Reflects.decides (hc : Reflects P c sh.db) (hdigest : P.Digests)
    (hinj : Set.InjOn P.sha256 texts) (hcalm : Calm inputs)
    (hoccurs : Occurs texts c req.authorization) : Decides P c req inputs sh where
  session := verdict_session hc hcalm
  token := by
    rw [verdict_token_iff hcalm]
    constructor
    · rintro ⟨raw, token, hraw, hlive⟩
      exact ⟨token.userId, (hc.hasToken_iff hdigest hinj hoccurs).mpr ⟨raw, token, hraw, hlive, rfl⟩⟩
    · rintro ⟨owner, htoken⟩
      obtain ⟨raw, token, hraw, hlive, -⟩ := (hc.hasToken_iff hdigest hinj hoccurs).mp htoken
      exact ⟨raw, token, hraw, hlive⟩
  either := fun user => by
    rw [verdict_either hc hcalm user, hc.hasToken_iff hdigest hinj hoccurs]

/-- The token with a raw text is unique. -/
theorem Reflects.token_unique (hc : Reflects P c sh.db) {id id' : Uuid} {raw : String}
    {owner owner' : Uuid} (hissued : Issued c.tokens id (raw, owner))
    (hissued' : Issued c.tokens id' (raw, owner')) : id = id' := by
  obtain ⟨revoked, hrow⟩ := exists_mem_book hissued
  obtain ⟨revoked', hrow'⟩ := exists_mem_book hissued'
  have hnodup : ((book c.tokens).map fun r => P.sha256 r.value.1).Nodup := by
    have hhashes := hc.digests
    rw [map_tokenHash, hc.tokens, List.map_map] at hhashes
    exact hhashes
  have hsame := List.inj_on_of_nodup_map hnodup hrow hrow' rfl
  exact congrArg Row.key hsame

theorem Reflects.staysRejected {c' : Credentials} {req' : Request} {inputs' : Nat → Input}
    {sh' : Shared} (hc' : Reflects P c' sh'.db) (hd : Decides P c req inputs sh)
    (hd' : Decides P c' req' inputs' sh') (htime : (inputs 0).now ≤ (inputs' 0).now)
    (hgrows : ∃ sessions tokens, c'.sessions = sessions ++ c.sessions ∧
      c'.tokens = tokens ++ c.tokens) : StaysRejected P c req req' inputs inputs' sh sh' := by
  obtain ⟨sessions, tokens, hsessions, htokens⟩ := hgrows
  constructor
  · intro id issued hid hid' hissued hnone
    rw [Option.eq_none_iff_forall_ne_some]
    rintro ⟨session, user⟩ hsome
    obtain ⟨text, id₁, time, htext, hparse, hstands, hexpires⟩ :=
      (hd'.session user.id).mp (by rw [hsome]; rfl)
    have hsame : id₁ = id := by
      rw [Request.sessionId?, htext] at hid'
      exact Option.some.inj (hparse.symm.trans hid')
    rw [hsame, hsessions] at hstands
    have hfresh := hc'.sessionIds
    rw [hsessions] at hfresh
    have hbefore := hstands.of_append hfresh hissued
    obtain ⟨text', htext', hparse'⟩ := Option.bind_eq_some_iff.mp hid
    have haccepted := (hd.session user.id).mpr
      ⟨text', id, time, htext', hparse', hbefore, htime.trans hexpires⟩
    rw [hnone] at haccepted
    cases haccepted
  · intro id raw owner hraw hraw' hissued hnone
    have hno : (verdict P (getApiToken P req') inputs' sh').isSome = false := by
      rw [← Bool.not_eq_true, hd'.token]
      rintro ⟨owner', raw', id', hbears, hstands⟩
      have hsame : raw' = raw := by
        have htext := Option.some.inj (hbears.symm.trans hraw')
        have hlists := congrArg String.toList htext
        rw [String.toList_append, String.toList_append] at hlists
        exact String.toList_injective (List.append_cancel_left hlists)
      rw [hsame] at hstands
      have hissued' : Issued c'.tokens id (raw, owner) := by
        rw [htokens]
        exact List.mem_append_right _ hissued
      rw [← hc'.token_unique hissued' hstands.issued, htokens] at hstands
      have hfresh := hc'.tokenIds
      rw [htokens] at hfresh
      have haccepted := hd.token.mpr ⟨owner', raw, id, hraw, hstands.of_append hfresh hissued⟩
      rw [hnone] at haccepted
      cases haccepted
    simpa using hno

end Runs

/-- After every run of requests from an empty store, the three guards accept exactly what the
ledger of the run says, and what they reject once they reject forever. -/
theorem authentication_sound_complete (P : Platform) (texts : Set String) (hdigest : P.Digests)
    (hinj : Set.InjOn P.sha256 texts) (run : List (Request × (Nat → Input)))
    (hrun : ∀ step ∈ run, Calm step.2) (req : Request) (inputs : Nat → Input) (hcalm : Calm inputs)
    (hoccurs : Occurs texts (Credentials.after P {} run Shared.fresh) req.authorization) :
    let c := Credentials.after P {} run Shared.fresh
    let sh := serveAll P run Shared.fresh
    Decides P c req inputs sh ∧
      ∀ more req' inputs', (∀ step ∈ more, Calm step.2) → Calm inputs' →
        (inputs 0).now ≤ (inputs' 0).now →
        Occurs texts (Credentials.after P {} (run ++ more) Shared.fresh) req'.authorization →
          StaysRejected P c req req' inputs inputs' sh (serveAll P (run ++ more) Shared.fresh) := by
  intro c sh
  have hstart : Reflects P {} Shared.fresh.db := reflects_empty P
  have hc : Reflects P c sh.db := hstart.run hdigest hrun
  have hdecides := hc.decides hdigest hinj hcalm hoccurs
  refine ⟨hdecides, fun more req' inputs' hmore hcalm' htime hoccurs' => ?_⟩
  rw [Credentials.after_append] at hoccurs'
  rw [serveAll_append]
  have hc' := hc.run hdigest hmore
  exact hc'.staysRejected hdecides (hc'.decides hdigest hinj hcalm' hoccurs') htime
    (c.after_extends P more sh)

/-- The first steps, and a token for the machine. -/
def tokenRun : List (Request × (Nat → Input)) :=
  firstSteps ++
    [(adminRequest (.createToken (.typed ⟨"nas only", some (Uuid.ofNat 3).text⟩)), Input.token)]

theorem after_tokenRun :
    Credentials.after Platform.signing {} tokenRun Shared.fresh =
      { sessions := [.issue sampleSession (Uuid.ofNat 2, sampleTime)]
        tokens := [.issue (Uuid.ofNat 5) (Platform.sampleToken, Uuid.ofNat 2)] } := by
  decide +kernel

/-- The list of machines, asked for with the session and with the token of that run. -/
theorem authentication_sound_complete_sample :
    Decides Platform.signing (Credentials.after Platform.signing {} tokenRun Shared.fresh)
      { adminRequest (.listMachines .absent) with
        authorization := some ("Bearer " ++ Platform.sampleToken) }
      (Input.signing 6) (serveAll Platform.signing tokenRun Shared.fresh) := by
  refine (authentication_sound_complete Platform.signing {Platform.sampleToken} ?_ ?_ tokenRun ?_
    _ (Input.signing 6) (fun _ => ⟨rfl, rfl⟩) ?_).1
  · intro text
    show textOk Platform.sampleDigest = true ∧ Platform.sampleDigest.toList.length ≤ 128
    decide +kernel
  · intro a ha b hb _
    rw [Set.mem_singleton_iff.mp ha, Set.mem_singleton_iff.mp hb]
  · intro step hstep
    simp only [tokenRun, firstSteps, List.cons_append, List.nil_append, List.mem_cons,
      List.not_mem_nil, or_false] at hstep
    rcases hstep with rfl | rfl | rfl
    · exact fun _ => ⟨rfl, rfl⟩
    · exact fun _ => ⟨rfl, rfl⟩
    · exact fun _ => ⟨rfl, rfl⟩
  · rw [after_tokenRun]
    refine ⟨fun id raw user hissued => ?_, fun raw hraw => ?_⟩
    · cases List.mem_singleton.mp hissued
      exact Set.mem_singleton _
    · have hlists := congrArg String.toList (Option.some.inj hraw)
      rw [String.toList_append, String.toList_append] at hlists
      exact Set.mem_singleton_iff.mpr
        (String.toList_injective (List.append_cancel_left hlists)).symm

end WolMonkey
