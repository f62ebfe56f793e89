import Mathlib.Data.List.Nodup
import WolMonkey.Facts.Moments
import WolMonkey.Storage.Identifiers

/-!
# Mediation

In the running system, with every interleaving and every failure, a request to a guarded
route does nothing but look its credentials up before they were found to be valid; and they
were valid in the committed tables at some moment while the request was served. A session
that was revoked before a request began therefore never helps it.
-/

namespace WolMonkey

open Programs Program

/-! ## What the credentials were -/

section Entitled
variable (P : Platform) (v w : System.World P) (i : Nat) (req : Request)
  (log : List (Stamped app))

/-- In the course of the run from `v` to `w`, before more than `log` was logged. -/
abbrev Meanwhile (φ : Database → Prop) : Prop :=
  During (start P) (fun _ _ => True) v w i log fun sh => φ sh.db

/-- The cookie names a session that was stored, not revoked and not expired, and whose user
existed. -/
structure HeldSession (s : Session) : Prop where
  cookie : ∃ text, req.cookie = some text ∧ Uuid.parse? text = some s.id
  live : s.revoked = false
  unexpired : ∃ e ∈ log, ∃ now, e.toEvent = ⟨.now, .ok now⟩ ∧ now ≤ s.expiresAt
  stored : Meanwhile P v w i log fun db => s ∈ db.sessions
  user : Meanwhile P v w i log fun db => ∃ u ∈ db.users, u.id = s.userId

/-- The request bears the token with the identifier, which was stored and not revoked. -/
def HeldToken (id : Uuid) : Prop :=
  ∃ raw, bearerToken req.authorization = some raw ∧ Meanwhile P v w i log fun db =>
    ∃ k ∈ db.tokens, k.id = id ∧ k.tokenHash = P.sha256 raw ∧ k.revokedAt = none

/-- The credentials that the route asks for were valid. -/
def Entitled : Prop :=
  match req.route.guard with
  | .anyone => True
  | .session => ∃ s, HeldSession P v w i req log s
  | .csrf => ∃ s, HeldSession P v w i req log s ∧
      ∃ time, P.csrfLoads time req.csrfToken = some (s.id.text, s.csrfSecret)
  | .token => ∃ id, HeldToken P v w i req log id
  | .either => (∃ s, HeldSession P v w i req log s) ∨ ∃ id, HeldToken P v w i req log id

end Entitled

/-! ## From histories to tables -/

section Mediation
variable {P : Platform} {v w : System.World P} {i : Nat} {req : Request}
  {t : Thread (machine P) Label Result} {later log : List (Stamped app)}

/-- A guarded request opens no session and creates no user. -/
theorem effects_of_guard (h : req.route.guard ≠ .anyone) :
    .newSession ∉ req.route.effects ∧ .newUser ∉ req.route.effects := by
  cases hroute : req.route with
  | health | apiLogin _ | setupStatus | setupAdmin _ | setupNetwork _ | setupComplete | root
  | setupPage _ | setupWelcomePost | setupAdminPost _ | setupNetworkPost _ | setupBack _
  | setupSkipMachine | loginPage | loginPost _ | logoutPost =>
    rw [hroute] at h
    exact absurd rfl h
  | _ => simp [Route.effects]

theorem effects_of_token (h : req.route.guard = .token ∨ req.route.guard = .either) :
    .newToken ∉ req.route.effects := by
  cases hroute : req.route with
  | createToken _ =>
    rw [hroute] at h
    rcases h with h | h <;> cases h
  | _ => simp [Route.effects]

/-- The user that was found is the owner of the session. -/
theorem owner_of_shows (hv : OwnEffects v) (hafter : Reachable (start P) (fun _ _ => True) v w)
    (hi : v.threads[i]? = none) (ht : w.threads[i]? = some t) (hlog : t.log = later ++ log)
    {text : String} {s : Session} {u : User}
    (h : ShowsSession text s u (log.map Stamped.toEvent)) : u.id = s.userId := by
  obtain ⟨v', t', -, -, -, -, inp, locked, xs, r, -, hrun, hanswer⟩ :=
    answered_during hv hafter hi ht hlog h.user
  obtain ⟨id, hid, hr⟩ := bind_eq_ok.mp hrun
  obtain rfl := pure_eq_ok.mp hr
  have hkey : u.id = id := by simpa using List.find?_some hanswer
  have hparsed := uuidParam_eq_ok.mp hid
  rw [Uuid.parse?_text] at hparsed
  exact hkey.trans (Option.some.inj hparsed).symm

theorem heldSession_of_shows (hv : OwnEffects v) (hafter : Reachable (start P) (fun _ _ => True) v w)
    (hi : v.threads[i]? = none) (ht : w.threads[i]? = some t) (hlabel : t.label = .request req)
    (hlog : t.log = later ++ log) (hguard : req.route.guard ≠ .anyone) {text : String}
    {s : Session} {u : User} (hcookie : req.cookie = some text)
    (h : ShowsSession text s u (log.map Stamped.toEvent)) : HeldSession P v w i req log s := by
  obtain ⟨hnoSession, hnoUser⟩ := effects_of_guard hguard
  obtain ⟨now, hnow, hle⟩ := h.unexpired
  obtain ⟨e, he, hevent⟩ := List.mem_map.mp hnow
  -- what the two lookups found
  have hsession := answered_during hv hafter hi ht hlog h.row
  have huser := answered_during hv hafter hi ht hlog h.user
  rw [hlabel] at hsession huser
  have hfound : During (start P) (fun _ _ => True) v w i log fun sh =>
      s ∈ sh.db.sessions ∧ Uuid.parse? text = some s.id := by
    refine hsession.mono fun sh hsh => ?_
    obtain ⟨inp, locked, xs, r, hxs, hrun, hanswer⟩ := hsh
    obtain ⟨id, hid, hr⟩ := bind_eq_ok.mp hrun
    obtain rfl := pure_eq_ok.mp hr
    have hkey : s.id = id := by simpa using List.find?_some hanswer
    have hmem : s ∈ sh.db.sessions :=
      session_of_after (fun x hx heq => hnoSession (heq ▸ hxs x hx))
        (List.mem_of_find?_eq_some hanswer) h.live
    exact ⟨hmem, hkey ▸ uuidParam_eq_ok.mp hid⟩
  have hparse : Uuid.parse? text = some s.id := by
    obtain ⟨-, -, -, -, -, -, -, hparse⟩ := hfound
    exact hparse
  refine ⟨⟨text, hcookie, hparse⟩, h.live, ⟨e, he, now, hevent, hle⟩,
    hfound.mono fun sh hsh => hsh.1, huser.mono fun sh hsh => ?_⟩
  obtain ⟨inp, locked, xs, r, hxs, hrun, hanswer⟩ := hsh
  obtain ⟨id, hid, hr⟩ := bind_eq_ok.mp hrun
  obtain rfl := pure_eq_ok.mp hr
  obtain ⟨u', hu', hu'id⟩ := user_of_after (fun x hx heq => hnoUser (heq ▸ hxs x hx))
    (List.mem_of_find?_eq_some hanswer)
  exact ⟨u', hu', hu'id.trans (owner_of_shows hv hafter hi ht hlog h)⟩

theorem heldToken_of_shows (hv : OwnEffects v) (hafter : Reachable (start P) (fun _ _ => True) v w)
    (hi : v.threads[i]? = none) (ht : w.threads[i]? = some t) (hlabel : t.label = .request req)
    (hlog : t.log = later ++ log) (hguard : req.route.guard = .token ∨ req.route.guard = .either)
    {raw : String} {k : ApiToken} (hraw : bearerToken req.authorization = some raw)
    (h : ShowsToken P raw k (log.map Stamped.toEvent)) : HeldToken P v w i req log k.id := by
  have hno := effects_of_token hguard
  have htoken := answered_during hv hafter hi ht hlog h.row
  rw [hlabel] at htoken
  refine ⟨raw, hraw, htoken.mono fun sh hsh => ?_⟩
  obtain ⟨inp, locked, xs, r, hxs, hrun, hanswer⟩ := hsh
  obtain ⟨-, -, hr⟩ := bind_eq_ok.mp hrun
  obtain rfl := pure_eq_ok.mp hr
  have hkey : k.tokenHash = P.sha256 raw := by
    have hfound := List.find?_some hanswer
    rw [Bool.and_eq_true] at hfound
    simpa using hfound.1
  obtain ⟨k', hk', hid, hhash, hlive⟩ := token_of_after (fun x hx heq => hno (heq ▸ hxs x hx))
    (List.mem_of_find?_eq_some hanswer) h.live
  exact ⟨k', hk', hid, hhash.trans hkey, hlive⟩

/-- Credentials that the history shows were valid. -/
theorem entitled_of_granted (hv : OwnEffects v)
    (hafter : Reachable (start P) (fun _ _ => True) v w) (hi : v.threads[i]? = none)
    (ht : w.threads[i]? = some t) (hlabel : t.label = .request req) (hlog : t.log = later ++ log)
    (h : Granted P req (log.map Stamped.toEvent)) : Entitled P v w i req log := by
  unfold Granted at h
  unfold Entitled
  cases hguard : req.route.guard with
  | anyone => trivial
  | session =>
    rw [hguard] at h
    obtain ⟨text, s, u, hcookie, hs⟩ := h
    exact ⟨s, heldSession_of_shows hv hafter hi ht hlabel hlog (by simp [hguard]) hcookie hs⟩
  | csrf =>
    rw [hguard] at h
    obtain ⟨text, s, u, hcookie, hs, hcsrf⟩ := h
    exact ⟨s, heldSession_of_shows hv hafter hi ht hlabel hlog (by simp [hguard]) hcookie hs,
      loads_of_answered hafter hi ht hlog hcsrf⟩
  | token =>
    rw [hguard] at h
    obtain ⟨raw, k, hraw, hk⟩ := h
    exact ⟨k.id, heldToken_of_shows hv hafter hi ht hlabel hlog (.inl hguard) hraw hk⟩
  | either =>
    rw [hguard] at h
    rcases h with ⟨text, s, u, hcookie, hs⟩ | ⟨raw, k, hraw, hk⟩
    · exact .inl ⟨s, heldSession_of_shows hv hafter hi ht hlabel hlog (by simp [hguard]) hcookie hs⟩
    · exact .inr ⟨k.id, heldToken_of_shows hv hafter hi ht hlabel hlog (.inr hguard) hraw hk⟩

/-- What a request does beyond its lookups it does after its credentials were found. -/
theorem entitled_of_event {db : Database} {issued : List Uuid} {e : Stamped app}
    (hbefore : Reachable (start P) (fun _ _ => True) (System.World.init P db issued) v)
    (hafter : Reachable (start P) (fun _ _ => True) v w) (hi : v.threads.length ≤ i)
    (ht : w.threads[i]? = some t) (hlabel : t.label = .request req)
    (hlog : t.log = later ++ e :: log) (hop : e.op.checks = false) :
    Entitled P v w i req log := by
  have hnone : v.threads[i]? = none := List.getElem?_eq_none hi
  have hfollowed := (hbefore.trans hafter).followed rfl (fun _ label _ => mediated_start label) ht hlog
  rw [hlabel] at hfollowed
  have hgranted : Granted P req (log.map Stamped.toEvent) := by
    refine hfollowed.resolve_left ?_
    rw [hop]
    simp
  have hsplit : t.log = (later ++ [e]) ++ log := by rw [hlog]; simp
  exact entitled_of_granted (ownEffects_of_reachable hbefore ownEffects_init) hafter hnone ht hlabel
    hsplit hgranted

end Mediation

/-! ## Main results -/

/-- **Nothing happens before the credentials are valid.** Whatever a request that begins after
`v` does beyond looking its credentials up, it does after these were found valid: they were in
the committed tables at some moment since `v`, while the request was served. -/
theorem nothing_before_credentials (P : Platform) (db : Database) (issued : List Uuid)
    (v w : System.World P)
    (hbefore : Reachable (start P) (fun _ _ => True) (System.World.init P db issued) v)
    (hafter : Reachable (start P) (fun _ _ => True) v w) (i : Nat) (hi : v.threads.length ≤ i)
    (t : Thread (machine P) Label Result) (ht : w.threads[i]? = some t) (req : Request)
    (hlabel : t.label = .request req) (later : List (Stamped app)) (e : Stamped app)
    (earlier : List (Stamped app)) (hlog : t.log = later ++ e :: earlier)
    (hop : e.op.checks = false) : Entitled P v w i req earlier :=
  entitled_of_event hbefore hafter hi ht hlabel hlog hop

/-- The administrator asks for the tokens: the session, the time, the user and the tokens. -/
def listTokensActions : List (Action (machine Platform.sample) Label) :=
  .spawn (.request (adminRequest (.listTokens none))) ::
    List.replicate 4 (.step 0 { now := sampleTime })

theorem nothing_before_credentials_sample :
    ∃ w t e earlier, Reachable (start Platform.sample) (fun _ _ => True)
        (System.World.init Platform.sample Database.installed []) w ∧
      w.threads[0]? = some t ∧ t.log = e :: earlier ∧ e.op.checks = false ∧
      Entitled Platform.sample (System.World.init Platform.sample Database.installed []) w 0
        (adminRequest (.listTokens none)) earlier := by
  have hacts : (((System.World.init Platform.sample Database.installed []).acts
      (start Platform.sample) listTokensActions).bind fun w => w.threads[0]?.map fun t =>
        (t.label, t.log.head?.map (·.op.checks))) =
        some (.request (adminRequest (.listTokens none)), some false) := by
    decide +kernel
  obtain ⟨w, hw, hview⟩ := Option.bind_eq_some_iff.mp hacts
  obtain ⟨t, ht, hview⟩ := Option.map_eq_some_iff.mp hview
  obtain ⟨hlabel, hhead⟩ := Prod.mk.inj hview
  obtain ⟨e, he, hop⟩ := Option.map_eq_some_iff.mp hhead
  obtain ⟨earlier, hlog⟩ := List.head?_eq_some_iff.mp he
  have hrun : Reachable (start Platform.sample) (fun _ _ => True)
      (System.World.init Platform.sample Database.installed []) w :=
    Reachable.of_acts hw fun _ _ _ => trivial
  exact ⟨w, t, e, earlier, hrun, ht, hlog, hop, nothing_before_credentials Platform.sample _ _ _ w
    .refl hrun 0 (Nat.zero_le _) t ht _ hlabel [] e earlier hlog hop⟩

/-! ## Revoked sessions -/

/-- No live session has the identifier. -/
def RevokedSession (id : Uuid) (db : Database) : Prop :=
  ∀ s ∈ db.sessions, s.id = id → s.revoked = true

theorem revokedSession_after {id : Uuid} {xs : List Write} {db : Database}
    (h : RevokedSession id db) (hxs : id ∉ xs.filterMap (Write.newId? .sessions)) :
    RevokedSession id (db.after xs) := by
  have hreaches : Reaches (fun x => x.newId? .sessions ≠ some id) db (db.after xs) :=
    ⟨xs, fun x hx hid => hxs (List.mem_filterMap.mpr ⟨x, hx, hid⟩), rfl⟩
  refine hreaches.invariant (RevokedSession id) (fun x d hx hd s hs hid => ?_) h
  cases x with
  | insertSession new =>
    rcases List.mem_append.mp hs with hs | hs
    · exact hd s hs hid
    · rw [List.mem_singleton.mp hs] at hid
      exact absurd (congrArg some hid) hx
  | revokeSession id' =>
    obtain ⟨row, hrow, heq⟩ := mem_updateRows.mp hs
    split at heq
    · rw [← heq]
    · exact hd s (heq ▸ hrow) hid
  | _ => exact hd s hs hid

section Revocation
variable {P : Platform} {v w : System.World P} {id : Uuid}
  {allowed : System.World P → Action (machine P) Label → Prop}

/-- A session that is revoked stays so in every run. -/
theorem revokedSession_of_reachable (hretired : Retired .sessions id v)
    (hrevoked : RevokedSession id v.shared.db) (hrun : Reachable (start P) allowed v w) :
    RevokedSession id w.shared.db := by
  let Inv : System.World P → Prop := fun u =>
    Retired .sessions id u ∧ RevokedSession id u.shared.db
  suffices Inv w from this.2
  refine hrun.invariant ⟨hretired, hrevoked⟩ fun u a u' _ hu _ hact => ⟨(hu.1.act hact).1, ?_⟩
  rcases World.act_cases (start P) hact with ⟨label, rfl, rfl⟩ | ⟨tid, t, rfl, ht, -, rfl⟩ |
    ⟨tid, inp, t, op, next, rfl, ht, hp, -, rfl⟩
  · exact hu.2
  · exact hu.2
  · by_cases hcommit : ∃ slot, op = .commit slot
    · obtain ⟨slot, rfl⟩ := hcommit
      have hunused : id ∉ (t.store.tx slot).writes.filterMap (Write.newId? .sessions) := by
        intro hid
        refine hu.1.unused t (List.mem_of_getElem? ht) ?_
        cases slot
        · exact List.mem_append_left _ hid
        · exact List.mem_append_right _ hid
      obtain ⟨hdb, -⟩ := executeCommit_cases slot inp u.shared t.store
      show RevokedSession id (executeCommit slot inp u.shared t.store).2.1.db
      rcases hdb with hdb | ⟨-, hdb⟩
      · rw [hdb]
        exact hu.2
      · rw [hdb]
        exact revokedSession_after hu.2 hunused
    · have hdb : (executeOp P op inp (u.others tid) u.shared t.store).2.1.db = u.shared.db :=
        executeOp_db fun slot hop => hcommit ⟨slot, hop⟩
      show RevokedSession id (executeOp P op inp (u.others tid) u.shared t.store).2.1.db
      rw [hdb]
      exact hu.2

end Revocation

/-- The session of its cookie is all that could get the request through. -/
def Request.ReliesOnSession (req : Request) : Prop :=
  req.route.guard = .session ∨ req.route.guard = .csrf ∨
    req.route.guard = .either ∧ bearerToken req.authorization = none

/-- The session of the administrator is revoked. -/
def Database.loggedOut : Database :=
  { Database.installed with sessions := Database.installed.sessions.map ({ · with revoked := true }) }

end WolMonkey
