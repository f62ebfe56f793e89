import Mathlib.Tactic.IntervalCases
import WolMonkey.Facts.Sessions

/-!
# Waking a machine

When `WakeService.wake` comes to the point of calling `strategy.wake` (`WakeReady`), and when
`validate_api_token` accepts a token. Both are stated for a request that runs alone, as
conditions on the tables and the inputs in the state before.
-/

namespace WolMonkey

open Programs Program

/-- A call of `strategy.wake`. -/
def isSend : Op → Bool
  | .send _ _ _ _ => true
  | _ => false

/-! ## When a wake sends its packet -/

/-- Everything that `WakeService.wake` needs to come to its `send`: a machine that is
enabled, a strategy that exists, values that fit, and database calls that work. -/
structure WakeReady (a : WakeArgs) (s : Solo) : Prop where
  active : s.store.main.status = .active
  faultless : ∀ n < 3, (s.inputs n).fault = none
  fresh : ∀ w ∈ s.view.attempts, w.id ≠ (s.inputs 1).fresh
  valid : isValidUuid a.machineId = true
  machine : ∃ id m, Uuid.parse? a.machineId = some id ∧
    s.view.machines.find? (·.id == id) = some m ∧ m.enabled = true ∧
    wakeStrategyOk (orElse a.strategyOverride m.wakeStrategy) = true
  actorType : (varchar 20 a.actorType).isSome = true
  actorId : (varchar 255 a.actorId).isSome = true
  pollTimeout : int4Ok a.pollTimeoutS = true

section Wake
variable {P : Platform} {s s' : Solo} {a : WakeArgs}

theorem not_send_of_within {es : List Effect} (hsend : .send ∉ es) {op : Op} (h : Within es op) :
    isSend op = false := by
  cases op with
  | send strategy mac interface broadcast => exact (hsend (h .send rfl)).elim
  | _ => rfl

/-- Code without the effect sends nothing. -/
theorem not_performs_send (es : List Effect) {α : Type} {p : Code α} (hp : p.Uses (Within es))
    (hsend : .send ∉ es) (s : Solo) : ¬ p.performs (soloExec P) isSend s = true := by
  have huses : p.Uses fun op => isSend op = false := hp.mono fun _ => not_send_of_within hsend
  rw [huses.not_performs s]
  exact Bool.false_ne_true

theorem performs_sendAndRecord {machine : Machine} {attempt : WakeAttempt}
    {strategy : WakeStrategy} :
    (WakeService.sendAndRecord machine attempt strategy).performs (soloExec P) isSend s = true := by
  refine performs_bind.mpr (.inl (performs_tryCatch.mpr (.inl (performs_bind.mpr (.inl ?_)))))
  rfl

theorem wakeStrategyOk_of_runs {name : String} {strategy : WakeStrategy}
    (h : (getStrategy P name).Runs (soloExec P) s strategy s') : wakeStrategyOk name = true := by
  unfold getStrategy at h
  unfold wakeStrategyOk
  split at h
  · rename_i hname
    rw [hname, Bool.true_or]
  · split at h
    · rename_i hname
      rw [hname, Bool.or_true]
    · exact (runs_raise.mp h).elim

theorem runs_getStrategy {name : String} (h : wakeStrategyOk name = true) :
    ∃ strategy, (getStrategy P name).Runs (soloExec P) s strategy s := by
  unfold getStrategy
  split
  · exact ⟨_, runs_pure.mpr ⟨rfl, rfl⟩⟩
  · rename_i hname
    have hother : (name == "udp_broadcast") = true := by
      simpa [wakeStrategyOk, hname] using h
    rw [if_pos hother]
    exact ⟨_, runs_pure.mpr ⟨rfl, rfl⟩⟩

/-- A wake that reaches its `send` was ready. -/
theorem wakeReady_of_performs (h : (WakeService.wake P a).performs (soloExec P) isSend s = true) :
    WakeReady a s := by
  rcases performs_bind.mp h with h | ⟨found, s₁, hget, h⟩
  · exact (not_performs_send [] uses_machineGetById (by simp) s h).elim
  rcases runs_guardUuid hget with ⟨hvalid, hget⟩ | ⟨-, rfl, -⟩
  swap
  · cases h
  obtain ⟨hactive, hfault₀, r₀, hrun₀, rfl, rfl⟩ := runs_execute_iff.mp hget
  simp only [Stmt.run, bind_eq_ok, uuidParam_eq_ok, pure_eq_ok] at hrun₀
  obtain ⟨id, hid, rfl⟩ := hrun₀
  dsimp only at h
  split at h
  · cases h
  rename_i m hm
  split at h
  · cases h
  rename_i henabled
  rcases performs_bind.mp h with h | ⟨attempt, s₂, hcreate, h⟩
  · exact (not_performs_send [.newAttempt] (uses_attemptCreate (by simp)) (by simp) _ h).elim
  obtain ⟨aid, s₃, hinsert, hrefresh⟩ := runs_bind.mp hcreate
  obtain ⟨-, hfault₁, r₁, hrun₁, rfl, rfl⟩ := runs_execute_iff.mp hinsert
  obtain ⟨-, hfault₂, -⟩ := runs_execute_iff.mp hrefresh
  simp only [Stmt.run, bind_eq_ok, uuidParam_eq_ok, accepted_eq_ok, require_eq_ok, pure_eq_ok]
    at hrun₁
  obtain ⟨mid, -, actorType, hactorType, actorId, hactorId, name, -, -, htimeout, -, hfresh, -, -,
    -⟩ := hrun₁
  rcases performs_bind.mp h with h | ⟨strategy, s₄, hstrategy, -⟩
  · exact (not_performs_send [] uses_getStrategy (by simp) _ h).elim
  refine ⟨hactive, fun n hn => ?_, fun w hw => ?_, hvalid, ⟨id, m, hid, hm, ?_, ?_⟩, ?_, ?_, htimeout⟩
  · interval_cases n
    · exact hfault₀
    · exact hfault₁
    · exact hfault₂
  · simp only [Solo.ran_view, Database.after_nil, Bool.not_eq_true', List.any_eq_false] at hfresh
    simpa using hfresh w hw
  · simpa using henabled
  · exact wakeStrategyOk_of_runs hstrategy
  · rw [hactorType]
    rfl
  · rw [hactorId]
    rfl

theorem runs_guardUuid_of {α : Type} {value : String} {absent b : α} {query : Code α}
    (hvalid : isValidUuid value = true) (h : query.Runs (soloExec P) s b s') :
    (guardUuid value absent query).Runs (soloExec P) s b s' := by
  unfold guardUuid
  rwa [if_pos hvalid]

theorem exists_runs_attemptCreate {f : AttemptFields} {id : Uuid}
    (hactive : s.store.main.status = .active) (hfault₀ : (s.inputs 0).fault = none)
    (hfault₁ : (s.inputs 1).fault = none) (hid : Uuid.parse? f.machineId = some id)
    (hmachine : s.view.machines.any (·.id == id) = true)
    (hfresh : ∀ w ∈ s.view.attempts, w.id ≠ (s.inputs 0).fresh)
    (hactorType : (varchar 20 f.actorType).isSome = true)
    (hactorId : (varchar 255 f.actorId).isSome = true)
    (hstrategy : (varchar 20 f.strategy).isSome = true) (htimeout : int4Ok f.pollTimeoutS = true) :
    ∃ attempt s', (SqlWakeAttemptRepository.create f).Runs (soloExec P) s attempt s' := by
  obtain ⟨actorType, hactorType⟩ := Option.isSome_iff_exists.mp hactorType
  obtain ⟨actorId, hactorId⟩ := Option.isSome_iff_exists.mp hactorId
  obtain ⟨strategy, hstrategy⟩ := Option.isSome_iff_exists.mp hstrategy
  have hnew : (!s.view.attempts.any (·.id == (s.inputs 0).fresh)) = true := by
    simpa using hfresh
  let row : WakeAttempt :=
    { id := (s.inputs 0).fresh, machineId := id, actorType, actorId, strategy, status := .pending
      ensureOnline := f.ensureOnline, pollTimeoutS := f.pollTimeoutS, error := none
      startedAt := (s.inputs 0).now, finishedAt := none }
  let r : Executed (.attemptInsert f) := ⟨row.id, [.insertAttempt row], []⟩
  have hrun : (Stmt.attemptInsert f).run P (s.inputs 0) (lockedJobs [] s.store .main) s.view =
      .ok r := by
    simp only [Stmt.run, bind_eq_ok, uuidParam_eq_ok, accepted_eq_ok, require_eq_ok, pure_eq_ok]
    exact ⟨id, hid, actorType, hactorType, actorId, hactorId, strategy, hstrategy, (), htimeout,
      (), hnew, (), hmachine, rfl⟩
  obtain ⟨found, hfind⟩ : ∃ found,
      (s.ran r).view.attempts.find? (·.id == row.id) = some found := by
    refine Option.isSome_iff_exists.mp (List.find?_isSome.mpr ⟨row, ?_, beq_self_eq_true _⟩)
    rw [Solo.ran_view]
    exact List.mem_append_right _ (List.mem_singleton_self row)
  have hrefresh : (Stmt.attemptRefresh row.id).run P ((s.ran r).inputs 0)
      (lockedJobs [] (s.ran r).store .main) (s.ran r).view = .ok ⟨found, [], []⟩ := by
    simp only [Stmt.run, hfind]
    rfl
  exact ⟨found, _, runs_bind.mpr ⟨row.id, s.ran r,
    runs_execute_iff.mpr ⟨hactive, hfault₀, r, hrun, rfl, rfl⟩,
    runs_execute_iff.mpr ⟨hactive, hfault₁, _, hrefresh, rfl, rfl⟩⟩⟩

theorem performs_of_wakeReady (h : WakeReady a s) :
    (WakeService.wake P a).performs (soloExec P) isSend s = true := by
  obtain ⟨id, m, hid, hm, henabled, hstrategy⟩ := h.machine
  let r : Executed (.machineGet a.machineId) := ⟨some m, [], []⟩
  have hrun : (Stmt.machineGet a.machineId).run P (s.inputs 0) (lockedJobs [] s.store .main)
      s.view = .ok r := by
    simp only [Stmt.run, bind_eq_ok, uuidParam_eq_ok, pure_eq_ok]
    exact ⟨id, hid, by rw [hm]⟩
  have hget : (SqlMachineRepository.getById a.machineId).Runs (soloExec P) s (some m) (s.ran r) :=
    runs_guardUuid_of h.valid (runs_execute_iff.mpr
      ⟨h.active, h.faultless 0 (by omega), r, hrun, rfl, rfl⟩)
  have hview : (s.ran r).view = s.view := Solo.ran_view s r
  refine performs_bind.mpr (.inr ⟨_, _, hget, ?_⟩)
  simp only [henabled, Bool.not_true, Bool.false_eq_true, if_false]
  have hname : (varchar 20 (orElse a.strategyOverride m.wakeStrategy)).isSome = true := by
    rw [varchar_strategy hstrategy]
    rfl
  have hmachine : s.view.machines.any (·.id == id) = true := by
    have hmid := List.find?_some hm
    exact List.any_eq_true.mpr ⟨m, List.mem_of_find?_eq_some hm, hmid⟩
  obtain ⟨attempt, s', hcreate⟩ := exists_runs_attemptCreate (P := P) (s := s.ran r)
    (f := { machineId := a.machineId, actorType := a.actorType, actorId := a.actorId
            strategy := orElse a.strategyOverride m.wakeStrategy, ensureOnline := a.ensureOnline
            pollTimeoutS := a.pollTimeoutS })
    h.active (h.faultless 1 (by omega)) (h.faultless 2 (by omega)) hid (by rwa [hview])
    (by rw [hview]; exact h.fresh) h.actorType h.actorId hname h.pollTimeout
  refine performs_bind.mpr (.inr ⟨_, _, hcreate, ?_⟩)
  obtain ⟨strategy, hget⟩ := runs_getStrategy (P := P) (s := s') hstrategy
  exact performs_bind.mpr (.inr ⟨_, _, hget, performs_sendAndRecord⟩)

/-- A wake that returns has called `strategy.wake`. -/
theorem performs_of_runs_wake {id : String}
    (h : (WakeService.wake P a).Runs (soloExec P) s id s') :
    (WakeService.wake P a).performs (soloExec P) isSend s = true := by
  obtain ⟨found, s₁, hget, h⟩ := runs_bind.mp h
  refine performs_bind.mpr (.inr ⟨found, s₁, hget, ?_⟩)
  split at h
  · exact (runs_raise.mp h).elim
  split at h
  · exact (runs_raise.mp h).elim
  rename_i henabled
  rw [if_neg henabled]
  obtain ⟨attempt, s₂, hcreate, h⟩ := runs_bind.mp h
  obtain ⟨strategy, s₃, hstrategy, -⟩ := runs_bind.mp h
  exact performs_bind.mpr (.inr ⟨attempt, s₂, hcreate, performs_bind.mpr (.inr ⟨strategy, s₃,
    hstrategy, performs_sendAndRecord⟩)⟩)

/-- A wake that returns has sent its packet. -/
theorem sent_of_runs_wake {id : String} (h : (WakeService.wake P a).Runs (soloExec P) s id s') :
    ∃ n, (s.inputs n).sendError = none := by
  obtain ⟨found, s₁, hget, h⟩ := runs_bind.mp h
  split at h
  · exact (runs_raise.mp h).elim
  split at h
  · exact (runs_raise.mp h).elim
  obtain ⟨attempt, s₂, hcreate, h⟩ := runs_bind.mp h
  obtain ⟨strategy, s₃, hstrategy, h⟩ := runs_bind.mp h
  obtain ⟨u, s₄, hsend, -⟩ := runs_bind.mp h
  obtain ⟨k, hk⟩ := ((Runs.later hget).trans (Runs.later hcreate)).trans (Runs.later hstrategy)
  rcases runs_tryCatch.mp hsend with h | ⟨e, s₅, -, h⟩
  · obtain ⟨u, s₅, hsend, -⟩ := runs_bind.mp h
    unfold await at hsend
    rw [runs_perform] at hsend
    refine ⟨k, ?_⟩
    have hinput : s₃.inputs 0 = s.inputs k := congrFun hk 0
    rw [← hinput]
    cases herror : (s₃.inputs 0).sendError with
    | none => rfl
    | some message =>
      simp only [soloExec, executeOp, herror] at hsend
      cases congrArg Prod.fst hsend
  · obtain ⟨now, s₆, -, h⟩ := runs_bind.mp h
    obtain ⟨u, s₇, -, h⟩ := runs_bind.mp h
    exact (runs_raise.mp h).elim

/-! ## The token of a request -/

/-- The row that `validate_api_token` finds for a raw token. -/
def Database.liveToken? (P : Platform) (db : Database) (raw : String) : Option ApiToken :=
  if textOk (P.sha256 raw) then
    db.tokens.find? fun t => t.tokenHash == P.sha256 raw && t.revokedAt == none
  else none

/-- A token that was validated is live, and only its last use has changed. -/
theorem runs_validateApiToken {raw : String} {token : ApiToken}
    (h : (AuthService.validateApiToken P raw).Runs (soloExec P) s token s') :
    s.store.main.status = .active ∧ (∀ n < 2, (s.inputs n).fault = none) ∧
      s.view.liveToken? P raw = some token ∧
      ∃ w : Write, w.effect = .touchToken ∧ s'.view = w.apply s.view ∧ s'.store.main.status = .active ∧
        ∀ n, s'.inputs n = s.inputs (n + 2) := by
  obtain ⟨found, s₁, hget, h⟩ := runs_bind.mp h
  obtain ⟨hactive, hfault₀, r₀, hrun₀, rfl, rfl⟩ := runs_execute_iff.mp hget
  simp only [Stmt.run, bind_eq_ok, require_eq_ok, pure_eq_ok] at hrun₀
  obtain ⟨-, hhash, rfl⟩ := hrun₀
  dsimp only at h
  split at h
  · exact (runs_raise.mp h).elim
  rename_i record hrecord
  split at h
  · exact (runs_raise.mp h).elim
  obtain ⟨u, s₂, htouch, h⟩ := runs_bind.mp h
  obtain ⟨rfl, rfl⟩ := runs_pure.mp h
  obtain ⟨-, hfault₁, r₁, hrun₁, -, rfl⟩ := runs_execute_iff.mp htouch
  simp only [Stmt.run, bind_eq_ok, uuidParam_eq_ok, pure_eq_ok] at hrun₁
  obtain ⟨id, -, rfl⟩ := hrun₁
  refine ⟨hactive, fun n hn => ?_, ?_, .touchToken id (s.inputs 1).now, rfl, ?_, hactive,
    fun n => rfl⟩
  · interval_cases n
    · exact hfault₀
    · exact hfault₁
  · rw [Database.liveToken?, if_pos hhash, hrecord]
  · rw [Solo.ran_view, Solo.ran_view]
    rfl

theorem exists_runs_validateApiToken {raw : String} {token : ApiToken}
    (hactive : s.store.main.status = .active) (hfaults : ∀ n < 2, (s.inputs n).fault = none)
    (hlive : s.view.liveToken? P raw = some token) :
    ∃ s', (AuthService.validateApiToken P raw).Runs (soloExec P) s token s' := by
  unfold Database.liveToken? at hlive
  split at hlive
  swap
  · cases hlive
  rename_i hhash
  let r₀ : Executed (.tokenByHash (P.sha256 raw)) := ⟨some token, [], []⟩
  have hrun₀ : (Stmt.tokenByHash (P.sha256 raw)).run P (s.inputs 0) (lockedJobs [] s.store .main)
      s.view = .ok r₀ := by
    simp only [Stmt.run, bind_eq_ok, require_eq_ok, pure_eq_ok]
    exact ⟨(), hhash, by rw [hlive]⟩
  have hrevoked : token.revokedAt.isSome = false := by
    have hfound := List.find?_some hlive
    simp only [Bool.and_eq_true, beq_iff_eq] at hfound
    rw [hfound.2]
    rfl
  let r₁ : Executed (.tokenTouch token.id.text) :=
    ⟨(), [.touchToken token.id (s.inputs 1).now], []⟩
  have hrun₁ : (Stmt.tokenTouch token.id.text).run P ((s.ran r₀).inputs 0)
      (lockedJobs [] (s.ran r₀).store .main) (s.ran r₀).view = .ok r₁ := by
    simp only [Stmt.run, bind_eq_ok, uuidParam_eq_ok, pure_eq_ok]
    exact ⟨token.id, Uuid.parse?_text token.id, rfl⟩
  refine ⟨(s.ran r₀).ran r₁, runs_bind.mpr ⟨some token, s.ran r₀, ?_, ?_⟩⟩
  · exact runs_execute_iff.mpr ⟨hactive, hfaults 0 (by omega), r₀, hrun₀, rfl, rfl⟩
  · simp only [hrevoked, Bool.false_eq_true, if_false]
    exact runs_bind.mpr ⟨(), _, runs_execute_iff.mpr ⟨hactive, hfaults 1 (by omega), r₁, hrun₁,
      rfl, rfl⟩, runs_pure.mpr ⟨rfl, rfl⟩⟩

end Wake

/-! ## A direct wake -/

/-- The machine that an identifier in a path names. -/
def Database.machine? (db : Database) (machineId : String) : Option Machine :=
  if isValidUuid machineId then
    (Uuid.parse? machineId).bind fun id => db.machines.find? (·.id == id)
  else none

section Direct
variable {P : Platform}

/-- The request calls `strategy.wake`. -/
def sendsPacket (P : Platform) (req : Request) (inputs : Nat → Input) (sh : Shared) : Bool :=
  (handle P req).performs (soloExec P) isSend (Solo.init inputs sh)

/-- The response of a request. -/
def response (P : Platform) (req : Request) (inputs : Nat → Input) (sh : Shared) :
    Option Response :=
  match (runSolo P (handle P req) inputs sh).1 with
  | .value r => some r
  | _ => none

/-- The arguments of `WakeService.wake` for a direct wake. -/
def directArgs (machineId : String) (token : ApiToken) (b : WakeRequest) : WakeArgs :=
  { machineId, actorType := "api_token", actorId := token.id.text
    ensureOnline := b.ensureOnline, pollTimeoutS := b.pollTimeoutS
    strategyOverride := Api.strategyName b }

/-- A direct wake, once its token and its body are accepted. -/
def directWake (P : Platform) (machineId : String) (token : ApiToken) (b : WakeRequest) :
    Code Response := do
  let attemptId ← Program.tryCatch (WakeService.wake P (directArgs machineId token b))
    (fun exc => match exc with
      | .wake message => raise (.http 422 message [])
      | exc => raise exc)
  return { body := .wake attemptId AttemptStatus.sent.value "Wake packet sent" }

theorem wakeMachineDirect_eq (req : Request) (machineId : String) (body : JsonBody WakeRequest) :
    Api.wakeMachineDirect P req machineId body =
      withBody body (checked WakeRequest.valid) (getApiToken P req) (directWake P machineId) := rfl

theorem uses_directWake {es : List Effect} {machineId : String} {token : ApiToken}
    {b : WakeRequest} (ha : .newAttempt ∈ es) (hs : .attemptStatus ∈ es) (hsend : .send ∈ es) :
    (directWake P machineId token b).Uses (Within es) := by
  refine Uses.bind (Uses.tryCatch (uses_wake ha hs hsend) fun exc => ?_) fun _ => uses_pure _
  split <;> simp

theorem runs_directWake {machineId : String} {token : ApiToken} {b : WakeRequest} {r : Response}
    {s s' : Solo} (h : (directWake P machineId token b).Runs (soloExec P) s r s') :
    ∃ id, (WakeService.wake P (directArgs machineId token b)).Runs (soloExec P) s id s' ∧
      r = { body := .wake id AttemptStatus.sent.value "Wake packet sent" } := by
  obtain ⟨id, s₁, hcatch, hreturn⟩ := runs_bind.mp h
  obtain ⟨rfl, rfl⟩ := runs_pure.mp hreturn
  rcases runs_tryCatch.mp hcatch with hwoken | ⟨e, s₂, -, hraise⟩
  · exact ⟨id, hwoken, rfl⟩
  · split at hraise
    · exact (runs_raise.mp hraise).elim
    · exact (runs_raise.mp hraise).elim

/-- The tables after a direct wake: as before, unless its wake returned. -/
theorem wakeMachineDirect_db {req : Request} {machineId : String} {body : JsonBody WakeRequest}
    (hroute : req.route = .wakeMachineDirect machineId body) (inputs : Nat → Input) (sh : Shared) :
    (serve P req inputs sh).db = sh.db ∨
      ∃ token s₁ b id s', (getApiToken P req).Runs (soloExec P) (Solo.init inputs sh) token s₁ ∧
        body = .typed b ∧ b.valid = true ∧
        (WakeService.wake P (directArgs machineId token b)).Runs (soloExec P) s₁ id s' ∧
        (serve P req inputs sh).db = s'.view := by
  let es : List Effect := [.touchToken, .newAttempt, .attemptStatus, .send]
  have hdeps : (getApiToken P req).Uses (Within es) := uses_getApiToken (by simp [es])
  have hwake : ∀ token b, (directWake P machineId token b).Uses (Within es) := fun token b =>
    uses_directWake (by simp [es]) (by simp [es]) (by simp [es])
  rw [serve_eq, endpoint, hroute]
  rcases withBody_db (P := P) body (checked WakeRequest.valid) hdeps hwake
    (by simp [es]) (Solo.init inputs sh) with h | ⟨token, s₁, b, c, a, s', hrun, hbody, hvalid, hend,
      -, h⟩
  · exact .inl h
  · obtain ⟨hb, rfl⟩ := checked_eq_some.mp hvalid
    obtain ⟨id, hwoken, -⟩ := runs_directWake hend
    exact .inr ⟨token, s₁, b, id, s', hrun, hbody, hb, hwoken, h⟩

theorem sessions_not_send : Sessions fun op => isSend op = false := fun _ => ⟨rfl, rfl, rfl⟩

theorem performs_getDbSession_of {α : Type} {test : Op → Bool} {code : Code α} {s : Solo}
    (h : code.performs (soloExec P) test s = true) :
    (getDbSession code).performs (soloExec P) test s = true :=
  performs_bind.mpr (.inl (performs_tryCatch.mpr (.inl (performs_tryCatch.mpr (.inl
    (performs_bind.mpr (.inl h)))))))

theorem runs_getApiToken {req : Request} {raw : String} {token : ApiToken} {s s' : Solo}
    (hraw : bearerToken req.authorization = some raw) :
    (getApiToken P req).Runs (soloExec P) s token s' ↔
      (AuthService.validateApiToken P raw).Runs (soloExec P) s token s' := by
  unfold getApiToken
  rw [hraw]
  constructor
  · intro h
    rcases runs_tryCatch.mp h with h | ⟨e, s₁, -, h⟩
    · exact h
    · exact (runs_raise.mp h).elim
  · exact fun h => runs_tryCatch.mpr (.inl h)

/-- The token is touched: machines and attempts are as before. -/
theorem machines_touched {w : Write} (db : Database) (h : w.effect = .touchToken) :
    (w.apply db).machines = db.machines ∧ (w.apply db).attempts = db.attempts := by
  cases w with
  | touchToken id time => exact ⟨rfl, rfl⟩
  | _ => cases h

theorem machine?_eq_some {db : Database} {machineId : String} {m : Machine} :
    db.machine? machineId = some m ↔ isValidUuid machineId = true ∧
      ∃ id, Uuid.parse? machineId = some id ∧ db.machines.find? (·.id == id) = some m := by
  unfold Database.machine?
  split <;> simp_all [Option.bind_eq_some_iff]

section Sends
variable {req : Request} {inputs : Nat → Input} {sh : Shared} {machineId : String}
  {body : JsonBody WakeRequest}

/-- A direct wake that calls `strategy.wake` has a live token and a valid body, and was ready. -/
theorem wakeReady_of_sendsPacket (hroute : req.route = .wakeMachineDirect machineId body)
    (h : sendsPacket P req inputs sh = true) :
    ∃ token s₁ b, (getApiToken P req).Runs (soloExec P) (Solo.init inputs sh) token s₁ ∧
      body = .typed b ∧ b.valid = true ∧ WakeReady (directArgs machineId token b) s₁ := by
  have hdeps : (getApiToken P req).Uses (Within [.touchToken]) := uses_getApiToken (by simp)
  unfold sendsPacket handle respond at h
  rw [endpoint, hroute] at h
  dsimp only at h
  rw [wakeMachineDirect_eq] at h
  rcases performs_tryCatch.mp h with h | ⟨e, s', -, h⟩
  swap
  · cases h
  cases body with
  | malformed => cases h
  | mistyped =>
    rcases performs_bind.mp (performs_getDbSession sessions_not_send h) with h | ⟨d, s', -, h⟩
    · exact (not_performs_send [.touchToken] hdeps (by simp) _ h).elim
    · cases h
  | typed b =>
    rcases performs_bind.mp (performs_getDbSession sessions_not_send h) with
      h | ⟨token, s₁, hrun, h⟩
    · exact (not_performs_send [.touchToken] hdeps (by simp) _ h).elim
    · cases hvalid : checked WakeRequest.valid b with
      | none =>
        rw [hvalid] at h
        cases h
      | some c =>
        rw [hvalid] at h
        obtain ⟨hb, rfl⟩ := checked_eq_some.mp hvalid
        refine ⟨token, s₁, b, hrun, rfl, hb, ?_⟩
        rcases performs_bind.mp h with h | ⟨id, s', -, h⟩
        · rcases performs_tryCatch.mp h with h | ⟨e, s', -, h⟩
          · exact wakeReady_of_performs h
          · split at h <;> cases h
        · cases h

/-- A direct wake with a live token and a valid body that is ready calls `strategy.wake`. -/
theorem sendsPacket_of_wakeReady {token : ApiToken} {s₁ : Solo} {b : WakeRequest}
    (hroute : req.route = .wakeMachineDirect machineId (.typed b))
    (hrun : (getApiToken P req).Runs (soloExec P) (Solo.init inputs sh) token s₁)
    (hb : b.valid = true) (h : WakeReady (directArgs machineId token b) s₁) :
    sendsPacket P req inputs sh = true := by
  unfold sendsPacket handle respond
  rw [endpoint, hroute]
  dsimp only
  rw [wakeMachineDirect_eq]
  refine performs_tryCatch.mpr (.inl (performs_getDbSession_of (performs_bind.mpr
    (.inr ⟨token, s₁, hrun, ?_⟩))))
  simp only [checked, hb, if_true]
  exact performs_bind.mpr (.inl (performs_tryCatch.mpr (.inl (performs_of_wakeReady h))))

/-- A direct wake that is answered with success has called `strategy.wake`. -/
theorem sendsPacket_of_runs {r : Response} {s' : Solo}
    (hroute : req.route = .wakeMachineDirect machineId body)
    (h : (endpoint P req).Runs (soloExec P) (Solo.init inputs sh) r s') :
    sendsPacket P req inputs sh = true := by
  rw [endpoint, hroute] at h
  obtain ⟨b, c, token, s₁, s₂, rfl, hvalid, hrun, hend⟩ := runs_withBody h
  obtain ⟨hb, rfl⟩ := checked_eq_some.mp hvalid
  obtain ⟨id, hwoken, -⟩ := runs_directWake hend
  exact sendsPacket_of_wakeReady hroute hrun hb (wakeReady_of_performs (performs_of_runs_wake hwoken))

end Sends

end Direct

end WolMonkey
