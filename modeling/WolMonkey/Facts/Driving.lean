import WolMonkey.Facts.Interleaving

/-!
# Driving attempts

What the code does to wake attempts within one transaction: it creates a row and sends or
fails, and it may then choose a row, load it, wait on it and settle it. A `Stage` follows the
work session through this; `driving` is the monitor of these stages. Requests and workers obey
it: they finish a row with a verdict that their looks at the clock allow, and they never
commit a row that is still `waking`.
-/

namespace WolMonkey

open Programs Program

/-! ## Stages -/

/-- The time to wait for the attempt is over. -/
def WakeAttempt.late (r : WakeAttempt) (now : DateTime) : Bool :=
  decide (now - r.startedAt ≥ DateTime.seconds r.pollTimeoutS)

/-- The attempt that a transaction has created, with the machine as the code named it. -/
structure Own where
  id : Uuid
  machineId : String

/-- What a transaction does with the row that it waits on. -/
inductive Drive where
  | free
  | chosen (r : WakeAttempt)
  | loaded (r : WakeAttempt)
  /-- The row is `waking`: a look at the clock found it in time, or late. -/
  | waking (r : WakeAttempt) (clear expired : Bool)
  | settled (r : WakeAttempt) (late : Bool)

/-- What the work session has done to attempts since it was last empty. -/
inductive Stage where
  | idle
  | created (own : Own)
  | failed (own : Own)
  | sent (own : Own) (drive : Drive)

namespace Stage

/-- A change of a status succeeds. -/
def updated : Stage → AttemptStatus → Stage
  | created own, .sent => sent own .free
  | created own, .failed => failed own
  | sent own (.loaded r), .waking => sent own (.waking r false false)
  | sent own (.waking r _ _), .online => sent own (.settled r false)
  | sent own (.waking r _ _), .timeout => sent own (.settled r true)
  | g, _ => g

def choose : Stage → WakeAttempt → Stage
  | sent own .free, r => sent own (.chosen r)
  | g, _ => g

def load : Stage → WakeAttempt → Stage
  | sent own (.chosen _), r => sent own (.loaded r)
  | g, _ => g

/-- The code looks at the clock. -/
def look : Stage → DateTime → Stage
  | sent own (.waking r clear expired), now =>
    if r.late now then sent own (.waking r clear true) else sent own (.waking r true expired)
  | g, _ => g

/-- Another look does not take back that the row is late. -/
theorem look_expired (own : Own) (r : WakeAttempt) (clear : Bool) (now : DateTime) :
    ∃ clear', (sent own (.waking r clear true)).look now = sent own (.waking r clear' true) := by
  by_cases hlate : r.late now = true
  · exact ⟨clear, if_pos hlate⟩
  · exact ⟨true, if_neg hlate⟩

/-- Nor does it take back that the row was in time. -/
theorem look_clear (own : Own) (r : WakeAttempt) (expired : Bool) (now : DateTime) :
    ∃ expired', (sent own (.waking r true expired)).look now = sent own (.waking r true expired') := by
  by_cases hlate : r.late now = true
  · exact ⟨true, if_pos hlate⟩
  · exact ⟨expired, if_neg hlate⟩

def next (g : Stage) : (op : Op) → app.Reply op → Stage
  | .stmt .main (.attemptInsert f), .ok id => created ⟨id, f.machineId⟩
  | .stmt .main (.attemptUpdateStatus _ status _ _), .ok _ => g.updated status
  | .stmt .main (.attemptActive _), .ok (some r) => g.choose r
  | .stmt .main (.attemptGet _), .ok (some r) => g.load r
  | .now, .ok t => g.look t
  | .commit .main, _ => idle
  | .rollback .main, _ => idle
  | .close .main, _ => idle
  | _, _ => g

/-- The changes of a status that the code makes. -/
def updates : Stage → (id : String) → AttemptStatus → Option String → Option DateTime → Prop
  | created own, id, .sent, error, finishedAt =>
    Uuid.parse? id = some own.id ∧ error = none ∧ finishedAt = none
  | created own, id, .failed, error, finishedAt =>
    Uuid.parse? id = some own.id ∧ error.isSome = true ∧ finishedAt.isSome = true
  | sent _ (.loaded r), id, .waking, error, finishedAt =>
    Uuid.parse? id = some r.id ∧ error = none ∧ finishedAt = none
  | sent _ (.waking r clear _), id, .online, error, finishedAt =>
    Uuid.parse? id = some r.id ∧ clear = true ∧ error = none ∧ finishedAt.isSome = true
  | sent _ (.waking r _ expired), id, .timeout, error, finishedAt =>
    Uuid.parse? id = some r.id ∧ expired = true ∧ error.isSome = true ∧ finishedAt.isSome = true
  | _, _, _, _, _ => False

/-- The rows may be committed: none is `waking`. -/
def committable : Stage → Bool
  | sent _ (.waking _ _ _) => false
  | _ => true

def permits (g : Stage) : Op → Prop
  | .stmt slot (.attemptInsert _) => slot = .main ∧ g = idle
  | .stmt slot (.attemptUpdateStatus id status error finishedAt) =>
    slot = .main ∧ g.updates id status error finishedAt
  | .stmt .main (.attemptActive machineId) => ∀ own, g = sent own .free → machineId = own.machineId
  | .stmt .main (.attemptGet id) => ∀ own r, g = sent own (.chosen r) → Uuid.parse? id = some r.id
  | .stmt _ s => ∀ e, s.effect = some e → e.spares = true
  | .commit .main => g.committable = true
  | _ => True

/-- What the code may rely on: its own row is active until it is settled, and a row has a
machine. -/
def possible (g : Stage) : (op : Op) → app.Reply op → Prop
  | .stmt .main (.attemptRefresh id), .ok r => r.id = id
  | .stmt .main (.attemptActive _), .ok found => ∀ own, g = sent own .free → found ≠ none
  | .stmt .main (.attemptGet _), .ok (some r) => ∀ own c, g = sent own (.chosen c) → r.id = c.id
  | .stmt .main (.machineGet id), .ok found =>
    ∀ own r, g = sent own (.loaded r) → Uuid.parse? id = some r.machineId → found ≠ none
  | _, _ => True

end Stage

abbrev driving : Monitor app where
  Ghost := Stage
  next := Stage.next
  permits := Stage.permits
  possible := Stage.possible

/-! ## Code that does nothing to attempts -/

/-- An operation that is permitted in every stage and leaves it. -/
def Op.Still (op : Op) : Prop := ∀ g : Stage, g.permits op ∧ ∀ r, g.next op r = g

section Still
variable {α : Type} {p : Code α} {g : Stage}

theorem obeys_still (hp : p.Uses Op.Still) :
    Obeys driving (fun _ g' => g' = g) (fun _ g' => g' = g) g p := by
  refine hp.obeys (fun g' op hop hg' => ⟨(hop g').1, fun r _ => ?_⟩) rfl
  exact ((hop g').2 r).trans hg'

theorem still_queue {s : Stmt} (h : ∀ e, s.effect = some e → e.spares = true) :
    (Op.stmt .queue s).Still := by
  intro g
  refine ⟨?_, fun r => ?_⟩
  · cases s <;> first
      | exact h
      | exact absurd (h _ rfl) (by decide)
  · cases s <;> rfl

theorem uses_withQueue {body : Code α} (h : body.Uses Op.Still) :
    (withSession .queue body).Uses Op.Still :=
  uses_withSession h fun _ => ⟨trivial, fun _ => rfl⟩

theorem uses_commitQueue : (await (.commit .queue)).Uses Op.Still :=
  (uses_perform _).mpr fun _ => ⟨trivial, fun _ => rfl⟩

theorem still_markDone {jobId : String} : (JobQueue.markDone jobId).Uses Op.Still :=
  uses_withQueue (Uses.bind ((uses_perform _).mpr (still_queue (by simp [Stmt.effect, Effect.spares])))
    fun _ => uses_commitQueue)

theorem still_markError {jobId error : String} : (JobQueue.markError jobId error).Uses Op.Still :=
  uses_withQueue (Uses.bind ((uses_perform _).mpr (still_queue (by simp [Stmt.effect, Effect.spares])))
    fun _ => uses_commitQueue)

theorem still_log {record : LogRecord} : (await (.log record)).Uses Op.Still :=
  (uses_perform _).mpr fun _ => ⟨trivial, fun _ => rfl⟩

theorem still_sleep : (await .sleep).Uses Op.Still :=
  (uses_perform _).mpr fun _ => ⟨trivial, fun _ => rfl⟩

theorem still_probeMachine {m : Machine} : (StateProbe.probeMachine m).Uses Op.Still := by
  have hprobe : ∀ host port, (await (.probe host port)).Uses Op.Still := fun host port =>
    (uses_perform _).mpr fun _ => ⟨trivial, fun _ => rfl⟩
  refine Uses.bind (hprobe _ _) fun result => ?_
  split
  · split
    · exact hprobe _ _
    · exact uses_pure _
  · exact uses_pure _

/-- Code that does nothing to attempts stays idle, whatever it does else. -/
theorem obeys_idle (es : List Effect) (hp : p.Uses (Within es)) (hes : ∀ e ∈ es, e.spares = true) :
    Obeys driving (fun _ g' => g' = Stage.idle) (fun _ g' => g' = Stage.idle) Stage.idle p := by
  refine hp.obeys (fun g' op hop hg' => ?_) rfl
  have hspares : ∀ e, op.effect = some e → e.spares = true := fun e he => hes e (hop e he)
  subst hg'
  refine ⟨?_, fun r _ => ?_⟩
  · cases op with
    | stmt slot s =>
      cases slot <;> cases s <;> first
        | exact hspares
        | exact absurd (hspares _ rfl) (by decide)
        | exact fun _ _ h => nomatch h
        | exact fun _ h => nomatch h
    | commit slot => cases slot <;> trivial
    | _ => trivial
  · cases op with
    | stmt slot s =>
      cases slot <;> cases s <;> first
        | rfl
        | exact absurd (hspares _ rfl) (by decide)
        | (rcases r with e | _ | a <;> rfl)
    | commit slot => cases slot <;> rfl
    | rollback slot => cases slot <;> rfl
    | close slot => cases slot <;> rfl
    | now => cases r <;> rfl
    | _ => rfl

end Still

/-! ## Sessions -/

section Wrappers
variable {α : Type} {g : Stage}

/-- Closing the work session empties it. -/
theorem obeys_withSession {body : Code α}
    (h : Obeys driving (fun _ _ => True) (fun _ _ => True) g body) :
    Obeys driving (fun _ g' => g' = Stage.idle) (fun _ g' => g' = Stage.idle) g
      (withSession .main body) := by
  unfold withSession
  rw [obeys_bind, obeys_tryCatch]
  refine h.mono (fun a g' _ => ?_) fun e g' _ => ?_
  · rw [obeys_bind, obeys_await]
    exact ⟨trivial, fun _ _ => (obeys_pure _).mpr rfl, fun _ _ => rfl⟩
  · rw [obeys_bind, obeys_await]
    exact ⟨trivial, fun _ _ => (obeys_raise _).mpr rfl, fun _ _ => rfl⟩

/-- A body that returns in a stage that may be committed. -/
theorem obeys_getDbSession {body : Code α}
    (h : Obeys driving (fun _ g' => g'.committable = true) (fun _ _ => True) g body) :
    Obeys driving (fun _ g' => g' = Stage.idle) (fun _ g' => g' = Stage.idle) g
      (getDbSession body) := by
  refine obeys_withSession ?_
  rw [obeys_tryCatch, obeys_bind]
  refine h.mono (fun a g' hg' => ?_) fun e g' _ => ?_
  · rw [obeys_bind, obeys_await]
    refine ⟨hg', fun _ _ => (obeys_pure _).mpr trivial, fun exc _ => ?_⟩
    rw [obeys_bind, obeys_await]
    exact ⟨trivial, fun _ _ => (obeys_raise _).mpr trivial, fun _ _ => trivial⟩
  · rw [obeys_bind, obeys_await]
    exact ⟨trivial, fun _ _ => (obeys_raise _).mpr trivial, fun _ _ => trivial⟩

/-- A route with a JSON body whose dependencies do nothing to attempts. -/
theorem obeys_withBody (es : List Effect) {β γ δ : Type} {body : JsonBody β}
    {validate : β → Option γ} {deps : Code δ} {endpoint : δ → γ → Code α}
    (hd : deps.Uses (Within es)) (hes : ∀ e ∈ es, e.spares = true)
    (he : ∀ d c, Obeys driving (fun _ g' => g'.committable = true) (fun _ _ => True) Stage.idle
      (endpoint d c)) :
    Obeys driving (fun _ g' => g' = Stage.idle) (fun _ g' => g' = Stage.idle) Stage.idle
      (withBody body validate deps endpoint) := by
  have hdeps := obeys_idle es hd hes
  cases body with
  | malformed => exact (obeys_raise _).mpr rfl
  | mistyped =>
    refine obeys_getDbSession ((obeys_bind _ _).mpr (hdeps.mono (fun d g' _ => ?_) fun _ _ _ => trivial))
    exact (obeys_raise _).mpr trivial
  | typed b =>
    refine obeys_getDbSession ((obeys_bind _ _).mpr (hdeps.mono (fun d g' hg' => ?_) fun _ _ _ => trivial))
    subst hg'
    cases validate b with
    | none => exact (obeys_raise _).mpr trivial
    | some c => exact he d c

end Wrappers

/-! ## Waking -/

section Wake
variable {P : Platform}

theorem drives_now {g : Stage} {post : DateTime → Stage → Prop} {failed : PyExc → Stage → Prop}
    (hpost : ∀ t, post t (g.look t)) (hfailed : ∀ e, failed e g) :
    Obeys driving post failed g (await .now) :=
  (@obeys_await driving g failed .now post).mpr ⟨trivial, fun t _ => hpost t, fun e _ => hfailed e⟩

theorem drives_updateStatus {g : Stage} {post : Unit → Stage → Prop} {failed : PyExc → Stage → Prop}
    {id : String} {status : AttemptStatus} {error : Option String} {finishedAt : Option DateTime}
    (hupdates : g.updates id status error finishedAt) (hpost : post () (g.updated status))
    (hfailed : ∀ e, failed e g) :
    Obeys driving post failed g (SqlWakeAttemptRepository.updateStatus id status error finishedAt) :=
  (obeys_execute (M := driving) (s := .attemptUpdateStatus id status error finishedAt)).mpr
    ⟨⟨rfl, hupdates⟩, fun _ _ => hpost, fun e _ => hfailed e⟩

theorem drives_machineGetById {id : String} :
    Obeys driving (fun _ g' => g' = Stage.idle) (fun _ g' => g' = Stage.idle) Stage.idle
      (SqlMachineRepository.getById id) :=
  obeys_idle [] uses_machineGetById (by simp)

theorem drives_attemptCreate {f : AttemptFields} :
    Obeys driving (fun r g' => ∃ own : Own, g' = Stage.created own ∧ r.id = own.id ∧
        own.machineId = f.machineId)
      (fun _ g' => g'.committable = true) Stage.idle (SqlWakeAttemptRepository.create f) := by
  unfold SqlWakeAttemptRepository.create
  rw [obeys_bind, obeys_execute]
  refine ⟨⟨rfl, rfl⟩, fun id _ => ?_, fun e _ => rfl⟩
  exact (obeys_execute (M := driving) (s := .attemptRefresh id)).mpr
    ⟨nofun, fun r hr => ⟨⟨id, f.machineId⟩, rfl, hr, rfl⟩, fun e _ => rfl⟩

theorem drives_sendAndRecord {machine : Machine} {attempt : WakeAttempt} {strategy : WakeStrategy}
    {own : Own} (hid : attempt.id = own.id) :
    Obeys driving (fun _ g' => g' = Stage.sent own .free) (fun _ g' => g'.committable = true)
      (Stage.created own) (WakeService.sendAndRecord machine attempt strategy) := by
  have hparsed : Uuid.parse? attempt.id.text = some own.id := by rw [Uuid.parse?_text, hid]
  -- the handler records the failure and raises
  have hfail : ∀ (exc : PyExc) (post : Unit → Stage → Prop),
      Obeys driving post (fun _ g' => g'.committable = true) (Stage.created own) (do
        let now ← await .now
        SqlWakeAttemptRepository.updateStatus attempt.id.text .failed (some exc.str) (some now)
        raise (.wake ("Wake failed: " ++ exc.str))) := by
    intro exc post
    refine (obeys_bind _ _).mpr (drives_now (fun now => (obeys_bind _ _).mpr ?_) fun _ => rfl)
    exact drives_updateStatus ⟨hparsed, rfl, rfl⟩ ((obeys_raise _).mpr rfl) fun _ => rfl
  unfold WakeService.sendAndRecord
  rw [obeys_bind, obeys_tryCatch, obeys_bind, obeys_await]
  refine ⟨trivial, fun _ _ => ?_, fun exc _ => hfail exc _⟩
  exact drives_updateStatus ⟨hparsed, rfl, rfl⟩ ((obeys_pure _).mpr rfl) fun exc => hfail exc _

theorem drives_getStrategy {name : String} {g : Stage} (hg : g.committable = true) :
    Obeys driving (fun _ g' => g' = g) (fun _ g' => g'.committable = true) g (getStrategy P name) := by
  unfold getStrategy
  split
  · exact (obeys_pure _).mpr rfl
  · split
    · exact (obeys_pure _).mpr rfl
    · exact (obeys_raise _).mpr hg

/-- A wake that returns has sent its packet for the machine it was asked to wake. -/
theorem drives_wake {a : WakeArgs} :
    Obeys driving (fun _ g' => ∃ own : Own, g' = Stage.sent own .free ∧ own.machineId = a.machineId)
      (fun _ g' => g'.committable = true) Stage.idle (WakeService.wake P a) := by
  unfold WakeService.wake
  rw [obeys_bind]
  refine drives_machineGetById.mono (fun found g' hg' => ?_) fun e g' hg' => by rw [hg']; rfl
  subst hg'
  split
  · exact (obeys_raise _).mpr rfl
  split
  · exact (obeys_raise _).mpr rfl
  rw [obeys_bind]
  refine drives_attemptCreate.mono (fun attempt g' hg' => ?_) fun _ _ h => h
  obtain ⟨own, rfl, hid, hmachine⟩ := hg'
  rw [obeys_bind]
  refine (drives_getStrategy rfl).mono (fun strategy g' hg' => ?_) fun _ _ h => h
  subst hg'
  exact (drives_sendAndRecord hid).mono (fun _ g' hg' => ⟨own, hg', hmachine⟩) fun _ _ h => h

theorem drives_wakeMachine {req : Request} {machineId : String} {body : JsonBody WakeRequest} :
    Obeys driving (fun _ g' => g' = Stage.idle) (fun _ g' => g' = Stage.idle) Stage.idle
      (Api.wakeMachine req machineId body) := by
  refine obeys_withBody [] uses_csrfProtectedUser (by simp) fun user body => ?_
  rw [obeys_bind]
  refine drives_machineGetById.mono (fun found g' hg' => ?_) fun _ _ _ => trivial
  subst hg'
  cases found with
  | none => exact (obeys_raise _).mpr trivial
  | some machine =>
    dsimp only
    rw [obeys_bind]
    refine drives_attemptCreate.mono (fun attempt g' hg' => ?_) fun _ _ _ => trivial
    obtain ⟨own, rfl, -, -⟩ := hg'
    rw [obeys_bind, obeys_await]
    refine ⟨rfl, fun _ _ => ?_, fun _ _ => trivial⟩
    rw [obeys_bind]
    have henqueue := obeys_idle [.newJob, .commit, .reset] (p := JobQueue.enqueue machineId attempt.id.text
      "wake" (Api.wakePayload machineId attempt.id.text user.id.text body))
      (uses_enqueue (by simp) (by simp)) (by decide)
    refine henqueue.mono (fun id g' hg' => ?_) fun _ _ _ => trivial
    rw [hg']
    exact (obeys_pure _).mpr rfl

theorem drives_wakeMachineDirect {req : Request} {machineId : String} {body : JsonBody WakeRequest} :
    Obeys driving (fun _ g' => g' = Stage.idle) (fun _ g' => g' = Stage.idle) Stage.idle
      (Api.wakeMachineDirect P req machineId body) := by
  refine obeys_withBody [.touchToken] (uses_getApiToken (by simp)) (by decide)
    fun token body => ?_
  rw [obeys_bind, obeys_tryCatch]
  refine drives_wake.mono (fun id g' hg' => ?_) fun exc g' hg' => ?_
  · obtain ⟨own, rfl, -⟩ := hg'
    exact (obeys_pure _).mpr rfl
  · split <;> exact (obeys_raise _).mpr trivial

/-! ## Waiting -/

variable {own : Own} {r : WakeAttempt} {attemptId : String}

/-- The loop settles the row, with the verdict that the clock allows. -/
theorem drives_poll (hid : Uuid.parse? attemptId = some r.id) {machine : Machine} {fuel : Nat} :
    ∀ {clear expired : Bool},
      Obeys driving (fun _ g' => g'.committable = true) (fun _ _ => True)
        (Stage.sent own (.waking r clear expired))
        (EnsureOnlineService.poll attemptId machine r.startedAt r.pollTimeoutS fuel) := by
  induction fuel with
  | zero => exact fun {_ _} => obeys_stuck.mpr trivial
  | succ fuel ih =>
    intro clear expired
    unfold EnsureOnlineService.poll
    refine (obeys_bind _ _).mpr (drives_now (fun now => ?_) fun _ => trivial)
    by_cases hlate : now - r.startedAt ≥ DateTime.seconds r.pollTimeoutS
    · have hlook : (Stage.sent own (.waking r clear expired)).look now =
          .sent own (.waking r clear true) := if_pos (decide_eq_true hlate)
      rw [if_pos hlate, hlook]
      refine (obeys_bind _ _).mpr (drives_now (fun finished => ?_) fun _ => trivial)
      obtain ⟨clear', hlook'⟩ := Stage.look_expired own r clear finished
      rw [hlook']
      refine (obeys_bind _ _).mpr (drives_updateStatus ⟨hid, rfl, rfl, rfl⟩ ?_ fun _ => trivial)
      exact (obeys_pure _).mpr rfl
    · have hlook : (Stage.sent own (.waking r clear expired)).look now =
          .sent own (.waking r true expired) := if_neg fun h => hlate (of_decide_eq_true h)
      rw [if_neg hlate, hlook]
      refine (obeys_bind _ _).mpr ((obeys_still still_probeMachine).mono (fun result g' hg' => ?_)
        fun _ _ _ => trivial)
      subst hg'
      split
      · refine (obeys_bind _ _).mpr (drives_now (fun finished => ?_) fun _ => trivial)
        obtain ⟨expired', hlook'⟩ := Stage.look_clear own r expired finished
        rw [hlook']
        refine (obeys_bind _ _).mpr (drives_updateStatus ⟨hid, rfl, rfl, rfl⟩ ?_ fun _ => trivial)
        exact (obeys_pure _).mpr rfl
      · refine (obeys_bind _ _).mpr ((obeys_still still_sleep).mono (fun _ g' hg' => ?_)
          fun _ _ _ => trivial)
        rw [hg']
        exact ih

/-- A run on the chosen row leaves it alone or settles it. -/
theorem drives_ensureOnlineRun (hid : Uuid.parse? attemptId = some r.id) {fuel : Nat} :
    Obeys driving (fun _ g' => g'.committable = true) (fun _ _ => True)
      (Stage.sent own (.chosen r)) (EnsureOnlineService.run fuel attemptId) := by
  unfold EnsureOnlineService.run SqlWakeAttemptRepository.getById guardUuid
  rw [if_pos (isValidUuid_of_parse? hid), obeys_bind]
  refine (obeys_execute (M := driving) (s := .attemptGet attemptId)).mpr
    ⟨fun own' r' h => ?_, fun found hfound => ?_, fun _ _ => trivial⟩
  · cases h
    exact hid
  cases found with
  | none => exact (obeys_pure _).mpr rfl
  | some attempt =>
    have hrow : attempt.id = r.id := hfound own r rfl
    have hparsed : Uuid.parse? attemptId = some attempt.id := by rw [hid, hrow]
    have hmachine : Uuid.parse? attempt.machineId.text = some attempt.machineId :=
      Uuid.parse?_text _
    dsimp only
    unfold SqlMachineRepository.getById guardUuid
    rw [if_pos (isValidUuid_of_parse? hmachine), obeys_bind]
    refine (obeys_execute (M := driving) (s := .machineGet attempt.machineId.text)).mpr
      ⟨nofun, fun found hfound => ?_, fun _ _ => trivial⟩
    cases found with
    | none => exact absurd rfl (hfound own attempt rfl hmachine)
    | some machine =>
      refine (obeys_bind _ _).mpr (drives_updateStatus ⟨hparsed, rfl, rfl⟩ ?_ fun _ => trivial)
      exact drives_poll hparsed

/-- The attempt that the job waits on: its own one is there, so that one is found. -/
theorem drives_ensureJobOnline {jobId payloadId : String} {fuel : Nat} :
    Obeys driving (fun _ g' => g'.committable = true) (fun _ _ => True) (Stage.sent own .free)
      (ensureJobOnline fuel jobId payloadId own.machineId) := by
  unfold ensureJobOnline
  rw [obeys_bind]
  refine (obeys_execute (M := driving) (s := .attemptActive own.machineId)).mpr
    ⟨fun own' h => ?_, fun found hfound => ?_, fun _ _ => trivial⟩
  · cases h
    rfl
  cases found with
  | none => exact absurd rfl (hfound own rfl)
  | some r =>
    dsimp only
    split
    · exact (obeys_pure _).mpr rfl
    · refine (obeys_bind _ _).mpr ((drives_ensureOnlineRun (Uuid.parse?_text r.id)).mono
        (fun status g' hg' => ?_) fun _ _ _ => trivial)
      refine (obeys_still still_log).mono (fun _ g'' hg'' => ?_) fun _ _ _ => trivial
      rw [hg'']
      exact hg'

/-! ## Jobs -/

theorem drives_processJob {fuel : Nat} {jobId : String} {payload : JsonObject} :
    Obeys driving (fun _ g' => g'.committable = true) (fun _ _ => True) Stage.idle
      (processJob P fuel jobId payload) := by
  unfold processJob
  rw [obeys_bind]
  have hargs : Obeys driving (fun _ g' => g' = Stage.idle) (fun _ g' => g' = Stage.idle) Stage.idle
      (payloadArgs P payload) := by
    unfold payloadArgs
    split
    · exact (obeys_raise _).mpr rfl
    · exact (obeys_pure _).mpr rfl
  refine hargs.mono (fun args g' hg' => ?_) fun _ _ _ => trivial
  subst hg'
  rw [obeys_bind, obeys_tryCatch, obeys_bind]
  refine drives_wake.mono (fun id g' hg' => ?_) fun exc g' hg' => ?_
  · obtain ⟨own, rfl, hmachine⟩ := hg'
    refine (obeys_pure _).mpr ?_
    split
    · rw [← hmachine]
      exact drives_ensureJobOnline
    · exact (obeys_pure _).mpr rfl
  · -- the wake failed, and the job goes on
    rw [obeys_bind]
    refine (obeys_still still_log).mono (fun _ g'' hg'' => ?_) fun _ _ _ => trivial
    subst hg''
    exact (obeys_pure _).mpr ((obeys_pure _).mpr hg')

theorem drives_executeJob {fuel : Nat} {jobId : String} {payload : JsonObject} :
    Obeys driving (fun _ g' => g' = Stage.idle) (fun _ g' => g' = Stage.idle) Stage.idle
      (executeJob P fuel jobId payload) := by
  refine obeys_withSession ?_
  have hhandler : ∀ (exc : PyExc) (g : Stage), Obeys driving (fun _ _ => True) (fun _ _ => True) g (do
      let _ ← await (.rollback .main)
      JobQueue.markError jobId exc.str
      await (.log (.jobError jobId exc.str))) := by
    intro exc g
    rw [obeys_bind, obeys_await]
    refine ⟨trivial, fun _ _ => ?_, fun _ _ => trivial⟩
    rw [obeys_bind]
    refine (obeys_still still_markError).mono (fun _ g' _ => ?_) fun _ _ _ => trivial
    exact (obeys_still still_log).mono (fun _ _ _ => trivial) fun _ _ _ => trivial
  rw [obeys_tryCatch, obeys_bind]
  refine drives_processJob.mono (fun _ g' hg' => ?_) fun exc g' _ => hhandler exc g'
  rw [obeys_bind]
  refine (obeys_still still_markDone).mono (fun _ g'' hg'' => ?_) fun exc g'' _ => hhandler exc g''
  subst hg''
  exact (@obeys_await driving g'' _ (.commit .main) _).mpr
    ⟨hg', fun _ _ => trivial, fun exc _ => hhandler exc _⟩

theorem drives_workerIteration {fuel : Nat} :
    Obeys driving (fun _ _ => True) (fun _ _ => True) Stage.idle (workerIteration P fuel) := by
  unfold workerIteration
  rw [obeys_bind, obeys_tryCatch, obeys_bind]
  have hsleep : ∀ g : Stage, Obeys driving (fun _ _ => True) (fun _ _ => True) g (await .sleep) :=
    fun g => (obeys_still still_sleep).mono (fun _ _ _ => trivial) fun _ _ _ => trivial
  have hclaim := obeys_idle [.lockJob, .jobRunning, .commit, .reset]
    (uses_claimNext (by simp) (by simp) (by simp)) (by decide)
  refine hclaim.mono (fun job g' hg' => ?_) fun _ g' _ => (obeys_pure _).mpr (hsleep g')
  subst hg'
  cases job with
  | none => exact (obeys_pure _).mpr (hsleep _)
  | some job =>
    refine drives_executeJob.mono (fun _ g' _ => hsleep g') fun _ g' _ => ?_
    exact (obeys_pure _).mpr (hsleep g')

end Wake

/-! ## Threads -/

/-- A thread of the waking part of the system: a wake request, or a worker. -/
def Label.wakes : Label → Bool
  | .request req =>
    match req.route with
    | .wakeMachine _ _ | .wakeMachineDirect _ _ => true
    | _ => false
  | .worker _ => true

theorem drives_start {P : Platform} {label : Label} (h : label.wakes = true) :
    Obeys driving (fun _ _ => True) (fun _ _ => True) Stage.idle (start P label) := by
  cases label with
  | worker fuel =>
    unfold start
    rw [obeys_bind]
    exact drives_workerIteration.mono (fun _ _ _ => (obeys_pure _).mpr trivial) fun _ _ _ => trivial
  | request req =>
    have hhandle : Obeys driving (fun _ _ => True) (fun _ _ => True) Stage.idle (handle P req) := by
      unfold handle respond
      rw [obeys_tryCatch]
      have hpure : ∀ (exc : PyExc) (g : Stage), Obeys driving (fun _ _ => True) (fun _ _ => True) g
          (Pure.pure (errorResponse req.route exc) : Code Response) := fun _ _ => (obeys_pure _).mpr trivial
      unfold endpoint
      cases hroute : req.route <;> simp only [Label.wakes, hroute, Bool.false_eq_true] at h
      · exact drives_wakeMachine.mono (fun _ _ _ => trivial) fun exc g _ => hroute ▸ hpure exc g
      · exact drives_wakeMachineDirect.mono (fun _ _ _ => trivial) fun exc g _ => hroute ▸ hpure exc g
    unfold start
    rw [obeys_bind]
    exact hhandle.mono (fun _ _ _ => (obeys_pure _).mpr trivial) fun _ _ _ => trivial

end WolMonkey
