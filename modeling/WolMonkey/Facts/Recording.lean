import WolMonkey.Facts.Interleaving

/-!
# Recorded strategies

How the name of a strategy goes through the code. A wake request reads its machine, records
the name and hands what it was asked for to a job; the worker that claims the job reads the
machine again. A `Track` follows a thread through this; `recording` is the monitor of these
tracks. Whatever is neither a wake request nor a worker obeys it as long as it deletes no
machine and enqueues no job.
-/

namespace WolMonkey

open Programs Program

/-! ## Tracks -/

/-- The machine that the worker reads from the payload of a job. -/
def WakeJob.target (j : WakeJob) : String := (j.payload.get "machine_id" (.str "")).pyStr

/-- The strategy that the worker reads from the payload of a job. -/
def WakeJob.strategyOverride (j : WakeJob) : Option String :=
  let override := j.payload.get "strategy_override" .null
  if override.truthy then some override.pyStr else none

/-- The strategy that a wake request records. -/
def recordedName (override : Option WakeStrategy) (m : Machine) : String :=
  (override.map WakeStrategy.value).getD m.wakeStrategy

/-- How far a thread is with the strategy of a wake. -/
inductive Track where
  /-- Neither a wake request nor a worker. -/
  | other
  | ended
  /-- A worker that has no job yet. -/
  | idle
  /-- A wake request that has not read its machine. -/
  | ready (override : Option WakeStrategy)
  | read (override : Option WakeStrategy) (m : Machine)
  /-- The attempt is in the open transaction. -/
  | recorded (override : Option WakeStrategy) (m : Machine) (id : Uuid)
  | stored (override : Option WakeStrategy) (m : Machine) (id : Uuid)
  | claimed (j : WakeJob)
  /-- The worker has read the machine, which settles the name. -/
  | woken (j : WakeJob) (name : String)

namespace Track

def ends : Track → Track
  | other => other
  | _ => ended

def sees : Track → Machine → Track
  | ready override, m => read override m
  | claimed j, m => woken j (orElse j.strategyOverride m.wakeStrategy)
  | g, _ => g

def records : Track → Uuid → Track
  | read override m, id => recorded override m id
  | g, _ => g

def enqueues : Track → Track
  | stored _ _ _ => ended
  | g => g

def claims : Track → WakeJob → Track
  | idle, j => claimed j
  | g, _ => g

/-- The work session commits. -/
def commits : Track → Track
  | recorded override m id => stored override m id
  | g => g.ends

/-- The session of the job queue commits. -/
def publishes : Track → Track
  | recorded _ _ _ => ended
  | g => g

/-- An operation succeeds. -/
def answered (g : Track) : (op : Op) → op.Answer → Track
  | .stmt .main (.machineGet _), some m => g.sees m
  | .stmt .main (.attemptInsert _), id => g.records id
  | .stmt .queue (.jobInsert _ _ _ _), _ => g.enqueues
  | .stmt .queue .jobClaim, some j => g.claims j
  | .commit .main, _ => g.commits
  | .commit .queue, _ => g.publishes
  | .rollback .main, _ => g.ends
  | .close .main, _ => g.ends
  | _, _ => g

def next (g : Track) (op : Op) : app.Reply op → Track
  | .error _ => g.ends
  | .ok a => g.answered op a

/-- The strategies that an attempt and a packet may have. -/
def names : Track → String → Prop
  | other, _ => True
  | read override m, name => name = recordedName override m
  | woken _ name', name => name = name'
  | _, _ => False

/-- The work session changes nothing. -/
def quiet : Track → Bool
  | idle | ready _ | read _ _ | recorded _ _ _ | claimed _ => true
  | _ => false

def permits (g : Track) : Op → Prop
  | .stmt _ (.machineDelete _ _) => False
  | .stmt slot .jobClaim => slot = .queue ∧ g = idle
  | .stmt slot (.jobInsert machineId attemptId _ payload) =>
    slot = .queue ∧ ∃ override m id, g = stored override m id ∧
      Uuid.parse? machineId = some m.id ∧ Uuid.parse? attemptId = some id ∧
        ∀ j : WakeJob, j.payload = payload → j.target = machineId ∧
          j.strategyOverride = override.map WakeStrategy.value
  | .stmt slot (.attemptInsert f) => (slot = .main ∨ g = other) ∧ g.names f.strategy
  | .send strategy _ _ _ => g.names strategy.value
  | .stmt .main (.machineGet id) => ∀ j, g = claimed j → Uuid.parse? id = some j.machineId
  | .stmt .main s => g.quiet = true → s.effect = none
  | _ => True

/-- What the code may rely on: rows have the identifiers that were asked for, and a job is
for the machine that its payload names. -/
def possible : (op : Op) → app.Reply op → Prop
  | .stmt .main (.machineGet id), .ok (some m) => Uuid.parse? id = some m.id
  | .stmt .main (.attemptRefresh id), .ok r => r.id = id
  | .stmt .queue .jobClaim, .ok (some j) => Uuid.parse? j.target = some j.machineId
  | _, _ => True

/-- The worker has settled the name, or the thread has nothing more to do with it. -/
def settled : Track → Bool
  | ended | woken _ _ => true
  | _ => false

end Track

abbrev recording : Monitor app where
  Ghost := Track
  next := Track.next
  permits := Track.permits
  possible := fun _ => Track.possible

/-! ## Code on any track -/

/-- The effects that matter on no track. -/
def Effect.tame : Effect → Bool
  | .dropMachine | .newAttempt | .newJob | .lockJob | .send => false
  | _ => true

section Code
variable {α : Type} {p : Code α} {g : Track}

theorem Track.next_other (op : Op) (r : app.Reply op) : Track.other.next op r = .other := by
  rcases r with e | a
  · rfl
  cases op with
  | stmt slot s =>
    cases slot <;> cases s <;> first
      | rfl
      | (cases a <;> rfl)
  | commit slot => cases slot <;> rfl
  | rollback slot => cases slot <;> rfl
  | close slot => cases slot <;> rfl
  | _ => rfl

/-- Where the work session may change rows, everything tame is permitted. -/
theorem Track.permits_tame (hg : g.quiet = false) {op : Op}
    (htame : ∀ e, op.effect = some e → e.tame = true) : g.permits op := by
  have hquiet : ∀ {q : Prop}, g.quiet = true → q := fun h => nomatch hg.symm.trans h
  cases op with
  | stmt slot s =>
    cases s <;> first
      | exact absurd (htame _ rfl) (by decide)
      | (cases slot <;> first
          | exact hquiet
          | (rintro j rfl; exact hquiet rfl)
          | trivial)
  | send strategy mac interface broadcast => exact absurd (htame _ rfl) (by decide)
  | _ => trivial

/-- A thread that is neither a wake request nor a worker. -/
theorem obeys_other {es : List Effect} (hp : p.Uses (Within es))
    (hes : ∀ e ∈ es, e ≠ .dropMachine ∧ e ≠ .newJob ∧ e ≠ .lockJob) :
    Obeys recording (fun _ _ => True) (fun _ _ => True) Track.other p := by
  refine (hp.obeys (M := recording) (Q := fun g => g = Track.other) (fun g op hop hg => ?_)
    rfl).mono (fun _ _ _ => trivial) fun _ _ _ => trivial
  subst hg
  refine ⟨?_, fun r _ => Track.next_other op r⟩
  by_cases htame : ∀ e, op.effect = some e → e.tame = true
  · exact Track.permits_tame rfl htame
  -- what is left are new attempts and packets
  push Not at htame
  obtain ⟨e, heffect, htame⟩ := htame
  obtain ⟨hdrop, hjob, hlock⟩ := hes e (hop e heffect)
  cases op with
  | stmt slot s =>
    cases s <;> cases heffect <;> first
      | exact ⟨.inr rfl, trivial⟩
      | exact absurd rfl htame
      | exact absurd rfl hdrop
      | exact absurd rfl hjob
      | exact absurd rfl hlock
  | _ => trivial

/-- An operation that is permitted on every track. -/
def Op.Free (op : Op) : Prop := ∀ g : Track, g.permits op

theorem obeys_free (hp : p.Uses Op.Free) :
    Obeys recording (fun _ _ => True) (fun _ _ => True) g p :=
  hp.obeys (Q := fun _ => True) (fun g _ hop _ => ⟨hop g, fun _ _ => trivial⟩) trivial

theorem Track.not_quiet_of_settled (hg : g.settled = true) : g.quiet = false := by
  cases g <;> first
    | rfl
    | cases hg

/-- After the name is settled nothing changes that. -/
theorem Track.settled_next (hg : g.settled = true) (op : Op) (r : app.Reply op) :
    (g.next op r).settled = true := by
  have hover : g.ends.settled = true := by
    cases g <;> first
      | rfl
      | cases hg
  have hwoken : g = .ended ∨ ∃ j name, g = .woken j name := by
    cases g with
    | ended => exact .inl rfl
    | woken j name => exact .inr ⟨j, name, rfl⟩
    | _ => cases hg
  rcases r with e | a
  · exact hover
  show (g.answered op a).settled = true
  unfold Track.answered
  split <;> first
    | exact hg
    | exact hover
    | (rcases hwoken with rfl | ⟨j, name, rfl⟩ <;> rfl)

theorem obeys_settled (es : List Effect) (hp : p.Uses (Within es)) (hes : ∀ e ∈ es, e.tame = true)
    (hg : g.settled = true) :
    Obeys recording (fun _ g => Track.settled g = true) (fun _ g => Track.settled g = true) g p := by
  refine hp.obeys (fun g op hop hg => ⟨?_, fun r _ => Track.settled_next hg op r⟩) hg
  exact Track.permits_tame (Track.not_quiet_of_settled hg) fun e he => hes e (hop e he)

end Code

/-! ## Wake requests -/

section Requests
variable {α : Type} {g : Track}

/-- An operation that every track permits and that leaves this one. -/
theorem obeys_leaves {op : Op} (hop : op.Free) (hsame : ∀ a, g.answered op a = g) :
    Obeys recording (fun _ g' => g' = g) (fun _ _ => True) g (await op) :=
  (@obeys_await recording g _ op fun _ g' => g' = g).mpr
    ⟨hop g, fun a _ => hsame a, fun _ _ => trivial⟩

theorem free_main {s : Stmt} (heffect : s.effect = none) (hget : ∀ id, s ≠ .machineGet id) :
    (Op.stmt .main s).Free := by
  intro g
  cases s <;> first
    | exact fun _ => rfl
    | exact absurd rfl (hget _)
    | cases heffect

/-- The guard of a wake request reads no machine. -/
theorem track_csrfProtectedUser {req : Request} :
    Obeys recording (fun _ g' => g' = g) (fun _ _ => True) g (csrfProtectedUser req) := by
  have hraise : ∀ {β : Type} {post : β → Track → Prop} {g' : Track} {e : PyExc},
      Obeys recording post (fun _ _ => True) g' (raise e) :=
    fun {_ _ _ _} => (obeys_raise _).mpr trivial
  have hread : ∀ {s : Stmt} {post : s.Answer → Track → Prop}, s.effect = none →
      (∀ id, s ≠ .machineGet id) → (∀ a, g.answered (.stmt .main s) a = g) → (∀ a, post a g) →
      Obeys recording post (fun _ _ => True) g (execute .main s) := by
    intro s post heffect hget hsame hpost
    refine (obeys_leaves (free_main heffect hget) hsame).mono (fun a g' h => ?_)
      fun _ _ _ => trivial
    rw [h]
    exact hpost a
  have hvalidate : ∀ cookie, Obeys recording (fun _ g' => g' = g) (fun _ _ => True) g
      (AuthService.validateSession cookie) := by
    intro cookie
    unfold AuthService.validateSession SqlSessionRepository.getById guardUuid
    rw [obeys_bind]
    split
    swap
    · exact (obeys_pure _).mpr hraise
    refine hread (s := .sessionGet cookie) rfl nofun (fun _ => rfl) fun found => ?_
    cases found with
    | none => exact hraise
    | some session =>
      dsimp only
      split
      · exact hraise
      rw [obeys_bind]
      refine (@obeys_leaves g .now (fun _ => trivial) fun _ => rfl).mono (fun now g' hg' => ?_)
        fun _ _ _ => trivial
      subst hg'
      split
      · exact hraise
      unfold SqlUserRepository.getById guardUuid
      rw [obeys_bind]
      split
      swap
      · exact (obeys_pure _).mpr hraise
      refine hread (s := .userGet session.userId.text) rfl nofun (fun _ => rfl) fun user => ?_
      cases user with
      | none => exact hraise
      | some user => exact (obeys_pure _).mpr rfl
  unfold csrfProtectedUser getCurrentSessionAndUser
  rw [obeys_bind]
  cases req.cookie with
  | none => exact hraise
  | some cookie =>
    dsimp only
    rw [obeys_tryCatch]
    refine (hvalidate cookie).mono ?_ fun _ _ _ => hraise
    rintro ⟨session, user⟩ g' rfl
    rw [obeys_bind]
    unfold requireCsrf
    split
    · exact hraise
    unfold validateCsrfToken
    rw [obeys_bind, obeys_bind]
    refine (@obeys_leaves g' (.csrfLoads req.csrfToken) (fun _ => trivial) fun _ => rfl).mono
      (fun data g'' hg'' => ?_) fun _ _ _ => trivial
    subst hg''
    rw [obeys_pure]
    split
    · exact (obeys_pure _).mpr ((obeys_pure _).mpr rfl)
    · exact hraise

theorem free_sessions : Sessions Op.Free := by
  intro slot
  exact ⟨fun _ => by cases slot <;> trivial, fun _ => trivial, fun _ => trivial⟩

/-- What ends a session is permitted on every track. -/
theorem obeys_withSession_free {slot : Slot} {body : Code α}
    (h : Obeys recording (fun _ _ => True) (fun _ _ => True) g body) :
    Obeys recording (fun _ _ => True) (fun _ _ => True) g (withSession slot body) := by
  unfold withSession
  rw [obeys_bind, obeys_tryCatch]
  refine h.mono (fun a g' _ => ?_) fun e g' _ => ?_
  · rw [obeys_bind, obeys_await]
    exact ⟨trivial, fun _ _ => (obeys_pure _).mpr trivial, fun _ _ => trivial⟩
  · rw [obeys_bind, obeys_await]
    exact ⟨trivial, fun _ _ => (obeys_raise _).mpr trivial, fun _ _ => trivial⟩

theorem obeys_getDbSession_free {body : Code α}
    (h : Obeys recording (fun _ _ => True) (fun _ _ => True) g body) :
    Obeys recording (fun _ _ => True) (fun _ _ => True) g (getDbSession body) := by
  refine obeys_withSession_free ?_
  rw [obeys_tryCatch, obeys_bind]
  refine h.mono (fun a g' _ => ?_) fun e g' _ => ?_
  · rw [obeys_bind, obeys_await]
    refine ⟨trivial, fun _ _ => (obeys_pure _).mpr trivial, fun exc _ => ?_⟩
    rw [obeys_bind, obeys_await]
    exact ⟨trivial, fun _ _ => (obeys_raise _).mpr trivial, fun _ _ => trivial⟩
  · rw [obeys_bind, obeys_await]
    exact ⟨trivial, fun _ _ => (obeys_raise _).mpr trivial, fun _ _ => trivial⟩

/-- A payload says what the request asked for. -/
theorem wakePayload_read {machineId attemptId actorId : String} {b : WakeRequest} {j : WakeJob}
    (h : j.payload = Api.wakePayload machineId attemptId actorId b) :
    j.target = machineId ∧ j.strategyOverride = b.strategy.map WakeStrategy.value := by
  refine ⟨by rw [WakeJob.target, h]; rfl, ?_⟩
  have hget : j.payload.get "strategy_override" .null =
      (Api.strategyName b).elim .null .str := by
    rw [h, Api.wakePayload]
    cases Api.strategyName b <;> rfl
  simp only [WakeJob.strategyOverride, hget, Api.strategyName]
  rcases b.strategy with _ | _ | _ <;> rfl

/-- A wake request. -/
theorem track_wakeMachine {req : Request} {machineId : String} {body : JsonBody WakeRequest}
    {override : Option WakeStrategy} (hbody : ∀ b, body = .typed b → b.strategy = override) :
    Obeys recording (fun _ _ => True) (fun _ _ => True) (Track.ready override)
      (Api.wakeMachine req machineId body) := by
  unfold Api.wakeMachine withBody
  cases body with
  | malformed => exact (obeys_raise _).mpr trivial
  | mistyped =>
    refine obeys_getDbSession_free ((obeys_bind _ _).mpr ?_)
    exact track_csrfProtectedUser.mono (fun _ _ _ => (obeys_raise _).mpr trivial)
      fun _ _ _ => trivial
  | typed b =>
    refine obeys_getDbSession_free ((obeys_bind _ _).mpr ?_)
    refine track_csrfProtectedUser.mono (fun user g' hg' => ?_) fun _ _ _ => trivial
    subst hg'
    cases hvalid : checked WakeRequest.valid b with
    | none => exact (obeys_raise _).mpr trivial
    | some c =>
      obtain ⟨-, rfl⟩ := checked_eq_some.mp hvalid
      obtain rfl := hbody _ rfl
      dsimp only
      unfold SqlMachineRepository.getById guardUuid
      rw [obeys_bind]
      split
      swap
      · exact (obeys_pure _).mpr ((obeys_raise _).mpr trivial)
      refine (obeys_execute (s := .machineGet machineId)).mpr
        ⟨fun j h => (nomatch h), fun found hfound => ?_, fun _ _ => trivial⟩
      cases found with
      | none => exact (obeys_raise _).mpr trivial
      | some m =>
        have hmachine : Uuid.parse? machineId = some m.id := hfound
        dsimp only
        unfold SqlWakeAttemptRepository.create
        rw [obeys_bind, obeys_bind]
        refine (obeys_execute (M := recording)).mpr ⟨⟨.inl rfl, rfl⟩, fun id _ => ?_, fun _ _ => trivial⟩
        refine (obeys_execute (s := .attemptRefresh id)).mpr
          ⟨fun _ => rfl, fun attempt hattempt => ?_, fun _ _ => trivial⟩
        have hid : attempt.id = id := hattempt
        have hparsed : Uuid.parse? attempt.id.text = some id := by rw [Uuid.parse?_text, hid]
        rw [obeys_bind, obeys_await]
        refine ⟨trivial, fun _ _ => ?_, fun _ _ => trivial⟩
        rw [obeys_bind]
        unfold JobQueue.enqueue
        refine (obeys_withSession_free ?_).mono (fun _ _ _ => (obeys_pure _).mpr trivial)
          fun _ _ _ => trivial
        rw [obeys_bind]
        refine (obeys_execute (M := recording)).mpr
          ⟨⟨rfl, b.strategy, m, id, rfl, hmachine, hparsed, fun j hj => wakePayload_read hj⟩,
            fun jobId _ => obeys_free ?_, fun _ _ => trivial⟩
        refine Uses.bind ((uses_perform _).mpr (free_sessions .queue).1) fun _ => ?_
        exact Uses.bind ((uses_perform _).mpr fun _ => trivial) fun _ => uses_pure _

end Requests

/-! ## Workers -/

section Workers
variable {P : Platform} {j : WakeJob} {g : Track} {fuel : Nat}

theorem track_getStrategy {name : String} :
    Obeys recording (fun s g' => g' = g ∧ s.value = name) (fun _ _ => True) g (getStrategy P name) := by
  unfold getStrategy
  split
  · rename_i hname
    exact (obeys_pure _).mpr ⟨rfl, (beq_iff_eq.mp hname).symm⟩
  · split
    · rename_i hname
      exact (obeys_pure _).mpr ⟨rfl, (beq_iff_eq.mp hname).symm⟩
    · exact (obeys_raise _).mpr trivial

theorem track_updateStatus {id : String} {status : AttemptStatus} {error : Option String}
    {finishedAt : Option DateTime} (hg : g.settled = true) :
    Obeys recording (fun _ g => Track.settled g = true) (fun _ g => Track.settled g = true) g
      (SqlWakeAttemptRepository.updateStatus id status error finishedAt) :=
  obeys_settled [.attemptStatus] (uses_updateStatus (by simp)) (by decide) hg

/-- A wake uses the name that it records. -/
theorem track_wake {a : WakeArgs} (htarget : Uuid.parse? a.machineId = some j.machineId)
    (hoverride : a.strategyOverride = j.strategyOverride) :
    Obeys recording (fun _ g => Track.settled g = true) (fun _ _ => True) (Track.claimed j)
      (WakeService.wake P a) := by
  unfold WakeService.wake SqlMachineRepository.getById guardUuid
  rw [if_pos (isValidUuid_of_parse? htarget), obeys_bind]
  refine (obeys_execute (s := .machineGet a.machineId)).mpr
    ⟨fun j' h => ?_, fun found _ => ?_, fun _ _ => trivial⟩
  · cases h
    exact htarget
  cases found with
  | none => exact (obeys_raise _).mpr trivial
  | some m =>
    dsimp only
    split
    · exact (obeys_raise _).mpr trivial
    show Obeys recording _ _ (Track.woken j (orElse j.strategyOverride m.wakeStrategy)) _
    rw [← hoverride]
    unfold SqlWakeAttemptRepository.create
    rw [obeys_bind, obeys_bind]
    refine (obeys_execute (M := recording)).mpr ⟨⟨.inl rfl, rfl⟩, fun id _ => ?_, fun _ _ => trivial⟩
    refine (obeys_execute (s := .attemptRefresh id)).mpr
      ⟨fun _ => rfl, fun attempt _ => ?_, fun _ _ => trivial⟩
    rw [obeys_bind]
    refine track_getStrategy.mono ?_ fun _ _ _ => trivial
    rintro strategy g' ⟨rfl, hname⟩
    unfold WakeService.sendAndRecord
    rw [obeys_bind, obeys_tryCatch, obeys_bind, obeys_await]
    have hfail : ∀ (exc : PyExc) (g' : Track), g'.settled = true →
        Obeys recording (fun (_ : Unit) g' => Obeys recording (fun _ g => Track.settled g = true)
          (fun _ _ => True) g' (Pure.pure attempt.id.text : Code String)) (fun _ _ => True) g' (do
            let now ← await .now
            SqlWakeAttemptRepository.updateStatus attempt.id.text .failed (some exc.str) (some now)
            raise (.wake ("Wake failed: " ++ exc.str))) := by
      intro exc g' hg'
      rw [obeys_bind, obeys_await]
      refine ⟨trivial, fun now _ => ?_, fun _ _ => trivial⟩
      rw [obeys_bind]
      exact (track_updateStatus hg').mono (fun _ _ _ => (obeys_raise _).mpr trivial)
        fun _ _ _ => trivial
    refine ⟨hname, fun _ _ => ?_, fun exc _ => hfail exc _ rfl⟩
    exact (track_updateStatus rfl).mono (fun _ _ hg' => (obeys_pure _).mpr hg')
      fun exc g' hg' => hfail exc g' hg'

theorem free_log {record : LogRecord} : (await (.log record)).Uses Op.Free :=
  (uses_perform _).mpr fun _ => trivial

theorem uses_withQueue_free {α : Type} {body : Code α} (h : body.Uses Op.Free) :
    (withSession .queue body).Uses Op.Free := uses_withSession h (free_sessions .queue).2.2

theorem free_markDone {jobId : String} : (JobQueue.markDone jobId).Uses Op.Free :=
  uses_withQueue_free (Uses.bind ((uses_perform _).mpr fun _ => trivial) fun _ =>
    (uses_perform _).mpr (free_sessions .queue).1)

theorem free_markError {jobId error : String} : (JobQueue.markError jobId error).Uses Op.Free :=
  uses_withQueue_free (Uses.bind ((uses_perform _).mpr fun _ => trivial) fun _ =>
    (uses_perform _).mpr (free_sessions .queue).1)

theorem track_processJob {jobId : String} (htarget : Uuid.parse? j.target = some j.machineId) :
    Obeys recording (fun _ _ => True) (fun _ _ => True) (Track.claimed j)
      (processJob P fuel jobId j.payload) := by
  unfold processJob
  rw [obeys_bind]
  have hargs : Obeys recording
      (fun (a : WakeArgs) g' => g' = Track.claimed j ∧ a.machineId = j.target ∧
        a.strategyOverride = j.strategyOverride)
      (fun _ _ => True) (Track.claimed j) (payloadArgs P j.payload) := by
    unfold payloadArgs
    split
    · exact (obeys_raise _).mpr trivial
    · exact (obeys_pure _).mpr ⟨rfl, rfl, rfl⟩
  refine hargs.mono ?_ fun _ _ _ => trivial
  rintro a g' ⟨rfl, hmachine, hoverride⟩
  have hwoken : Obeys recording (fun b g' => b = true → Track.settled g' = true) (fun _ _ => True)
      (Track.claimed j) (Program.tryCatch
        (do
          let _ ← WakeService.wake P a
          return true)
        (fun exc => do
          let _ ← await (.log (.jobWakeFailed jobId exc.str))
          return false)) := by
    rw [obeys_tryCatch, obeys_bind]
    refine (track_wake (hmachine ▸ htarget) hoverride).mono
      (fun _ _ hg' => (obeys_pure _).mpr fun _ => hg') fun exc g' _ => ?_
    rw [obeys_bind]
    exact (obeys_free free_log).mono (fun _ _ _ => (obeys_pure _).mpr nofun) fun _ _ _ => trivial
  rw [obeys_bind]
  refine hwoken.mono (fun b g' hg' => ?_) fun _ _ _ => trivial
  split
  · rename_i hboth
    have honline : (ensureJobOnline fuel jobId (j.payload.get "attempt_id" (.str "")).pyStr
        a.machineId).Uses (Within [.attemptStatus]) :=
      uses_ensureJobOnline (fun _ h => within_of_none h)
        (fun _ _ _ _ _ _ => within_of_effect rfl (by simp)) fuel
    exact (obeys_settled _ honline (by decide) (hg' (Bool.and_eq_true _ _ |>.mp hboth).1)).mono
      (fun _ _ _ => trivial) fun _ _ _ => trivial
  · exact (obeys_pure _).mpr trivial

theorem track_executeJob {jobId : String} (htarget : Uuid.parse? j.target = some j.machineId) :
    Obeys recording (fun _ _ => True) (fun _ _ => True) (Track.claimed j)
      (executeJob P fuel jobId j.payload) := by
  have hhandler : ∀ (exc : PyExc) (g : Track), Obeys recording (fun _ _ => True) (fun _ _ => True) g
      (do
        let _ ← await (.rollback .main)
        JobQueue.markError jobId exc.str
        await (.log (.jobError jobId exc.str))) := fun exc g =>
    obeys_free (Uses.bind ((uses_perform _).mpr (free_sessions .main).2.1) fun _ =>
      Uses.bind free_markError fun _ => free_log)
  refine obeys_withSession_free ?_
  rw [obeys_tryCatch, obeys_bind]
  refine (track_processJob htarget).mono (fun _ g' _ => ?_) fun exc g' _ => hhandler exc g'
  have hdone : (do
      JobQueue.markDone jobId
      await (.commit .main) : Code Unit).Uses Op.Free :=
    Uses.bind free_markDone fun _ => (uses_perform _).mpr (free_sessions .main).1
  exact (obeys_free hdone).mono (fun _ _ _ => trivial) fun exc g'' _ => hhandler exc g''

/-- A claim that returns a job is on its track. -/
theorem track_claimNext :
    Obeys recording
      (fun found g' => ∀ jobId payload, found = some (jobId, payload) → ∃ j, g' = Track.claimed j ∧
        payload = j.payload ∧ Uuid.parse? j.target = some j.machineId)
      (fun _ _ => True) Track.idle JobQueue.claimNext := by
  unfold JobQueue.claimNext withSession
  rw [obeys_bind, obeys_tryCatch, obeys_bind]
  have hraise : ∀ (exc : PyExc) (g : Track) (post : Option (String × JsonObject) → Track → Prop),
      Obeys recording post (fun _ _ => True) g (do
        let _ ← await (.close .queue)
        raise exc) := by
    intro exc g post
    rw [obeys_bind, obeys_await]
    exact ⟨trivial, fun _ _ => (obeys_raise _).mpr trivial, fun _ _ => trivial⟩
  refine (obeys_execute (s := .jobClaim)).mpr
    ⟨⟨rfl, rfl⟩, fun found hfound => ?_, fun exc _ => hraise exc _ _⟩
  cases found with
  | none =>
    refine (obeys_pure _).mpr ?_
    rw [obeys_bind, obeys_await]
    exact ⟨trivial, fun _ _ => (obeys_pure _).mpr nofun, fun _ _ => trivial⟩
  | some j =>
    have htarget : Uuid.parse? j.target = some j.machineId := hfound
    dsimp only
    rw [obeys_bind, obeys_await]
    refine ⟨trivial, fun now _ => ?_, fun exc _ => hraise exc _ _⟩
    rw [obeys_bind]
    refine (obeys_execute (s := .jobSetRunning j.id now)).mpr
      ⟨trivial, fun _ _ => ?_, fun exc _ => hraise exc _ _⟩
    rw [obeys_bind, obeys_await]
    refine ⟨trivial, fun _ _ => (obeys_pure _).mpr ?_, fun exc _ => hraise exc _ _⟩
    rw [obeys_bind, obeys_await]
    refine ⟨trivial, fun _ _ => (obeys_pure _).mpr ?_, fun _ _ => trivial⟩
    rintro jobId payload ⟨⟩
    exact ⟨j, rfl, rfl, htarget⟩

theorem track_workerIteration :
    Obeys recording (fun _ _ => True) (fun _ _ => True) Track.idle (workerIteration P fuel) := by
  have hsleep : ∀ g : Track, Obeys recording (fun _ _ => True) (fun _ _ => True) g (await .sleep) :=
    fun g => obeys_free ((uses_perform _).mpr fun _ => trivial)
  unfold workerIteration
  rw [obeys_bind, obeys_tryCatch, obeys_bind]
  refine track_claimNext.mono (fun found g' hfound => ?_) fun _ g' _ => (obeys_pure _).mpr (hsleep g')
  cases found with
  | none => exact (obeys_pure _).mpr (hsleep _)
  | some found =>
    obtain ⟨j, rfl, hpayload, htarget⟩ := hfound found.1 found.2 rfl
    dsimp only
    rw [hpayload]
    exact (track_executeJob htarget).mono (fun _ g' _ => hsleep g') fun _ g' _ =>
      (obeys_pure _).mpr (hsleep g')

end Workers

/-! ## Threads -/

/-- The track on which a request starts. -/
def Route.track : Route → Track
  | wakeMachine _ (.typed b) => .ready b.strategy
  | wakeMachine _ _ => .ready none
  | _ => .other

def Label.track : Label → Track
  | .request req => req.route.track
  | .worker _ => .idle

/-- The request deletes a machine. -/
def Route.deletes : Route → Bool
  | deleteMachine _ => true
  | _ => false

def Label.deletes : Label → Bool
  | .request req => req.route.deletes
  | .worker _ => false

section Start
variable {P : Platform} {req : Request}

theorem track_handle {machineId : String} {body : JsonBody WakeRequest}
    {override : Option WakeStrategy} (hroute : req.route = .wakeMachine machineId body)
    (hbody : ∀ b, body = .typed b → b.strategy = override) :
    Obeys recording (fun _ _ => True) (fun _ _ => True) (Track.ready override) (handle P req) := by
  unfold handle respond endpoint
  rw [obeys_tryCatch, hroute]
  exact (track_wakeMachine hbody).mono (fun _ _ _ => trivial) fun _ _ _ => (obeys_pure _).mpr trivial

theorem track_request (h : req.route.deletes = false) :
    Obeys recording (fun _ _ => True) (fun _ _ => True) req.route.track (handle P req) := by
  have hother : (∀ e ∈ req.route.effects, e ≠ .dropMachine ∧ e ≠ .newJob ∧ e ≠ .lockJob) →
      Obeys recording (fun _ _ => True) (fun _ _ => True) Track.other (handle P req) :=
    obeys_other handle_within
  cases hroute : req.route with
  | wakeMachine machineId body =>
    cases body with
    | typed b => exact track_handle hroute fun b' hb => by cases hb; rfl
    | malformed => exact track_handle hroute nofun
    | mistyped => exact track_handle hroute nofun
  | deleteMachine machineId =>
    rw [hroute] at h
    cases h
  | _ => exact hother (by rw [hroute]; simp only [Route.effects]; decide)

theorem track_start {label : Label} (h : label.deletes = false) :
    Obeys recording (fun _ _ => True) (fun _ _ => True) label.track (start P label) := by
  unfold start
  cases label with
  | worker fuel =>
    dsimp only
    rw [obeys_bind]
    exact track_workerIteration.mono (fun _ _ _ => (obeys_pure _).mpr trivial) fun _ _ _ => trivial
  | request req =>
    dsimp only
    rw [obeys_bind]
    exact (track_request h).mono (fun _ _ _ => (obeys_pure _).mpr trivial) fun _ _ _ => trivial

end Start

end WolMonkey
