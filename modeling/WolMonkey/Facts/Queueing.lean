import WolMonkey.Facts.Obedience

/-!
# Queueing

What every thread does with the job queue. A `Post` says how far a thread is with a job: a
wake request adds one, a worker locks the oldest queued row, marks it as running, returns it
by the commit that publishes the mark, and marks it as done or failed in the end. `queueing`
is the monitor of these posts: it permits a change of the queue only where the code makes it.
-/

namespace WolMonkey

open Programs Program

/-! ## Posts -/

/-- How far a thread is with the job queue. -/
inductive Post where
  /-- Neither a wake request nor a worker. -/
  | other
  | waiting
  /-- The row is inserted and not committed. -/
  | adding (id : Uuid) (payload : JsonObject)
  /-- The row is locked. -/
  | holding (j : WakeJob)
  /-- The row is marked as running, and this is not committed. -/
  | taking (j : WakeJob)
  /-- The job was returned by `claim_next`. -/
  | working (j : WakeJob)
  /-- The job is marked as done or failed, and this is not committed. -/
  | closing (j : WakeJob)
  /-- Marking the row failed; the transaction still holds it. -/
  | lapsed (id : Uuid)
  | ended

namespace Post

/-- Nothing of the queue is under way in the session of the queue. -/
def settled : Post → Bool
  | other | waiting | working _ | ended => true
  | _ => false

/-- What is under way is given up. -/
def drops : Post → Post
  | adding _ _ | holding _ | taking _ | lapsed _ => ended
  | closing j => working j
  | g => g

/-- The session of the queue commits. -/
def commits : Post → Post
  | taking j => working j
  | g => g.drops

def adds (g : Post) (id : Uuid) (payload : JsonObject) : Post :=
  match g with
  | waiting => adding id payload
  | g => g

def holds (g : Post) (j : WakeJob) : Post :=
  match g with
  | waiting => holding j
  | g => g

def marks : Post → Post
  | holding j => taking j
  | g => g

def closes : Post → Post
  | working j => closing j
  | g => g

def fails : Post → Post
  | holding j => lapsed j.id
  | g => g

/-- An operation succeeds. -/
def answered (g : Post) : (op : Op) → op.Answer → Post
  | .stmt .queue (.jobInsert _ _ _ payload), id => g.adds id payload
  | .stmt .queue .jobClaim, some j => g.holds j
  | .stmt .queue (.jobSetRunning _ _), _ => g.marks
  | .stmt .queue (.jobSetDone _), _ => g.closes
  | .stmt .queue (.jobSetError _ _), _ => g.closes
  | .commit .queue, _ => g.commits
  | .rollback .queue, _ => g.drops
  | .close .queue, _ => g.drops
  | _, _ => g

/-- An operation raises. -/
def failed (g : Post) : Op → Post
  | .stmt .queue _ => g.fails
  | .commit .queue | .rollback .queue | .close .queue => g.drops
  | _ => g

def next (g : Post) (op : Op) : app.Reply op → Post
  | .error _ => g.failed op
  | .ok a => g.answered op a

def permits (g : Post) : Op → Prop
  | .stmt slot (.jobInsert _ _ _ _) => slot = .queue ∧ g = waiting
  | .stmt slot .jobClaim => slot = .queue ∧ g = waiting
  | .stmt slot (.jobSetRunning id _) => slot = .queue ∧ ∃ j, g = holding j ∧ id = j.id
  | .stmt slot (.jobSetDone id) => slot = .queue ∧ ∃ j, g = working j ∧ Uuid.parse? id = some j.id
  | .stmt slot (.jobSetError id _) =>
    slot = .queue ∧ ∃ j, g = working j ∧ Uuid.parse? id = some j.id
  | .stmt _ (.machineDelete _ _) => g = other
  | .stmt .queue _ => g.settled = true
  | .commit .queue => ∀ id, g ≠ lapsed id
  | _ => True

/-- The job that a worker has got from `claim_next`, with the payload that it got. -/
def returned : Post → Option (Uuid × JsonObject)
  | working j | closing j => some (j.id, j.payload)
  | _ => none

/-- The row that a worker is about to claim. -/
def claiming : Post → Option Uuid
  | holding j | taking j => some j.id
  | lapsed id => some id
  | _ => none

end Post

abbrev queueing : Monitor app where
  Ghost := Post
  next := Post.next
  permits := Post.permits
  possible := fun _ _ _ => True

/-! ## Code beside the queue -/

/-- The effects that are none of the queue. -/
def Effect.beside : Effect → Bool
  | .dropMachine | .newJob | .lockJob | .jobRunning | .jobDone | .jobError => false
  | _ => true

section Code
variable {α : Type} {p : Code α} {g : Post}

theorem Post.drops_of_settled (hg : g.settled = true) : g.drops = g := by
  cases g <;> first
    | rfl
    | cases hg

theorem Post.commits_of_settled (hg : g.settled = true) : g.commits = g := by
  cases g <;> first
    | rfl
    | cases hg

theorem Post.fails_of_settled (hg : g.settled = true) : g.fails = g := by
  cases g <;> first
    | rfl
    | cases hg

/-- Where nothing is under way, everything beside the queue is permitted and changes nothing. -/
theorem Post.beside_step (hg : g.settled = true) {op : Op}
    (hop : ∀ e, op.effect = some e → e.beside = true) :
    g.permits op ∧ ∀ r, g.next op r = g := by
  have hlapsed : ∀ id, g ≠ .lapsed id := by
    rintro id rfl
    cases hg
  refine ⟨?_, fun r => ?_⟩
  · cases op with
    | stmt slot s =>
      cases s <;> first
        | exact absurd (hop _ rfl) (by decide)
        | (cases slot <;> first
            | exact hg
            | trivial)
    | commit slot =>
      cases slot
      · trivial
      · exact hlapsed
    | _ => trivial
  · rcases r with e | a
    · show g.failed op = g
      unfold Post.failed
      split
      · exact Post.fails_of_settled hg
      · exact Post.drops_of_settled hg
      · exact Post.drops_of_settled hg
      · exact Post.drops_of_settled hg
      · rfl
    · show g.answered op a = g
      unfold Post.answered
      split <;> first
        | rfl
        | exact absurd (hop _ rfl) (by decide)
        | exact Post.commits_of_settled hg
        | exact Post.drops_of_settled hg

theorem obeys_beside (es : List Effect) (hp : p.Uses (Within es))
    (hes : ∀ e ∈ es, e.beside = true) (hg : g.settled = true) :
    Obeys queueing (fun _ g' => g' = g) (fun _ g' => g' = g) g p := by
  refine hp.obeys (M := queueing) (Q := fun g' => g' = g) (fun g' op hop hg' => ?_) rfl
  subst hg'
  obtain ⟨hpermits, hnext⟩ := Post.beside_step hg fun e he => hes e (hop e he)
  exact ⟨hpermits, fun r _ => hnext r⟩

/-- A thread that is neither a wake request nor a worker. -/
theorem heeds_other {es : List Effect} (hp : p.Uses (Within es))
    (hes : ∀ e ∈ es, e.beside = true ∨ e = .dropMachine) : p.Heeds queueing Post.other := by
  refine (hp.obeys (M := queueing) (Q := fun g => g = Post.other) (fun g op hop hg => ?_) rfl).heeds
  subst hg
  by_cases hdrop : op.effect = some .dropMachine
  · cases op with
    | stmt slot s =>
      cases s with
      | machineDelete id children =>
        refine ⟨rfl, fun r _ => ?_⟩
        cases slot <;> cases r <;> rfl
      | _ => cases hdrop
    | _ => cases hdrop
  · obtain ⟨hpermits, hnext⟩ := Post.beside_step (g := .other) rfl fun e he =>
      (hes e (hop e he)).resolve_right fun heq => hdrop (heq ▸ he)
    exact ⟨hpermits, fun r _ => hnext r⟩

end Code

/-! ## The job queue -/

section Queue
variable {α : Type} {j : WakeJob}

/-- A session of the queue gives up what is under way when it is closed. -/
theorem obeys_withQueue {g : Post} {post : α → Post → Prop} {F : Post → Prop}
    {body : Code α}
    (h : Obeys queueing (fun a g' => post a g'.drops ∧ F g'.drops)
      (fun _ g' => F g'.drops) g body) :
    Obeys queueing post (fun _ => F) g (withSession .queue body) := by
  unfold withSession
  rw [obeys_bind, obeys_tryCatch]
  refine h.mono (fun a g' hg' => ?_) fun e g' hg' => ?_
  · rw [obeys_bind, obeys_await]
    exact ⟨trivial, fun _ _ => (obeys_pure _).mpr hg'.1, fun _ _ => hg'.2⟩
  · rw [obeys_bind, obeys_await]
    exact ⟨trivial, fun _ _ => (obeys_raise _).mpr hg', fun _ _ => hg'⟩

/-- `enqueue` adds at most one job, and nothing is under way when it is over. -/
theorem queue_enqueue {machineId attemptId jobType : String} {payload : JsonObject} :
    (JobQueue.enqueue machineId attemptId jobType payload).Heeds queueing Post.waiting := by
  unfold JobQueue.enqueue
  refine obeys_withQueue (F := fun _ => True) ?_
  rw [obeys_bind]
  refine (obeys_execute (M := queueing)).mpr ⟨⟨rfl, rfl⟩, fun id _ => ?_, fun _ _ => trivial⟩
  rw [obeys_bind, obeys_await]
  refine ⟨nofun, fun _ _ => ?_, fun _ _ => trivial⟩
  rw [obeys_bind]
  exact (obeys_execute (M := queueing)).mpr
    ⟨rfl, fun _ _ => (obeys_pure _).mpr ⟨trivial, trivial⟩, fun _ _ => trivial⟩

/-- What `claim_next` returns is the job that the thread then works on. -/
theorem queue_claimNext :
    Obeys queueing
      (fun found g' => ∀ jobId payload, found = some (jobId, payload) →
        ∃ j, g' = Post.working j ∧ jobId = j.id.text ∧ payload = j.payload)
      (fun _ _ => True) Post.waiting JobQueue.claimNext := by
  unfold JobQueue.claimNext
  refine obeys_withQueue (F := fun _ => True) ?_
  rw [obeys_bind]
  refine (obeys_execute (M := queueing)).mpr ⟨⟨rfl, rfl⟩, fun found _ => ?_, fun _ _ => trivial⟩
  cases found with
  | none => exact (obeys_pure _).mpr ⟨by simp, trivial⟩
  | some j =>
    dsimp only
    rw [obeys_bind, obeys_await]
    refine ⟨trivial, fun now _ => ?_, fun _ _ => trivial⟩
    rw [obeys_bind]
    refine (obeys_execute (s := .jobSetRunning j.id now)).mpr
      ⟨⟨rfl, j, rfl, rfl⟩, fun _ _ => ?_, fun _ _ => trivial⟩
    rw [obeys_bind, obeys_await]
    refine ⟨nofun, fun _ _ => (obeys_pure _).mpr ⟨?_, trivial⟩, fun _ _ => trivial⟩
    rintro jobId payload ⟨⟩
    exact ⟨j, rfl, rfl, rfl⟩

/-- Marking a job that the thread works on. -/
theorem queue_mark {s : Stmt} (hpermits : (Post.working j).permits (.stmt .queue s))
    (hcloses : ∀ a, (Post.working j).answered (.stmt .queue s) a = .closing j) :
    Obeys queueing (fun _ g' => g' = Post.working j) (fun _ g' => g' = Post.working j)
      (Post.working j) (withSession .queue do
        let _ ← execute .queue s
        await (.commit .queue)) := by
  refine obeys_withQueue (F := fun g' => g' = Post.working j) ?_
  rw [obeys_bind]
  refine (obeys_execute (M := queueing)).mpr ⟨hpermits, fun a _ => ?_, fun _ _ => rfl⟩
  have hnext : queueing.next (Post.working j) (.stmt .queue s) (.ok a) = Post.closing j := hcloses a
  rw [hnext, obeys_await]
  exact ⟨nofun, fun _ _ => ⟨rfl, rfl⟩, fun _ _ => rfl⟩

theorem queue_markDone {jobId : String} (hid : Uuid.parse? jobId = some j.id) :
    Obeys queueing (fun _ g' => g' = Post.working j) (fun _ g' => g' = Post.working j)
      (Post.working j) (JobQueue.markDone jobId) :=
  queue_mark ⟨rfl, j, rfl, hid⟩ fun _ => rfl

theorem queue_markError {jobId error : String} (hid : Uuid.parse? jobId = some j.id) :
    Obeys queueing (fun _ g' => g' = Post.working j) (fun _ g' => g' = Post.working j)
      (Post.working j) (JobQueue.markError jobId error) :=
  queue_mark ⟨rfl, j, rfl, hid⟩ fun _ => rfl

end Queue

/-! ## Threads -/

section Threads
variable {P : Platform} {fuel : Nat} {j : WakeJob}

theorem endsFreely_queueing : EndsFreely queueing :=
  ⟨fun _ => trivial, fun _ => trivial, fun _ => trivial⟩

theorem queue_processJob {jobId : String} {payload : JsonObject} :
    Obeys queueing (fun _ g' => g' = Post.working j) (fun _ g' => g' = Post.working j)
      (Post.working j) (processJob P fuel jobId payload) := by
  have hprocess : (processJob P fuel jobId payload).Uses
      (Within [.newAttempt, .attemptStatus, .send]) :=
    uses_processJob (by simp) (by simp) (by simp)
  exact obeys_beside _ hprocess (by decide) rfl

theorem queue_executeJob {jobId : String} {payload : JsonObject}
    (hid : Uuid.parse? jobId = some j.id) :
    (executeJob P fuel jobId payload).Heeds queueing (Post.working j) := by
  have hhandler : ∀ exc : PyExc, (do
      let _ ← await (.rollback .main)
      JobQueue.markError jobId exc.str
      await (.log (.jobError jobId exc.str)) : Code Unit).Heeds queueing (Post.working j) := by
    intro exc
    rw [heeds_bind, obeys_await]
    refine ⟨trivial, fun _ _ => ?_, fun _ _ => trivial⟩
    rw [heeds_bind]
    exact (queue_markError hid).mono (fun _ _ _ => heeds_await.mpr trivial) fun _ _ _ => trivial
  unfold executeJob
  refine heeds_withSession endsFreely_queueing.close ?_
  rw [heeds_tryCatch, obeys_bind]
  refine queue_processJob.mono (fun _ g' hg' => ?_) fun e g' hg' => ?_
  · subst hg'
    rw [obeys_bind]
    refine (queue_markDone hid).mono (fun _ g' hg' => ?_) fun e g' hg' => ?_
    · subst hg'
      exact (@obeys_await queueing _ _ (.commit .main) _).mpr
        ⟨trivial, fun _ _ => trivial, fun e _ => hhandler e⟩
    · subst hg'
      exact hhandler e
  · subst hg'
    exact hhandler e

theorem queue_workerIteration : (workerIteration P fuel).Heeds queueing Post.waiting := by
  have hsleep : ∀ g : Post, (await .sleep).Heeds queueing g := fun g => heeds_await.mpr trivial
  unfold workerIteration
  rw [heeds_bind, obeys_tryCatch, obeys_bind]
  refine queue_claimNext.mono (fun found g' hfound => ?_) fun _ g' _ => (obeys_pure _).mpr (hsleep g')
  cases found with
  | none => exact (obeys_pure _).mpr (hsleep _)
  | some found =>
    obtain ⟨j, rfl, hjob, hpayload⟩ := hfound found.1 found.2 rfl
    dsimp only
    rw [hjob, hpayload]
    exact (queue_executeJob (Uuid.parse?_text j.id)).mono (fun _ g' _ => hsleep g')
      fun _ g' _ => (obeys_pure _).mpr (hsleep g')

theorem queue_wakeMachine {req : Request} {machineId : String} {body : JsonBody WakeRequest} :
    (Api.wakeMachine req machineId body).Heeds queueing Post.waiting := by
  unfold Api.wakeMachine
  refine heeds_withBody endsFreely_queueing ?_
  have hguard : (csrfProtectedUser req).Uses (Within []) := uses_csrfProtectedUser
  refine (obeys_beside _ hguard (by decide) rfl).mono (fun user g' hg' _ b _ _ => ?_)
    fun _ _ _ => trivial
  subst hg'
  have hread : (SqlMachineRepository.getById machineId).Uses (Within []) := uses_machineGetById
  rw [heeds_bind]
  refine (obeys_beside _ hread (by decide) rfl).mono (fun found g' hg' => ?_) fun _ _ _ => trivial
  subst hg'
  cases found with
  | none => exact heeds_raise _
  | some machine =>
    dsimp only
    rw [heeds_bind]
    refine (obeys_beside [.newAttempt] (uses_attemptCreate (by simp)) (by decide) rfl).mono
      (fun attempt g' hg' => ?_) fun _ _ _ => trivial
    subst hg'
    rw [heeds_bind, obeys_await]
    refine ⟨trivial, fun _ _ => ?_, fun _ _ => trivial⟩
    rw [heeds_bind]
    exact queue_enqueue.mono (fun _ _ _ => heeds_pure _) fun _ _ _ => trivial

end Threads

/-! ## Every thread -/

/-- Where a request or a worker starts. -/
def Label.post : Label → Post
  | .request req => match req.route with
    | .wakeMachine _ _ => .waiting
    | _ => .other
  | .worker _ => .waiting

theorem queue_start {P : Platform} (label : Label) : (start P label).Heeds queueing label.post := by
  cases label with
  | worker fuel => exact heeds_start_worker queue_workerIteration
  | request req =>
    refine heeds_start_request ?_
    have hother : (∀ e ∈ req.route.effects, e.beside = true ∨ e = .dropMachine) →
        (endpoint P req).Heeds queueing Post.other := heeds_other endpoint_within
    simp only [Label.post]
    cases hroute : req.route with
    | wakeMachine machineId body =>
      simp only [endpoint, hroute]
      exact queue_wakeMachine
    | _ => exact hother (by rw [hroute]; simp only [Route.effects]; decide)

end WolMonkey
