import WolMonkey.Facts.Interleaving
import WolMonkey.Facts.Queueing
import WolMonkey.Library.ClaimBoard

/-!
# Open changes of the queue

What the transactions of a thread hold at each post: nothing of the queue while the post is
settled, and otherwise exactly the row that is added, locked, marked or closed. The work
session never has anything to do with the queue.
-/

namespace WolMonkey

open Programs Program

/-! ## Changes of job rows -/

/-- The job that a change is about. -/
def Write.job? : Write → Option Uuid
  | insertJob j => some j.id
  | setJobRunning id _ | setJobDone id | setJobError id _ => some id
  | _ => none

/-- The change leaves the queue alone. -/
def Write.Plain (w : Write) : Prop := w.job? = none ∧ w.effect ≠ .dropMachine

/-- The change marks the job as done or failed. -/
def Write.Closes (id : Uuid) (w : Write) : Prop := w = .setJobDone id ∨ ∃ e, w = .setJobError id e

theorem untouched_jobs : Untouched Write.Plain Database.jobs := by
  rintro w db ⟨hjob, hdrop⟩
  cases w <;> first
    | rfl
    | exact absurd rfl hdrop
    | cases hjob

/-- What a transaction without changes of jobs keeps of the queue. -/
theorem jobs_apply_of_noJob {w : Write} (hw : w.job? = none) (db : Database) :
    ∃ q : WakeJob → Bool, (w.apply db).jobs = db.jobs.filter q := by
  have hsame : db.jobs = db.jobs.filter fun _ => true := by simp
  cases w with
  | deleteMachine id => exact ⟨_, rfl⟩
  | insertJob j => cases hw
  | setJobRunning id t => cases hw
  | setJobDone id => cases hw
  | setJobError id e => cases hw
  | _ => exact ⟨_, hsame⟩

theorem jobs_after_of_noJob {ws : List Write} (hws : ∀ w ∈ ws, w.job? = none)
    (db : Database) : ∃ q : WakeJob → Bool, (db.after ws).jobs = db.jobs.filter q := by
  induction ws generalizing db with
  | nil => exact ⟨fun _ => true, by simp⟩
  | cons w ws ih =>
    obtain ⟨q, hq⟩ := jobs_apply_of_noJob (hws w List.mem_cons_self) db
    obtain ⟨q', hq'⟩ := ih (fun v hv => hws v (List.mem_cons_of_mem _ hv)) (w.apply db)
    exact ⟨fun j => q j && q' j, by rw [Database.after_cons, hq', hq, List.filter_filter]; simp [Bool.and_comm]⟩

theorem Tx.heldJobs_eq (tx : Tx) : tx.heldJobs = tx.locks ++ tx.writes.filterMap Write.job? := by
  have hsame : Write.job? = fun
      | .insertJob j => some j.id
      | .setJobRunning id _ | .setJobDone id | .setJobError id _ => some id
      | _ => none := by
    funext w
    cases w <;> rfl
  rw [hsame]
  rfl

/-! ## What a thread holds -/

namespace Post

/-- The change leaves the queue alone; only a thread beside the queue may delete machines. -/
def Spares (g : Post) (w : Write) : Prop := w.job? = none ∧ (g = other ∨ w.effect ≠ .dropMachine)

theorem Spares.plain {g : Post} {w : Write} (h : g.Spares w) (hg : g ≠ other) : w.Plain :=
  ⟨h.1, h.2.resolve_left hg⟩

theorem spares_of_plain (g : Post) {w : Write} (h : w.Plain) : g.Spares w := ⟨h.1, .inr h.2⟩

/-- The change that is under way at a post. -/
def Prepares : Post → Write → Prop
  | adding id payload, w => ∃ j, w = .insertJob j ∧ j.id = id ∧ j.payload = payload ∧ j.status = .queued
  | taking j, w => ∃ time, w = .setJobRunning j.id time
  | closing j, w => w.Closes j.id
  | _, _ => False

/-- The row that a post has locked. -/
def locks : Post → List Uuid
  | holding j | taking j => [j.id]
  | lapsed id => [id]
  | _ => []

/-- The changes in the session of the queue. -/
def Writes (g : Post) (ws : List Write) : Prop :=
  match g with
  | adding _ _ | taking _ | closing _ => ∃ vs w, (∀ v ∈ vs, v.Plain) ∧ g.Prepares w ∧ ws = vs ++ [w]
  | _ => ∀ w ∈ ws, g.Spares w

/-- What the transactions of a thread hold at a post. -/
structure Holds (g : Post) (st : Store) : Prop where
  main : ∀ w ∈ st.main.writes, g.Spares w
  mainLocks : st.main.locks = []
  active : g.settled = false → (∀ id, g ≠ lapsed id) → st.queue.status = .active
  locks : st.queue.locks = g.locks
  writes : g.Writes st.queue.writes

theorem holds_empty {g : Post} (hg : g.settled = true) : g.Holds {} := by
  cases g <;> simp only [settled, Bool.false_eq_true] at hg <;>
    exact ⟨by simp, rfl, by simp [settled], rfl, by simp [Writes]⟩

/-- The post as a desk at a board of jobs. -/
def desk : Post → Claims.Desk Uuid JsonObject
  | adding id payload => .adding id payload
  | holding j => .holding j.id j.payload
  | taking j => .taking j.id j.payload
  | closing j => .closing j.id
  | lapsed _ => .broken
  | _ => .clear

/-- The row that a desk deals with is held by its thread. -/
theorem Holds.mem_heldJobs {g : Post} {st : Store} (h : g.Holds st) {id : Uuid}
    (habout : g.desk.About id) : id ∈ st.heldJobs := by
  refine List.mem_append_right _ ?_
  rw [Tx.heldJobs_eq, List.mem_append]
  have hwrites := h.writes
  have hlocks := h.locks
  cases g with
  | adding k payload =>
    cases habout
    obtain ⟨vs, w, -, ⟨j, rfl, rfl, -⟩, hws⟩ := hwrites
    exact .inr (List.mem_filterMap.mpr ⟨.insertJob j, by rw [hws]; simp, rfl⟩)
  | holding j =>
    cases habout
    exact .inl (by rw [hlocks]; exact List.mem_singleton.mpr rfl)
  | taking j =>
    cases habout
    exact .inl (by rw [hlocks]; exact List.mem_singleton.mpr rfl)
  | closing j =>
    cases habout
    obtain ⟨vs, w, -, hw, hws⟩ := hwrites
    refine .inr (List.mem_filterMap.mpr ⟨w, by rw [hws]; simp, ?_⟩)
    rcases hw with rfl | ⟨e, rfl⟩ <;> rfl
  | _ => cases habout

/-- A thread holds no rows but the one it deals with, or that it was about to claim. -/
theorem Holds.about_of_mem {g : Post} {st : Store} (h : g.Holds st) {id : Uuid}
    (hid : id ∈ st.heldJobs) : g.desk.About id ∨ g.claiming = some id := by
  have hspared : ∀ {ws : List Write}, (∀ w ∈ ws, w.job? = none) → ws.filterMap Write.job? = [] :=
    fun hws => List.filterMap_eq_nil_iff.mpr hws
  have hmain : st.main.heldJobs = [] := by
    rw [Tx.heldJobs_eq, h.mainLocks, hspared fun w hw => (h.main w hw).1]
    rfl
  have hprepared : ∀ {vs : List Write} {w : Write}, (∀ v ∈ vs, v.Plain) →
      id ∈ (vs ++ [w]).filterMap Write.job? → w.job? = some id := by
    intro vs w hvs hmem
    rw [List.filterMap_append, hspared fun v hv => (hvs v hv).1, List.nil_append] at hmem
    simpa using hmem
  rw [Store.heldJobs, hmain, List.nil_append, Tx.heldJobs_eq, h.locks, List.mem_append] at hid
  have hwrites := h.writes
  cases g with
  | adding k payload =>
    obtain ⟨vs, w, hvs, ⟨j, rfl, rfl, -⟩, hws⟩ := hwrites
    rw [hws] at hid
    exact .inl (Option.some.inj (hprepared hvs (hid.resolve_left (List.not_mem_nil))).symm)
  | taking j =>
    obtain ⟨vs, w, hvs, ⟨time, rfl⟩, hws⟩ := hwrites
    rw [hws] at hid
    rcases hid with hid | hid
    · exact .inl (List.mem_singleton.mp hid)
    · exact .inl (Option.some.inj (hprepared hvs hid)).symm
  | closing j =>
    obtain ⟨vs, w, hvs, hw, hws⟩ := hwrites
    rw [hws] at hid
    have hjob := hprepared hvs (hid.resolve_left (List.not_mem_nil))
    rcases hw with rfl | ⟨e, rfl⟩ <;> exact .inl (Option.some.inj hjob).symm
  | holding j =>
    rw [hspared fun w hw => (hwrites w hw).1] at hid
    exact .inl (List.mem_singleton.mp (hid.resolve_right (List.not_mem_nil)))
  | lapsed k =>
    rw [hspared fun w hw => (hwrites w hw).1] at hid
    exact .inr (congrArg some (List.mem_singleton.mp (hid.resolve_right (List.not_mem_nil))).symm)
  | _ =>
    rw [hspared fun w hw => (hwrites w hw).1] at hid
    rcases hid with hid | hid <;> cases hid

end Post

/-! ### Statements about jobs -/

section Statements
variable {P : Platform} {inp : Input} {locked : List Uuid} {db : Database}

/-- A fold that keeps something once it has it ends with something. -/
theorem foldl_pick_ne_none {α : Type} {pick : Option α → α → Option α}
    (hpick : ∀ b a, ∃ c, pick (some b) a = some c) (l : List α) (b : α) :
    l.foldl pick (some b) ≠ none := by
  induction l generalizing b with
  | nil => simp
  | cons a l ih =>
    obtain ⟨c, hc⟩ := hpick b a
    rw [List.foldl_cons, hc]
    exact ih c

theorem oldestJob_eq_none {jobs : List WakeJob} (h : oldestJob jobs = none) : jobs = [] := by
  cases jobs with
  | nil => rfl
  | cons j jobs =>
    refine (foldl_pick_ne_none (fun b a => ?_) jobs j h).elim
    dsimp only
    split
    · exact ⟨a, rfl⟩
    · exact ⟨b, rfl⟩

theorem run_jobInsert {machineId attemptId jobType : String} {payload : JsonObject}
    {r : Executed (.jobInsert machineId attemptId jobType payload)}
    (h : (Stmt.jobInsert machineId attemptId jobType payload).run P inp locked db = .ok r) :
    ∃ j, r.answer = j.id ∧ r.writes = [.insertJob j] ∧ r.locks = [] ∧ j.id = inp.fresh ∧
      j.payload = payload ∧ j.status = .queued := by
  simp only [Stmt.run, bind_eq_ok, pure_eq_ok] at h
  obtain ⟨m, -, a, -, -, -, -, -, -, -, -, -, -, -, -, -, rfl⟩ := h
  exact ⟨_, rfl, rfl, rfl, rfl, rfl, rfl⟩

/-- A claim takes a queued row that no other transaction holds; there is none only when
every queued row is held by another. -/
theorem run_jobClaim {r : Executed .jobClaim} (h : Stmt.jobClaim.run P inp locked db = .ok r) :
    r.writes = [] ∧
      ((r.answer = none ∧ r.locks = [] ∧ ∀ j ∈ db.jobs, j.status = .queued → j.id ∈ locked) ∨
        ∃ j ∈ db.jobs, r.answer = some j ∧ r.locks = [j.id] ∧ j.status = .queued ∧
          j.id ∉ locked) := by
  simp only [Stmt.run] at h
  split at h
  · rename_i j hj
    cases h
    have hmem := List.mem_filter.mp (oldestJob_mem hj)
    simp only [Bool.and_eq_true, beq_iff_eq, Bool.not_eq_true', List.contains_eq_mem,
      decide_eq_false_iff_not] at hmem
    exact ⟨rfl, .inr ⟨j, hmem.1, rfl, rfl, hmem.2.1, hmem.2.2⟩⟩
  · rename_i hnone
    cases h
    refine ⟨rfl, .inl ⟨rfl, rfl, fun j hj hqueued => ?_⟩⟩
    by_contra hfree
    have hnil := oldestJob_eq_none hnone
    have hmem : j ∈ db.jobs.filter fun j => j.status == .queued && !locked.contains j.id := by
      simp [hj, hqueued, hfree]
    rw [hnil] at hmem
    cases hmem

theorem run_jobSetRunning {id : Uuid} {time : DateTime} {r : Executed (.jobSetRunning id time)}
    (h : (Stmt.jobSetRunning id time).run P inp locked db = .ok r) :
    r.writes = [.setJobRunning id time] ∧ r.locks = [] := by
  cases h
  exact ⟨rfl, rfl⟩

theorem run_jobSetDone {jobId : String} {id : Uuid} (hid : Uuid.parse? jobId = some id)
    {r : Executed (.jobSetDone jobId)} (h : (Stmt.jobSetDone jobId).run P inp locked db = .ok r) :
    r.writes = [.setJobDone id] ∧ r.locks = [] := by
  simp only [Stmt.run, bind_eq_ok, pure_eq_ok, uuidParam_eq_ok] at h
  obtain ⟨u, hu, rfl⟩ := h
  obtain rfl := Option.some.inj (hid.symm.trans hu)
  exact ⟨rfl, rfl⟩

theorem run_jobSetError {jobId error : String} {id : Uuid} (hid : Uuid.parse? jobId = some id)
    {r : Executed (.jobSetError jobId error)}
    (h : (Stmt.jobSetError jobId error).run P inp locked db = .ok r) :
    r.writes = [.setJobError id error] ∧ r.locks = [] := by
  simp only [Stmt.run, bind_eq_ok, pure_eq_ok, uuidParam_eq_ok] at h
  obtain ⟨u, hu, -, -, rfl⟩ := h
  obtain rfl := Option.some.inj (hid.symm.trans hu)
  exact ⟨rfl, rfl⟩

end Statements

/-! ## One operation -/

section Step
variable {P : Platform} {inp : Input} {others : List Store} {sh : Shared} {st : Store} {g : Post}

theorem Post.spares_of_effect {s : Stmt} {w : Write} (hw : s.effect = some w.effect)
    (hs : ∀ e, s.effect = some e → e.beside = true ∨ (g = .other ∧ e = .dropMachine)) :
    g.Spares w := by
  rcases hs _ hw with hbeside | ⟨hg, hdrop⟩
  · constructor
    · cases w <;> first
        | rfl
        | cases hbeside
    · refine .inr fun hdrop => ?_
      rw [hdrop] at hbeside
      cases hbeside
  · refine ⟨?_, .inl hg⟩
    cases w <;> first
      | rfl
      | cases hdrop

/-- A statement that has nothing to do with jobs. -/
def Stmt.offQueue (s : Stmt) : Bool :=
  match s.effect with
  | some e => e.beside || e == .dropMachine
  | none => true

/-- Nothing is under way when the status of a transaction changes. -/
theorem Post.Holds.status {slot : Slot} {status : TxStatus} (h : g.Holds st)
    (hg : slot = .queue → g.settled = true) :
    g.Holds (st.setTx slot { st.tx slot with status }) := by
  cases slot with
  | main => exact ⟨h.main, h.mainLocks, h.active, h.locks, h.writes⟩
  | queue =>
    refine ⟨h.main, h.mainLocks, fun hsettled => ?_, h.locks, h.writes⟩
    rw [hg rfl] at hsettled
    cases hsettled

/-- Changes that leave the queue alone join a transaction. -/
theorem Post.Holds.append {slot : Slot} {ws : List Write} (h : g.Holds st)
    (hg : slot = .queue → g.settled = true) (hws : ∀ w ∈ ws, g.Spares w) :
    g.Holds (st.setTx slot { st.tx slot with writes := (st.tx slot).writes ++ ws }) := by
  have happend : ∀ {vs : List Write}, (∀ w ∈ vs, g.Spares w) → ∀ w ∈ vs ++ ws, g.Spares w := by
    intro vs hvs w hw
    rcases List.mem_append.mp hw with hw | hw
    · exact hvs w hw
    · exact hws w hw
  cases slot with
  | main => exact ⟨happend h.main, h.mainLocks, h.active, h.locks, h.writes⟩
  | queue =>
    have hsettled := hg rfl
    have hwrites := h.writes
    refine ⟨h.main, h.mainLocks, h.active, h.locks, ?_⟩
    cases g <;> simp only [settled, Bool.false_eq_true] at hsettled <;> exact happend hwrites

theorem Post.Holds.offQueue {slot : Slot} {s : Stmt} (h : g.Holds st)
    (hs : s.offQueue = true) (hpermits : g.permits (.stmt slot s)) :
    g.Holds (executeStmt P slot s inp others sh st).2 := by
  have hspares : ∀ e, s.effect = some e → e.beside = true ∨ (g = .other ∧ e = .dropMachine) := by
    intro e he
    simp only [Stmt.offQueue, he, Bool.or_eq_true, beq_iff_eq] at hs
    refine hs.imp_right fun hdrop => ⟨?_, hdrop⟩
    subst hdrop
    cases s <;> first
      | exact hpermits
      | cases he
  have hsettled : slot = .queue → g.settled = true := by
    rintro rfl
    cases s <;> first
      | exact hpermits
      | (cases hpermits; rfl)
      | cases hs
  rcases executeStmt_cases P slot inp others sh st s with ⟨e, status, hexec, -⟩ |
    ⟨r, -, -, hrun, hexec⟩
  · rw [hexec]
    exact h.status hsettled
  · rw [hexec]
    have hlocks : r.locks = [] := Stmt.run_locks (by rintro heq; rw [Stmt.offQueue, heq] at hs; cases hs) r hrun
    rw [hlocks, List.append_nil]
    exact h.append hsettled fun w hw => Post.spares_of_effect (Stmt.run_effect r hrun w hw) hspares

/-! ### All that an operation does to the queue -/

/-- The entry that an event writes into the queue. -/
def addedBy : (op : Op) → app.Reply op → Option (Uuid × JsonObject)
  | .stmt .queue (.jobInsert _ _ _ payload), .ok id => some (id, payload)
  | _, _ => none

/-- How one operation of a thread moves its post and the committed jobs. `locked` are the rows
that other transactions hold; the first index is what the operation writes into the queue. -/
inductive Turns (inp : Input) (locked : List Uuid) :
    Option (Uuid × JsonObject) → Post → List WakeJob → Post → List WakeJob → Prop where
  /-- What is under way stays so or is given up; only the deletion of a machine takes jobs
  away. -/
  | rest {g g' : Post} {jobs : List WakeJob} (q : WakeJob → Bool) :
      g'.desk = g.desk ∨ g'.desk.Idle → g'.returned = g.returned →
      (g = .other ∨ ∀ j, q j = true) → Turns inp locked none g jobs g' (jobs.filter q)
  | add {jobs : List WakeJob} (payload : JsonObject) :
      Turns inp locked (some (inp.fresh, payload)) .waiting jobs (.adding inp.fresh payload) jobs
  | hold {jobs : List WakeJob} (j : WakeJob) : j ∈ jobs → j.status = .queued → j.id ∉ locked →
      Turns inp locked none .waiting jobs (.holding j) jobs
  | prepare {jobs : List WakeJob} (j : WakeJob) :
      Turns inp locked none (.holding j) jobs (.taking j) jobs
  | finish {jobs : List WakeJob} (j : WakeJob) : j.id ∉ locked →
      Turns inp locked none (.working j) jobs (.closing j) jobs
  | put {jobs : List WakeJob} (j : WakeJob) : j.status = .queued →
      Turns inp locked none (.adding j.id j.payload) jobs .ended (jobs ++ [j])
  /-- The commit takes effect; when its acknowledgement is lost, nobody gets the job. -/
  | take {jobs : List WakeJob} {g' : Post} (j : WakeJob) (time : DateTime) :
      g' = .working j ∨ (g' = .ended ∧ inp.fault = some .lost) →
      Turns inp locked none (.taking j) jobs g' (updateRows (·.id == j.id) (·.run time) jobs)
  | settle {jobs : List WakeJob} (j : WakeJob) (f : WakeJob → WakeJob) :
      (∀ row, (f row).id = row.id ∧ (f row).status ≠ .queued) →
      Turns inp locked none (.closing j) jobs (.working j) (updateRows (·.id == j.id) f jobs)

variable {locked : List Uuid} {jobs : List WakeJob}

theorem Turns.same : Turns inp locked none g jobs g jobs := by
  have hrest : Turns inp locked none g jobs g (jobs.filter fun _ => true) :=
    .rest _ (.inl rfl) rfl (.inr fun _ => rfl)
  rwa [List.filter_true] at hrest

/-- What is under way is given up. -/
theorem Turns.drops : Turns inp locked none g jobs g.drops jobs := by
  have hdesk : g.drops.desk = g.desk ∨ g.drops.desk.Idle := by
    cases g <;> first
      | exact .inl rfl
      | exact .inr trivial
  have hreturned : g.drops.returned = g.returned := by
    cases g <;> rfl
  have hrest : Turns inp locked none g jobs g.drops (jobs.filter fun _ => true) :=
    .rest _ hdesk hreturned (.inr fun _ => rfl)
  rwa [List.filter_true] at hrest

theorem Post.next_offQueue {slot : Slot} {s : Stmt} (hs : s.offQueue = true)
    (hpermits : g.permits (.stmt slot s)) (r : app.Reply (.stmt slot s)) :
    g.next (.stmt slot s) r = g ∧ addedBy (.stmt slot s) r = none := by
  cases slot with
  | main =>
    rcases r with e | a
    · exact ⟨rfl, rfl⟩
    · cases s <;> exact ⟨rfl, rfl⟩
  | queue =>
    have hsettled : g.settled = true := by
      cases s <;> first
        | exact hpermits
        | (cases hpermits; rfl)
        | cases hs
    rcases r with e | a
    · exact ⟨Post.fails_of_settled hsettled, by cases s <;> rfl⟩
    · cases s <;> first
        | exact ⟨rfl, rfl⟩
        | cases hs

/-- A row that a statement is allowed to change is held by no other transaction. -/
theorem free_of_enabled {s : Stmt} {r : Executed s} {w : Write} {id : Uuid}
    (hen : enabledOp P (.stmt .queue s) inp others sh st = true)
    (hrun : s.run P inp (lockedJobs others st .queue) (sh.db.after st.queue.writes) = .ok r)
    (hw : w ∈ r.writes) (hkey : ∀ db, .job id ∈ w.exclusive db) :
    id ∉ lockedJobs others st .queue := by
  have hfree : ∀ tx ∈ otherTxs others st .queue, id ∉ tx.heldJobs := by
    intro tx htx hmem
    simp only [enabledOp, Bool.and_eq_true, Store.tx, hrun, List.all_eq_true] at hen
    have hblocks : tx.blocks sh.db w = true := by
      rw [Tx.heldJobs_eq, List.mem_append] at hmem
      unfold Tx.blocks
      rw [Bool.or_eq_true]
      rcases hmem with hmem | hmem
      · exact .inr (List.any_eq_true.mpr ⟨.job id, hkey _, by simpa using hmem⟩)
      · obtain ⟨v, hv, hjob⟩ := List.mem_filterMap.mp hmem
        refine .inl (List.any_eq_true.mpr ⟨v, hv, ?_⟩)
        have hvkey : .job id ∈ v.exclusive sh.db := by
          cases v <;> first
            | (cases hjob; exact List.mem_cons_self)
            | cases hjob
        unfold Write.conflicts
        rw [Bool.or_eq_true, Bool.or_eq_true]
        exact .inl (.inl (List.any_eq_true.mpr ⟨_, hvkey, by simpa using hkey sh.db⟩))
    have hall := hen.2 w hw tx htx
    rw [hblocks] at hall
    cases hall
  intro hmem
  rcases List.mem_append.mp hmem with hmem | hmem
  · obtain ⟨o, ho, hmem⟩ := List.mem_flatMap.mp hmem
    have hother : ∀ tx ∈ [o.main, o.queue], tx ∈ otherTxs others st .queue := fun tx htx =>
      List.mem_append_left _ (List.mem_flatMap.mpr ⟨o, ho, htx⟩)
    rcases List.mem_append.mp hmem with hmem | hmem
    · exact hfree _ (hother _ (by simp)) hmem
    · exact hfree _ (hother _ (by simp)) hmem
  · exact hfree _ (List.mem_append_right _ (List.mem_singleton.mpr rfl)) hmem

/-- A statement of the queue that fails. -/
theorem Post.Holds.fails {status : TxStatus} (h : g.Holds st)
    (hg : g.settled = true ∨ ∃ j, g = .holding j) :
    g.fails.Holds (st.setTx .queue { st.queue with status }) := by
  rcases hg with hg | ⟨j, rfl⟩
  · rw [Post.fails_of_settled hg]
    exact h.status fun _ => hg
  · exact ⟨fun w hw => spares_of_plain _ ((h.main w hw).plain (by simp)), h.mainLocks,
      fun _ hlapsed => absurd rfl (hlapsed j.id), h.locks,
      fun w hw => spares_of_plain _ ((h.writes w hw).plain (by simp))⟩

theorem Turns.fails : Turns inp locked none g jobs g.fails jobs := by
  have hdesk : g.fails.desk = g.desk ∨ g.fails.desk.Idle := by
    cases g <;> first
      | exact .inl rfl
      | exact .inr trivial
  have hreturned : g.fails.returned = g.returned := by
    cases g <;> rfl
  have hrest : Turns inp locked none g jobs g.fails (jobs.filter fun _ => true) :=
    .rest _ hdesk hreturned (.inr fun _ => rfl)
  rwa [List.filter_true] at hrest

/-- A thread that may prepare something sees the committed jobs. -/
theorem Post.Holds.plain (h : g.Holds st) (hg : g.settled = true ∨ ∃ j, g = .holding j)
    (hother : g ≠ .other) : ∀ w ∈ st.queue.writes, w.Plain := by
  have hwrites := h.writes
  have hspares : ∀ w ∈ st.queue.writes, g.Spares w := by
    rcases hg with hg | ⟨j, rfl⟩
    · cases g <;> simp only [settled, Bool.false_eq_true] at hg <;> exact hwrites
    · exact hwrites
  exact fun w hw => (hspares w hw).plain hother

/-- What one statement of the queue does, once it is known what it does when it succeeds. -/
theorem turns_jobStmt {s : Stmt} (h : g.Holds st)
    (hg : g.settled = true ∨ ∃ j, g = .holding j) (hother : g ≠ .other)
    (hfails : ∀ e, addedBy (.stmt .queue s) (.error e) = none)
    (hok : ∀ r : Executed s, st.queue.status = .active →
      s.run P inp (lockedJobs others st .queue) (sh.db.after st.queue.writes) = .ok r →
      ∃ g', g.answered (.stmt .queue s) r.answer = g' ∧ g'.locks = st.queue.locks ++ r.locks ∧
        (∀ ws, (∀ w ∈ ws, w.Plain) → g'.Writes (ws ++ r.writes)) ∧ (∀ w, g.Spares w → g'.Spares w) ∧
        Turns inp locked (addedBy (.stmt .queue s) (.ok r.answer)) g sh.db.jobs g' sh.db.jobs) :
    let r := executeOp P (.stmt .queue s) inp others sh st
    (g.next (.stmt .queue s) r.1).Holds r.2.2 ∧
      Turns inp locked (addedBy (.stmt .queue s) r.1) g sh.db.jobs
        (g.next (.stmt .queue s) r.1) r.2.1.db.jobs := by
  have hdb : (executeOp P (.stmt .queue s) inp others sh st).2.1.db = sh.db :=
    executeOp_db fun slot => by simp
  intro r
  rw [show r.2.1.db = sh.db from hdb]
  rcases executeStmt_cases P .queue inp others sh st s with ⟨e, status, hexec, -⟩ |
    ⟨x, hactive, -, hrun, hexec⟩
  · have hr : r.1 = .error (.database e) := by simp only [r, executeOp, hexec]
    have hstore : r.2.2 = st.setTx .queue { st.queue with status } := by
      simp only [r, executeOp, hexec]
      rfl
    rw [hr, hstore, hfails]
    exact ⟨h.fails hg, Turns.fails⟩
  · have hr : r.1 = .ok x.answer := by simp only [r, executeOp, hexec]
    have hstore : r.2.2 = st.setTx .queue { st.queue with writes := st.queue.writes ++ x.writes
                                                          locks := st.queue.locks ++ x.locks } := by
      simp only [r, executeOp, hexec]
      rfl
    obtain ⟨g', hnext, hlocks, hwrites, hspares, hturns⟩ := hok x hactive hrun
    rw [hr, hstore, show g.next (.stmt .queue s) (.ok x.answer) = g' from hnext]
    refine ⟨⟨fun w hw => hspares w (h.main w hw), h.mainLocks, fun _ _ => hactive, hlocks.symm, ?_⟩,
      hturns⟩
    exact hwrites _ (h.plain hg hother)

/-- Marking a job that the thread works on. -/
theorem turns_mark {s : Stmt} {j : WakeJob} (h : (Post.working j).Holds st)
    (hen : enabledOp P (.stmt .queue s) inp others sh st = true)
    (hcloses : ∀ a, (Post.working j).answered (.stmt .queue s) a = .closing j)
    (hfails : ∀ e, addedBy (.stmt .queue s) (.error e) = none)
    (hok : ∀ a, addedBy (.stmt .queue s) (.ok a) = none)
    (hrun : ∀ r : Executed s, s.run P inp (lockedJobs others st .queue)
      (sh.db.after st.queue.writes) = .ok r → ∃ w, w.Closes j.id ∧ r.writes = [w] ∧ r.locks = []) :
    let r := executeOp P (.stmt .queue s) inp others sh st
    ((Post.working j).next (.stmt .queue s) r.1).Holds r.2.2 ∧
      Turns inp (lockedJobs others st .queue) (addedBy (.stmt .queue s) r.1) (.working j)
        sh.db.jobs ((Post.working j).next (.stmt .queue s) r.1) r.2.1.db.jobs := by
  refine turns_jobStmt h (.inl rfl) (by simp) hfails fun r hactive hr => ?_
  obtain ⟨w, hw, hwrites, hlocks⟩ := hrun r hr
  refine ⟨.closing j, hcloses r.answer, ?_, fun ws hws => ?_, fun v hv => ?_, ?_⟩
  · rw [h.locks, hlocks]
    rfl
  · rw [hwrites]
    exact ⟨ws, w, hws, hw, rfl⟩
  · exact Post.spares_of_plain _ (hv.plain (by simp))
  · rw [hok]
    refine .finish j (free_of_enabled hen hr (by rw [hwrites]; exact List.mem_singleton.mpr rfl)
      fun _ => ?_)
    rcases hw with rfl | ⟨e, rfl⟩ <;> exact List.mem_singleton.mpr rfl

theorem turns_stmt {slot : Slot} {s : Stmt} (h : g.Holds st) (hpermits : g.permits (.stmt slot s))
    (hen : enabledOp P (.stmt slot s) inp others sh st = true) :
    let r := executeOp P (.stmt slot s) inp others sh st
    (g.next (.stmt slot s) r.1).Holds r.2.2 ∧
      Turns inp (lockedJobs others st .queue) (addedBy (.stmt slot s) r.1) g sh.db.jobs
        (g.next (.stmt slot s) r.1) r.2.1.db.jobs := by
  by_cases hs : s.offQueue = true
  · intro r
    obtain ⟨hnext, hadded⟩ := Post.next_offQueue hs hpermits r.1
    have hdb : r.2.1.db = sh.db := executeOp_db fun slot => by simp
    rw [hnext, hadded, hdb]
    exact ⟨h.offQueue hs hpermits, Turns.same⟩
  have hview : g ≠ .other → g.settled = true ∨ (∃ j, g = .holding j) →
      (sh.db.after st.queue.writes).jobs = sh.db.jobs := fun hother hg =>
    untouched_jobs.after (h.plain hg hother) sh.db
  cases s with
  | jobInsert machineId attemptId jobType payload =>
    obtain ⟨rfl, rfl⟩ := hpermits
    refine turns_jobStmt h (.inl rfl) (by simp) (fun _ => rfl) fun r hactive hrun => ?_
    obtain ⟨j, hanswer, hwrites, hlocks, hfresh, hpayload, hstatus⟩ := run_jobInsert hrun
    refine ⟨.adding j.id payload, by rw [hanswer]; rfl, ?_, fun ws hws => ?_, fun w hw => ?_, ?_⟩
    · rw [h.locks, hlocks]
      rfl
    · rw [hwrites]
      exact ⟨ws, _, hws, ⟨j, rfl, rfl, hpayload, hstatus⟩, rfl⟩
    · exact Post.spares_of_plain _ (hw.plain (by simp))
    · rw [hanswer, hfresh]
      exact .add payload
  | jobClaim =>
    obtain ⟨rfl, rfl⟩ := hpermits
    refine turns_jobStmt h (.inl rfl) (by simp) (fun _ => rfl) fun r hactive hrun => ?_
    obtain ⟨hwrites, ⟨hanswer, hlocks, -⟩ | ⟨j, hj, hanswer, hlocks, hstatus, hfree⟩⟩ :=
      run_jobClaim hrun
    · refine ⟨.waiting, by rw [hanswer]; rfl, ?_, fun ws hws => ?_, fun w hw => hw, ?_⟩
      · rw [h.locks, hlocks]
        rfl
      · rw [hwrites, List.append_nil]
        exact fun w hw => Post.spares_of_plain _ (hws w hw)
      · exact Turns.same
    · rw [hview (by simp) (.inl rfl)] at hj
      refine ⟨.holding j, by rw [hanswer]; rfl, ?_, fun ws hws => ?_, fun w hw => ?_, ?_⟩
      · rw [h.locks, hlocks]
        rfl
      · rw [hwrites, List.append_nil]
        exact fun w hw => Post.spares_of_plain _ (hws w hw)
      · exact Post.spares_of_plain _ (hw.plain (by simp))
      · exact .hold j hj hstatus hfree
  | jobSetRunning id time =>
    obtain ⟨rfl, j, rfl, rfl⟩ := hpermits
    refine turns_jobStmt h (.inr ⟨j, rfl⟩) (by simp) (fun _ => rfl) fun r hactive hrun => ?_
    obtain ⟨hwrites, hlocks⟩ := run_jobSetRunning hrun
    refine ⟨.taking j, rfl, ?_, fun ws hws => ?_, fun w hw => ?_, .prepare j⟩
    · rw [h.locks, hlocks]
      rfl
    · rw [hwrites]
      exact ⟨ws, _, hws, ⟨time, rfl⟩, rfl⟩
    · exact Post.spares_of_plain _ (hw.plain (by simp))
  | jobSetDone jobId =>
    obtain ⟨rfl, j, rfl, hid⟩ := hpermits
    exact turns_mark h hen (fun _ => rfl) (fun _ => rfl) (fun _ => rfl) fun r hrun =>
      ⟨_, .inl rfl, run_jobSetDone hid hrun⟩
  | jobSetError jobId error =>
    obtain ⟨rfl, j, rfl, hid⟩ := hpermits
    exact turns_mark h hen (fun _ => rfl) (fun _ => rfl) (fun _ => rfl) fun r hrun =>
      ⟨_, .inr ⟨error, rfl⟩, run_jobSetError hid hrun⟩
  | _ => exact absurd rfl hs

/-- A transaction of the queue that ends without effect. -/
theorem Post.Holds.drops (h : g.Holds st) : g.drops.Holds (st.setTx .queue {}) := by
  have hempty := Post.holds_empty (show g.drops.settled = true by cases g <;> rfl)
  have hspares : ∀ w, g.Spares w → g.drops.Spares w := by
    intro w hw
    by_cases hother : g = .other
    · rw [hother] at hw ⊢
      exact hw
    · exact Post.spares_of_plain _ (hw.plain hother)
  exact ⟨fun w hw => hspares w (h.main w hw), h.mainLocks, hempty.active, hempty.locks,
    hempty.writes⟩

/-- The work session ends. -/
theorem Post.Holds.clearMain (h : g.Holds st) : g.Holds (st.setTx .main {}) :=
  ⟨by simp [Store.setTx], rfl, h.active, h.locks, h.writes⟩

/-- What the work session commits takes no jobs away, unless machines are deleted. -/
theorem Turns.spared {ws : List Write} (hws : ∀ w ∈ ws, g.Spares w) (db : Database) :
    Turns inp locked none g db.jobs g (db.after ws).jobs := by
  by_cases hother : g = .other
  · obtain ⟨q, hq⟩ := jobs_after_of_noJob (fun w hw => (hws w hw).1) db
    rw [hq]
    exact .rest q (.inl rfl) rfl (.inl hother)
  · rw [untouched_jobs.after (fun w hw => (hws w hw).plain hother) db]
    exact Turns.same

theorem turns_commitMain (h : g.Holds st) :
    let r := executeOp P (.commit .main) inp others sh st
    (g.next (.commit .main) r.1).Holds r.2.2 ∧
      Turns inp locked (addedBy (.commit .main) r.1) g sh.db.jobs
        (g.next (.commit .main) r.1) r.2.1.db.jobs := by
  intro r
  have hnext : g.next (.commit .main) r.1 = g ∧ addedBy (.commit .main) r.1 = none := by
    cases r.1 <;> exact ⟨rfl, rfl⟩
  obtain ⟨hdb, hst⟩ := executeCommit_cases .main inp sh st
  rw [hnext.1, hnext.2]
  refine ⟨?_, ?_⟩
  · rcases hst with hst | ⟨-, hst, -⟩
    · rw [show r.2.2 = st.setTx .main {} from hst]
      exact h.clearMain
    · rw [show r.2.2 = st from hst]
      exact h
  · rcases hdb with hdb | ⟨-, hdb⟩
    · rw [show r.2.1 = sh from hdb]
      exact Turns.same
    · rw [show r.2.1 = { sh with db := sh.db.after st.main.writes } from hdb]
      exact Turns.spared h.main sh.db

/-- The commit of the queue session at a settled post. -/
theorem turns_commitSettled (h : g.Holds st) (hg : g.settled = true) :
    let r := executeOp P (.commit .queue) inp others sh st
    (g.next (.commit .queue) r.1).Holds r.2.2 ∧
      Turns inp locked (addedBy (.commit .queue) r.1) g sh.db.jobs
        (g.next (.commit .queue) r.1) r.2.1.db.jobs := by
  intro r
  have hnext : g.next (.commit .queue) r.1 = g ∧ addedBy (.commit .queue) r.1 = none := by
    cases r.1
    · exact ⟨Post.drops_of_settled hg, rfl⟩
    · exact ⟨Post.commits_of_settled hg, rfl⟩
  have hwrites : ∀ w ∈ st.queue.writes, g.Spares w := by
    have hwrites := h.writes
    cases g <;> simp only [Post.settled, Bool.false_eq_true] at hg <;> exact hwrites
  obtain ⟨hdb, hst⟩ := executeCommit_cases .queue inp sh st
  rw [hnext.1, hnext.2]
  refine ⟨?_, ?_⟩
  · rcases hst with hst | ⟨-, hst, -⟩
    · rw [show r.2.2 = st.setTx .queue {} from hst, ← Post.drops_of_settled hg]
      exact h.drops
    · rw [show r.2.2 = st from hst]
      exact h
  · rcases hdb with hdb | ⟨-, hdb⟩
    · rw [show r.2.1 = sh from hdb]
      exact Turns.same
    · rw [show r.2.1 = { sh with db := sh.db.after st.queue.writes } from hdb]
      exact Turns.spared hwrites sh.db

/-- The commit of an active transaction: it takes effect, or it raises without one. -/
theorem executeCommit_active {slot : Slot} (h : (st.tx slot).status = .active) :
    (∃ e, executeCommit slot inp sh st = (.error e, sh, st.setTx slot {})) ∨
      ∃ x, executeCommit slot inp sh st =
          (x, { sh with db := sh.db.after (st.tx slot).writes }, st.setTx slot {}) ∧
        (x = .ok () ∨ inp.fault = some .lost) := by
  rcases hfault : inp.fault with _ | _ | _
  · exact .inr ⟨.ok (), by simp only [executeCommit, h, hfault], .inl rfl⟩
  · exact .inl ⟨.database .operationalError, by simp only [executeCommit, h, hfault]⟩
  · exact .inr ⟨.error (.database .operationalError), by simp only [executeCommit, h, hfault],
      .inr rfl⟩

/-- What a commit makes of the jobs, when something is under way at the post. -/
theorem turns_committed {vs : List Write} {w : Write} (hvs : ∀ v ∈ vs, v.Plain)
    (hw : g.Prepares w) {x : app.Reply (.commit .queue)} (hx : x = .ok () ∨ inp.fault = some .lost)
    (db : Database) :
    Turns inp locked none g db.jobs (g.next (.commit .queue) x) (db.after (vs ++ [w])).jobs := by
  have hjobs : (db.after vs).jobs = db.jobs := untouched_jobs.after hvs db
  rw [Database.after_append, Database.after_cons, Database.after_nil]
  cases g with
  | adding id payload =>
    obtain ⟨j, rfl, rfl, rfl, hstatus⟩ := hw
    have hnext : (Post.adding j.id j.payload).next (.commit .queue) x = .ended := by
      cases x <;> rfl
    rw [hnext, Write.apply, hjobs]
    exact .put j hstatus
  | taking j =>
    obtain ⟨time, rfl⟩ := hw
    rw [Write.apply, hjobs]
    refine .take j time ?_
    rcases hx with rfl | hlost
    · exact .inl rfl
    · cases x
      · exact .inr ⟨rfl, hlost⟩
      · exact .inl rfl
  | closing j =>
    have hnext : (Post.closing j).next (.commit .queue) x = .working j := by
      cases x <;> rfl
    rw [hnext]
    rcases hw with rfl | ⟨e, rfl⟩
    · rw [Write.apply, hjobs]
      exact .settle j _ fun row => ⟨rfl, by simp [WakeJob.finish]⟩
    · rw [Write.apply, hjobs]
      exact .settle j _ fun row => ⟨rfl, by simp [WakeJob.fail]⟩
  | _ => cases hw

/-- The commit of the queue session while something is under way. -/
theorem turns_commitPrepared (h : g.Holds st) (hg : g.settled = false)
    (hlapsed : ∀ id, g ≠ .lapsed id) :
    let r := executeOp P (.commit .queue) inp others sh st
    (g.next (.commit .queue) r.1).Holds r.2.2 ∧
      Turns inp locked (addedBy (.commit .queue) r.1) g sh.db.jobs
        (g.next (.commit .queue) r.1) r.2.1.db.jobs := by
  have hother : g ≠ .other := by
    rintro rfl
    cases hg
  have hholds : ∀ x, (g.next (.commit .queue) x).Holds (st.setTx .queue {}) := by
    intro x
    have hsettled : (g.next (.commit .queue) x).settled = true := by
      cases g <;> cases x <;> rfl
    have hempty := Post.holds_empty hsettled
    exact ⟨fun w hw => Post.spares_of_plain _ ((h.main w hw).plain hother), h.mainLocks,
      hempty.active, hempty.locks, hempty.writes⟩
  intro r
  have hadded : addedBy (.commit .queue) r.1 = none := by
    cases r.1 <;> rfl
  rw [hadded]
  have hactive : (st.tx .queue).status = .active := h.active hg hlapsed
  rcases executeCommit_active hactive with
    ⟨e, hexec⟩ | ⟨x, hexec, hx⟩
  · have hr : r = (.error e, sh, st.setTx .queue {}) := hexec
    rw [hr]
    exact ⟨hholds _, Turns.drops⟩
  · have hr : r = (x, { sh with db := sh.db.after st.queue.writes }, st.setTx .queue {}) := hexec
    rw [hr]
    refine ⟨hholds x, ?_⟩
    have hwrites := h.writes
    cases g with
    | adding id payload =>
      obtain ⟨vs, w, hvs, hw, hws⟩ := hwrites
      dsimp only
      rw [hws]
      exact turns_committed hvs hw hx sh.db
    | taking j =>
      obtain ⟨vs, w, hvs, hw, hws⟩ := hwrites
      dsimp only
      rw [hws]
      exact turns_committed hvs hw hx sh.db
    | closing j =>
      obtain ⟨vs, w, hvs, hw, hws⟩ := hwrites
      dsimp only
      rw [hws]
      exact turns_committed hvs hw hx sh.db
    | holding j =>
      dsimp only
      rw [untouched_jobs.after (fun w hw => (hwrites w hw).plain hother) sh.db]
      have hnext : (Post.holding j).next (.commit .queue) x = (Post.holding j).drops := by
        cases x <;> rfl
      rw [hnext]
      exact Turns.drops
    | lapsed id => exact absurd rfl (hlapsed id)
    | _ => cases hg

/-- The queue session ends without a commit. -/
theorem turns_ends {op : Op} (h : g.Holds st) (hop : op = .rollback .queue ∨ op = .close .queue) :
    let r := executeOp P op inp others sh st
    (g.next op r.1).Holds r.2.2 ∧
      Turns inp locked (addedBy op r.1) g sh.db.jobs (g.next op r.1) r.2.1.db.jobs := by
  rcases hop with rfl | rfl
  · simp only [executeOp]
    split <;> exact ⟨h.drops, Turns.drops⟩
  · exact ⟨h.drops, Turns.drops⟩

/-- **One operation and the queue.** What a thread holds at its post, and how the operation
moves its post and the committed jobs. -/
theorem turns {op : Op} (h : g.Holds st) (hpermits : g.permits op)
    (hen : enabledOp P op inp others sh st = true) :
    let r := executeOp P op inp others sh st
    (g.next op r.1).Holds r.2.2 ∧
      Turns inp (lockedJobs others st .queue) (addedBy op r.1) g sh.db.jobs
        (g.next op r.1) r.2.1.db.jobs := by
  cases op with
  | stmt slot s => exact turns_stmt h hpermits hen
  | commit slot =>
    cases slot with
    | main => exact turns_commitMain h
    | queue =>
      by_cases hg : g.settled = true
      · exact turns_commitSettled h hg
      · exact turns_commitPrepared h (by simpa using hg) hpermits
  | rollback slot =>
    cases slot with
    | main =>
      simp only [executeOp]
      split <;> exact ⟨h.clearMain, Turns.same⟩
    | queue => exact turns_ends h (.inl rfl)
  | close slot =>
    cases slot with
    | main => exact ⟨h.clearMain, Turns.same⟩
    | queue => exact turns_ends h (.inr rfl)
  | checkLoginRate ip =>
    simp only [executeOp]
    split <;> exact ⟨h, Turns.same⟩
  | send strategy mac interface broadcast =>
    simp only [executeOp]
    split <;> exact ⟨h, Turns.same⟩
  | _ => exact ⟨h, Turns.same⟩

/-- A claim that finds nothing: every queued row is held by another thread. -/
theorem Post.Holds.all_held {j : WakeJob} (h : Post.waiting.Holds st)
    (hnone : (executeOp P (.stmt .queue .jobClaim) inp others sh st).1 = .ok none)
    (hj : j ∈ sh.db.jobs) (hqueued : j.status = .queued) : ∃ o ∈ others, j.id ∈ o.heldJobs := by
  have hmain : st.main.heldJobs = [] := by
    rw [Tx.heldJobs_eq, h.mainLocks, List.filterMap_eq_nil_iff.mpr fun w hw => (h.main w hw).1]
    rfl
  rcases executeStmt_cases P .queue inp others sh st .jobClaim with ⟨e, status, hexec, -⟩ |
    ⟨r, -, -, hrun, hexec⟩
  · simp only [executeOp, hexec] at hnone
    cases hnone
  simp only [executeOp, hexec] at hnone
  have hanswer : r.answer = none := Except.ok.inj hnone
  have hview : (sh.db.after st.queue.writes).jobs = sh.db.jobs :=
    untouched_jobs.after (h.plain (.inl rfl) (by simp)) sh.db
  obtain ⟨-, ⟨-, -, hall⟩ | ⟨k, -, hsome, -⟩⟩ := run_jobClaim hrun
  · have hlocked := hall j (hview.symm ▸ hj) hqueued
    simp only [lockedJobs, hmain, List.append_nil] at hlocked
    exact List.mem_flatMap.mp hlocked
  · rw [hanswer] at hsome
    cases hsome

end Step

end WolMonkey
