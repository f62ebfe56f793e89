import WolMonkey.Facts.Recording
import WolMonkey.Wake.Posts

/-!
# The contract of the job queue

The running system refines a board from which jobs are claimed: the committed rows are the
keys on the board, the queued ones wait there, and every thread is a desk. Hence every job is
returned to at most one worker, whatever the interleaving, the failures and the crashes, and
with the payload with which it was enqueued.
-/

namespace WolMonkey

open Programs Program

/-! ## The board of a queue -/

def WakeJob.entry (j : WakeJob) : Uuid × JsonObject := (j.id, j.payload)

/-- The jobs that wait to be claimed. -/
def queuedEntries (jobs : List WakeJob) : List (Uuid × JsonObject) :=
  (jobs.filter (·.status == .queued)).map WakeJob.entry

section Entries
variable {jobs : List WakeJob}

theorem mem_queuedEntries {e : Uuid × JsonObject} :
    e ∈ queuedEntries jobs ↔ ∃ j ∈ jobs, j.status = .queued ∧ j.entry = e := by
  simp [queuedEntries, and_assoc]

theorem queuedEntries_concat {j : WakeJob} (h : j.status = .queued) :
    queuedEntries (jobs ++ [j]) = queuedEntries jobs ++ [j.entry] := by
  simp [queuedEntries, h]

/-- A row that is marked does not wait any more. -/
theorem queuedEntries_updateRows {id : Uuid} {f : WakeJob → WakeJob}
    (hf : ∀ row, (f row).id = row.id ∧ (f row).status ≠ .queued) :
    queuedEntries (updateRows (·.id == id) f jobs) =
      (queuedEntries jobs).filter (·.1 ≠ id) := by
  induction jobs with
  | nil => rfl
  | cons j jobs ih =>
    have hcons : ∀ (x : WakeJob) (rows : List WakeJob), queuedEntries (x :: rows) =
        if x.status == .queued then x.entry :: queuedEntries rows else queuedEntries rows := by
      intro x rows
      by_cases hx : x.status = .queued
      · simp [queuedEntries, hx]
      · simp [queuedEntries, hx]
    have hupdate : updateRows (·.id == id) f (j :: jobs) =
        (if j.id == id then f j else j) :: updateRows (·.id == id) f jobs := rfl
    rw [hupdate, hcons, hcons, ih]
    by_cases hid : j.id = id
    · have hnot : ((f j).status == JobStatus.queued) = false := by simpa using (hf j).2
      simp only [hid, beq_self_eq_true, if_true, hnot, Bool.false_eq_true, if_false]
      by_cases hj : j.status = .queued
      · simp [hj, WakeJob.entry, hid]
      · simp [hj]
    · have hne : (j.id == id) = false := by simpa using hid
      simp only [hne, Bool.false_eq_true, if_false]
      by_cases hj : j.status = .queued
      · simp [hj, WakeJob.entry, hid]
      · simp [hj]

end Entries

/-! ## One operation at the board -/

section Simulation
variable {inp : Input} {locked : List Uuid} {new : Option (Uuid × JsonObject)} {g g' : Post}
  {jobs jobs' : List WakeJob} {b : Claims.Board Nat Uuid JsonObject} {i : Nat}

/-- The table shows the committed jobs. -/
structure ShowsJobs (jobs : List WakeJob) (t : Claims.Table Uuid JsonObject) : Prop where
  keys : t.keys = jobs.map (·.id)
  waiting : t.waiting = queuedEntries jobs

/-- The table after one operation: what was written and taken stays on record. -/
structure Follows (b : Claims.Board Nat Uuid JsonObject) (fresh : Uuid)
    (new : Option (Uuid × JsonObject)) (g g' : Post) (t : Claims.Table Uuid JsonObject) : Prop where
  used : t.used = new.elim b.used fun _ => fresh :: b.used
  added : ∀ e, e ∈ t.added ↔ e ∈ b.added ∨ new = some e
  taken : ∀ e ∈ b.taken, e ∈ t.taken
  returned : ∀ e, g'.returned = some e →
    e ∈ t.taken ∧ (g.returned = some e ∨ e.1 ∉ b.taken.map Prod.fst)

theorem turn_turn (t t' : Claims.Table Uuid JsonObject) (d d' : Claims.Desk Uuid JsonObject) :
    (b.turn t i d).turn t' i d' = b.turn t' i d' := by
  simp [Claims.Board.turn]

/-- Taking rows away. -/
theorem drops_filter (h : ShowsJobs jobs b.toTable) (q : WakeJob → Bool) :
    b.toTable.Drops { b.toTable with keys := (jobs.filter q).map (·.id)
                                     waiting := queuedEntries (jobs.filter q) } where
  keys := by
    rw [h.keys]
    exact List.filter_sublist.map _
  waiting := by
    intro e he
    rw [h.waiting]
    obtain ⟨j, hj, hqueued, rfl⟩ := mem_queuedEntries.mp he
    exact mem_queuedEntries.mpr ⟨j, (List.mem_filter.mp hj).1, hqueued, rfl⟩
  waiting_keys := by
    intro e he
    obtain ⟨j, hj, -, rfl⟩ := mem_queuedEntries.mp he
    exact List.mem_map.mpr ⟨j, hj, rfl⟩
  used := rfl
  added := rfl
  taken := rfl

/-- **One operation is one step at the board.** -/
theorem Turns.simulated (hturns : Turns inp locked new g jobs g' jobs') (hb : b.Sound)
    (hdesk : b.desks i = g.desk) (hjobs : ShowsJobs jobs b.toTable)
    (hreturned : ∀ e, g.returned = some e → e ∈ b.taken)
    (hfresh : ∀ e, new = some e → inp.fresh ∉ b.used) (hfree : ∀ k, k ∉ locked → b.Free i k) :
    ∃ t, (b.turn t i g'.desk).Sound ∧ ShowsJobs jobs' t ∧ Follows b inp.fresh new g g' t := by
  -- what stays on record when neither a row is written nor a job returned
  have hsame : ∀ {t : Claims.Table Uuid JsonObject}, t.used = b.used → t.added = b.added →
      t.taken = b.taken → (∀ e, g'.returned = some e → g.returned = some e) →
      Follows b inp.fresh none g g' t := by
    intro t hused hadded htaken hsame
    refine ⟨hused, fun e => by rw [hadded]; simp, fun e he => by rw [htaken]; exact he, fun e he => ?_⟩
    rw [htaken]
    exact ⟨hreturned e (hsame e he), .inl (hsame e he)⟩
  cases hturns with
  | rest q hd hret hq =>
    have hdrops := drops_filter hjobs q
    have hsound := hb.drop hdrops
    refine ⟨_, hsound.step (.rest i g'.desk b.used ?_ fun k hk => hk), ⟨rfl, rfl⟩,
      hsame rfl rfl rfl fun e he => hret ▸ he⟩
    rcases hd with hd | hd
    · exact .inl (hd.trans hdesk.symm)
    · exact .inr hd
  | add payload =>
    refine ⟨_, hb.step (.add i inp.fresh payload (by rw [hdesk]; trivial) (hfresh _ rfl)),
      ⟨hjobs.keys, hjobs.waiting⟩, ⟨rfl, fun e => ?_, fun e he => he, fun e he => by cases he⟩⟩
    simp only [Claims.Table.add, List.mem_cons, Option.some.injEq]
    rw [or_comm, eq_comm]
  | hold j hj hqueued hlocked =>
    refine ⟨_, hb.step (.hold i j.id j.payload (by rw [hdesk]; trivial) ?_ (hfree _ hlocked)),
      hjobs, hsame rfl rfl rfl fun e he => by cases he⟩
    rw [hjobs.waiting]
    exact mem_queuedEntries.mpr ⟨j, hj, hqueued, rfl⟩
  | prepare j =>
    exact ⟨_, hb.step (.prepare i j.id j.payload hdesk), hjobs, hsame rfl rfl rfl fun e he => by cases he⟩
  | finish j hlocked =>
    refine ⟨_, hb.step (.finish i j.id (by rw [hdesk]; trivial) ?_ (hfree _ hlocked)), hjobs,
      hsame rfl rfl rfl fun e he => he⟩
    exact List.mem_map.mpr ⟨_, hreturned _ rfl, rfl⟩
  | put j hqueued =>
    refine ⟨_, hb.step (.put i j.id j.payload .clear hdesk trivial), ⟨?_, ?_⟩,
      hsame rfl rfl rfl fun e he => by cases he⟩
    · simp only [Claims.Table.put, hjobs.keys, List.map_append, List.map_cons, List.map_nil]
    · rw [queuedEntries_concat hqueued, ← hjobs.waiting]
      rfl
  | take j time hg' =>
    have hkeys : (updateRows (·.id == j.id) (·.run time) jobs).map (·.id) = jobs.map (·.id) :=
      map_updateRows fun _ => rfl
    have hwaiting : queuedEntries (updateRows (·.id == j.id) (·.run time) jobs) =
        (queuedEntries jobs).filter (·.1 ≠ j.id) :=
      queuedEntries_updateRows fun row => ⟨rfl, by simp [WakeJob.run]⟩
    have hshows : ShowsJobs (updateRows (·.id == j.id) (·.run time) jobs)
        (b.toTable.remove j.id) := by
      refine ⟨hjobs.keys.trans hkeys.symm, ?_⟩
      rw [hwaiting, ← hjobs.waiting]
      rfl
    rcases hg' with rfl | ⟨rfl, -⟩
    · refine ⟨_, hb.step (.take i j.id j.payload .clear hdesk trivial),
        ⟨hshows.keys, hshows.waiting⟩, ⟨rfl, fun e => ?_, fun e he => List.mem_cons_of_mem _ he,
          fun e he => ?_⟩⟩
      · simp [Claims.Table.take, Claims.Table.remove]
      · cases he
        have hsound := hb.desks i
        rw [hdesk] at hsound
        exact ⟨List.mem_cons_self, .inr hsound.2⟩
    · exact ⟨_, hb.step (.lose i j.id j.payload .clear hdesk trivial), hshows,
        hsame rfl rfl rfl fun e he => by cases he⟩
  | settle j f hf =>
    have hkeys : (updateRows (·.id == j.id) f jobs).map (·.id) = jobs.map (·.id) :=
      map_updateRows fun row => (hf row).1
    refine ⟨_, hb.step (.settle i j.id .clear hdesk trivial), ⟨hjobs.keys.trans hkeys.symm, ?_⟩,
      hsame rfl rfl rfl fun e he => he⟩
    rw [queuedEntries_updateRows hf, ← hjobs.waiting]
    rfl

end Simulation

/-! ## Threads at their posts -/

section Worlds
variable {P : Platform}

/-- How far a thread is with the job queue. -/
def queuePost (t : Thread (machine P) Label Result) : Post := t.ghost queueing Label.post

/-- The job that `claim_next` has returned to a thread. -/
def returnedJob (t : Thread (machine P) Label Result) : Option (Uuid × JsonObject) :=
  (queuePost t).returned

def queueDesk (t : Thread (machine P) Label Result) : Claims.Desk Uuid JsonObject :=
  if t.crashed then .broken else (queuePost t).desk

/-- Every thread as a desk at the board. -/
def desksOf (w : System.World P) (i : Nat) : Claims.Desk Uuid JsonObject :=
  (w.threads[i]?).elim .clear queueDesk

/-- The entry was written into the queue by one of the threads. -/
def Enqueued (w : System.World P) (e : Uuid × JsonObject) : Prop :=
  ∃ t ∈ w.threads, ∃ ev ∈ t.log, addedBy ev.op ev.reply = some e

/-- A thread holds what its post says, and nothing after a crash. -/
structure AtPost (t : Thread (machine P) Label Result) : Prop where
  obeys : t.Obeys queueing Label.post (fun _ _ _ => True) fun _ _ _ => True
  live : t.crashed = false → (queuePost t).Holds t.store
  dead : t.crashed = true → t.store = {} ∧ t.program = .stuck

/-- A thread that performs an operation has not crashed. -/
theorem AtPost.running {t : Thread (machine P) Label Result} (h : AtPost t) {op : Op}
    {next : app.Reply op → Code Result} (hp : t.program = .call op next) : t.crashed = false := by
  by_contra hcrashed
  rw [(h.dead (by simpa using hcrashed)).2] at hp
  cases hp

/-- The board shows the committed jobs, the threads at their desks, and what was written and
returned so far; `initial` was written before. -/
structure Shows (initial : List (Uuid × JsonObject)) (w : System.World P)
    (b : Claims.Board Nat Uuid JsonObject) : Prop where
  jobs : ShowsJobs w.shared.db.jobs b.toTable
  used : b.used = w.shared.issued
  desks : b.desks = desksOf w
  added : ∀ e, e ∈ b.added ↔ e ∈ initial ∨ Enqueued w e
  taken : ∀ t ∈ w.threads, ∀ e, returnedJob t = some e → e ∈ b.taken

/-- The invariant of the queue. -/
structure QueueWorld (initial : List (Uuid × JsonObject)) (w : System.World P) : Prop where
  posts : ∀ t ∈ w.threads, AtPost t
  board : ∃ b, Shows initial w b ∧ b.Sound
  once : ∀ (i j : Nat) (t u : Thread (machine P) Label Result) (e f : Uuid × JsonObject), i ≠ j →
    w.threads[i]? = some t → w.threads[j]? = some u → returnedJob t = some e →
      returnedJob u = some f → e.1 ≠ f.1

variable {initial : List (Uuid × JsonObject)} {w w' : System.World P}
  {a : Action (machine P) Label}

/-- The rows that other desks deal with are held by other transactions. -/
theorem free_of_not_locked {b : Claims.Board Nat Uuid JsonObject} (h : QueueWorld initial w)
    (hshows : Shows initial w b) {tid : Nat} {st : Store} {k : Uuid}
    (hk : k ∉ lockedJobs (w.others tid) st .queue) : b.Free tid k := by
  intro j hj habout
  rw [hshows.desks] at habout
  unfold desksOf at habout
  cases hu : w.threads[j]? with
  | none =>
    rw [hu] at habout
    exact habout
  | some u =>
    rw [hu] at habout
    simp only [Option.elim_some, queueDesk] at habout
    split at habout
    · exact habout
    · rename_i hcrashed
      have hheld := ((h.posts u (List.mem_of_getElem? hu)).live (by simpa using hcrashed)).mem_heldJobs
        habout
      refine hk (List.mem_append_left _ (List.mem_flatMap.mpr ⟨u.store, ?_, hheld⟩))
      exact World.mem_others.mpr ⟨j, u, hj, hu, rfl⟩

theorem desksOf_set {tid : Nat} {t t' : Thread (machine P) Label Result} {sh : Shared} {time : Nat}
    (ht : w.threads[tid]? = some t) :
    desksOf (P := P) { shared := sh, threads := w.threads.set tid t', clock := time } =
      Function.update (desksOf w) tid (queueDesk t') := by
  obtain ⟨hlt, -⟩ := List.getElem?_eq_some_iff.mp ht
  funext i
  unfold desksOf
  rw [List.getElem?_set]
  by_cases hi : tid = i
  · subst hi
    rw [if_pos rfl, if_pos hlt, Function.update_self]
    rfl
  · rw [if_neg hi, Function.update_of_ne (Ne.symm hi)]

theorem inserts_of_addedBy {slot : Slot} {s : Stmt} {r : app.Reply (.stmt slot s)}
    {e : Uuid × JsonObject} (h : addedBy (.stmt slot s) r = some e) : s.inserts = true := by
  cases s <;> first
    | rfl
    | (cases slot <;> cases r <;> cases h)

/-- Identifiers that are drawn stay drawn; an insertion draws one that is new. -/
theorem issued_grows {op : Op} {inp : Input} {others : List Store} {sh : Shared} {st : Store}
    (hen : enabledOp P op inp others sh st = true) :
    let r := executeOp P op inp others sh st
    (∀ k ∈ sh.issued, k ∈ r.2.1.issued) ∧
      (∀ e, addedBy op r.1 = some e →
        inp.fresh ∉ sh.issued ∧ r.2.1.issued = inp.fresh :: sh.issued) := by
  cases op with
  | stmt slot s =>
    simp only [executeOp]
    refine ⟨fun k hk => ?_, fun e he => ?_⟩
    · split
      · exact List.mem_cons_of_mem _ hk
      · exact hk
    · have hinserts : s.inserts = true := inserts_of_addedBy he
      rw [if_pos hinserts]
      simp only [enabledOp, hinserts, Bool.not_true, Bool.false_or, Bool.and_eq_true,
        Bool.not_eq_true', List.contains_eq_mem, decide_eq_false_iff_not] at hen
      exact ⟨hen.1, rfl⟩
  | commit slot =>
    obtain ⟨hdb, -⟩ := executeCommit_cases slot inp sh st
    refine ⟨fun k hk => ?_, fun e he => ?_⟩
    · rcases hdb with hdb | ⟨-, hdb⟩
      · simp only [executeOp, hdb]
        exact hk
      · simp only [executeOp, hdb]
        exact hk
    · cases he
  | rollback slot =>
    simp only [executeOp]
    split <;> exact ⟨fun k hk => hk, fun e he => by cases he⟩
  | checkLoginRate ip =>
    simp only [executeOp]
    split <;> exact ⟨fun k hk => hk, fun e he => by cases he⟩
  | send strategy mac interface broadcast =>
    simp only [executeOp]
    split <;> exact ⟨fun k hk => hk, fun e he => by cases he⟩
  | _ => exact ⟨fun k hk => hk, fun e he => by cases he⟩

/-! ### The actions -/

theorem Label.post_idle (label : Label) :
    label.post.settled = true ∧ label.post.desk = .clear ∧ label.post.returned = none := by
  cases label with
  | worker fuel => exact ⟨rfl, rfl, rfl⟩
  | request req =>
    simp only [Label.post]
    split <;> exact ⟨rfl, rfl, rfl⟩

theorem QueueWorld.spawn (h : QueueWorld initial w) (label : Label) :
    QueueWorld initial
      { w with threads := w.threads ++ [World.newThread (start P) label] } := by
  obtain ⟨hsettled, hdesk, hnone⟩ := label.post_idle
  have hlast : ∀ (i : Nat) (t : Thread (machine P) Label Result) (e : Uuid × JsonObject),
      (w.threads ++ [World.newThread (start P) label])[i]? = some t → returnedJob t = some e →
        w.threads[i]? = some t := by
    intro i t e ht he
    rw [List.getElem?_append] at ht
    split at ht
    · exact ht
    · obtain rfl := List.mem_singleton.mp (List.mem_of_getElem? ht)
      have hreturned : returnedJob (P := P) (World.newThread (start P) label) = none := hnone
      rw [hreturned] at he
      cases he
  obtain ⟨b, hshows, hsound⟩ := h.board
  refine ⟨fun t ht => ?_, ⟨b, ⟨hshows.jobs, hshows.used, ?_, fun e => ?_, fun t ht e he => ?_⟩,
    hsound⟩, fun i j t u e f hij ht hu he hf => ?_⟩
  · rcases List.mem_append.mp ht with ht | ht
    · exact h.posts t ht
    · cases List.mem_singleton.mp ht
      exact ⟨queue_start label, fun _ => Post.holds_empty hsettled, fun hcrashed => by cases hcrashed⟩
  · rw [hshows.desks]
    funext i
    unfold desksOf
    rw [List.getElem?_append]
    split
    · rfl
    · rename_i hi
      rw [List.getElem?_eq_none (Nat.not_lt.mp hi)]
      cases hget : [World.newThread (start P) label][i - w.threads.length]? with
      | none => rfl
      | some t =>
        obtain rfl := List.mem_singleton.mp (List.mem_of_getElem? hget)
        exact hdesk.symm
  · rw [hshows.added]
    refine or_congr_right ⟨?_, ?_⟩
    · rintro ⟨t, ht, hev⟩
      exact ⟨t, List.mem_append_left _ ht, hev⟩
    · rintro ⟨t, ht, ev, hev, he⟩
      rcases List.mem_append.mp ht with ht | ht
      · exact ⟨t, ht, ev, hev, he⟩
      · rw [List.mem_singleton.mp ht] at hev
        cases hev
  · obtain ⟨i, hi⟩ := List.mem_iff_getElem?.mp ht
    exact hshows.taken t (List.mem_of_getElem? (hlast i t e hi he)) e he
  · exact h.once i j t u e f hij (hlast i t e ht he) (hlast j u f hu hf) he hf

theorem mem_set_self {tid : Nat} {t : Thread (machine P) Label Result}
    (ht : w.threads[tid]? = some t) (t' : Thread (machine P) Label Result) :
    t' ∈ w.threads.set tid t' :=
  List.mem_set (List.getElem?_eq_some_iff.mp ht).1 t'

/-- A thread is replaced, or it is still there. -/
theorem mem_set_of_mem {tid : Nat} {t t' u : Thread (machine P) Label Result}
    (ht : w.threads[tid]? = some t) (hu : u ∈ w.threads) : u = t ∨ u ∈ w.threads.set tid t' := by
  obtain ⟨i, hi⟩ := List.mem_iff_getElem?.mp hu
  by_cases heq : tid = i
  · subst heq
    exact .inl (Option.some.inj (ht.symm.trans hi)).symm
  · exact .inr (List.mem_iff_getElem?.mpr ⟨i, by rw [List.getElem?_set_ne heq]; exact hi⟩)

/-- What is in the queue when one thread has gone on. -/
theorem enqueued_set {tid : Nat} {t t' : Thread (machine P) Label Result} {sh : Shared}
    {time : Nat} {new : Option (Uuid × JsonObject)} (ht : w.threads[tid]? = some t)
    (hlog : ∀ e, (∃ ev ∈ t'.log, addedBy ev.op ev.reply = some e) ↔
      (∃ ev ∈ t.log, addedBy ev.op ev.reply = some e) ∨ new = some e) (e : Uuid × JsonObject) :
    Enqueued (P := P) { shared := sh, threads := w.threads.set tid t', clock := time } e ↔
      Enqueued w e ∨ new = some e := by
  constructor
  · rintro ⟨u, hu, hev⟩
    rcases List.mem_or_eq_of_mem_set hu with hu | rfl
    · exact .inl ⟨u, hu, hev⟩
    · exact ((hlog e).mp hev).imp_left fun hev => ⟨t, List.mem_of_getElem? ht, hev⟩
  · rintro (⟨u, hu, hev⟩ | hnew)
    · have hu' : u = t ∨ u ∈ w.threads.set tid t' := mem_set_of_mem ht hu
      rcases hu' with rfl | hu
      · exact ⟨t', mem_set_self ht t', (hlog e).mpr (.inl hev)⟩
      · exact ⟨u, hu, hev⟩
    · exact ⟨t', mem_set_self ht t', (hlog e).mpr (.inr hnew)⟩

/-- Nobody returns a job that another thread has returned before. -/
theorem once_set {tid : Nat} {t' : Thread (machine P) Label Result}
    (h : QueueWorld initial w)
    (hnew : ∀ e, returnedJob t' = some e → ∀ (j : Nat) (u : Thread (machine P) Label Result)
      (f : Uuid × JsonObject), j ≠ tid → w.threads[j]? = some u → returnedJob u = some f →
        e.1 ≠ f.1) :
    ∀ (i j : Nat) (t u : Thread (machine P) Label Result) (e f : Uuid × JsonObject), i ≠ j →
      (w.threads.set tid t')[i]? = some t → (w.threads.set tid t')[j]? = some u →
        returnedJob t = some e → returnedJob u = some f → e.1 ≠ f.1 := by
  intro i j t u e f hij ht hu he hf
  rw [List.getElem?_set] at ht hu
  by_cases hi : tid = i
  · subst hi
    rw [if_pos rfl] at ht
    rw [if_neg hij] at hu
    split at ht
    · cases ht
      exact hnew e he j u f (Ne.symm hij) hu hf
    · cases ht
  · rw [if_neg hi] at ht
    by_cases hj : tid = j
    · subst hj
      rw [if_pos rfl] at hu
      split at hu
      · cases hu
        exact (hnew f hf i t e hij ht he).symm
      · cases hu
    · rw [if_neg hj] at hu
      exact h.once i j t u e f hij ht hu he hf

theorem QueueWorld.crash (h : QueueWorld initial w) {tid : Nat}
    {t : Thread (machine P) Label Result} (ht : w.threads[tid]? = some t) :
    QueueWorld initial { w with threads := w.threads.set tid t.killed } := by
  have hmem := List.mem_of_getElem? ht
  obtain ⟨b, hshows, hsound⟩ := h.board
  have hbroken : (b.turn b.toTable tid .broken).Sound :=
    hsound.step (.rest tid .broken b.used (.inr trivial) fun k hk => hk)
  have hdesks : (b.turn b.toTable tid .broken).desks =
      Function.update (desksOf w) tid (queueDesk t.killed) := by
    simp only [Claims.Board.turn, hshows.desks]
    rfl
  refine ⟨fun u hu => ?_, ⟨b.turn b.toTable tid .broken, ⟨hshows.jobs, hshows.used,
    hdesks.trans (desksOf_set ht).symm, fun e => ?_, fun u hu e he => ?_⟩, hbroken⟩,
    once_set h fun e he j u f hj hu hf => h.once tid j t u e f (Ne.symm hj) ht hu he hf⟩
  · rcases List.mem_or_eq_of_mem_set hu with hu | rfl
    · exact h.posts u hu
    · exact ⟨Program.obeys_stuck.mpr trivial, (by rintro ⟨⟩), fun _ => ⟨rfl, rfl⟩⟩
  · refine (hshows.added e).trans (or_congr_right ?_)
    have hsame : Enqueued (P := P) { w with threads := w.threads.set tid t.killed } e ↔
        Enqueued w e ∨ none = some e := enqueued_set ht (fun e => by simp [Thread.killed]) e
    exact (hsame.trans (by simp)).symm
  · rcases List.mem_or_eq_of_mem_set hu with hu | rfl
    · exact hshows.taken u hu e he
    · exact hshows.taken t hmem e he

theorem QueueWorld.step (h : QueueWorld initial w) {tid : Nat}
    {t : Thread (machine P) Label Result} {op : Op} {next : app.Reply op → Code Result}
    {inp : Input} (ht : w.threads[tid]? = some t) (hp : t.program = .call op next)
    (hen : enabledOp P op inp (w.others tid) w.shared t.store = true) :
    QueueWorld initial (w.stepped tid t op next inp) := by
  have hmem := List.mem_of_getElem? ht
  have hpost := h.posts t hmem
  have hlive := hpost.running hp
  obtain ⟨b, hshows, hsound⟩ := h.board
  have hpermits : (queuePost t).permits op := hpost.obeys.permits hp
  obtain ⟨hholds, hturns⟩ := turns (hpost.live hlive) hpermits hen
  obtain ⟨hgrows, hdraws⟩ := issued_grows hen
  -- the board after the step
  have hdesk : b.desks tid = (queuePost t).desk := by
    rw [hshows.desks]
    simp only [desksOf, ht, Option.elim_some, queueDesk, hlive, Bool.false_eq_true, if_false]
  obtain ⟨table, hsound', hjobs, hfollows⟩ := hturns.simulated hsound hdesk hshows.jobs
    (hshows.taken t hmem) (fun e he => by rw [hshows.used]; exact (hdraws e he).1)
    fun k hk => free_of_not_locked h hshows hk
  let r := executeOp P op inp (w.others tid) w.shared t.store
  let t' := t.performed op next r w.clock
  have hgrown : ∀ k ∈ table.used, k ∈ r.2.1.issued := by
    rw [hfollows.used, hshows.used]
    cases hadded : addedBy op r.1 with
    | none => exact hgrows
    | some e =>
      rw [(hdraws e hadded).2]
      exact fun k hk => hk
  have hsound'' := hsound'.step (.rest tid (queuePost t').desk r.2.1.issued
    (.inl (by simp only [Claims.Board.turn, Function.update_self]; rfl)) hgrown)
  rw [turn_turn] at hsound''
  have hdesks : (b.turn { table with used := r.2.1.issued } tid (queuePost t').desk).desks =
      Function.update (desksOf w) tid (queueDesk t') := by
    have hsame : queueDesk t' = (queuePost t').desk := by
      simp only [queueDesk, t', Thread.performed, hlive, Bool.false_eq_true, if_false]
    rw [hsame]
    simp only [Claims.Board.turn, hshows.desks]
  refine ⟨fun u hu => ?_, ⟨_, ⟨⟨hjobs.keys, hjobs.waiting⟩, rfl, hdesks.trans (desksOf_set ht).symm,
    fun e => ?_, fun u hu e he => ?_⟩, hsound''⟩, once_set h fun e he j u f hj hu hf => ?_⟩
  · rcases List.mem_or_eq_of_mem_set hu with hu | rfl
    · exact h.posts u hu
    · have hobeys := hpost.obeys
      rw [Thread.Obeys, hp] at hobeys
      exact ⟨Program.Obeys.next hobeys trivial, fun _ => hholds, fun hcrashed =>
        absurd (hlive.symm.trans hcrashed) (by simp)⟩
  · refine (hfollows.added e).trans ?_
    rw [hshows.added, or_assoc]
    refine or_congr_right (enqueued_set ht (fun e => ?_) e).symm
    simp only [Thread.performed, List.mem_cons, exists_eq_or_imp]
    exact or_comm
  · rcases List.mem_or_eq_of_mem_set hu with hu | rfl
    · exact hfollows.taken e (hshows.taken u hu e he)
    · exact (hfollows.returned e he).1
  · rcases (hfollows.returned e he).2 with hbefore | hnew
    · exact h.once tid j t u e f (Ne.symm hj) ht hu hbefore hf
    · rintro heq
      exact hnew (heq ▸ List.mem_map_of_mem (hshows.taken u (List.mem_of_getElem? hu) f hf))

/-- Every action keeps the invariant of the queue. -/
theorem QueueWorld.act (h : QueueWorld initial w) (hact : w.act (start P) a = some w') :
    QueueWorld initial w' := by
  rcases World.act_cases (start P) hact with ⟨label, rfl, rfl⟩ | ⟨tid, t, rfl, ht, -, rfl⟩ |
    ⟨tid, inp, t, op, next, rfl, ht, hp, hen, rfl⟩
  · exact h.spawn label
  · exact h.crash ht
  · exact h.step ht hp hen

/-! ## The contract -/

/-- The rows are identified by what was drawn before. -/
structure QueueStart (db : Database) (issued : List Uuid) : Prop where
  ids : (db.jobs.map (·.id)).Nodup
  drawn : ∀ j ∈ db.jobs, j.id ∈ issued

theorem queueWorld_init {db : Database} {issued : List Uuid} (h : QueueStart db issued) :
    QueueWorld (db.jobs.map WakeJob.entry) (System.World.init P db issued) := by
  let table : Claims.Table Uuid JsonObject :=
    { keys := db.jobs.map (·.id), waiting := queuedEntries db.jobs, used := issued
      added := db.jobs.map WakeJob.entry, taken := [] }
  have hnone : ∀ e ∈ table.taken, False := fun e he => List.not_mem_nil he
  have htable : table.Sound := by
    refine ⟨h.ids, fun k hk => ?_, fun e he => ?_, ?_, fun e he => ?_, fun e he => ?_,
      fun e he => (hnone e he).elim, fun e he => (hnone e he).elim, List.nodup_nil⟩
    · obtain ⟨j, hj, rfl⟩ := List.mem_map.mp hk
      exact h.drawn j hj
    · obtain ⟨j, hj, rfl⟩ := List.mem_map.mp he
      exact h.drawn j hj
    · show ((db.jobs.map WakeJob.entry).map Prod.fst).Nodup
      rw [List.map_map]
      exact h.ids
    · obtain ⟨j, hj, -, rfl⟩ := mem_queuedEntries.mp he
      exact List.mem_map.mpr ⟨j, hj, rfl⟩
    · obtain ⟨j, hj, -, rfl⟩ := mem_queuedEntries.mp he
      exact List.mem_map.mpr ⟨j, hj, rfl⟩
  refine ⟨fun t ht => (List.not_mem_nil ht).elim, ⟨{ table with desks := fun _ => .clear },
    ⟨⟨rfl, rfl⟩, rfl, rfl, fun e => ?_, fun t ht => (List.not_mem_nil ht).elim⟩, htable,
      fun i => trivial, fun i j key _ habout => habout.elim⟩, fun i j t u e f _ ht => ?_⟩
  · refine ⟨.inl, fun he => he.resolve_right ?_⟩
    rintro ⟨t, ht, -⟩
    exact List.not_mem_nil ht
  · exact (List.not_mem_nil (List.mem_of_getElem? ht)).elim

theorem queueWorld_of_reachable {db : Database} {issued : List Uuid}
    {allowed : System.World P → Action (machine P) Label → Prop} (h : QueueStart db issued)
    (hrun : Reachable (start P) allowed (System.World.init P db issued) w) :
    QueueWorld (db.jobs.map WakeJob.entry) w :=
  hrun.invariant (queueWorld_init h) fun _ _ _ _ hv _ hact => hv.act hact

/-- What a thread has got was there before, or was written by one of the threads, and nothing
else was ever written under its identifier. -/
theorem QueueWorld.returned_from (h : QueueWorld initial w)
    {t : Thread (machine P) Label Result} (ht : t ∈ w.threads) {id : Uuid} {payload : JsonObject}
    (hreturned : returnedJob t = some (id, payload)) :
    ((id, payload) ∈ initial ∨ Enqueued w (id, payload)) ∧
      ∀ payload', Enqueued w (id, payload') → payload' = payload := by
  obtain ⟨b, hshows, hsound⟩ := h.board
  have htaken := hshows.taken t ht _ hreturned
  refine ⟨(hshows.added _).mp (hsound.table.taken_added _ htaken), fun payload' henqueued => ?_⟩
  exact hsound.table.taken_value htaken ((hshows.added _).mpr (.inr henqueued))

/-- **No job is done twice.** However requests and workers are interleaved, and whatever
fails or crashes, `claim_next` returns a job to at most one worker, with the payload with
which it was enqueued. -/
theorem jobs_returned_once (P : Platform) (db : Database) (issued : List Uuid)
    (hstart : QueueStart db issued) (w : System.World P)
    (hrun : Reachable (start P) (fun _ _ => True) (System.World.init P db issued) w) :
    (∀ (i j : Nat) (t u : Thread (machine P) Label Result) (e f : Uuid × JsonObject), i ≠ j →
      w.threads[i]? = some t → w.threads[j]? = some u → returnedJob t = some e →
        returnedJob u = some f → e.1 ≠ f.1) ∧
    ∀ t ∈ w.threads, ∀ id payload, returnedJob t = some (id, payload) →
      ((∃ j ∈ db.jobs, j.id = id ∧ j.payload = payload) ∨ Enqueued w (id, payload)) ∧
        ∀ payload', Enqueued w (id, payload') → payload' = payload := by
  have h := queueWorld_of_reachable hstart hrun
  refine ⟨h.once, fun t ht id payload hreturned => ?_⟩
  obtain ⟨hfrom, hvalue⟩ := h.returned_from ht hreturned
  refine ⟨hfrom.imp_left fun hinitial => ?_, hvalue⟩
  obtain ⟨j, hj, hentry⟩ := List.mem_map.mp hinitial
  obtain ⟨hid, hpayload⟩ := Prod.mk.inj hentry
  exact ⟨j, hj, hid, hpayload⟩

/-- A queued job of the sample machine. -/
def WakeJob.sample : WakeJob where
  id := Uuid.ofNat 8
  machineId := Uuid.ofNat 3
  attemptId := Uuid.ofNat 7
  jobType := "wake"
  status := .queued
  payload := [("machine_id", .str (Uuid.ofNat 3).text), ("attempt_id", .str (Uuid.ofNat 7).text)]
  claimedAt := none
  createdAt := sampleTime

def Database.queued : Database := { Database.installed with jobs := [WakeJob.sample] }

theorem queueStart_queued : QueueStart Database.queued [Uuid.ofNat 8] := by
  refine ⟨by decide, fun j hj => ?_⟩
  rw [List.mem_singleton.mp hj]
  exact List.mem_singleton_self _

/-- Two workers; the first claims the job, and the second looks for one too. -/
def twoWorkers : List (Action (machine Platform.sample) Label) :=
  [.spawn (.worker 1), .spawn (.worker 1)] ++ List.replicate 5 (.step 0 {}) ++ [.step 1 {}]

theorem mem_twoWorkers {a : Action (machine Platform.sample) Label} (h : a ∈ twoWorkers) :
    a = .spawn (.worker 1) ∨ a = .step 0 {} ∨ a = .step 1 {} := by
  rcases List.mem_append.mp h with h | h
  · rcases List.mem_append.mp h with h | h
    · rcases List.mem_pair.mp h with rfl | rfl <;> exact .inl rfl
    · exact .inr (.inl (List.eq_of_mem_replicate h))
  · exact .inr (.inr (List.mem_singleton.mp h))

theorem jobs_returned_once_sample :
    ∃ w, Reachable (start Platform.sample) (fun _ _ => True)
        (System.World.init Platform.sample Database.queued [Uuid.ofNat 8]) w ∧
      w.threads.map returnedJob = [some WakeJob.sample.entry, none] ∧
      ∀ t ∈ w.threads, ∀ id payload, returnedJob t = some (id, payload) →
        (∃ j ∈ Database.queued.jobs, j.id = id ∧ j.payload = payload) ∨
          Enqueued w (id, payload) := by
  have hacts : (((System.World.init Platform.sample Database.queued [Uuid.ofNat 8]).acts
      (start Platform.sample) twoWorkers).map fun w => w.threads.map returnedJob) =
        some [some WakeJob.sample.entry, none] := by
    decide +kernel
  obtain ⟨w, hw, hreturned⟩ := Option.map_eq_some_iff.mp hacts
  have hrun : Reachable (start Platform.sample) (fun _ _ => True)
      (System.World.init Platform.sample Database.queued [Uuid.ofNat 8]) w :=
    Reachable.of_acts hw fun _ _ _ => trivial
  exact ⟨w, hrun, hreturned, fun t ht id payload h =>
    ((jobs_returned_once Platform.sample Database.queued [Uuid.ofNat 8] queueStart_queued w hrun).2
      t ht id payload h).1⟩

/-! ### Nothing is lost -/

/-- The job is still there, and what is not queued is not queued again. -/
def KeepsJob (j : WakeJob) (db : Database) : Prop :=
  ∃ j' ∈ db.jobs, j'.id = j.id ∧ j'.machineId = j.machineId ∧ j'.attemptId = j.attemptId ∧
    j'.jobType = j.jobType ∧ (j'.status = .queued → j.status = .queued ∧ j'.payload = j.payload)

theorem keepsJob_apply {j : WakeJob} {v : Write} {db : Database} (hv : v.effect ≠ .dropMachine)
    (h : KeepsJob j db) : KeepsJob j (v.apply db) := by
  obtain ⟨j', hj', hid, hmachine, hattempt, htype, hqueued⟩ := h
  have hupdate : ∀ (id : Uuid) (f : WakeJob → WakeJob), (∀ row, (f row).id = row.id ∧
      (f row).machineId = row.machineId ∧ (f row).attemptId = row.attemptId ∧
        (f row).jobType = row.jobType ∧ (f row).status ≠ .queued) →
      ∃ k ∈ updateRows (·.id == id) f db.jobs, k.id = j.id ∧ k.machineId = j.machineId ∧
        k.attemptId = j.attemptId ∧ k.jobType = j.jobType ∧
          (k.status = .queued → j.status = .queued ∧ k.payload = j.payload) := by
    intro id f hf
    refine ⟨_, mem_updateRows.mpr ⟨j', hj', rfl⟩, ?_⟩
    split
    · obtain ⟨h₁, h₂, h₃, h₄, h₅⟩ := hf j'
      exact ⟨h₁.trans hid, h₂.trans hmachine, h₃.trans hattempt, h₄.trans htype,
        fun hstatus => absurd hstatus h₅⟩
    · exact ⟨hid, hmachine, hattempt, htype, hqueued⟩
  have hsame : KeepsJob j db := ⟨j', hj', hid, hmachine, hattempt, htype, hqueued⟩
  cases v with
  | deleteMachine id => exact absurd rfl hv
  | insertJob k => exact ⟨j', List.mem_append_left _ hj', hid, hmachine, hattempt, htype, hqueued⟩
  | setJobRunning id time =>
    exact hupdate id (·.run time) fun row => ⟨rfl, rfl, rfl, rfl, by simp [WakeJob.run]⟩
  | setJobDone id =>
    exact hupdate id (·.finish) fun row => ⟨rfl, rfl, rfl, rfl, by simp [WakeJob.finish]⟩
  | setJobError id e =>
    exact hupdate id (·.fail e) fun row => ⟨rfl, rfl, rfl, rfl, by simp [WakeJob.fail]⟩
  | _ => exact hsame

/-- Only the deletion of machines is ruled out. -/
def DeletesNothing (P : Platform) (_ : System.World P) (a : Action (machine P) Label) : Prop :=
  ∀ label, a = .spawn label → label.deletes = false

theorem makesOn_of_not_deletes {label : Label} (h : label.deletes = false) :
    (start P label).Uses (MakesOn P fun v => v.effect ≠ .dropMachine) := by
  have heffects : .dropMachine ∉ label.effects := by
    cases label with
    | worker fuel => exact (by decide : Effect.dropMachine ∉ workerEffects)
    | request req =>
      simp only [Label.deletes] at h
      simp only [Label.effects]
      cases hroute : req.route with
      | deleteMachine machineId =>
        rw [hroute] at h
        cases h
      | _ => simp [Route.effects]
  refine (start_within label).mono fun op hop => makesOn_of_within (fun v hv => ?_) hop
  rintro hdrop
  rw [hdrop] at hv
  exact heffects hv

/-- **No job is lost.** While no machine is deleted, a job row stays, with its identifier of
its own; what is not queued is never queued again, and what is still queued has kept its
payload. -/
theorem jobs_kept (P : Platform) (db : Database) (issued : List Uuid)
    (hstart : QueueStart db issued) (v w : System.World P)
    (hbefore : Reachable (start P) (DeletesNothing P) (System.World.init P db issued) v)
    (hafter : Reachable (start P) (DeletesNothing P) v w) :
    ∀ j ∈ v.shared.db.jobs, KeepsJob j w.shared.db ∧
      ∀ k ∈ w.shared.db.jobs, ∀ k' ∈ w.shared.db.jobs, k.id = j.id → k'.id = j.id → k = k' := by
  intro j hj
  have hlabels : ∀ (u : System.World P) (label : Label), DeletesNothing P u (.spawn label) →
      (start P label).Uses (MakesOn P fun v => v.effect ≠ .dropMachine) :=
    fun u label hallowed => makesOn_of_not_deletes (hallowed label rfl)
  have hv := makesOnly_of_reachable hbefore (fun t ht => (List.not_mem_nil ht).elim) hlabels
  obtain ⟨-, hreaches⟩ := makesOnly_of_reachable hafter hv.1 hlabels
  refine ⟨hreaches.invariant (KeepsJob j) (fun u d hu => keepsJob_apply hu)
    ⟨j, hj, rfl, rfl, rfl, rfl, fun hqueued => ⟨hqueued, rfl⟩⟩, fun k hk k' hk' hid hid' => ?_⟩
  have hworld : QueueWorld (db.jobs.map WakeJob.entry) w :=
    hafter.invariant (queueWorld_of_reachable hstart hbefore) fun _ _ _ _ hv _ hact => hv.act hact
  obtain ⟨b, hshows, hsound⟩ := hworld.board
  have hnodup := hsound.table.keys_nodup
  rw [hshows.jobs.keys] at hnodup
  exact List.inj_on_of_nodup_map hnodup hk hk' (hid.trans hid'.symm)

theorem jobs_kept_sample :
    ∃ w, Reachable (start Platform.sample) (DeletesNothing Platform.sample)
        (System.World.init Platform.sample Database.queued [Uuid.ofNat 8]) w ∧
      w.shared.db.jobs.map (·.status) = [.running] ∧ KeepsJob WakeJob.sample w.shared.db := by
  have hacts : (((System.World.init Platform.sample Database.queued [Uuid.ofNat 8]).acts
      (start Platform.sample) twoWorkers).map fun w => w.shared.db.jobs.map (·.status)) =
        some [.running] := by
    decide +kernel
  obtain ⟨w, hw, hstatus⟩ := Option.map_eq_some_iff.mp hacts
  have hrun : Reachable (start Platform.sample) (DeletesNothing Platform.sample)
      (System.World.init Platform.sample Database.queued [Uuid.ofNat 8]) w := by
    refine Reachable.of_acts hw fun a ha v label hspawn => ?_
    subst hspawn
    rcases mem_twoWorkers ha with h | h | h <;> cases h
    rfl
  exact ⟨w, hrun, hstatus, (jobs_kept Platform.sample Database.queued [Uuid.ofNat 8]
    queueStart_queued _ w .refl hrun WakeJob.sample (List.mem_singleton_self _)).1⟩

/-! ### Jobs leave the queue into the hands of a worker -/

theorem Turns.returned_keeps {locked : List Uuid} {inp : Input} {g g' : Post}
    {new : Option (Uuid × JsonObject)} {jobs jobs' : List WakeJob} {e : Uuid × JsonObject}
    (h : Turns inp locked new g jobs g' jobs') (he : g.returned = some e) :
    g'.returned = some e := by
  cases h with
  | rest q hd hret hq => rw [hret, he]
  | finish j hlocked => exact he
  | settle j f hf => exact he
  | _ => cases he

/-- A row that is not queued any more was so before, or its worker has just got it. -/
theorem Turns.leaves {locked : List Uuid} {inp : Input} {g g' : Post}
    {new : Option (Uuid × JsonObject)} {jobs jobs' : List WakeJob}
    (h : Turns inp locked new g jobs g' jobs') (hfault : inp.fault ≠ some .lost) {row : WakeJob}
    (hrow : row ∈ jobs') (hstatus : row.status ≠ .queued) :
    (∃ before ∈ jobs, before.id = row.id ∧ before.status ≠ .queued) ∨
      ∃ payload, g'.returned = some (row.id, payload) := by
  have hupdated : ∀ (id : Uuid) (f : WakeJob → WakeJob), (∀ r, (f r).id = r.id) →
      row ∈ updateRows (·.id == id) f jobs →
        (∃ before ∈ jobs, before.id = row.id ∧ before.status ≠ .queued) ∨ row.id = id := by
    intro id f hf hmem
    obtain ⟨before, hbefore, heq⟩ := mem_updateRows.mp hmem
    by_cases hid : before.id = id
    · rw [if_pos (by simpa using hid)] at heq
      exact .inr (by rw [← heq, hf, hid])
    · rw [if_neg (by simpa using hid)] at heq
      subst heq
      exact .inl ⟨before, hbefore, rfl, hstatus⟩
  cases h with
  | rest q hd hret hq => exact .inl ⟨row, (List.mem_filter.mp hrow).1, rfl, hstatus⟩
  | put j hqueued =>
    rcases List.mem_append.mp hrow with hrow | hrow
    · exact .inl ⟨row, hrow, rfl, hstatus⟩
    · rw [List.mem_singleton.mp hrow] at hstatus
      exact absurd hqueued hstatus
  | take j time hg' =>
    obtain rfl := hg'.resolve_right fun hlost => hfault hlost.2
    refine (hupdated j.id (·.run time) (fun _ => rfl) hrow).imp_right fun hid => ?_
    exact ⟨j.payload, by rw [hid]; rfl⟩
  | settle j f hf =>
    refine (hupdated j.id f (fun r => (hf r).1) hrow).imp_right fun hid => ?_
    exact ⟨j.payload, by rw [hid]; rfl⟩
  | _ => exact .inl ⟨row, hrow, rfl, hstatus⟩

/-- The acknowledgement of a commit may not get lost. -/
def Acknowledged (P : Platform) (_ : System.World P) (a : Action (machine P) Label) : Prop :=
  ∀ tid inp, a = .step tid inp → inp.fault ≠ some .lost

/-- **A job leaves the queue only to a worker.** When the acknowledgement of no commit is
lost, a job that is not queued any more was returned to a worker: together with
`jobs_returned_once`, to exactly one. -/
theorem jobs_leave_to_worker (P : Platform) (db : Database) (issued : List Uuid)
    (hstart : QueueStart db issued) (w : System.World P)
    (hrun : Reachable (start P) (Acknowledged P) (System.World.init P db issued) w) :
    ∀ j ∈ w.shared.db.jobs, j.status ≠ .queued →
      (∃ before ∈ db.jobs, before.id = j.id ∧ before.status ≠ .queued) ∨
        ∃ t ∈ w.threads, ∃ payload, returnedJob t = some (j.id, payload) := by
  let Inv : System.World P → Prop := fun v => ∀ j ∈ v.shared.db.jobs, j.status ≠ .queued →
    (∃ before ∈ db.jobs, before.id = j.id ∧ before.status ≠ .queued) ∨
      ∃ t ∈ v.threads, ∃ payload, returnedJob t = some (j.id, payload)
  let Both : System.World P → Prop := fun v => QueueWorld (db.jobs.map WakeJob.entry) v ∧ Inv v
  suffices Both w from this.2
  refine hrun.invariant
    ⟨queueWorld_init hstart, fun j hj hstatus => .inl ⟨j, hj, rfl, hstatus⟩⟩
    fun v a v' _ hv hallowed hact => ⟨hv.1.act hact, ?_⟩
  obtain ⟨hworld, hinv⟩ := hv
  rcases World.act_cases (start P) hact with ⟨label, rfl, rfl⟩ | ⟨tid, t, rfl, ht, -, rfl⟩ |
    ⟨tid, inp, t, op, next, rfl, ht, hp, hen, rfl⟩
  · refine fun j hj hstatus => (hinv j hj hstatus).imp_right ?_
    rintro ⟨t, ht, hreturned⟩
    exact ⟨t, List.mem_append_left _ ht, hreturned⟩
  · refine fun j hj hstatus => (hinv j hj hstatus).imp_right ?_
    rintro ⟨u, hu, payload, hreturned⟩
    rcases mem_set_of_mem ht hu with rfl | hu
    · exact ⟨_, mem_set_self ht _, payload, hreturned⟩
    · exact ⟨u, hu, payload, hreturned⟩
  · have hpost := hworld.posts t (List.mem_of_getElem? ht)
    obtain ⟨-, hturns⟩ := turns (hpost.live (hpost.running hp)) (hpost.obeys.permits hp) hen
    let t' := t.performed op next (executeOp P op inp (v.others tid) v.shared t.store) v.clock
    intro j hj hstatus
    rcases hturns.leaves (hallowed tid inp rfl) hj hstatus with ⟨before, hbefore, hid, hnot⟩ |
      ⟨payload, hreturned⟩
    · rw [← hid]
      refine (hinv before hbefore hnot).imp_right ?_
      rintro ⟨u, hu, payload, hreturned⟩
      rcases mem_set_of_mem ht hu with rfl | hu
      · exact ⟨t', mem_set_self ht t', payload, hturns.returned_keeps hreturned⟩
      · exact ⟨u, hu, payload, hreturned⟩
    · exact .inr ⟨t', mem_set_self ht t', payload, hreturned⟩

theorem jobs_leave_to_worker_sample :
    ∃ w, Reachable (start Platform.sample) (Acknowledged Platform.sample)
        (System.World.init Platform.sample Database.queued [Uuid.ofNat 8]) w ∧
      (∃ j ∈ w.shared.db.jobs, j.status ≠ .queued) ∧
      ∀ j ∈ w.shared.db.jobs, j.status ≠ .queued →
        (∃ before ∈ Database.queued.jobs, before.id = j.id ∧ before.status ≠ .queued) ∨
          ∃ t ∈ w.threads, ∃ payload, returnedJob t = some (j.id, payload) := by
  have hacts : (((System.World.init Platform.sample Database.queued [Uuid.ofNat 8]).acts
      (start Platform.sample) twoWorkers).map fun w =>
        decide (∃ j ∈ w.shared.db.jobs, j.status ≠ .queued)) = some true := by
    decide +kernel
  obtain ⟨w, hw, hmarked⟩ := Option.map_eq_some_iff.mp hacts
  have hrun : Reachable (start Platform.sample) (Acknowledged Platform.sample)
      (System.World.init Platform.sample Database.queued [Uuid.ofNat 8]) w := by
    refine Reachable.of_acts hw fun a ha v tid inp hstep => ?_
    subst hstep
    rcases mem_twoWorkers ha with h | h | h <;> cases h <;> simp
  exact ⟨w, hrun, of_decide_eq_true hmarked,
    jobs_leave_to_worker Platform.sample Database.queued [Uuid.ofNat 8] queueStart_queued w hrun⟩

/-! ### Nothing to claim -/

/-- The thread has locked the row in order to claim it. -/
def Claiming (t : Thread (machine P) Label Result) (id : Uuid) : Prop :=
  t.crashed = false ∧ (queuePost t).claiming = some id

theorem Post.claiming_of_desk {g : Post} {id : Uuid} {payload : JsonObject}
    (h : g.desk = .holding id payload ∨ g.desk = .taking id payload) : g.claiming = some id := by
  cases g with
  | holding j | taking j =>
    simp only [Post.desk, Claims.Desk.holding.injEq, Claims.Desk.taking.injEq, reduceCtorEq,
      or_false, false_or] at h
    exact congrArg some h.1
  | _ => simp [Post.desk] at h

end Worlds

end WolMonkey
