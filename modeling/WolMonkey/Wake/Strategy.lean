import WolMonkey.Facts.Recording

/-!
# The strategy that is used

A wake request resolves the strategy when it records its attempt, and the worker resolves it
again when it runs the job. A request that names a strategy hands it over in the payload; one
that does not leaves it to the machine both times, so the two agree as long as nobody changes
the strategy of the machine in between (`System.World.InFlight`).
-/

namespace WolMonkey

open Programs Program

/-! ## Rows -/

/-- The strategy in the attempt with an identifier. -/
def Database.recordedStrategy (db : Database) (id : Uuid) : Option String :=
  (db.attempts.find? (·.id == id)).map (·.strategy)

/-- The strategy of the machine with an identifier. -/
def Database.strategyOf (db : Database) (id : Uuid) : Option String :=
  (db.machines.find? (·.id == id)).map (·.wakeStrategy)

/-- The job leaves the strategy to its machine. -/
def WakeJob.byMachine (j : WakeJob) : Bool := j.strategyOverride.getD "" == ""

/-- The worker would now use the strategy that is recorded for the job. -/
structure WakeJob.Fits (db : Database) (j : WakeJob) : Prop where
  target : Uuid.parse? j.target = some j.machineId
  recorded : ∃ current, (j.byMachine = true → db.strategyOf j.machineId = some current) ∧
    db.recordedStrategy j.attemptId = some (orElse j.strategyOverride current)

/-- Changes that keep to the `CHECK` of the column, and delete no machine. -/
def Write.KeepsMachines : Write → Prop
  | insertMachine m => wakeStrategyOk m.wakeStrategy = true
  | updateMachine _ c _ => c.wakeStrategy.all wakeStrategyOk = true
  | deleteMachine _ => False
  | _ => True

section Rows
variable {db db' : Database} {j : WakeJob} {id : Uuid} {name : String}

/-- With a strategy of its own the machine does not matter. -/
theorem WakeJob.orElse_of_not_byMachine (h : j.byMachine = false) (a b : String) :
    orElse j.strategyOverride a = orElse j.strategyOverride b := by
  unfold WakeJob.byMachine at h
  cases hoverride : j.strategyOverride with
  | none =>
    rw [hoverride] at h
    cases h
  | some s =>
    rw [hoverride] at h
    have hs : (s == "") = false := h
    simp only [orElse, hs, Bool.false_eq_true, if_false]

theorem WakeJob.Fits.keeps (h : j.Fits db)
    (hrecorded : ∀ id name, db.recordedStrategy id = some name →
      db'.recordedStrategy id = some name)
    (hmachine : j.byMachine = true → db'.strategyOf j.machineId = db.strategyOf j.machineId) :
    j.Fits db' := by
  obtain ⟨current, hcurrent, hname⟩ := h.recorded
  exact ⟨h.target, current, fun hby => (hmachine hby).trans (hcurrent hby), hrecorded _ _ hname⟩

/-- The machine that the worker reads for a job. -/
theorem WakeJob.Fits.reads (h : j.Fits db) {m : Machine}
    (hm : db.machines.find? (·.id == j.machineId) = some m) :
    db.recordedStrategy j.attemptId = some (orElse j.strategyOverride m.wakeStrategy) := by
  obtain ⟨current, hcurrent, hname⟩ := h.recorded
  rw [hname]
  cases hby : j.byMachine with
  | true =>
    have hcurrent' : (some m).map (·.wakeStrategy) = some current := by
      rw [← hm]
      exact hcurrent hby
    rw [← Option.some.inj hcurrent']
  | false => rw [WakeJob.orElse_of_not_byMachine hby current m.wakeStrategy]

/-- A strategy that is recorded stays. -/
theorem recordedStrategy_apply {w : Write} (hw : w.KeepsMachines)
    (h : db.recordedStrategy id = some name) : (w.apply db).recordedStrategy id = some name := by
  unfold Database.recordedStrategy at h ⊢
  obtain ⟨a, ha, hname⟩ := Option.map_eq_some_iff.mp h
  cases w with
  | insertAttempt b =>
    show ((db.attempts ++ [b]).find? _).map _ = _
    rw [List.find?_append, ha]
    exact congrArg some hname
  | setAttemptStatus u status error finishedAt =>
    show ((updateRows _ _ db.attempts).find? _).map _ = _
    have hsame : ∀ r : WakeAttempt, ((r.setStatus status error finishedAt).id == id) = (r.id == id) :=
      fun _ => rfl
    rw [find?_updateRows_of_same hsame, ha, ← hname]
    refine congrArg some ?_
    dsimp only
    split <;> rfl
  | deleteMachine u => exact hw.elim
  | _ => exact h

theorem Reaches.recordedStrategy (h : Reaches Write.KeepsMachines db db') (id : Uuid)
    (name : String) (hname : db.recordedStrategy id = some name) :
    db'.recordedStrategy id = some name :=
  h.invariant (fun db => db.recordedStrategy id = some name)
    (fun _ _ hw => recordedStrategy_apply hw) hname

/-- The strategies of the machines pass the `CHECK` of the column. -/
def Database.StrategiesOk (db : Database) : Prop :=
  ∀ m ∈ db.machines, wakeStrategyOk m.wakeStrategy = true

theorem strategiesOk_apply {w : Write} (hw : w.KeepsMachines) (h : db.StrategiesOk) :
    (w.apply db).StrategiesOk := by
  cases w with
  | insertMachine m =>
    intro m' hm
    rcases List.mem_append.mp hm with hm | hm
    · exact h m' hm
    · rw [List.mem_singleton.mp hm]
      exact hw
  | updateMachine u c time =>
    intro m' hm'
    obtain ⟨m, hm, rfl⟩ := mem_updateRows.mp hm'
    split
    · cases hc : c.wakeStrategy with
      | none =>
        show wakeStrategyOk (c.wakeStrategy.getD m.wakeStrategy) = true
        rw [hc]
        exact h m hm
      | some s =>
        show wakeStrategyOk (c.wakeStrategy.getD m.wakeStrategy) = true
        have hs : c.wakeStrategy.all wakeStrategyOk = true := hw
        rw [hc] at hs ⊢
        exact hs
    · exact h m hm
  | deleteMachine u => exact hw.elim
  | _ => exact h

theorem Reaches.strategiesOk (h : Reaches Write.KeepsMachines db db') (hdb : db.StrategiesOk) :
    db'.StrategiesOk :=
  h.invariant Database.StrategiesOk (fun _ _ hw => strategiesOk_apply hw) hdb

/-- A queued job was there before, or it was inserted. -/
theorem queued_of_after {ws : List Write} (h : j ∈ (db.after ws).jobs) (hq : j.status = .queued) :
    j ∈ db.jobs ∨ Write.insertJob j ∈ ws := by
  induction ws generalizing db with
  | nil => exact .inl h
  | cons w ws ih =>
    rcases ih h with h | h
    swap
    · exact .inr (List.mem_cons_of_mem _ h)
    have hupdate : ∀ {u : Uuid} {f : WakeJob → WakeJob}, (∀ r, (f r).status ≠ .queued) →
        j ∈ updateRows (·.id == u) f db.jobs → j ∈ db.jobs := by
      intro u f hf hj
      obtain ⟨r, hr, rfl⟩ := mem_updateRows.mp hj
      split at hq
      · exact absurd hq (hf r)
      · rename_i hid
        rw [if_neg hid]
        exact hr
    cases w with
    | insertJob j' =>
      rcases List.mem_append.mp h with h | h
      · exact .inl h
      · rw [List.mem_singleton.mp h]
        exact .inr List.mem_cons_self
    | setJobRunning u time =>
      exact .inl (hupdate (fun _ => (by decide : JobStatus.running ≠ .queued)) h)
    | setJobDone u =>
      exact .inl (hupdate (fun _ => (by decide : JobStatus.done ≠ .queued)) h)
    | setJobError u error =>
      exact .inl (hupdate (fun _ => (by decide : JobStatus.error ≠ .queued)) h)
    | deleteMachine u => exact .inl (List.mem_filter.mp h).1
    | _ => exact .inl h

/-- An attempt was there before, or a change is about it. -/
theorem attempt_of_after {ws : List Write} {a : WakeAttempt} (h : a ∈ (db.after ws).attempts) :
    (∃ b ∈ db.attempts, b.id = a.id) ∨ ∃ w ∈ ws, w.attempt? = some a.id := by
  induction ws generalizing db with
  | nil => exact .inl ⟨a, h, rfl⟩
  | cons w ws ih =>
    rcases ih h with ⟨b, hb, hid⟩ | ⟨v, hv, hrow⟩
    swap
    · exact .inr ⟨v, List.mem_cons_of_mem _ hv, hrow⟩
    cases w with
    | insertAttempt c =>
      rcases List.mem_append.mp hb with hb | hb
      · exact .inl ⟨b, hb, hid⟩
      · rw [← hid, List.mem_singleton.mp hb]
        exact .inr ⟨_, List.mem_cons_self, rfl⟩
    | setAttemptStatus u status error finishedAt =>
      obtain ⟨c, hc, rfl⟩ := mem_updateRows.mp hb
      refine .inl ⟨c, hc, ?_⟩
      rw [← hid]
      split <;> rfl
    | deleteMachine u => exact .inl ⟨b, (List.mem_filter.mp hb).1, hid⟩
    | _ => exact .inl ⟨b, hb, hid⟩

/-- Every statement that deletes no machine keeps the machines. -/
theorem makesOn_keepsMachines {P : Platform} {op : Op} (hop : op.effect ≠ some .dropMachine) :
    MakesOn P Write.KeepsMachines op := by
  cases op with
  | stmt slot s =>
    intro inp locked db x hrun w hw
    have heffect := Stmt.run_effect x hrun w hw
    cases s with
    | machineInsert fields =>
      simp only [Stmt.run, bind_eq_ok, accepted_eq_ok, require_eq_ok, pure_eq_ok,
        Bool.and_eq_true] at hrun
      obtain ⟨f, -, -, ⟨-, hstrategy⟩, -, -, -, -, rfl⟩ := hrun
      obtain rfl := List.mem_singleton.mp hw
      exact hstrategy
    | machineUpdate loaded columns =>
      simp only [Stmt.run] at hrun
      split at hrun
      · obtain rfl := pure_eq_ok.mp hrun
        cases hw
      · simp only [bind_eq_ok, accepted_eq_ok, require_eq_ok, pure_eq_ok, Bool.and_eq_true] at hrun
        obtain ⟨c, -, -, ⟨-, hstrategy⟩, -, -, rfl⟩ := hrun
        obtain rfl := List.mem_singleton.mp hw
        exact hstrategy
    | _ =>
      cases w <;> first
        | trivial
        | cases heffect
  | _ => trivial

end Rows

/-! ## What a thread has done -/

/-- The job that a claim returns. -/
def claimed? : (op : Op) → app.Reply op → Option WakeJob
  | .stmt .queue .jobClaim, .ok (some j) => some j
  | _, _ => none

/-- The name of a strategy that an operation shows. `WakeService.wake` passes the name that it
records in its own attempt on to `get_strategy`, and a packet is sent by what that returns. -/
def usedName? : Op → Option String
  | .stmt _ (.attemptInsert f) => some f.strategy
  | .send strategy _ _ _ => some strategy.value
  | _ => none

section Threads
variable {P : Platform}

/-- The jobs that a worker has claimed. -/
def claimedJobs (log : List (Stamped app)) : List WakeJob :=
  log.filterMap fun e => claimed? e.op e.reply

/-- The names of strategies that a thread has used, latest first. -/
def usedNames (log : List (Stamped app)) : List String := log.filterMap fun e => usedName? e.op

theorem claimedJobs_performed (t : Thread (machine P) Label Result) (op : Op)
    (next : app.Reply op → Code Result) (r : app.Reply op × (machine P).Shared × (machine P).Store) (time : Nat) :
    claimedJobs (t.performed op next r time).log = (claimed? op r.1).toList ++ claimedJobs t.log := by
  show List.filterMap _ (⟨⟨op, r.1⟩, time⟩ :: t.log) = _
  rw [List.filterMap_cons]
  cases claimed? op r.1 <;> rfl

theorem usedNames_performed (t : Thread (machine P) Label Result) (op : Op)
    (next : app.Reply op → Code Result) (r : app.Reply op × (machine P).Shared × (machine P).Store) (time : Nat) :
    usedNames (t.performed op next r time).log = (usedName? op).toList ++ usedNames t.log := by
  show List.filterMap _ (⟨⟨op, r.1⟩, time⟩ :: t.log) = _
  rw [List.filterMap_cons]
  cases usedName? op <;> rfl

abbrev trackOf (t : Thread (machine P) Label Result) : Track := t.ghost recording Label.track

/-- The recorded strategy is the strategy used: whoever has claimed a job uses the strategy
that is stored in the attempt of the job. -/
def UsesRecorded (w : System.World P) : Prop :=
  ∀ t ∈ w.threads, ∀ j ∈ claimedJobs t.log, ∀ name ∈ usedNames t.log,
    w.shared.db.recordedStrategy j.attemptId = some name

instance (w : System.World P) : Decidable (UsesRecorded w) :=
  inferInstanceAs (Decidable (∀ t ∈ w.threads, ∀ j ∈ claimedJobs t.log, ∀ name ∈ usedNames t.log,
    w.shared.db.recordedStrategy j.attemptId = some name))

/-- The thread has read the machine, or will, and counts on its strategy. -/
def Track.awaits : Track → Uuid → Prop
  | read none m, id | recorded none m _, id | stored none m _, id => m.id = id
  | claimed j, id => j.byMachine = true ∧ j.machineId = id
  | _, _ => False

/-- The job that a change inserts. -/
def Write.inserted? : Write → Option WakeJob
  | insertJob j => some j
  | _ => none

/-- The job is queued, or an open transaction has inserted it. -/
def System.World.Waits (w : System.World P) (j : WakeJob) : Prop :=
  (j ∈ w.shared.db.jobs ∧ j.status = .queued) ∨
    ∃ t ∈ w.threads, t.store.Touches Write.inserted? j

/-- A wake of the machine that leaves the strategy to the machine is under way: the request
has read the machine, and the worker has not. -/
def System.World.InFlight (w : System.World P) (id : Uuid) : Prop :=
  (∃ j, w.Waits j ∧ j.byMachine = true ∧ j.machineId = id) ∨
    ∃ t ∈ w.threads, t.crashed = false ∧ (trackOf t).awaits id

/-- Machines are not deleted, and keep their strategy while a wake is under way that leaves
the strategy to them. -/
def KeepsStrategies (P : Platform) (w : System.World P) :
    Action (machine P) Label → Prop
  | .spawn label => label.deletes = false
  | a => ∀ w', w.act (start P) a = some w' → ∀ id, w.InFlight id →
      w'.shared.db.strategyOf id = w.shared.db.strategyOf id

end Threads

/-! ## What holds on a track -/

/-- The strategy that a request has resolved is still the one of the machine, unless the
request has named it. -/
structure Chosen (db : Database) (override : Option WakeStrategy) (m : Machine) : Prop where
  ok : wakeStrategyOk (recordedName override m) = true
  current : override = none → db.strategyOf m.id = some m.wakeStrategy

theorem Chosen.keeps {db db' : Database} {override : Option WakeStrategy}
    {m : Machine} (h : Chosen db override m)
    (hmachine : override = none → db'.strategyOf m.id = db.strategyOf m.id) :
    Chosen db' override m :=
  ⟨h.ok, fun hnone => (hmachine hnone).trans (h.current hnone)⟩

namespace Track

/-- What a thread on the track knows of the tables and of its work session. -/
def Holds (db : Database) (main : Tx) : Track → Prop
  | idle | ready _ => main.writes = []
  | read override m => main.writes = [] ∧ Chosen db override m
  | recorded override m id => Chosen db override m ∧ main.status = .active ∧
      (∃ row, main.writes = [.insertAttempt row] ∧ row.id = id ∧
        row.strategy = recordedName override m) ∧ ∀ a ∈ db.attempts, a.id ≠ id
  | stored override m id => Chosen db override m ∧
      db.recordedStrategy id = some (recordedName override m)
  | claimed j => main.writes = [] ∧ j.Fits db
  | woken j name => db.recordedStrategy j.attemptId = some name
  | _ => True

/-- The jobs that a thread on the track has claimed, and the names that it has used. -/
def Logged (claims : List WakeJob) (used : List String) : Track → Prop
  | idle => claims = [] ∧ used = []
  | claimed j => claims = [j] ∧ used = []
  | woken j name => claims = [j] ∧ ∀ n ∈ used, n = name
  | ended => True
  | _ => claims = []

section Lemmas
variable {db db' : Database} {main : Tx} {g : Track} {claims : List WakeJob} {used : List String}

theorem holds_ends (g : Track) : g.ends.Holds db main := by
  cases g <;> exact trivial

/-- A step that keeps what is recorded and what the track counts on. -/
theorem Holds.keeps (h : g.Holds db main)
    (hrecorded : ∀ id name, db.recordedStrategy id = some name →
      db'.recordedStrategy id = some name)
    (hmachine : ∀ id, g.awaits id → db'.strategyOf id = db.strategyOf id)
    (hfresh : ∀ override m id, g = recorded override m id → (∀ a ∈ db.attempts, a.id ≠ id) →
      ∀ a ∈ db'.attempts, a.id ≠ id) : g.Holds db' main := by
  cases g with
  | idle => exact h
  | ready override => exact h
  | read override m =>
    refine ⟨h.1, h.2.keeps fun hnone => hmachine _ ?_⟩
    subst hnone
    exact rfl
  | recorded override m id =>
    obtain ⟨hchosen, hactive, hrow, hnew⟩ := h
    refine ⟨hchosen.keeps fun hnone => hmachine _ ?_, hactive, hrow, hfresh _ _ _ rfl hnew⟩
    subst hnone
    exact rfl
  | stored override m id =>
    refine ⟨h.1.keeps fun hnone => hmachine _ ?_, hrecorded _ _ h.2⟩
    subst hnone
    exact rfl
  | claimed j => exact ⟨h.1, h.2.keeps hrecorded fun hby => hmachine _ ⟨hby, rfl⟩⟩
  | woken j name => exact hrecorded _ _ h
  | other => trivial
  | ended => trivial

/-- A step to another track keeps the log, unless it claims a job. -/
theorem Logged.next (h : g.Logged claims used) {op : Op} (r : app.Reply op)
    (hclaim : ∀ slot, op ≠ .stmt slot .jobClaim) : (g.next op r).Logged claims used := by
  have hends : g.ends.Logged claims used := by
    cases g <;> first
      | exact h
      | trivial
  rcases r with e | a
  · exact hends
  show (g.answered op a).Logged claims used
  unfold Track.answered
  split <;> first
    | exact h
    | exact hends
    | exact absurd rfl (hclaim _)
    | (cases g <;> first
        | exact h
        | trivial
        | exact ⟨h.1, fun n hn => by rw [h.2] at hn; cases hn⟩)

/-- The names that an operation may show. -/
theorem names_of_permits {op : Op} {name : String} (hname : usedName? op = some name)
    (hpermits : g.permits op) : g.names name := by
  cases op with
  | stmt slot s =>
    cases s <;> cases hname
    exact hpermits.2
  | send strategy mac interface broadcast =>
    cases hname
    exact hpermits
  | _ => cases hname

theorem claimed?_eq_none {op : Op} (hop : ∀ slot, op ≠ .stmt slot .jobClaim) (r : app.Reply op) :
    claimed? op r = none := by
  unfold claimed?
  split
  · exact absurd rfl (hop _)
  · rfl

/-- A name that the track permits. -/
theorem Logged.name (h : g.Logged claims used) {op : Op} {name : String}
    (hname : usedName? op = some name) (hpermits : g.permits op) (r : app.Reply op) :
    (g.next op r).Logged claims (name :: used) := by
  have hnames := names_of_permits hname hpermits
  have hclaim : ∀ slot, op ≠ .stmt slot .jobClaim := by
    rintro slot rfl
    cases hname
  have hadd : g.Logged claims (name :: used) := by
    cases g with
    | other => exact h
    | read override m => exact h
    | woken j name' => exact ⟨h.1, fun n hn => (List.mem_cons.mp hn).elim (fun hn => hn.trans hnames) (h.2 n)⟩
    | _ => exact hnames.elim
  exact hadd.next r hclaim

end Lemmas

end Track

/-! ## One operation of a thread -/

section Steps
variable {P : Platform} {op : Op} {inp : Input} {others : List Store} {sh : Shared} {st : Store}
  {locked : List Uuid} {db : Database} {main : Tx} {g : Track} {slot : Slot} {s : Stmt}

theorem wakeStrategyOk_recordedName {override : Option WakeStrategy} {m : Machine}
    (hm : wakeStrategyOk m.wakeStrategy = true) : wakeStrategyOk (recordedName override m) = true := by
  rcases override with _ | _ | _
  · exact hm
  · rfl
  · rfl

/-- What a statement promises to the code. -/
theorem possible_of_run (hqueued : ∀ j ∈ db.jobs, j.status = .queued → j.Fits sh.db)
    {x : Executed s} (hrun : s.run P inp locked db = .ok x) :
    Track.possible (.stmt slot s) (.ok x.answer) := by
  cases s with
  | machineGet id =>
    simp only [Stmt.run, bind_eq_ok, uuidParam_eq_ok, pure_eq_ok] at hrun
    obtain ⟨u, hu, rfl⟩ := hrun
    cases slot with
    | queue => trivial
    | main =>
      cases hfind : db.machines.find? (·.id == u) with
      | none => trivial
      | some m =>
        have hfound := List.find?_some hfind
        have hid : m.id = u := beq_iff_eq.mp hfound
        show Uuid.parse? id = some m.id
        rw [hu, hid]
  | attemptRefresh id =>
    cases slot with
    | queue => trivial
    | main =>
      simp only [Stmt.run] at hrun
      split at hrun
      · rename_i a hfind
        obtain rfl := pure_eq_ok.mp hrun
        have hfound := List.find?_some hfind
        exact beq_iff_eq.mp hfound
      · cases hrun
  | jobClaim =>
    cases slot with
    | main => trivial
    | queue =>
      simp only [Stmt.run] at hrun
      split at hrun
      · rename_i j hj
        obtain rfl := pure_eq_ok.mp hrun
        obtain ⟨hmem, hstatus⟩ := List.mem_filter.mp (oldestJob_mem hj)
        exact (hqueued j hmem (beq_iff_eq.mp (Bool.and_eq_true _ _ |>.mp hstatus).1)).target
      · obtain rfl := pure_eq_ok.mp hrun
        trivial
  | _ => cases slot <;> trivial

/-- Where the work session changes nothing, its changes are known. -/
theorem Track.Holds.tx {main' : Tx} (h : g.Holds db main)
    (hsame : g.quiet = true → main'.writes = main.writes ∧ main'.status = main.status) :
    g.Holds db main' := by
  cases g with
  | idle => exact (hsame rfl).1.trans h
  | ready override => exact (hsame rfl).1.trans h
  | read override m => exact ⟨(hsame rfl).1.trans h.1, h.2⟩
  | recorded override m id =>
    obtain ⟨hchosen, hactive, ⟨row, hwrites, hrow⟩, hnew⟩ := h
    exact ⟨hchosen, (hsame rfl).2.trans hactive, ⟨row, (hsame rfl).1.trans hwrites, hrow⟩, hnew⟩
  | claimed j => exact ⟨(hsame rfl).1.trans h.1, h.2⟩
  | _ => exact h

/-- The request reads its machine, or the worker does. -/
theorem Track.Holds.sees (h : g.Holds sh.db st.main) (hmachines : sh.db.StrategiesOk) {id : String}
    (hpermits : g.permits (.stmt .main (.machineGet id))) {m : Machine}
    {x : Executed (.machineGet id)} (hanswer : x.answer = some m)
    (hrun : (Stmt.machineGet id).run P inp locked (sh.db.after st.main.writes) = .ok x) :
    (g.sees m).Holds sh.db st.main := by
  simp only [Stmt.run, bind_eq_ok, uuidParam_eq_ok, pure_eq_ok] at hrun
  obtain ⟨u, hu, rfl⟩ := hrun
  cases g with
  | ready override =>
    have hwrites : st.main.writes = [] := h
    have hfind : sh.db.machines.find? (·.id == u) = some m := by
      rw [hwrites] at hanswer
      exact hanswer
    have hfound := List.find?_some hfind
    have hid : m.id = u := beq_iff_eq.mp hfound
    have hok := hmachines m (List.mem_of_find?_eq_some hfind)
    refine ⟨hwrites, wakeStrategyOk_recordedName hok, fun _ => ?_⟩
    rw [hid]
    exact congrArg (Option.map _) hfind
  | claimed j =>
    obtain ⟨hwrites, hfits⟩ := h
    have hid : u = j.machineId := Option.some.inj (hu.symm.trans (hpermits j rfl))
    have hfind : sh.db.machines.find? (·.id == j.machineId) = some m := by
      rw [hwrites, hid] at hanswer
      exact hanswer
    exact hfits.reads hfind
  | _ => exact h

/-- The request records its attempt. -/
theorem Track.Holds.records (h : g.Holds sh.db st.main) {f : AttemptFields}
    (hpermits : g.permits (.stmt .main (.attemptInsert f)))
    (hactive : st.main.status = .active) {x : Executed (.attemptInsert f)} {main' : Tx}
    (hrun : (Stmt.attemptInsert f).run P inp locked (sh.db.after st.main.writes) = .ok x)
    (hwrites : main'.writes = st.main.writes ++ x.writes) (hstatus : main'.status = st.main.status) :
    (g.records x.answer).Holds sh.db main' := by
  have hnames : g.names f.strategy := hpermits.2
  cases g with
  | read override m =>
    obtain ⟨hempty, hchosen⟩ := h
    rw [hempty] at hrun hwrites
    simp only [Stmt.run, bind_eq_ok, uuidParam_eq_ok, accepted_eq_ok, require_eq_ok, pure_eq_ok]
      at hrun
    obtain ⟨machineId, -, actorType, -, actorId, -, strategy, hstrategy, -, -, -, hnew, -, -,
      rfl⟩ := hrun
    have hname : f.strategy = recordedName override m := hnames
    rw [hname, varchar_strategy hchosen.ok] at hstrategy
    refine ⟨hchosen, hstatus.trans hactive, ⟨_, hwrites, rfl, (Option.some.inj hstrategy).symm⟩,
      fun a ha => ?_⟩
    simpa using (List.any_eq_false.mp (Bool.not_eq_true' _ |>.mp hnew)) a ha
  | other => trivial
  | woken j name => exact h
  | _ => exact hnames.elim

/-- A statement that succeeds. -/
theorem Track.Holds.stmt (h : g.Holds sh.db st.main) (hmachines : sh.db.StrategiesOk)
    (hpermits : g.permits (.stmt slot s)) (hactive : (st.tx slot).status = .active)
    (hqueued : ∀ j ∈ (sh.db.after (st.tx slot).writes).jobs, j.status = .queued → j.Fits sh.db)
    {x : Executed s} (hrun : s.run P inp locked (sh.db.after (st.tx slot).writes) = .ok x) :
    let tx : Tx := { st.tx slot with writes := (st.tx slot).writes ++ x.writes
                                     locks := (st.tx slot).locks ++ x.locks }
    (g.answered (.stmt slot s) x.answer).Holds sh.db (st.setTx slot tx).main := by
  intro tx
  cases slot with
  | queue =>
    cases s with
    | jobInsert machineId attemptId jobType payload =>
      obtain ⟨-, override, m, id, rfl, -⟩ := hpermits
      trivial
    | jobClaim =>
      obtain ⟨-, rfl⟩ := hpermits
      simp only [Stmt.run] at hrun
      split at hrun
      · rename_i j hj
        obtain rfl := pure_eq_ok.mp hrun
        obtain ⟨hmem, hstatus⟩ := List.mem_filter.mp (oldestJob_mem hj)
        exact ⟨h, hqueued j hmem (beq_iff_eq.mp (Bool.and_eq_true _ _ |>.mp hstatus).1)⟩
      · obtain rfl := pure_eq_ok.mp hrun
        exact h
    | _ => exact h
  | main =>
    have hread : s.effect = none → tx.writes = st.main.writes := by
      intro hnone
      have hempty : x.writes = [] := List.eq_nil_iff_forall_not_mem.mpr fun w hw =>
        absurd (hnone.symm.trans (Stmt.run_effect x hrun w hw)) (by simp)
      show st.main.writes ++ x.writes = st.main.writes
      rw [hempty, List.append_nil]
    have hsame : (g.quiet = true → s.effect = none) → g.Holds sh.db tx := fun hquiet =>
      h.tx fun hg => ⟨hread (hquiet hg), rfl⟩
    cases s with
    | machineGet id =>
      cases hanswer : x.answer with
      | none => exact hsame fun _ => rfl
      | some m => exact (h.sees hmachines hpermits hanswer hrun).tx fun _ => ⟨hread rfl, rfl⟩
    | attemptInsert f => exact h.records hpermits hactive hrun rfl rfl
    | machineDelete id children => exact hpermits.elim
    | jobClaim => exact absurd hpermits.1 (by simp)
    | jobInsert machineId attemptId jobType payload => exact absurd hpermits.1 (by simp)
    | _ => exact hsame hpermits

theorem Track.possible_error (op : Op) (e : PyExc) : Track.possible op (.error e) := by
  cases op with
  | stmt slot s => cases slot <;> cases s <;> trivial
  | _ => trivial

/-- The commit of the work session stores the attempt of a request. -/
theorem Track.Holds.commits (h : g.Holds sh.db st.main)
    (hmachine : ∀ id, g.awaits id → (executeCommit .main inp sh st).2.1.db.strategyOf id =
      sh.db.strategyOf id) :
    (g.next (.commit .main) (executeCommit .main inp sh st).1).Holds
      (executeCommit .main inp sh st).2.1.db (executeCommit .main inp sh st).2.2.main := by
  cases g with
  | recorded override m id =>
    obtain ⟨hchosen, hactive, ⟨row, hwrites, hid, hname⟩, hnew⟩ := h
    have hrecorded : (sh.db.after st.main.writes).recordedStrategy id =
        some (recordedName override m) := by
      have hnone : sh.db.attempts.find? (·.id == id) = none :=
        List.find?_eq_none.mpr fun a ha => by simpa using hnew a ha
      rw [hwrites]
      show ((sh.db.attempts ++ [row]).find? (·.id == id)).map _ = _
      rw [List.find?_append, hnone, Option.none_or, List.find?_singleton, hid, beq_self_eq_true]
      exact congrArg some hname
    have hkeep := fun hnone : override = none => hmachine m.id (by rw [hnone]; rfl)
    cases hfault : inp.fault with
    | some fault =>
      cases fault <;> simp only [executeCommit, Store.tx, hactive, hfault] <;> trivial
    | none =>
      simp only [executeCommit, Store.tx, hactive, hfault] at hkeep ⊢
      exact ⟨hchosen.keeps hkeep, hrecorded⟩
  | _ =>
    cases (executeCommit .main inp sh st).1 with
    | error e => trivial
    | ok u => trivial

variable (P inp others) in
/-- What an operation makes of what holds on the track. -/
theorem Track.Holds.step (h : g.Holds sh.db st.main) (hmachines : sh.db.StrategiesOk)
    (hpermits : g.permits op)
    (hqueued : ∀ slot, ∀ j ∈ (sh.db.after (st.tx slot).writes).jobs, j.status = .queued →
      j.Fits sh.db)
    (hrecorded : ∀ id name, sh.db.recordedStrategy id = some name →
      (executeOp P op inp others sh st).2.1.db.recordedStrategy id = some name)
    (hmachine : ∀ id, g.awaits id → (executeOp P op inp others sh st).2.1.db.strategyOf id =
      sh.db.strategyOf id) :
    let r := executeOp P op inp others sh st
    Track.possible op r.1 ∧ (g.next op r.1).Holds r.2.1.db r.2.2.main := by
  cases op with
  | stmt slot s =>
    have hdb : (executeOp P (.stmt slot s) inp others sh st).2.1.db = sh.db :=
      executeOp_db fun _ h => (nomatch h)
    simp only [hdb]
    rcases executeStmt_cases P slot inp others sh st s with ⟨e, status, hexec, -⟩ |
      ⟨x, hactive, -, hrun, hexec⟩
    · simp only [executeOp, hexec]
      exact ⟨Track.possible_error _ _, Track.holds_ends g⟩
    · simp only [executeOp, hexec]
      exact ⟨possible_of_run (hqueued slot) hrun, h.stmt hmachines hpermits hactive (hqueued slot) hrun⟩
  | commit slot =>
    refine ⟨trivial, ?_⟩
    cases slot with
    | main => exact h.commits hmachine
    | queue =>
      have hmain : (executeCommit .queue inp sh st).2.2.main = st.main := by
        rcases (executeCommit_cases .queue inp sh st).2 with hst | ⟨-, hst, -⟩
        · rw [hst]
          rfl
        · rw [hst]
      simp only [executeOp] at hrecorded hmachine ⊢
      rw [hmain]
      cases (executeCommit .queue inp sh st).1 with
      | error e => exact Track.holds_ends g
      | ok u =>
        by_cases hg : ∃ override m id, g = .recorded override m id
        · obtain ⟨override, m, id, rfl⟩ := hg
          trivial
        · have hsame : g.publishes = g := by
            cases g <;> first
              | rfl
              | exact absurd ⟨_, _, _, rfl⟩ hg
          show g.publishes.Holds _ _
          rw [hsame]
          exact h.keeps hrecorded hmachine fun override m id hrec => absurd ⟨_, _, _, hrec⟩ hg
  | rollback slot =>
    simp only [executeOp]
    cases slot with
    | main => split <;> exact ⟨trivial, Track.holds_ends g⟩
    | queue =>
      split
      · exact ⟨trivial, Track.holds_ends g⟩
      · exact ⟨trivial, h⟩
  | close slot =>
    cases slot with
    | main => exact ⟨trivial, Track.holds_ends g⟩
    | queue => exact ⟨trivial, h⟩
  | send strategy mac interface broadcast =>
    simp only [executeOp]
    split
    · exact ⟨trivial, Track.holds_ends g⟩
    · exact ⟨trivial, h⟩
  | checkLoginRate ip =>
    simp only [executeOp]
    split
    · exact ⟨trivial, h⟩
    · exact ⟨trivial, Track.holds_ends g⟩
  | _ => exact ⟨trivial, h⟩

/-- The jobs and names of a thread after an operation. -/
theorem Track.Logged.step {claims : List WakeJob} {used : List String} {r : app.Reply op}
    (h : g.Logged claims used) (hpermits : g.permits op) :
    (g.next op r).Logged ((claimed? op r).toList ++ claims) ((usedName? op).toList ++ used) := by
  by_cases hclaim : ∃ slot, op = .stmt slot .jobClaim
  · obtain ⟨slot, rfl⟩ := hclaim
    obtain ⟨rfl, rfl⟩ := hpermits
    obtain ⟨rfl, rfl⟩ := h
    rcases r with e | _ | j
    · trivial
    · exact ⟨rfl, rfl⟩
    · exact ⟨rfl, rfl⟩
  have hother : ∀ slot, op ≠ .stmt slot .jobClaim := fun slot hop => hclaim ⟨slot, hop⟩
  rw [Track.claimed?_eq_none hother]
  cases hname : usedName? op with
  | none => exact h.next r hother
  | some name => exact h.name hname hpermits r

theorem effect_of_permits (hpermits : g.permits op) : op.effect ≠ some .dropMachine := by
  cases op with
  | stmt slot s =>
    cases s <;> first
      | exact hpermits.elim
      | exact nofun
  | _ => exact nofun

/-- A queued job was there before an operation, or the operation has committed it. -/
theorem queued_of_executeOp {j : WakeJob} (hj : j ∈ (executeOp P op inp others sh st).2.1.db.jobs)
    (hq : j.status = .queued) : j ∈ sh.db.jobs ∨ st.Touches Write.inserted? j := by
  by_cases hcommit : ∃ slot, op = .commit slot
  · obtain ⟨slot, rfl⟩ := hcommit
    simp only [executeOp] at hj
    rcases (executeCommit_cases slot inp sh st).1 with hdb | ⟨-, hdb⟩
    · rw [hdb] at hj
      exact .inl hj
    · rw [hdb] at hj
      exact (queued_of_after hj hq).imp_right fun hj => ⟨slot, _, hj, rfl⟩
  · rw [executeOp_db fun slot hop => hcommit ⟨slot, hop⟩] at hj
    exact .inl hj

/-- An attempt was there before an operation, or the operation has committed it. -/
theorem attempt_of_executeOp {a : WakeAttempt}
    (ha : a ∈ (executeOp P op inp others sh st).2.1.db.attempts) :
    (∃ b ∈ sh.db.attempts, b.id = a.id) ∨ st.Touches Write.attempt? a.id := by
  by_cases hcommit : ∃ slot, op = .commit slot
  · obtain ⟨slot, rfl⟩ := hcommit
    simp only [executeOp] at ha
    rcases (executeCommit_cases slot inp sh st).1 with hdb | ⟨-, hdb⟩
    · rw [hdb] at ha
      exact .inl ⟨a, ha, rfl⟩
    · rw [hdb] at ha
      exact (attempt_of_after ha).imp_right fun hw => ⟨slot, hw⟩
  · rw [executeOp_db fun slot hop => hcommit ⟨slot, hop⟩] at ha
    exact .inl ⟨a, ha, rfl⟩

/-- A job that is inserted fits what its request has recorded. -/
theorem fits_of_insert (h : g.Holds sh.db st.main) (hpermits : g.permits (.stmt slot s))
    {x : Executed s} (hrun : s.run P inp locked db = .ok x) {j : WakeJob}
    (hj : ∃ w ∈ x.writes, w.inserted? = some j) : j.Fits sh.db := by
  obtain ⟨w, hw, hinserted⟩ := hj
  have heffect := Stmt.run_effect x hrun w hw
  cases w with
  | insertJob j' =>
    obtain rfl := Option.some.inj hinserted
    cases s with
    | jobInsert machineId attemptId jobType payload =>
      obtain ⟨-, override, m, id, rfl, hmachine, hattempt, hpayload⟩ := hpermits
      obtain ⟨hchosen, hname⟩ := h
      simp only [Stmt.run, bind_eq_ok, uuidParam_eq_ok, require_eq_ok, pure_eq_ok] at hrun
      obtain ⟨machineId', hmachine', attemptId', hattempt', -, -, -, -, -, -, -, -, -, -, -, -,
        rfl⟩ := hrun
      obtain rfl := Option.some.inj (hmachine.symm.trans hmachine')
      obtain rfl := Option.some.inj (hattempt.symm.trans hattempt')
      have hj : j' = { id := inp.fresh, machineId := m.id, attemptId := id, jobType
                       status := .queued, payload, claimedAt := none, createdAt := inp.now } :=
        Write.insertJob.inj (List.mem_singleton.mp hw)
      obtain ⟨htarget, hoverride⟩ := hpayload j' (by rw [hj])
      refine ⟨?_, m.wakeStrategy, fun hby => ?_, ?_⟩
      · rw [htarget, hmachine, hj]
      · unfold WakeJob.byMachine at hby
        rw [hoverride] at hby
        rw [hj]
        rcases override with _ | _ | _
        · exact hchosen.current rfl
        · cases hby
        · cases hby
      · rw [hoverride, hj, hname]
        rcases override with _ | _ | _ <;> rfl
    | _ => cases heffect
  | _ => cases hinserted

end Steps

/-! ## All threads -/

section Worlds
variable {P : Platform}

/-- A thread that can still do something. -/
structure Tracked (db : Database) (t : Thread (machine P) Label Result) : Prop where
  obeys : t.Obeys recording Label.track (fun _ _ _ => True) (fun _ _ _ => True)
  alive : t.crashed = false
  holds : (trackOf t).Holds db t.store.main
  logged : (trackOf t).Logged (claimedJobs t.log) (usedNames t.log)

/-- What every thread keeps. -/
structure KeepsRecord (db : Database) (t : Thread (machine P) Label Result) : Prop where
  only : t.store.Only Write.KeepsMachines
  used : ∀ j ∈ claimedJobs t.log, ∀ name ∈ usedNames t.log,
    db.recordedStrategy j.attemptId = some name
  tracked : t.program = .stuck ∨ Tracked db t

/-- What holds in every world of a run. -/
structure RecordedWorld (w : System.World P) : Prop where
  machines : w.shared.db.StrategiesOk
  jobs : ∀ j, w.Waits j → j.Fits w.shared.db
  apart : w.Apart (Store.Apart Write.attempt?)
  threads : ∀ t ∈ w.threads, KeepsRecord w.shared.db t

theorem KeepsRecord.of_call {db : Database} {t : Thread (machine P) Label Result} {op : Op}
    {next : app.Reply op → Code Result} (h : KeepsRecord db t) (hp : t.program = .call op next) :
    Tracked db t := by
  rcases h.tracked with h | h
  · rw [hp] at h
    cases h
  · exact h

theorem keepsRecord_start {db : Database} {label : Label} (h : label.deletes = false) :
    KeepsRecord db (World.newThread (start P) label : Thread (machine P) Label Result) := by
  refine ⟨Store.only_empty, fun j hj => (List.not_mem_nil hj).elim, .inr ⟨track_start h, rfl, ?_, ?_⟩⟩
  · show label.track.Holds db {}
    cases label with
    | worker fuel => rfl
    | request req =>
      show req.route.track.Holds db {}
      unfold Route.track
      split
      · rfl
      · rfl
      · trivial
  · show label.track.Logged [] []
    cases label with
    | worker fuel => exact ⟨rfl, rfl⟩
    | request req =>
      show req.route.track.Logged [] []
      unfold Route.track
      split <;> rfl

/-- What one operation keeps in the tables. -/
theorem RecordedWorld.keeps {w : System.World P} (h : RecordedWorld w) {tid : Nat} {inp : Input}
    {t : Thread (machine P) Label Result} {op : Op} {next : app.Reply op → Code Result}
    (ht : w.threads[tid]? = some t) (hp : t.program = .call op next) :
    (executeOp P op inp (w.others tid) w.shared t.store).2.2.Only Write.KeepsMachines ∧
      Reaches Write.KeepsMachines w.shared.db
        (executeOp P op inp (w.others tid) w.shared t.store).2.1.db := by
  have hthread := h.threads t (List.mem_of_getElem? ht)
  have hpermits := (hthread.of_call hp).obeys.permits hp
  exact executeOp_only (makesOn_keepsMachines (effect_of_permits hpermits)) hthread.only

theorem RecordedWorld.queued {w : System.World P} (h : RecordedWorld w)
    {t : Thread (machine P) Label Result} (ht : t ∈ w.threads) {slot : Slot} {j : WakeJob}
    (hj : j ∈ (w.shared.db.after (t.store.tx slot).writes).jobs) (hq : j.status = .queued) :
    j.Fits w.shared.db := by
  rcases queued_of_after hj hq with hj | hj
  · exact h.jobs j (.inl ⟨hj, hq⟩)
  · exact h.jobs j (.inr ⟨t, ht, slot, _, hj, rfl⟩)

theorem System.World.act_reaches {w w' : System.World P} {a : Action (machine P) Label}
    (h : RecordedWorld w) (hact : w.act (start P) a = some w') :
    Reaches Write.KeepsMachines w.shared.db w'.shared.db := by
  rcases World.act_cases (start P) hact with ⟨label, -, rfl⟩ | ⟨tid, t, -, -, -, rfl⟩ |
    ⟨tid, input, t, op, next, -, ht, hp, -, rfl⟩
  · exact Reaches.refl _
  · exact Reaches.refl _
  · exact (h.keeps ht hp).2

theorem KeepsStrategies.strategyOf {w w' : System.World P} {a : Action (machine P) Label}
    (hallowed : KeepsStrategies P w a) (hact : w.act (start P) a = some w') (id : Uuid)
    (hid : w.InFlight id) : w'.shared.db.strategyOf id = w.shared.db.strategyOf id := by
  cases a with
  | spawn label =>
    obtain rfl := Option.some.inj hact
    rfl
  | step tid input => exact hallowed w' hact id hid
  | crash tid => exact hallowed w' hact id hid

theorem RecordedWorld.waits {w w' : System.World P} {a : Action (machine P) Label}
    (h : RecordedWorld w) (hact : w.act (start P) a = some w') {j : WakeJob} (hj : w'.Waits j) :
    w.Waits j ∨ (j.Fits w.shared.db ∧ w'.shared.db = w.shared.db) := by
  rcases World.act_cases (start P) hact with ⟨label, -, rfl⟩ | ⟨tid, t, -, ht, -, rfl⟩ |
    ⟨tid, input, t, op, next, -, ht, hp, -, rfl⟩
  · rcases hj with hj | ⟨u, hu, htouches⟩
    · exact .inl (.inl hj)
    · rcases List.mem_append.mp hu with hu | hu
      · exact .inl (.inr ⟨u, hu, htouches⟩)
      · rw [List.mem_singleton.mp hu] at htouches
        exact (Store.not_touches_empty j htouches).elim
  · rcases hj with hj | ⟨u, hu, htouches⟩
    · exact .inl (.inl hj)
    · rcases List.mem_or_eq_of_mem_set hu with hu | rfl
      · exact .inl (.inr ⟨u, hu, htouches⟩)
      · exact (Store.not_touches_empty j htouches).elim
  · have hmem := List.mem_of_getElem? ht
    have htracked := (h.threads t hmem).of_call hp
    rcases hj with ⟨hj, hq⟩ | ⟨u, hu, htouches⟩
    · rcases queued_of_executeOp hj hq with hj | hj
      · exact .inl (.inl ⟨hj, hq⟩)
      · exact .inl (.inr ⟨t, hmem, hj⟩)
    rcases List.mem_or_eq_of_mem_set hu with hu | rfl
    · exact .inl (.inr ⟨u, hu, htouches⟩)
    rcases executeOp_touches htouches with htouches | ⟨slot, s, x, rfl, hrun, hinserted⟩
    · exact .inl (.inr ⟨t, hmem, htouches⟩)
    · refine .inr ⟨fits_of_insert htracked.holds (htracked.obeys.permits hp) hrun hinserted, ?_⟩
      exact executeOp_db fun _ h => (nomatch h)

/-- Names that a thread uses are those of the job that it has claimed. -/
theorem Tracked.used_step {db : Database} {t : Thread (machine P) Label Result} {op : Op}
    {r : app.Reply op} (h : Tracked db t) (hpermits : (trackOf t).permits op)
    (hused : ∀ j ∈ claimedJobs t.log, ∀ name ∈ usedNames t.log,
      db.recordedStrategy j.attemptId = some name) :
    ∀ j ∈ (claimed? op r).toList ++ claimedJobs t.log,
      ∀ name ∈ (usedName? op).toList ++ usedNames t.log,
        db.recordedStrategy j.attemptId = some name := by
  have hlogged := h.logged
  have hholds := h.holds
  intro j hj name hname
  by_cases hclaim : ∃ slot, op = .stmt slot .jobClaim
  · obtain ⟨slot, rfl⟩ := hclaim
    rw [hpermits.2] at hlogged
    rw [hlogged.2] at hname
    cases hname
  rw [Track.claimed?_eq_none fun slot hop => hclaim ⟨slot, hop⟩] at hj
  have hj' : j ∈ claimedJobs t.log := hj
  rcases List.mem_append.mp hname with hname | hname
  swap
  · exact hused j hj' name hname
  have hnames := Track.names_of_permits (Option.mem_toList.mp hname) hpermits
  cases hg : trackOf t with
  | other =>
    rw [hg] at hlogged
    rw [show claimedJobs t.log = [] from hlogged] at hj'
    cases hj'
  | read override m =>
    rw [hg] at hlogged
    rw [show claimedJobs t.log = [] from hlogged] at hj'
    cases hj'
  | woken j' name' =>
    rw [hg] at hlogged hholds hnames
    rw [hlogged.1] at hj'
    rw [List.mem_singleton.mp hj', show name = name' from hnames]
    exact hholds
  | _ =>
    rw [hg] at hnames
    exact hnames.elim

theorem RecordedWorld.act {w w' : System.World P} {a : Action (machine P) Label}
    (h : RecordedWorld w) (hallowed : KeepsStrategies P w a) (hact : w.act (start P) a = some w') :
    RecordedWorld w' := by
  have hreach := System.World.act_reaches h hact
  have hrecorded := hreach.recordedStrategy
  have hmachine := hallowed.strategyOf hact
  have hawaits : ∀ t ∈ w.threads, Tracked w.shared.db t → ∀ id, (trackOf t).awaits id →
      w'.shared.db.strategyOf id = w.shared.db.strategyOf id := fun t ht htracked id hid =>
    hmachine id (.inr ⟨t, ht, htracked.alive, hid⟩)
  refine ⟨hreach.strategiesOk h.machines, fun j hj => ?_, World.apart_rows exclusive_attempt h.apart hact,
    World.each_act (T := fun (sh : Shared) _ t => KeepsRecord sh.db t) h.threads hact ?_
      (fun t ht => ⟨Store.only_empty, ht.used, .inl rfl⟩) ?_ ?_⟩
  · rcases h.waits hact hj with hwaits | ⟨hfits, hdb⟩
    · exact (h.jobs j hwaits).keeps hrecorded fun hby => hmachine _ (.inl ⟨j, hwaits, hby, rfl⟩)
    · rw [hdb]
      exact hfits
  · rintro label rfl
    exact keepsRecord_start hallowed
  · rintro tid input t op next rfl ht hp hen hthread
    have hmem := List.mem_of_getElem? ht
    have htracked := hthread.of_call hp
    have hpermits := htracked.obeys.permits hp
    have hw' : w' = w.stepped tid t op next input := by
      have hstep : w.act (start P) (.step tid input) = some (w.stepped tid t op next input) := by
        simp only [World.act, ht, hp, hen, if_true, World.stepped]
      exact Option.some.inj (hact.symm.trans hstep)
    rw [hw'] at hrecorded hawaits
    obtain ⟨hpossible, hholds⟩ := htracked.holds.step P input (w.others tid) h.machines hpermits (fun _ _ hj hq => h.queued hmem hj hq) hrecorded
      (hawaits t hmem htracked)
    refine ⟨(h.keeps ht hp).1, ?_, .inr ⟨?_, htracked.alive, hholds, ?_⟩⟩
    · intro j hj name hname
      rw [claimedJobs_performed] at hj
      rw [usedNames_performed] at hname
      exact hrecorded _ _ (htracked.used_step hpermits hthread.used j hj name hname)
    · have hobeys := htracked.obeys
      rw [Thread.Obeys, hp] at hobeys
      exact Program.Obeys.next hobeys hpossible
    · rw [claimedJobs_performed, usedNames_performed]
      exact htracked.logged.step hpermits
  · rintro tid input t op next j u rfl ht hp hen hthread hj hu hother
    have hw' : w' = w.stepped tid t op next input := by
      have hstep : w.act (start P) (.step tid input) = some (w.stepped tid t op next input) := by
        simp only [World.act, ht, hp, hen, if_true, World.stepped]
      exact Option.some.inj (hact.symm.trans hstep)
    rw [hw'] at hrecorded hawaits
    refine ⟨hother.only, fun j hj name hname => hrecorded _ _ (hother.used j hj name hname),
      hother.tracked.imp_right fun htracked => ⟨htracked.obeys, htracked.alive, ?_, htracked.logged⟩⟩
    refine htracked.holds.keeps hrecorded (hawaits u (List.mem_of_getElem? hu) htracked) ?_
    intro override m id hg hnew a ha hid
    rcases attempt_of_executeOp ha with ⟨b, hb, hba⟩ | htouches
    · exact hnew b hb (hba.trans hid)
    · have hholds := htracked.holds
      rw [hg] at hholds
      obtain ⟨-, -, ⟨row, hwrites, hrow, -⟩, -⟩ := hholds
      refine h.apart tid j t u (Ne.symm hj) ht hu a.id htouches ⟨.main, .insertAttempt row, ?_, ?_⟩
      · show _ ∈ u.store.main.writes
        rw [hwrites]
        exact List.mem_singleton_self _
      · rw [hid, ← hrow]
        rfl

end Worlds

/-- **The recorded strategy is the strategy used**, in every state of every run in which no
machine is deleted and no step changes the strategy of a machine while a wake is under way that
leaves the strategy to it. -/
theorem recorded_strategy_used (P : Platform) (db : Database) (issued : List Uuid)
    (hmachines : db.StrategiesOk) (hjobs : ∀ j ∈ db.jobs, j.status = .queued → j.Fits db)
    (w : System.World P)
    (hrun : Reachable (start P) (KeepsStrategies P) (System.World.init P db issued) w) :
    UsesRecorded w := by
  have hworld : RecordedWorld w := by
    refine hrun.invariant ⟨hmachines, ?_, ?_, fun t ht => (List.not_mem_nil ht).elim⟩
      fun v a v' _ hv ha hact => hv.act ha hact
    · rintro j (⟨hj, hq⟩ | ⟨t, ht, -⟩)
      · exact hjobs j hj hq
      · exact (List.not_mem_nil ht).elim
    · intro i j t u _ ht
      exact (List.not_mem_nil (List.mem_of_getElem? ht)).elim
  exact fun t ht => (hworld.threads t ht).used

/-! ## Concrete runs -/

section Runs
variable {P : Platform}

/-- The actions leave the machines alone. -/
def leavesMachines (w : System.World P) : List (Action (machine P) Label) → Bool
  | [] => true
  | a :: as =>
    match w.act (start P) a with
    | some w' => decide (w'.shared.db.machines = w.shared.db.machines) && leavesMachines w' as
    | none => false

theorem reachable_of_leavesMachines {w₀ w w' : System.World P}
    {as : List (Action (machine P) Label)}
    (hw : Reachable (start P) (KeepsStrategies P) w₀ w) (h : w.acts (start P) as = some w')
    (hlabels : ∀ label, .spawn label ∈ as → label.deletes = false)
    (hleaves : leavesMachines w as = true) : Reachable (start P) (KeepsStrategies P) w₀ w' := by
  induction as generalizing w with
  | nil =>
    cases h
    exact hw
  | cons a as ih =>
    simp only [World.acts, Option.bind_eq_some_iff] at h
    obtain ⟨v, hact, hrest⟩ := h
    simp only [leavesMachines, hact, Bool.and_eq_true, decide_eq_true_eq] at hleaves
    have hkeeps : ∀ w', w.act (start P) a = some w' → ∀ id, w.InFlight id →
        w'.shared.db.strategyOf id = w.shared.db.strategyOf id := by
      intro w' hact' id _
      obtain rfl := Option.some.inj (hact.symm.trans hact')
      unfold Database.strategyOf
      rw [hleaves.1]
    have hallowed : KeepsStrategies P w a := by
      cases a with
      | spawn label => exact hlabels label List.mem_cons_self
      | step tid input => exact hkeeps
      | crash tid => exact hkeeps
    exact ih (.tail hw hallowed hact) hrest (fun label hl => hlabels label (List.mem_cons_of_mem _ hl))
      hleaves.2

/-- Operations of a thread at the time of the sample token, each with an identifier of its
own. -/
def stepsOf (tid first count : Nat) : List (Action (machine Platform.signing) Label) :=
  (List.range count).map fun i => .step tid (Input.signing (first + i) 0)

/-- A wake that leaves the strategy to the machine, and its job. -/
def wakeActions (between : List (Action (machine Platform.signing) Label)) :
    List (Action (machine Platform.signing) Label) :=
  .spawn (.request (adminRequest (.wakeMachine (Uuid.ofNat 3).text (.typed {})))) ::
    stepsOf 0 10 14 ++ .spawn (.worker 1) :: between ++ stepsOf 1 40 9

theorem recorded_strategy_used_sample :
    ∃ w, Reachable (start Platform.signing) (KeepsStrategies Platform.signing)
        (System.World.init Platform.signing Database.installed []) w ∧
      w.threads.map (fun t => (claimedJobs t.log).length) = [0, 1] ∧
      w.threads.map (fun t => usedNames t.log) = [["etherwake"], ["etherwake", "etherwake"]] ∧
      UsesRecorded w := by
  have hacts : (((System.World.init Platform.signing Database.installed []).acts
      (start Platform.signing) (wakeActions [])).map fun w =>
        (w.threads.map fun t => (claimedJobs t.log).length, w.threads.map fun t => usedNames t.log)) =
      some ([0, 1], [["etherwake"], ["etherwake", "etherwake"]]) := by
    decide +kernel
  obtain ⟨w, hw, hthreads⟩ := Option.map_eq_some_iff.mp hacts
  obtain ⟨hclaimed, hused⟩ := Prod.mk.inj hthreads
  have hrun := reachable_of_leavesMachines .refl hw (by simp [wakeActions, stepsOf, Label.deletes, Route.deletes, adminRequest])
    (by decide +kernel)
  exact ⟨w, hrun, hclaimed, hused, recorded_strategy_used Platform.signing Database.installed []
    (by unfold Database.StrategiesOk; decide) nofun w hrun⟩

/-- A wake request, an edit of a machine, or a worker. -/
def Label.wakesOrEdits : Label → Bool
  | .request req =>
    match req.route with
    | .wakeMachine _ _ | .updateMachine _ _ | .machineEditPost _ _ => true
    | _ => false
  | .worker _ => true

/-- The machine is edited between its wake and the job: the attempt says `etherwake`, and the
worker uses `udp_broadcast`. -/
theorem recorded_strategy_edited :
    ∃ w, Reachable (start Platform.signing)
        (fun _ a => ∀ label, a = .spawn label → label.wakesOrEdits = true)
        (System.World.init Platform.signing Database.installed []) w ∧ ¬ UsesRecorded w := by
  let edit : Request := adminRequest (.updateMachine (Uuid.ofNat 3).text
    (.typed { wakeStrategy := some .udpBroadcast }))
  have hacts : (((System.World.init Platform.signing Database.installed []).acts
      (start Platform.signing) (wakeActions (.spawn (.request edit) :: stepsOf 2 60 9))).map
        fun w => decide (UsesRecorded w)) = some false := by
    decide +kernel
  obtain ⟨w, hw, huses⟩ := Option.map_eq_some_iff.mp hacts
  refine ⟨w, Reachable.of_acts hw fun a ha _ label hlabel => ?_, of_decide_eq_false huses⟩
  subst hlabel
  have hlabels : ∀ label, .spawn label ∈ wakeActions (.spawn (.request edit) :: stepsOf 2 60 9) →
      label.wakesOrEdits = true := by
    simp [wakeActions, stepsOf, Label.wakesOrEdits, adminRequest, edit]
  exact hlabels label ha

end Runs

end WolMonkey
