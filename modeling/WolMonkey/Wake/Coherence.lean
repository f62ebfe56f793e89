import Mathlib.Data.Int.ConditionallyCompleteOrder
import Mathlib.Data.List.Induction
import Mathlib.Data.List.Nodup
import Mathlib.Tactic.Linarith
import WolMonkey.Facts.Driving
import WolMonkey.Wake.FailureRecord

/-!
# Coherent attempts

A finished attempt has a time at which it finished, and only a failed or timed out one has an
error. A status is written without regard to the row it is written to, and neither the error
nor the time is ever cleared, so this rests on who writes: two transactions that wait on the
same row take turns, and a row that the first one left with a timeout is late for the second
one as well.
-/

namespace WolMonkey

open Programs Program

/-! ## Rows -/

/-- `finished_at` goes with the terminal statuses, an error with a failure or a timeout. -/
structure WakeAttempt.Coherent (a : WakeAttempt) : Prop where
  finished : a.finishedAt.isSome = true ↔ a.status.isTerminal = true
  error : a.error.isSome = true → a.status = .failed ∨ a.status = .timeout

/-- The columns that a change of the status leaves alone are the same. -/
structure WakeAttempt.Like (a b : WakeAttempt) : Prop where
  id : a.id = b.id
  machineId : a.machineId = b.machineId
  startedAt : a.startedAt = b.startedAt
  pollTimeoutS : a.pollTimeoutS = b.pollTimeoutS

/-- The rows are coherent, and no two have the same identifier. -/
structure CoherentRows (rows : List WakeAttempt) : Prop where
  coherent : ∀ a ∈ rows, a.Coherent
  ids : (rows.map (·.id)).Nodup

section Rows
variable {a b c r : WakeAttempt} {rows : List WakeAttempt} {now now' : DateTime}

theorem WakeAttempt.Coherent.error_none (h : a.Coherent) (hactive : a.status.isActive = true) :
    a.error = none := by
  cases herror : a.error with
  | none => rfl
  | some e =>
    rcases h.error (by rw [herror]; rfl) with hstatus | hstatus
    · rw [hstatus] at hactive
      cases hactive
    · rw [hstatus] at hactive
      cases hactive

theorem WakeAttempt.Like.refl (a : WakeAttempt) : a.Like a := ⟨rfl, rfl, rfl, rfl⟩

theorem WakeAttempt.Like.trans (h : a.Like b) (h' : b.Like c) : a.Like c :=
  ⟨h.id.trans h'.id, h.machineId.trans h'.machineId, h.startedAt.trans h'.startedAt,
    h.pollTimeoutS.trans h'.pollTimeoutS⟩

theorem WakeAttempt.Like.symm (h : a.Like b) : b.Like a :=
  ⟨h.id.symm, h.machineId.symm, h.startedAt.symm, h.pollTimeoutS.symm⟩

theorem WakeAttempt.Like.late (h : a.Like b) (now : DateTime) : a.late now = b.late now := by
  simp only [WakeAttempt.late, h.startedAt, h.pollTimeoutS]

/-- What is late stays late. -/
theorem WakeAttempt.late_mono (hnow : now ≤ now') (h : r.late now = true) : r.late now' = true := by
  refine decide_eq_true ?_
  have hlate : now - r.startedAt ≥ DateTime.seconds r.pollTimeoutS := of_decide_eq_true h
  linarith

theorem CoherentRows.eq_of_id (h : CoherentRows rows) (ha : a ∈ rows) (hb : b ∈ rows)
    (hid : a.id = b.id) : a = b := List.inj_on_of_nodup_map h.ids ha hb hid

theorem CoherentRows.concat (h : CoherentRows rows) (hr : r.Coherent)
    (hnew : ∀ a ∈ rows, a.id ≠ r.id) : CoherentRows (rows ++ [r]) where
  coherent a ha := by
    rcases List.mem_append.mp ha with ha | ha
    · exact h.coherent a ha
    · rw [List.mem_singleton.mp ha]
      exact hr
  ids := by
    rw [List.map_append, List.nodup_append]
    refine ⟨h.ids, List.nodup_singleton _, ?_⟩
    intro i hi j hj hij
    obtain ⟨a, ha, rfl⟩ := List.mem_map.mp hi
    have hj' : j = r.id := List.mem_singleton.mp hj
    exact hnew a ha (hij.trans hj')

/-- `ORDER BY … LIMIT 1` finds one of the rows, unless there is none. -/
theorem newestAttempt_cases (rows : List WakeAttempt) :
    (rows = [] ∧ newestAttempt rows = none) ∨ ∃ r ∈ rows, newestAttempt rows = some r := by
  induction rows using List.reverseRecOn with
  | nil => exact .inl ⟨rfl, rfl⟩
  | append_singleton rows a ih =>
    unfold newestAttempt at ih ⊢
    rw [List.foldl_append]
    rcases ih with ⟨-, hnone⟩ | ⟨b, hb, hsome⟩
    · rw [hnone]
      exact .inr ⟨a, by simp, rfl⟩
    · rw [hsome]
      by_cases hlt : b.startedAt < a.startedAt
      · exact .inr ⟨a, by simp, if_pos hlt⟩
      · exact .inr ⟨b, List.mem_append_left _ hb, if_neg hlt⟩

end Rows

/-! ## What others commit -/

/-- What a transaction that has touched some rows makes of the attempts: it adds a row that
was not there, and it leaves a row without a new error, unless the row is late. -/
structure Progress (touched : Uuid → Prop) (now : DateTime) (old new : List WakeAttempt) :
    Prop where
  kept : ∀ a ∈ old, ∃ b ∈ new, b.id = a.id
  came : ∀ b ∈ new,
    (∃ a ∈ old, b.Like a ∧ (b = a ∨ touched a.id) ∧ (b.error = a.error ∨ b.late now = true)) ∨
      (touched b.id ∧ ∀ a ∈ old, a.id ≠ b.id)

theorem Progress.refl (touched : Uuid → Prop) (now : DateTime) (rows : List WakeAttempt) :
    Progress touched now rows rows :=
  ⟨fun a ha => ⟨a, ha, rfl⟩, fun b hb => .inl ⟨b, hb, .refl b, .inl rfl, .inl rfl⟩⟩

theorem Progress.later {touched : Uuid → Prop} {now now' : DateTime} {old new : List WakeAttempt}
    (h : Progress touched now old new) (hnow : now ≤ now') : Progress touched now' old new := by
  refine ⟨h.kept, fun b hb => (h.came b hb).imp_left ?_⟩
  rintro ⟨a, ha, hlike, heq, herror⟩
  exact ⟨a, ha, hlike, heq, herror.imp_right (WakeAttempt.late_mono hnow)⟩

/-! ## What a transaction sees -/

namespace Drive

/-- The row that the transaction waits on. -/
def row? : Drive → Option WakeAttempt
  | free => none
  | chosen r | loaded r | waking r _ _ | settled r _ => some r

/-- The transaction has changed that row. -/
def changes : Drive → Bool
  | waking _ _ _ | settled _ _ => true
  | _ => false

/-- A look at the clock found the row in time. -/
def clear : Drive → Bool
  | waking _ clear _ => clear
  | settled _ late => !late
  | _ => false

/-- A look at the clock found the row late. -/
def expired : Drive → Bool
  | waking _ _ expired => expired
  | settled _ late => late
  | _ => false

/-- The last status of a settled row. -/
def settle (late : Bool) (error : Option String) (finishedAt : Option DateTime) (a : WakeAttempt) :
    WakeAttempt :=
  (a.setStatus .waking none none).setStatus (if late then .timeout else .online) error finishedAt

/-- What the transaction has made of the rows that it sees. -/
def Makes : Drive → (List WakeAttempt → List WakeAttempt) → Prop
  | waking r _ _, f => f = updateRows (·.id == r.id) (·.setStatus .waking none none)
  | settled r late, f => ∃ error finishedAt, error.isSome = late ∧ finishedAt.isSome = true ∧
      f = updateRows (·.id == r.id) (settle late error finishedAt)
  | _, f => f = id

theorem changes_of_clear {d : Drive} (h : d.clear = true) : d.changes = true := by
  cases d with
  | waking => rfl
  | settled => rfl
  | _ => cases h

/-- What a transaction knows of the row that it waits on, among the rows that it sees. -/
structure Fits (now : DateTime) (rows : List WakeAttempt) (machineId : Uuid) (d : Drive) :
    Prop where
  mem : ∀ r, d.row? = some r → r.machineId = machineId ∧ ∃ a ∈ rows, a.id = r.id
  like : ∀ r, d.row? = some r → ∀ a ∈ rows, a.id = r.id →
    a.Like r ∧ (a.error = none ∨ r.late now = true)
  clear : ∀ r, d.row? = some r → d.clear = true → ∀ a ∈ rows, a.id = r.id → a.error = none
  expired : ∀ r, d.row? = some r → d.expired = true → r.late now = true

theorem fits_free (now : DateTime) (rows : List WakeAttempt) (machineId : Uuid) :
    Fits now rows machineId free := ⟨nofun, nofun, nofun, nofun⟩

end Drive

namespace Stage

def drive : Stage → Drive
  | sent _ d => d
  | _ => .free

/-- The row that the transaction has created, before it is waited on. -/
def Shows : Stage → WakeAttempt → Prop
  | idle, _ => False
  | created own, a => (a.id = own.id ∧ Uuid.parse? own.machineId = some a.machineId) ∧
      a.status = .pending ∧ a.error = none ∧ a.finishedAt = none
  | failed own, a => (a.id = own.id ∧ Uuid.parse? own.machineId = some a.machineId) ∧
      a.status = .failed ∧ a.error.isSome = true ∧ a.finishedAt.isSome = true
  | sent own _, a => (a.id = own.id ∧ Uuid.parse? own.machineId = some a.machineId) ∧
      a.status = .sent ∧ a.error = none ∧ a.finishedAt = none

theorem Shows.coherent {g : Stage} {a : WakeAttempt} (h : g.Shows a) : a.Coherent := by
  cases g with
  | idle => exact h.elim
  | created own =>
    obtain ⟨-, hstatus, herror, hfinished⟩ := h
    exact ⟨by rw [hstatus, hfinished]; decide, by rw [herror]; exact nofun⟩
  | failed own =>
    obtain ⟨-, hstatus, -, hfinished⟩ := h
    exact ⟨by rw [hstatus, hfinished]; decide, fun _ => .inl hstatus⟩
  | sent own d =>
    obtain ⟨-, hstatus, herror, hfinished⟩ := h
    exact ⟨by rw [hstatus, hfinished]; decide, by rw [herror]; exact nofun⟩

end Stage

/-- The changes `ws` of a transaction that has created `row`. -/
structure Working (now : DateTime) (db : Database) (g : Stage) (ws : List Write)
    (row : WakeAttempt) : Prop where
  shows : g.Shows row
  new : ∀ a ∈ db.attempts, a.id ≠ row.id
  machine : ∃ m ∈ db.machines, m.id = row.machineId
  sees : ∃ f, g.drive.Makes f ∧ ∀ base : Database, (∀ a ∈ base.attempts, a.id ≠ row.id) →
    (base.after ws).attempts = f (base.attempts ++ [row])
  drive : g.drive.Fits now (db.attempts ++ [row]) row.machineId
  locked : ∃ w ∈ ws, w.attempt? = some row.id
  driven : ∀ r, g.drive.row? = some r → g.drive.changes = true → ∃ w ∈ ws, w.attempt? = some r.id

/-- The changes `ws` of a transaction in a stage. -/
structure Fits (now : DateTime) (db : Database) (g : Stage) (ws : List Write) : Prop where
  machines : ∀ base : Database, (base.after ws).machines = base.machines
  idle : g = .idle → ∀ base : Database, (base.after ws).attempts = base.attempts
  working : g ≠ .idle → ∃ row, Working now db g ws row

/-- The transactions of a thread whose work session is in a stage. -/
structure Drives (now : DateTime) (db : Database) (g : Stage) (st : Store) : Prop where
  main : st.main.status = .active → Fits now db g st.main.writes
  queue : ∀ w ∈ st.queue.writes, w.effect.spares = true

section Working
variable {now now' : DateTime} {db db' : Database} {g : Stage} {ws : List Write}
  {row : WakeAttempt} {touched : Uuid → Prop}

theorem Working.rows (h : Working now db g ws row) (hdb : CoherentRows db.attempts) :
    CoherentRows (db.attempts ++ [row]) := hdb.concat h.shows.coherent h.new

/-- What others commit does not disturb a transaction: they have not touched its rows. -/
theorem Working.rely (h : Working now db g ws row) (hnow : now ≤ now')
    (hprogress : Progress touched now' db.attempts db'.attempts)
    (hmachines : db'.machines = db.machines)
    (hapart : ∀ w ∈ ws, ∀ id, w.attempt? = some id → ¬ touched id) :
    Working now' db' g ws row := by
  obtain ⟨w, hw, hrow⟩ := h.locked
  have hfree : ¬ touched row.id := hapart w hw _ hrow
  -- a row that has come with the identifier of a row that this transaction waits on
  have hcame : ∀ r, g.drive.row? = some r → ∀ b ∈ db'.attempts, b.id = r.id →
      ∃ a ∈ db.attempts, b.Like a ∧ a.id = r.id ∧ (b = a ∨ touched r.id) ∧
        (b.error = a.error ∨ r.late now' = true) := by
    intro r hr b hb hid
    rcases hprogress.came b hb with ⟨a, ha, hlike, htouched, herror⟩ | ⟨htouched, hnot⟩
    · have haid : a.id = r.id := hlike.id.symm.trans hid
      rw [haid] at htouched
      refine ⟨a, ha, hlike, haid, htouched, herror.imp_right fun hlate => ?_⟩
      obtain ⟨hrow', -⟩ := h.drive.like r hr a (List.mem_append_left _ ha) haid
      rw [← (hlike.trans hrow').late]
      exact hlate
    · obtain ⟨-, a, ha, haid⟩ := h.drive.mem r hr
      rcases List.mem_append.mp ha with ha | ha
      · exact (hnot a ha (haid.trans hid.symm)).elim
      · rw [List.mem_singleton.mp ha] at haid
        rw [hid, ← haid] at htouched
        exact (hfree htouched).elim
  refine ⟨h.shows, fun b hb hid => ?_, ?_, h.sees, ⟨fun r hr => ?_, fun r hr b hb hid => ?_,
    fun r hr hclear b hb hid => ?_, fun r hr hexpired => ?_⟩, h.locked, h.driven⟩
  · rcases hprogress.came b hb with ⟨a, ha, hlike, -⟩ | ⟨htouched, -⟩
    · exact h.new a ha (hlike.id.symm.trans hid)
    · rw [hid] at htouched
      exact hfree htouched
  · rw [hmachines]
    exact h.machine
  · obtain ⟨hmachine, a, ha, hid⟩ := h.drive.mem r hr
    refine ⟨hmachine, ?_⟩
    rcases List.mem_append.mp ha with ha | ha
    · obtain ⟨b, hb, hba⟩ := hprogress.kept a ha
      exact ⟨b, List.mem_append_left _ hb, hba.trans hid⟩
    · exact ⟨a, List.mem_append_right _ ha, hid⟩
  · rcases List.mem_append.mp hb with hb | hb
    · obtain ⟨a, ha, hlike, haid, -, herror⟩ := hcame r hr b hb hid
      obtain ⟨hrow', hknown⟩ := h.drive.like r hr a (List.mem_append_left _ ha) haid
      refine ⟨hlike.trans hrow', ?_⟩
      rcases herror with herror | hlate
      · rw [herror]
        exact hknown.imp_right (WakeAttempt.late_mono hnow)
      · exact .inr hlate
    · obtain ⟨hlike, hknown⟩ := h.drive.like r hr b (List.mem_append_right _ hb) hid
      exact ⟨hlike, hknown.imp_right (WakeAttempt.late_mono hnow)⟩
  · rcases List.mem_append.mp hb with hb | hb
    · obtain ⟨a, ha, -, haid, heq, -⟩ := hcame r hr b hb hid
      obtain ⟨v, hv, hvrow⟩ := h.driven r hr (Drive.changes_of_clear hclear)
      obtain rfl := heq.resolve_right (hapart v hv _ hvrow)
      exact h.drive.clear r hr hclear b (List.mem_append_left _ ha) haid
    · exact h.drive.clear r hr hclear b (List.mem_append_right _ hb) hid
  · exact WakeAttempt.late_mono hnow (h.drive.expired r hr hexpired)

theorem Drive.settle_like (late : Bool) (error : Option String) (finishedAt : Option DateTime)
    (a : WakeAttempt) : (Drive.settle late error finishedAt a).Like a := ⟨rfl, rfl, rfl, rfl⟩

theorem Drive.settle_coherent {late : Bool} {error : Option String} {finishedAt : Option DateTime}
    {a : WakeAttempt} (herror : error.isSome = late) (hfinished : finishedAt.isSome = true)
    (hclear : late = false → a.error = none) :
    (Drive.settle late error finishedAt a).Coherent := by
  obtain ⟨t, rfl⟩ := Option.isSome_iff_exists.mp hfinished
  cases late with
  | true => exact ⟨iff_of_true rfl rfl, fun _ => .inr rfl⟩
  | false =>
    have hnone : error = none := by simpa using herror
    refine ⟨iff_of_true rfl rfl, fun h => ?_⟩
    simp only [Drive.settle, WakeAttempt.setStatus, hnone, hclear rfl] at h
    cases h

/-- What a transaction commits that leaves no row `waking`. -/
theorem Working.commit (h : Working now db g ws row) (hg : g.committable = true)
    (hdb : CoherentRows db.attempts) :
    CoherentRows (db.after ws).attempts ∧
      Progress (fun id => ∃ w ∈ ws, w.attempt? = some id) now db.attempts (db.after ws).attempts := by
  have hrows := h.rows hdb
  obtain ⟨f, hmakes, hsees⟩ := h.sees
  rw [hsees db h.new]
  have hsame : f = id → CoherentRows (f (db.attempts ++ [row])) ∧
      Progress (fun id => ∃ w ∈ ws, w.attempt? = some id) now db.attempts
        (f (db.attempts ++ [row])) := by
    rintro rfl
    refine ⟨hrows, fun a ha => ⟨a, List.mem_append_left _ ha, rfl⟩, fun b hb => ?_⟩
    rcases List.mem_append.mp hb with hb | hb
    · exact .inl ⟨b, hb, .refl b, .inl rfl, .inl rfl⟩
    · rw [List.mem_singleton.mp hb]
      exact .inr ⟨h.locked, h.new⟩
  cases hdrive : g.drive with
  | free => exact hsame (by rwa [hdrive] at hmakes)
  | chosen r => exact hsame (by rwa [hdrive] at hmakes)
  | loaded r => exact hsame (by rwa [hdrive] at hmakes)
  | waking r clear expired =>
    cases g with
    | sent own d =>
      obtain rfl : d = .waking r clear expired := hdrive
      cases hg
    | _ => cases hdrive
  | settled r late =>
    have hrow : g.drive.row? = some r := by rw [hdrive]; rfl
    have hdriven := h.driven r hrow (by rw [hdrive]; rfl)
    have hclear : late = false → ∀ a ∈ db.attempts ++ [row], a.id = r.id → a.error = none :=
      fun hlate => h.drive.clear r hrow (by rw [hdrive, hlate]; rfl)
    have hlate : late = true → r.late now = true :=
      fun hlate => h.drive.expired r hrow (by rw [hdrive]; exact hlate)
    rw [hdrive] at hmakes
    obtain ⟨error, finishedAt, herror, hfinished, rfl⟩ := hmakes
    refine ⟨⟨fun b hb => ?_, ?_⟩, fun a ha => ?_, fun b hb => ?_⟩
    · obtain ⟨a, ha, rfl⟩ := mem_updateRows.mp hb
      split
      · rename_i hid
        exact Drive.settle_coherent herror hfinished fun hlate => hclear hlate a ha (beq_iff_eq.mp hid)
      · exact hrows.coherent a ha
    · rw [map_updateRows fun a => (Drive.settle_like late error finishedAt a).id]
      exact hrows.ids
    · refine ⟨_, mem_updateRows.mpr ⟨a, List.mem_append_left _ ha, rfl⟩, ?_⟩
      split <;> rfl
    · obtain ⟨a, ha, rfl⟩ := mem_updateRows.mp hb
      have hid : (if a.id == r.id then Drive.settle late error finishedAt a else a).id = a.id := by
        split <;> rfl
      rcases List.mem_append.mp ha with ha' | ha'
      · refine .inl ⟨a, ha', ?_⟩
        split
        · rename_i hr
          have hr' : a.id = r.id := beq_iff_eq.mp hr
          refine ⟨Drive.settle_like late error finishedAt a, .inr (by rw [hr']; exact hdriven), ?_⟩
          cases late with
          | true =>
            rw [(Drive.settle_like true error finishedAt a).late, (h.drive.like r hrow a ha hr').1.late]
            exact .inr (hlate rfl)
          | false =>
            have hnone : error = none := by simpa using herror
            exact .inl (by simp [Drive.settle, WakeAttempt.setStatus, hnone])
        · exact ⟨.refl a, .inl rfl, .inl rfl⟩
      · rw [List.mem_singleton.mp ha'] at hid ⊢
        rw [hid]
        exact .inr ⟨h.locked, h.new⟩

/-- What others commit does not disturb a stage. -/
theorem Fits.rely (h : Fits now db g ws) (hnow : now ≤ now')
    (hprogress : Progress touched now' db.attempts db'.attempts)
    (hmachines : db'.machines = db.machines)
    (hapart : ∀ w ∈ ws, ∀ id, w.attempt? = some id → ¬ touched id) : Fits now' db' g ws := by
  refine ⟨h.machines, h.idle, fun hg => ?_⟩
  obtain ⟨row, hrow⟩ := h.working hg
  exact ⟨row, hrow.rely hnow hprogress hmachines hapart⟩

theorem fits_empty (now : DateTime) (db : Database) : Fits now db .idle [] :=
  ⟨fun _ => rfl, fun _ _ => rfl, fun h => absurd rfl h⟩

/-- Changes that have nothing to do with attempts. -/
theorem Fits.spares (h : Fits now db g ws) {vs : List Write} (hvs : ∀ v ∈ vs, v.effect.spares = true) :
    Fits now db g (ws ++ vs) := by
  have hsame : ∀ base : Database, ((base.after vs).attempts, (base.after vs).machines) =
      (base.attempts, base.machines) := fun base => untouched_attempts_of_spares.after hvs base
  have hattempts : ∀ base : Database, (base.after vs).attempts = base.attempts := fun base =>
    congrArg Prod.fst (hsame base)
  refine ⟨fun base => ?_, fun hg base => ?_, fun hg => ?_⟩
  · rw [Database.after_append]
    exact (congrArg Prod.snd (hsame _)).trans (h.machines base)
  · rw [Database.after_append, hattempts]
    exact h.idle hg base
  · obtain ⟨row, hrow⟩ := h.working hg
    obtain ⟨f, hmakes, hsees⟩ := hrow.sees
    refine ⟨row, hrow.shows, hrow.new, hrow.machine, ⟨f, hmakes, fun base hbase => ?_⟩, hrow.drive,
      ?_, fun r hr hchanges => ?_⟩
    · rw [Database.after_append, hattempts]
      exact hsees base hbase
    · obtain ⟨w, hw, hwrow⟩ := hrow.locked
      exact ⟨w, List.mem_append_left _ hw, hwrow⟩
    · obtain ⟨w, hw, hwrow⟩ := hrow.driven r hr hchanges
      exact ⟨w, List.mem_append_left _ hw, hwrow⟩

end Working

/-! ## One statement -/

section Statements
variable {P : Platform} {inp : Input} {locked : List Uuid} {now : DateTime} {db : Database}
  {g : Stage} {ws : List Write} {row : WakeAttempt} {own : Own}

/-- A new attempt. -/
theorem Fits.insert (h : Fits now db .idle ws) {f : AttemptFields} {x : Executed (.attemptInsert f)}
    (hrun : (Stmt.attemptInsert f).run P inp locked (db.after ws) = .ok x) :
    Fits now db (.created ⟨x.answer, f.machineId⟩) (ws ++ x.writes) := by
  simp only [Stmt.run, bind_eq_ok, uuidParam_eq_ok, accepted_eq_ok, require_eq_ok, pure_eq_ok] at hrun
  obtain ⟨machineId, hmachineId, actorType, -, actorId, -, strategy, -, -, -, -, hnew, -, hmachine,
    rfl⟩ := hrun
  rw [h.idle rfl] at hnew
  rw [h.machines] at hmachine
  refine ⟨fun base => ?_, (by simp), fun _ => ⟨_, ⟨⟨rfl, hmachineId⟩, rfl, rfl, rfl⟩, fun a ha => ?_, ?_,
    ⟨id, rfl, fun base _ => ?_⟩, Drive.fits_free _ _ _,
    ⟨_, List.mem_append_right _ (List.mem_singleton_self _), rfl⟩, (by rintro _ ⟨⟩)⟩⟩
  · rw [Database.after_append]
    exact h.machines base
  · simpa using (List.any_eq_false.mp (Bool.not_eq_true' _ |>.mp hnew)) a ha
  · obtain ⟨m, hm, hid⟩ := List.any_eq_true.mp hmachine
    exact ⟨m, hm, beq_iff_eq.mp hid⟩
  · rw [Database.after_append]
    exact congrArg (· ++ [_]) (h.idle rfl base)

/-- The own row changes, and no row of before. -/
theorem updateRows_concat {base : List WakeAttempt} {p : WakeAttempt → Bool}
    {F : WakeAttempt → WakeAttempt} (hbase : ∀ a ∈ base, p a = false) (hrow : p row = true) :
    updateRows p F (base ++ [row]) = base ++ [F row] := by
  have hsame : updateRows p F base = base := updateRows_eq_self fun a ha hp => by
    rw [hbase a ha] at hp
    cases hp
  unfold updateRows at hsame ⊢
  rw [List.map_append, hsame, List.map_singleton, if_pos hrow]

theorem updateRows_updateRows {p : WakeAttempt → Bool} {F G : WakeAttempt → WakeAttempt}
    (hG : ∀ a, p (G a) = p a) (rows : List WakeAttempt) :
    updateRows p F (updateRows p G rows) = updateRows p (fun a => F (G a)) rows := by
  unfold updateRows
  rw [List.map_map]
  refine List.map_congr_left fun a _ => ?_
  by_cases hp : p a = true
  · simp only [Function.comp_apply, hp, if_true, hG]
  · simp only [Function.comp_apply, hp, Bool.false_eq_true, if_false]

/-- The row that the transaction has created changes. -/
theorem Working.update_own (h : Working now db (.created own) ws row) {g : Stage}
    {status : AttemptStatus} {error : Option String} {finishedAt : Option DateTime}
    (hdrive : g.drive = .free) (hshows : g.Shows (row.setStatus status error finishedAt)) :
    Working now db g (ws ++ [.setAttemptStatus own.id status error finishedAt])
      (row.setStatus status error finishedAt) := by
  obtain ⟨f, rfl, hsees⟩ := h.sees
  have hid : row.id = own.id := h.shows.1.1
  refine ⟨hshows, h.new, h.machine, ⟨id, by rw [hdrive]; rfl, fun base hbase => ?_⟩, ?_, ?_, ?_⟩
  · rw [Database.after_append]
    show updateRows (·.id == own.id) _ (base.after ws).attempts = _
    rw [hsees base hbase]
    refine updateRows_concat (fun a ha => ?_) (beq_iff_eq.mpr hid)
    rw [← hid]
    exact beq_eq_false_iff_ne.mpr (hbase a ha)
  · rw [hdrive]
    exact Drive.fits_free _ _ _
  · obtain ⟨w, hw, hwrow⟩ := h.locked
    exact ⟨w, List.mem_append_left _ hw, hwrow⟩
  · rw [hdrive]
    exact nofun

/-- The row that the transaction waits on changes. -/
theorem Working.update_row {d d' : Drive} (h : Working now db (.sent own d) ws row)
    {r : WakeAttempt} {status : AttemptStatus} {error : Option String}
    {finishedAt : Option DateTime} (hmakes : ∀ f, d.Makes f → d'.Makes fun rows =>
      updateRows (·.id == r.id) (·.setStatus status error finishedAt) (f rows))
    (hrow : d'.row? = some r) (hfits : d'.Fits now (db.attempts ++ [row]) row.machineId) :
    Working now db (.sent own d') (ws ++ [.setAttemptStatus r.id status error finishedAt]) row := by
  obtain ⟨f, hf, hsees⟩ := h.sees
  refine ⟨h.shows, h.new, h.machine, ⟨_, hmakes f hf, fun base hbase => ?_⟩, hfits, ?_,
    fun r' hr' _ => ?_⟩
  · rw [Database.after_append]
    show updateRows (·.id == r.id) _ (base.after ws).attempts = _
    rw [hsees base hbase]
  · obtain ⟨w, hw, hwrow⟩ := h.locked
    exact ⟨w, List.mem_append_left _ hw, hwrow⟩
  · obtain rfl : r = r' := Option.some.inj (hrow.symm.trans hr')
    exact ⟨_, List.mem_append_right _ (List.mem_singleton_self _), rfl⟩

/-- A change of a status that a stage allows leads to the next stage. -/
theorem Fits.update (h : Fits now db g ws) {id : String} {status : AttemptStatus}
    {error : Option String} {finishedAt : Option DateTime}
    {x : Executed (.attemptUpdateStatus id status error finishedAt)}
    (hupdates : g.updates id status error finishedAt)
    (hrun : (Stmt.attemptUpdateStatus id status error finishedAt).run P inp locked (db.after ws) =
      .ok x) :
    Fits now db (g.updated status) (ws ++ x.writes) := by
  simp only [Stmt.run, bind_eq_ok, uuidParam_eq_ok, require_eq_ok, pure_eq_ok] at hrun
  obtain ⟨u, hu, -, -, rfl⟩ := hrun
  have hmachines : ∀ base : Database,
      (base.after (ws ++ [.setAttemptStatus u status error finishedAt])).machines = base.machines := by
    intro base
    rw [Database.after_append]
    exact h.machines base
  have hkeep : ∀ {g' : Stage} {row' : WakeAttempt}, g' ≠ .idle →
      Working now db g' (ws ++ [.setAttemptStatus u status error finishedAt]) row' →
        Fits now db g' (ws ++ [.setAttemptStatus u status error finishedAt]) := fun hne hrow =>
    ⟨hmachines, fun h => absurd h hne, fun _ => ⟨_, hrow⟩⟩
  cases g with
  | idle => exact hupdates.elim
  | failed own => exact hupdates.elim
  | created own =>
    obtain ⟨row, hrow⟩ := h.working (by simp)
    have hstatus : status = .sent ∨ status = .failed := by
      cases status <;> first
        | exact hupdates.elim
        | simp
    rcases hstatus with rfl | rfl
    · obtain ⟨hid, rfl, rfl⟩ := hupdates
      obtain rfl : own.id = u := Option.some.inj (hid.symm.trans hu)
      refine hkeep (by rintro ⟨⟩) (hrow.update_own rfl ⟨hrow.shows.1, rfl, ?_, ?_⟩)
      · exact hrow.shows.2.2.1
      · exact hrow.shows.2.2.2
    · obtain ⟨hid, herror, hfinished⟩ := hupdates
      obtain rfl : own.id = u := Option.some.inj (hid.symm.trans hu)
      obtain ⟨e, rfl⟩ := Option.isSome_iff_exists.mp herror
      obtain ⟨t, rfl⟩ := Option.isSome_iff_exists.mp hfinished
      exact hkeep (by rintro ⟨⟩) (hrow.update_own rfl ⟨hrow.shows.1, rfl, rfl, rfl⟩)
  | sent own d =>
    obtain ⟨row, hrow⟩ := h.working (by simp)
    cases d with
    | free => exact hupdates.elim
    | chosen r => exact hupdates.elim
    | settled r late => exact hupdates.elim
    | loaded r =>
      have hstatus : status = .waking := by
        cases status <;> first
          | exact hupdates.elim
          | rfl
      subst hstatus
      obtain ⟨hid, rfl, rfl⟩ := hupdates
      obtain rfl : r.id = u := Option.some.inj (hid.symm.trans hu)
      refine hkeep (by rintro ⟨⟩) (hrow.update_row (fun f hf => ?_) rfl ?_)
      · subst hf
        rfl
      · exact ⟨hrow.drive.mem, hrow.drive.like, (by rintro _ _ ⟨⟩), (by rintro _ _ ⟨⟩)⟩
    | waking r clear expired =>
      have hsettled : ∀ late, (late = false → clear = true) → (late = true → expired = true) →
          Drive.Fits now (db.attempts ++ [row]) row.machineId (.settled r late) := by
        intro late hclear hexpired
        refine ⟨hrow.drive.mem, hrow.drive.like, fun r' hr' h => ?_, fun r' hr' h => ?_⟩
        · exact hrow.drive.clear r' hr' (hclear (Bool.not_eq_true' _ |>.mp h))
        · exact hrow.drive.expired r' hr' (hexpired h)
      have hmakes : ∀ late, error.isSome = late → finishedAt.isSome = true →
          status = (if late then .timeout else .online) → ∀ f, (Drive.waking r clear expired).Makes f →
            (Drive.settled r late).Makes fun rows =>
              updateRows (·.id == r.id) (·.setStatus status error finishedAt) (f rows) := by
        rintro late herror hfinished rfl f rfl
        refine ⟨error, finishedAt, herror, hfinished, funext fun rows => ?_⟩
        exact updateRows_updateRows (G := (·.setStatus .waking none none)) (fun _ => rfl) rows
      have hstatus : status = .online ∨ status = .timeout := by
        cases status <;> first
          | exact hupdates.elim
          | simp
      rcases hstatus with rfl | rfl
      · obtain ⟨hid, hclear, rfl, hfinished⟩ := hupdates
        obtain rfl : r.id = u := Option.some.inj (hid.symm.trans hu)
        exact hkeep (by rintro ⟨⟩) (hrow.update_row (hmakes false rfl hfinished rfl) rfl
          (hsettled false (fun _ => hclear) (by simp)))
      · obtain ⟨hid, hexpired, herror, hfinished⟩ := hupdates
        obtain rfl : r.id = u := Option.some.inj (hid.symm.trans hu)
        exact hkeep (by rintro ⟨⟩) (hrow.update_row (hmakes true herror hfinished rfl) rfl
          (hsettled true (by simp) fun _ => hexpired))

/-- What a transaction sees that has changed no row it waits on. -/
theorem Working.view (h : Working now db g ws row) (hsame : g.drive.changes = false) :
    (db.after ws).attempts = db.attempts ++ [row] := by
  obtain ⟨f, hmakes, hsees⟩ := h.sees
  rw [hsees db h.new]
  cases hdrive : g.drive with
  | waking r clear expired => rw [hdrive] at hsame; cases hsame
  | settled r late => rw [hdrive] at hsame; cases hsame
  | free => rw [hdrive] at hmakes; rw [hmakes]; rfl
  | chosen r => rw [hdrive] at hmakes; rw [hmakes]; rfl
  | loaded r => rw [hdrive] at hmakes; rw [hmakes]; rfl

/-- The same changes, and more knowledge of the row. -/
theorem Working.learn {d d' : Drive} (h : Working now db (.sent own d) ws row)
    (hmakes : ∀ f, d.Makes f → d'.Makes f) (hfits : d'.Fits now (db.attempts ++ [row]) row.machineId)
    (hdriven : ∀ r, d'.row? = some r → d'.changes = true → d.row? = some r ∧ d.changes = true) :
    Working now db (.sent own d') ws row := by
  obtain ⟨f, hf, hsees⟩ := h.sees
  refine ⟨h.shows, h.new, h.machine, ⟨f, hmakes f hf, hsees⟩, hfits, h.locked, fun r hr hc => ?_⟩
  obtain ⟨hr', hc'⟩ := hdriven r hr hc
  exact h.driven r hr' hc'

/-- The attempt that `get_active_for_machine` picks. -/
theorem Working.choose (h : Working now db (.sent own .free) ws row)
    (hdb : CoherentRows db.attempts) {x : Executed (.attemptActive own.machineId)}
    (hrun : (Stmt.attemptActive own.machineId).run P inp locked (db.after ws) = .ok x) :
    ∃ r, x.answer = some r ∧ Working now db (.sent own (.chosen r)) ws row := by
  have hrows := h.rows hdb
  have hview := h.view rfl
  obtain ⟨⟨-, hmachineId⟩, hstatus, hnone, -⟩ := h.shows
  simp only [Stmt.run, bind_eq_ok, uuidParam_eq_ok, pure_eq_ok] at hrun
  obtain ⟨machineId, hparsed, rfl⟩ := hrun
  obtain rfl : row.machineId = machineId := Option.some.inj (hmachineId.symm.trans hparsed)
  rw [hview]
  rcases newestAttempt_cases ((db.attempts ++ [row]).filter fun a =>
      a.machineId == row.machineId && a.status.isActive) with ⟨hempty, -⟩ | ⟨r, hr, hnewest⟩
  · -- the own attempt was sent, and counts as active
    have hmem : row ∈ (db.attempts ++ [row]).filter fun a =>
        a.machineId == row.machineId && a.status.isActive :=
      List.mem_filter.mpr ⟨by simp, by rw [hstatus]; simp [AttemptStatus.isActive]⟩
    rw [hempty] at hmem
    cases hmem
  · obtain ⟨hr, hfilter⟩ := List.mem_filter.mp hr
    simp only [Bool.and_eq_true, beq_iff_eq] at hfilter
    refine ⟨r, hnewest, h.learn (fun _ hf => hf) ⟨?_, ?_, (by rintro _ _ ⟨⟩), (by rintro _ _ ⟨⟩)⟩
      (by rintro _ _ ⟨⟩)⟩
    · intro r' hr'
      obtain rfl : r = r' := Option.some.inj hr'
      exact ⟨hfilter.1, r, hr, rfl⟩
    · intro r' hr' a ha hid
      obtain rfl : r = r' := Option.some.inj hr'
      obtain rfl : a = r := hrows.eq_of_id ha hr hid
      exact ⟨.refl a, .inl ((hrows.coherent a ha).error_none hfilter.2)⟩

/-- The chosen attempt is loaded. -/
theorem Working.load {c r : WakeAttempt} (h : Working now db (.sent own (.chosen c)) ws row)
    {id : String} (hid : Uuid.parse? id = some c.id) {x : Executed (.attemptGet id)}
    (hrun : (Stmt.attemptGet id).run P inp locked (db.after ws) = .ok x)
    (hanswer : x.answer = some r) :
    r.id = c.id ∧ Working now db (.sent own (.loaded r)) ws row := by
  have hview := h.view rfl
  simp only [Stmt.run, bind_eq_ok, uuidParam_eq_ok, pure_eq_ok] at hrun
  obtain ⟨u, hu, rfl⟩ := hrun
  obtain rfl : c.id = u := Option.some.inj (hid.symm.trans hu)
  have hfind : (db.attempts ++ [row]).find? (·.id == c.id) = some r := by
    rw [← hview]
    exact hanswer
  have hfound := List.find?_some hfind
  have hrid : r.id = c.id := beq_iff_eq.mp hfound
  obtain ⟨hlike, -⟩ := h.drive.like c rfl r (List.mem_of_find?_eq_some hfind) hrid
  refine ⟨hrid, h.learn (fun _ hf => hf) ⟨?_, ?_, (by rintro _ _ ⟨⟩), (by rintro _ _ ⟨⟩)⟩
    (by rintro _ _ ⟨⟩)⟩
  · intro r' hr'
    obtain rfl : r = r' := Option.some.inj hr'
    obtain ⟨hmachine, a, ha, haid⟩ := h.drive.mem c rfl
    exact ⟨hlike.machineId.trans hmachine, a, ha, haid.trans hrid.symm⟩
  · intro r' hr' a ha haid
    obtain rfl : r = r' := Option.some.inj hr'
    obtain ⟨halike, hknown⟩ := h.drive.like c rfl a ha (haid.trans hrid)
    rw [← hlike.late] at hknown
    exact ⟨halike.trans hlike.symm, hknown⟩

/-- A look at the clock. -/
theorem Fits.look (h : Fits now db g ws) : Fits now db (g.look now) ws := by
  unfold Stage.look
  split
  · rename_i own r clear expired
    obtain ⟨row, hrow⟩ := h.working nofun
    by_cases hlate : r.late now = true
    · rw [if_pos hlate]
      refine ⟨h.machines, nofun, fun _ => ⟨row, hrow.learn (fun _ hf => hf)
        ⟨hrow.drive.mem, hrow.drive.like, hrow.drive.clear, fun r' hr' _ => ?_⟩
        fun r' hr' _ => ⟨hr', rfl⟩⟩⟩
      obtain rfl : r = r' := Option.some.inj hr'
      exact hlate
    · rw [if_neg hlate]
      refine ⟨h.machines, nofun, fun _ => ⟨row, hrow.learn (fun _ hf => hf)
        ⟨hrow.drive.mem, hrow.drive.like, fun r' hr' _ a ha hid => ?_, hrow.drive.expired⟩
        fun r' hr' _ => ⟨hr', rfl⟩⟩⟩
      obtain rfl : r = r' := Option.some.inj hr'
      exact (hrow.drive.like r rfl a ha hid).2.resolve_right hlate
  · exact h

/-- A statement of the work session that succeeds. -/
theorem Fits.stmt (h : Fits now db g ws) (hdb : CoherentRows db.attempts) {s : Stmt}
    (hpermits : g.permits (.stmt .main s)) {x : Executed s}
    (hrun : s.run P inp locked (db.after ws) = .ok x) :
    g.possible (.stmt .main s) (.ok x.answer) ∧
      Fits now db (g.next (.stmt .main s) (.ok x.answer)) (ws ++ x.writes) := by
  -- a statement that has nothing to do with attempts
  have hsame : (∀ e, s.effect = some e → e.spares = true) → Fits now db g (ws ++ x.writes) :=
    fun hspares => h.spares fun w hw => hspares _ (Stmt.run_effect x hrun w hw)
  have hread : ∀ g', s.effect = none → Fits now db g' ws → Fits now db g' (ws ++ x.writes) :=
    fun g' hnone hfits => hfits.spares fun w hw =>
      absurd (hnone.symm.trans (Stmt.run_effect x hrun w hw)) (by simp)
  cases s with
  | attemptInsert f =>
    obtain ⟨-, rfl⟩ := hpermits
    exact ⟨trivial, h.insert hrun⟩
  | attemptUpdateStatus id status error finishedAt =>
    exact ⟨trivial, h.update hpermits.2 hrun⟩
  | attemptActive machineId =>
    by_cases hg : ∃ own, g = .sent own .free
    · obtain ⟨own, rfl⟩ := hg
      obtain rfl : machineId = own.machineId := hpermits own rfl
      obtain ⟨row, hrow⟩ := h.working (by simp)
      obtain ⟨r, hanswer, hrow'⟩ := hrow.choose hdb hrun
      rw [hanswer]
      refine ⟨fun _ _ => (by simp), hread _ rfl ?_⟩
      exact ⟨h.machines, (by rintro ⟨⟩), fun _ => ⟨row, hrow'⟩⟩
    · refine ⟨fun own hown => (hg ⟨own, hown⟩).elim, hread _ rfl ?_⟩
      cases hanswer : x.answer with
      | none => exact h
      | some r =>
        show Fits now db (g.choose r) ws
        unfold Stage.choose
        split
        · exact (hg ⟨_, rfl⟩).elim
        · exact h
  | attemptGet id =>
    cases hanswer : x.answer with
    | none => exact ⟨trivial, hread _ rfl h⟩
    | some r =>
      by_cases hg : ∃ own c, g = .sent own (.chosen c)
      · obtain ⟨own, c, rfl⟩ := hg
        obtain ⟨row, hrow⟩ := h.working (by simp)
        obtain ⟨hid, hrow'⟩ := hrow.load (hpermits own c rfl) hrun hanswer
        refine ⟨fun own' c' h => ?_, hread _ rfl ⟨h.machines, (by rintro ⟨⟩), fun _ => ⟨row, hrow'⟩⟩⟩
        cases h
        exact hid
      · refine ⟨fun own c h => (hg ⟨own, c, h⟩).elim, hread _ rfl ?_⟩
        show Fits now db (g.load r) ws
        unfold Stage.load
        split
        · exact (hg ⟨_, _, rfl⟩).elim
        · exact h
  | attemptRefresh id =>
    refine ⟨?_, hread _ rfl h⟩
    simp only [Stmt.run] at hrun
    split at hrun
    · rename_i a hfind
      obtain rfl := pure_eq_ok.mp hrun
      have hfound := List.find?_some hfind
      exact beq_iff_eq.mp hfound
    · cases hrun
  | machineGet id =>
    refine ⟨?_, hread _ rfl h⟩
    rintro own r rfl hid hnone
    obtain ⟨row, hrow⟩ := h.working (by simp)
    simp only [Stmt.run, bind_eq_ok, uuidParam_eq_ok, pure_eq_ok] at hrun
    obtain ⟨u, hu, rfl⟩ := hrun
    obtain rfl : r.machineId = u := Option.some.inj (hid.symm.trans hu)
    obtain ⟨m, hm, hmid⟩ := hrow.machine
    rw [h.machines] at hnone
    refine List.find?_eq_none.mp hnone m hm (beq_iff_eq.mpr (hmid.trans ?_))
    exact (hrow.drive.mem r rfl).1.symm
  | _ => exact ⟨trivial, hsame hpermits⟩

end Statements

/-! ## One operation of a thread -/

section Operations
variable {P : Platform} {op : Op} {inp : Input} {others : List Store} {sh : Shared} {st : Store}
  {g : Stage} {now : DateTime}

/-- A statement that fails. -/
theorem Stage.next_error (g : Stage) (slot : Slot) (s : Stmt) (e : PyExc) :
    g.next (.stmt slot s) (.error e) = g := by
  cases slot <;> cases s <;> rfl

theorem Stage.possible_error (g : Stage) (slot : Slot) (s : Stmt) (e : PyExc) :
    g.possible (.stmt slot s) (.error e) := by
  cases slot <;> cases s <;> trivial

/-- Statements of the job queue. -/
theorem Stage.next_queue (g : Stage) (s : Stmt) (r : app.Reply (.stmt .queue s)) :
    g.next (.stmt .queue s) r = g := by
  cases s <;> rfl

theorem Stage.possible_queue (g : Stage) (s : Stmt) (r : app.Reply (.stmt .queue s)) :
    g.possible (.stmt .queue s) r := by
  cases s <;> trivial

theorem Stage.spares_queue {g : Stage} {s : Stmt} (h : g.permits (.stmt .queue s)) :
    ∀ e, s.effect = some e → e.spares = true := by
  cases s <;> first
    | exact h
    | exact nomatch h.1

variable (P inp others) in
/-- The transactions after a statement. -/
theorem Drives.stmt (h : Drives now sh.db g st) (hdb : CoherentRows sh.db.attempts) {slot : Slot}
    {s : Stmt} (hpermits : g.permits (.stmt slot s)) :
    let r := executeStmt P slot s inp others sh st
    g.possible (.stmt slot s) r.1 ∧ Drives now sh.db (g.next (.stmt slot s) r.1) r.2 := by
  rcases executeStmt_cases P slot inp others sh st s with ⟨e, status, hexec, hstatus⟩ |
    ⟨x, hactive, -, hrun, hexec⟩
  · simp only [hexec]
    rw [Stage.next_error]
    refine ⟨Stage.possible_error g slot s _, ?_⟩
    cases slot with
    | main =>
      refine ⟨fun hactive => h.main ?_, h.queue⟩
      by_contra hne
      exact hstatus (.inr hne) hactive
    | queue => exact ⟨h.main, h.queue⟩
  · simp only [hexec]
    cases slot with
    | main =>
      obtain ⟨hpossible, hfits⟩ := (h.main hactive).stmt hdb hpermits hrun
      exact ⟨hpossible, fun _ => hfits, h.queue⟩
    | queue =>
      rw [Stage.next_queue]
      refine ⟨Stage.possible_queue g s _, h.main, fun w hw => ?_⟩
      rcases List.mem_append.mp hw with hw | hw
      · exact h.queue w hw
      · exact Stage.spares_queue hpermits _ (Stmt.run_effect x hrun w hw)

variable (P inp others) in
/-- What an operation makes of the tables. -/
theorem Drives.commits (h : Drives now sh.db g st) (hdb : CoherentRows sh.db.attempts)
    (hpermits : g.permits op) :
    let db' := (executeOp P op inp others sh st).2.1.db
    db'.machines = sh.db.machines ∧ CoherentRows db'.attempts ∧
      Progress (fun id => st.Touches Write.attempt? id) now sh.db.attempts db'.attempts := by
  have hsame : ∀ db' : Database, db'.attempts = sh.db.attempts → db'.machines = sh.db.machines →
      db'.machines = sh.db.machines ∧ CoherentRows db'.attempts ∧
        Progress (fun id => st.Touches Write.attempt? id) now sh.db.attempts db'.attempts := by
    intro db' hattempts hmachines
    rw [hattempts]
    exact ⟨hmachines, hdb, .refl _ _ _⟩
  by_cases hcommit : ∃ slot, op = .commit slot
  swap
  · have hkept : (executeOp P op inp others sh st).2.1.db = sh.db :=
      executeOp_db fun slot hslot => hcommit ⟨slot, hslot⟩
    exact hsame _ (by rw [hkept]) (by rw [hkept])
  obtain ⟨slot, rfl⟩ := hcommit
  rcases (executeCommit_cases slot inp sh st).1 with hdb' | ⟨hactive, hdb'⟩
  · exact hsame _ (by simp only [executeOp, hdb']) (by simp only [executeOp, hdb'])
  simp only [executeOp, hdb']
  cases slot with
  | queue =>
    have hspared := untouched_attempts_of_spares.after h.queue sh.db
    exact hsame _ (congrArg Prod.fst hspared) (congrArg Prod.snd hspared)
  | main =>
    have hfits := h.main hactive
    by_cases hg : g = .idle
    · exact hsame _ (hfits.idle hg _) (hfits.machines _)
    · obtain ⟨row, hrow⟩ := hfits.working hg
      obtain ⟨hcoherent, hprogress⟩ := hrow.commit hpermits hdb
      refine ⟨hfits.machines _, hcoherent, hprogress.kept, fun b hb => ?_⟩
      have htouches : ∀ id, (∃ w ∈ st.main.writes, w.attempt? = some id) →
          st.Touches Write.attempt? id := fun id hw => ⟨.main, hw⟩
      rcases hprogress.came b hb with ⟨a, ha, hlike, heq, herror⟩ | ⟨htouched, hnot⟩
      · exact .inl ⟨a, ha, hlike, heq.imp_right (htouches _), herror⟩
      · exact .inr ⟨htouches _ htouched, hnot⟩

/-- An empty work session. -/
theorem Drives.reset {db : Database} (h : Drives now db g st) (now' : DateTime) (db' : Database) :
    Drives now' db' .idle (st.setTx .main {}) :=
  ⟨fun _ => fits_empty now' db', h.queue⟩

theorem Drives.resetQueue {db : Database} (h : Drives now db g st) :
    Drives now db g (st.setTx .queue {}) :=
  ⟨h.main, fun _ hw => (List.not_mem_nil hw).elim⟩

variable (P others) in
/-- The thread goes on in the next stage; only the commit of the work session changes what it
sees of the attempts. -/
theorem Drives.step (h : Drives now sh.db g st) (hdb : CoherentRows sh.db.attempts)
    (hnow : inp.now = now) (hpermits : g.permits op) {now' : DateTime} (hlater : now ≤ now') :
    let r := executeOp P op inp others sh st
    g.possible op r.1 ∧ Drives now' r.2.1.db (g.next op r.1) r.2.2 := by
  have hlate : ∀ {g' : Stage} {st' : Store} {db' : Database}, Drives now sh.db g' st' →
      db'.attempts = sh.db.attempts → db'.machines = sh.db.machines → Drives now' db' g' st' := by
    intro g' st' db' hdrives hattempts hmachines
    refine ⟨fun hactive => (hdrives.main hactive).rely hlater ?_ hmachines
      fun _ _ _ _ => not_false, hdrives.queue⟩
    rw [hattempts]
    exact .refl _ _ _
  cases op with
  | stmt slot s =>
    obtain ⟨hpossible, hdrives⟩ := h.stmt P inp others hdb hpermits
    refine ⟨hpossible, hlate hdrives ?_ ?_⟩
    · simp only [executeOp]
      split <;> rfl
    · simp only [executeOp]
      split <;> rfl
  | commit slot =>
    obtain ⟨hdb', hst'⟩ := executeCommit_cases slot inp sh st
    refine ⟨trivial, ?_⟩
    cases slot with
    | main =>
      rcases hst' with hst' | ⟨hinactive, hst', -⟩
      · simp only [executeOp, hst']
        exact h.reset now' _
      · simp only [executeOp, hst']
        refine ⟨fun hactive => ?_, h.queue⟩
        rw [show st.main.status = .inactive from hinactive] at hactive
        cases hactive
    | queue =>
      have hkept := h.commits P inp others hdb hpermits
      have hspared := untouched_attempts_of_spares.after h.queue sh.db
      have hrows : (executeCommit .queue inp sh st).2.1.db.attempts = sh.db.attempts := by
        rcases hdb' with hdb' | ⟨-, hdb'⟩
        · rw [hdb']
        · rw [hdb']
          exact congrArg Prod.fst hspared
      refine hlate ?_ hrows hkept.1
      rcases hst' with hst' | ⟨-, hst', -⟩
      · simp only [executeOp, hst']
        exact h.resetQueue
      · simp only [executeOp, hst']
        exact h
  | rollback slot =>
    simp only [executeOp]
    cases slot with
    | main => split <;> exact ⟨trivial, h.reset now' _⟩
    | queue => split <;> exact ⟨trivial, hlate h.resetQueue rfl rfl⟩
  | close slot =>
    cases slot with
    | main => exact ⟨trivial, h.reset now' _⟩
    | queue => exact ⟨trivial, hlate h.resetQueue rfl rfl⟩
  | now =>
    refine ⟨trivial, hlate ⟨fun hactive => ?_, h.queue⟩ rfl rfl⟩
    have hlook := (h.main hactive).look
    rw [← hnow] at hlook ⊢
    exact hlook
  | send strategy mac interface broadcast =>
    simp only [executeOp]
    split <;> exact ⟨trivial, hlate h rfl rfl⟩
  | checkLoginRate ip => exact ⟨trivial, hlate h rfl rfl⟩
  | _ => exact ⟨trivial, hlate h rfl rfl⟩

end Operations

/-! ## All threads -/

section Worlds
variable {P : Platform} {clock : Nat → DateTime}

/-- The actions of wake requests and workers, under a clock. -/
def WakesUnder (P : Platform) (clock : Nat → DateTime) (w : System.World P) :
    Action (machine P) Label → Prop
  | .spawn label => label.wakes = true
  | .step _ input => input.now = clock w.clock
  | .crash _ => True

/-- A thread that can still do something follows the stages. -/
def FollowsStages (P : Platform) (clock : Nat → DateTime) (sh : Shared) (n : Nat)
    (t : Thread (machine P) Label Result) : Prop :=
  t.program = .stuck ∨
    (t.Obeys driving (fun _ => Stage.idle) (fun _ _ _ => True) (fun _ _ _ => True) ∧
      Drives (clock n) sh.db (t.ghost driving fun _ => Stage.idle) t.store)

/-- What holds in every world of a run. -/
structure CoherentWorld (P : Platform) (clock : Nat → DateTime) (w : System.World P) : Prop where
  rows : CoherentRows w.shared.db.attempts
  apart : w.Apart (Store.Apart Write.attempt?)
  threads : ∀ t ∈ w.threads, FollowsStages P clock w.shared w.clock t

theorem FollowsStages.of_call {sh : Shared} {n : Nat} {t : Thread (machine P) Label Result} {op : Op}
    {next : app.Reply op → Code Result} (h : FollowsStages P clock sh n t)
    (hp : t.program = .call op next) :
    t.Obeys driving (fun _ => Stage.idle) (fun _ _ _ => True) (fun _ _ _ => True) ∧
      Drives (clock n) sh.db (t.ghost driving fun _ => Stage.idle) t.store := by
  rcases h with h | h
  · rw [hp] at h
    cases h
  · exact h

theorem CoherentWorld.act (hclock : Monotone clock) {w w' : System.World P}
    {a : Action (machine P) Label} (h : CoherentWorld P clock w) (hallowed : WakesUnder P clock w a)
    (hact : w.act (start P) a = some w') : CoherentWorld P clock w' := by
  have hlater : clock w.clock ≤ clock (w.clock + 1) := hclock (Nat.le_succ _)
  refine ⟨?_, World.apart_rows exclusive_attempt h.apart hact,
    World.each_act h.threads hact ?_ (fun t _ => .inl rfl) ?_ ?_⟩
  · rcases World.act_cases (start P) hact with ⟨label, -, rfl⟩ | ⟨tid, t, -, -, -, rfl⟩ |
      ⟨tid, input, t, op, next, rfl, ht, hp, -, rfl⟩
    · exact h.rows
    · exact h.rows
    · obtain ⟨hobeys, hdrives⟩ := (h.threads t (List.mem_of_getElem? ht)).of_call hp
      exact (hdrives.commits P _ _ h.rows (hobeys.permits hp)).2.1
  · rintro label rfl
    exact .inr ⟨drives_start hallowed, fun _ => fits_empty _ _, fun _ hv => (List.not_mem_nil hv).elim⟩
  · rintro tid input t op next rfl ht hp - hfollows
    obtain ⟨hobeys, hdrives⟩ := hfollows.of_call hp
    obtain ⟨hpossible, hnext⟩ := hdrives.step P (w.others tid) h.rows hallowed (hobeys.permits hp) hlater
    refine .inr ⟨?_, hnext⟩
    rw [Thread.Obeys, hp] at hobeys
    exact Program.Obeys.next hobeys hpossible
  · rintro tid input t op next j u rfl ht hp - hfollows hj hu hothers
    rcases hothers with hstuck | ⟨hobeys', hdrives'⟩
    · exact .inl hstuck
    obtain ⟨hobeys, hdrives⟩ := hfollows.of_call hp
    obtain ⟨hmachines, -, hprogress⟩ := hdrives.commits P input (w.others tid) h.rows (hobeys.permits hp)
    have hdisjoint : t.store.Apart Write.attempt? u.store := h.apart tid j t u (Ne.symm hj) ht hu
    refine .inr ⟨hobeys', fun hactive => ?_, hdrives'.queue⟩
    refine (hdrives'.main hactive).rely hlater (hprogress.later hlater) hmachines fun v hv id hid htouched => ?_
    exact hdisjoint id htouched ⟨.main, v, hv, hid⟩

end Worlds

/-- **Coherent attempts.** In every state that wake requests and workers reach, in any order of
their operations and with any of them killed, an attempt has a finish time exactly when its
status is terminal, and an error only when it has failed or timed out. -/
theorem attempts_coherent (P : Platform) (db : Database) (issued : List Uuid)
    (clock : Nat → DateTime) (hclock : Monotone clock) (hrows : ∀ a ∈ db.attempts, a.Coherent)
    (hids : (db.attempts.map (·.id)).Nodup) (w : System.World P)
    (hrun : Reachable (start P) (WakesUnder P clock) (System.World.init P db issued) w) :
    ∀ a ∈ w.shared.db.attempts, a.Coherent := by
  have hworld : CoherentWorld P clock w := by
    refine hrun.invariant ⟨⟨hrows, hids⟩, fun i j t u _ ht => ?_,
      fun t ht => (List.not_mem_nil ht).elim⟩ fun v a v' _ hv ha hact => hv.act hclock ha hact
    exact (List.not_mem_nil (List.mem_of_getElem? ht)).elim
  exact hworld.rows.coherent

/-- The operations of a direct wake with the sample token. -/
def directWakeActions : List (Action (machine Platform.sample) Label) :=
  .spawn (.request (tokenRequest (.wakeMachineDirect (Uuid.ofNat 3).text (.typed {})))) ::
    List.replicate 9 (.step 0 { now := sampleTime, fresh := Uuid.ofNat 6 })

theorem attempts_coherent_sample :
    ∃ w, Reachable (start Platform.sample) (WakesUnder Platform.sample fun _ => sampleTime)
        (System.World.init Platform.sample (Shared.withToken none).db []) w ∧
      w.shared.db.attempts.map (·.status) = [.sent] ∧
      ∀ a ∈ w.shared.db.attempts, a.Coherent := by
  have hacts : (((System.World.init Platform.sample (Shared.withToken none).db []).acts
      (start Platform.sample) directWakeActions).map fun w => w.shared.db.attempts.map (·.status)) =
        some [.sent] := by
    decide +kernel
  obtain ⟨w, hw, hstatus⟩ := Option.map_eq_some_iff.mp hacts
  have hrun : Reachable (start Platform.sample) (WakesUnder Platform.sample fun _ => sampleTime)
      (System.World.init Platform.sample (Shared.withToken none).db []) w := by
    refine Reachable.of_acts hw fun a ha v => ?_
    rcases List.mem_cons.mp ha with rfl | ha
    · rfl
    · rw [List.eq_of_mem_replicate ha]
      rfl
  exact ⟨w, hrun, hstatus, attempts_coherent Platform.sample (Shared.withToken none).db []
    (fun _ => sampleTime) monotone_const (fun a ha => (List.not_mem_nil ha).elim) List.nodup_nil w hrun⟩

end WolMonkey
