import WolMonkey.Facts.Sessions

/-!
# The wizard's row

What `SetupStateService` does to the singleton row, when it returns: the row that does not
exist yet counts as the initial one, and every call leaves the other tables as they are.
-/

namespace WolMonkey

open Programs Program

/-- The setup state as the service reads it. -/
def Database.setup (db : Database) : SetupState := db.setupState.getD SetupState.initial

/-- The tables with another setup state. -/
def Database.withSetup (db : Database) (x : SetupState) : Database :=
  { db with setupState := some x }

@[simp] theorem Database.setup_withSetup (db : Database) (x : SetupState) :
    (db.withSetup x).setup = x := rfl

@[simp] theorem Database.withSetup_withSetup (db : Database) (x y : SetupState) :
    (db.withSetup x).withSetup y = db.withSetup y := rfl

theorem Database.withSetup_eq_self {db : Database} {x : SetupState} (h : db.setupState = some x) :
    db.withSetup x = db := by
  cases db
  simp_all [withSetup]

/-! ## The columns of an update -/

@[simp] theorem getD_changed {α : Type} [DecidableEq α] (loaded : α) (new : Option α) :
    (changed loaded new).getD loaded = new.getD loaded := by
  cases new with
  | none => rfl
  | some v =>
    simp only [changed]
    split
    · rename_i h
      simp [h]
    · rfl

/-- Sending only the columns that differ sets the row to the same values. -/
@[simp] theorem SetupState.set_changedFrom (x : SetupState) (c : SetupColumns) :
    x.set (c.changedFrom x) = x.set c := by
  simp [SetupState.set, SetupColumns.changedFrom]

theorem SetupState.set_empty (x : SetupState) : x.set {} = x := rfl

/-- A step that is stored as it is: short and without NUL characters. -/
def storableStep (s : String) : Bool := s.toList.length ≤ 50 && textOk s

theorem changed_all {α : Type} [DecidableEq α] {p : α → Bool} {loaded : α} {new : Option α}
    (h : new.all p = true) : (changed loaded new).all p = true := by
  cases new with
  | none => rfl
  | some v =>
    simp only [changed]
    split
    · rfl
    · exact h

theorem nullable_eq_self {step : Option String} (h : step.all storableStep = true) :
    nullable (varchar 50) step = some step := by
  cases step with
  | none => rfl
  | some s =>
    simp only [storableStep, Option.all_some, Bool.and_eq_true, decide_eq_true_eq] at h
    simp [nullable, varchar_eq_self h.1 h.2]

/-- The steps of the wizard and their successors are stored as they are. -/
theorem storableStep_of_mem : ∀ {step : String}, step ∈ wizardSteps →
    storableStep step = true ∧ storableStep (SetupStateService.nextStep step) = true := by
  decide

section Runs
variable {P : Platform} {s s' : Solo}

/-! ## Reading and updating the row -/

theorem runs_setupInsert {x : SetupState} {u : Unit}
    (h : (execute .main (.setupInsert x)).Runs (soloExec P) s u s') :
    s.view.setupState = none ∧ s'.view = s.view.withSetup x := by
  obtain ⟨r, hran, -⟩ := runs_execute h
  obtain ⟨locked, hrun⟩ := hran.run
  simp only [Stmt.run, bind_eq_ok, require_eq_ok, pure_eq_ok] at hrun
  obtain ⟨-, hnone, rfl⟩ := hrun
  exact ⟨Option.isNone_iff_eq_none.mp hnone, hran.view⟩

theorem runs_setupRefresh {x : SetupState}
    (h : (execute .main .setupRefresh).Runs (soloExec P) s x s') :
    s.view.setupState = some x ∧ s.Same s' := by
  have hsame := Runs.same (P := P) (uses_read rfl) h
  obtain ⟨r, hran, rfl⟩ := runs_execute h
  obtain ⟨locked, hrun⟩ := hran.run
  simp only [Stmt.run] at hrun
  split at hrun
  · rename_i x hx
    rw [pure_eq_ok] at hrun
    subst hrun
    exact ⟨hx, hsame⟩
  · exact (throw_eq_ok.mp hrun).elim

theorem runs_setupGet {found : Option SetupState}
    (h : (execute .main .setupGet).Runs (soloExec P) s found s') :
    found = s.view.setupState ∧ s.Same s' := by
  have hsame := Runs.same (P := P) (uses_read rfl) h
  obtain ⟨r, hran, rfl⟩ := runs_execute h
  obtain ⟨locked, hrun⟩ := hran.run
  simp only [Stmt.run, pure_eq_ok] at hrun
  exact ⟨by rw [← hrun], hsame⟩

/-- Reading the setup state: a missing row is created first. -/
theorem runs_get {x : SetupState}
    (h : SqlSetupStateRepository.get.Runs (soloExec P) s x s') :
    x = s.view.setup ∧ s'.view = s.view.withSetup x := by
  unfold SqlSetupStateRepository.get at h
  obtain ⟨found, s₁, hget, h⟩ := runs_bind.mp h
  obtain ⟨hfound, hsame⟩ := runs_setupGet hget
  cases found with
  | some model =>
    obtain ⟨rfl, rfl⟩ := runs_pure.mp h
    refine ⟨by rw [Database.setup, ← hfound]; rfl, ?_⟩
    rw [hsame.view, Database.withSetup_eq_self hfound.symm]
  | none =>
    obtain ⟨u, s₂, hins, href⟩ := runs_bind.mp h
    obtain ⟨-, hview⟩ := runs_setupInsert hins
    obtain ⟨hx, hsame₂⟩ := runs_setupRefresh href
    rw [hview] at hx
    obtain rfl : SetupState.initial = x := Option.some.inj hx
    refine ⟨by rw [Database.setup, ← hfound]; rfl, ?_⟩
    rw [hsame₂.view, hview, hsame.view]

theorem runs_setupUpdate {loaded : SetupState} {c : SetupColumns} {u : Unit}
    (hc : c.currentStep.all storableStep = true) (hl : s.view.setupState = some loaded)
    (h : (execute .main (.setupUpdate loaded c)).Runs (soloExec P) s u s') :
    s'.view = s.view.withSetup (loaded.set c) := by
  obtain ⟨r, hran, -⟩ := runs_execute h
  obtain ⟨locked, hrun⟩ := hran.run
  simp only [Stmt.run] at hrun
  split at hrun
  · rename_i hempty
    rw [pure_eq_ok] at hrun
    subst hrun
    rw [hran.view, ← SetupState.set_changedFrom, hempty, SetupState.set_empty,
      Database.withSetup_eq_self hl]
    rfl
  · simp only [bind_eq_ok, accepted_eq_ok, require_eq_ok, pure_eq_ok,
      SetupColumns.changedFrom,
      nullable_eq_self (changed_all hc)] at hrun
    obtain ⟨step, hstep, -, -, rfl⟩ := hrun
    cases hstep
    rw [hran.view]
    simp [Write.apply, Database.withSetup, hl, SetupState.set]

/-- Updating the setup state sets the given columns. -/
theorem runs_update {c : SetupColumns} {x : SetupState} (hc : c.currentStep.all storableStep = true)
    (h : (SqlSetupStateRepository.update c).Runs (soloExec P) s x s') :
    s'.view = s.view.withSetup (s.view.setup.set c) := by
  unfold SqlSetupStateRepository.update at h
  obtain ⟨found, s₁, hget, h⟩ := runs_bind.mp h
  obtain ⟨hfound, hsame⟩ := runs_setupGet hget
  obtain ⟨u, s₂, hassign, href⟩ := runs_bind.mp h
  obtain ⟨-, hsame₂⟩ := runs_setupRefresh href
  rw [hsame₂.view, Database.setup, ← hfound, ← hsame.view]
  cases found with
  | some model => exact runs_setupUpdate hc (by rw [hsame.view, ← hfound]; rfl) hassign
  | none => exact (runs_setupInsert hassign).2

/-! ## The service -/

/-- The row after `advance(step)`. -/
def SetupState.advanced (x : SetupState) (step : String) : SetupState where
  completed := step == "complete"
  currentStep := if step == "complete" then step else SetupStateService.nextStep step
  completedSteps := SetupStateService.markStep x.completedSteps step

/-- The row after `go_back(step)`. -/
def SetupState.retreated (x : SetupState) (step : String) : SetupState :=
  match wizardSteps.idxOf? step with
  | some (idx + 1) =>
    let prevStep := (wizardSteps[idx]?).getD step
    { completed := false, currentStep := prevStep
      completedSteps := (x.completedSteps.erase step).erase prevStep }
  | _ => x

/-- The row that `go_back` leaves for a step without a predecessor. -/
theorem retreated_eq_self {x : SetupState} {step : String}
    (h : (wizardSteps.drop 1).contains step = false) : x.retreated step = x := by
  unfold SetupState.retreated
  split
  · rename_i idx hidx
    obtain ⟨hlt, hget, -⟩ := List.idxOf?_eq_some_iff.mp hidx
    have hmem : step ∈ wizardSteps.drop 1 := by
      rw [← hget, List.mem_drop_iff_getElem]
      exact ⟨idx, by omega, by simp [Nat.add_comm]⟩
    rw [List.contains_iff_mem.mpr hmem] at h
    cases h
  · rfl

theorem runs_isComplete {b : Bool}
    (h : SetupStateService.isComplete.Runs (soloExec P) s b s') :
    b = s.view.setup.completed ∧ s'.view = s.view.withSetup s.view.setup := by
  obtain ⟨x, s₁, hget, h⟩ := runs_bind.mp h
  obtain ⟨hx, hview⟩ := runs_get hget
  obtain ⟨rfl, rfl⟩ := runs_pure.mp h
  subst hx
  exact ⟨rfl, hview⟩

theorem runs_advance {step : String} {u : Unit}
    (hstep : storableStep step = true)
    (hnext : storableStep (SetupStateService.nextStep step) = true)
    (h : (SetupStateService.advance step).Runs (soloExec P) s u s') :
    s'.view = s.view.withSetup (s.view.setup.advanced step) := by
  obtain ⟨x, s₁, hget, h⟩ := runs_bind.mp h
  obtain ⟨rfl, hview⟩ := runs_get hget
  dsimp only at h
  split at h
  · rename_i hlast
    obtain ⟨y, s₂, hup, h⟩ := runs_bind.mp h
    obtain ⟨-, rfl⟩ := runs_pure.mp h
    rw [runs_update (by exact hstep) hup, hview]
    simp [SetupState.set, SetupState.advanced, hlast]
  · rename_i hlast
    obtain ⟨y, s₂, hup, h⟩ := runs_bind.mp h
    obtain ⟨-, rfl⟩ := runs_pure.mp h
    rw [runs_update (by exact hnext) hup, hview]
    simp [SetupState.set, SetupState.advanced, hlast]

/-- `advance` on a step of the wizard. -/
theorem runs_advance_of_mem {step : String} (hmem : step ∈ wizardSteps) {u : Unit}
    (h : (SetupStateService.advance step).Runs (soloExec P) s u s') :
    s'.view = s.view.withSetup (s.view.setup.advanced step) :=
  runs_advance (storableStep_of_mem hmem).1 (storableStep_of_mem hmem).2 h

theorem runs_goBack {step prev : String}
    (h : (SetupStateService.goBack step).Runs (soloExec P) s prev s') :
    s'.view = s.view.withSetup (s.view.setup.retreated step) := by
  obtain ⟨x, s₁, hget, h⟩ := runs_bind.mp h
  obtain ⟨rfl, hview⟩ := runs_get hget
  unfold SetupState.retreated
  split at h
  · rename_i hidx
    obtain ⟨-, rfl⟩ := runs_pure.mp h
    rw [hidx]
    exact hview
  · rename_i hidx
    obtain ⟨-, rfl⟩ := runs_pure.mp h
    rw [hidx]
    exact hview
  · rename_i idx hidx
    obtain ⟨y, s₂, hup, h⟩ := runs_bind.mp h
    obtain ⟨-, rfl⟩ := runs_pure.mp h
    rw [hidx, runs_update ?_ hup, hview]
    · simp [SetupState.set]
    · have hlt : idx + 1 < wizardSteps.length := (List.idxOf?_eq_some_iff.mp hidx).1
      obtain ⟨prev, hprev⟩ : ∃ prev, wizardSteps[idx]? = some prev :=
        ⟨_, List.getElem?_eq_getElem (Nat.lt_of_succ_lt hlt)⟩
      simpa only [hprev, Option.getD_some, Option.all_some] using
        (storableStep_of_mem (List.mem_of_getElem? hprev)).1

/-- `_require_incomplete` lets a request through while the wizard is not completed. -/
theorem runs_requireIncomplete {u : Unit} {s s' : Solo}
    (h : Api.requireIncomplete.Runs (soloExec P) s u s') :
    s.view.setup.completed = false ∧ s'.view = s.view.withSetup s.view.setup := by
  obtain ⟨complete, s₁, hget, h⟩ := runs_bind.mp h
  obtain ⟨rfl, hview⟩ := runs_isComplete hget
  split at h
  · exact (runs_raise.mp h).elim
  · rename_i hincomplete
    obtain ⟨-, rfl⟩ := runs_pure.mp h
    exact ⟨by simpa using hincomplete, hview⟩

/-- Changes without effects on the row leave it alone. -/
theorem untouched_setupState {es : List Effect} (hnew : .newSetup ∉ es) (hedit : .editSetup ∉ es) :
    Untouched (fun w => w.effect ∈ es) Database.setupState := by
  intro w db hw
  cases w <;> first
    | rfl
    | (exact (hnew hw).elim)
    | (exact (hedit hw).elim)

theorem setup_adds {es : List Effect} {s s' : Solo} (h : s.Adds (fun w => w.effect ∈ es) s')
    (hnew : .newSetup ∉ es) (hedit : .editSetup ∉ es) : s'.view.setup = s.view.setup :=
  congrArg (·.getD SetupState.initial) (h.keeps (untouched_setupState hnew hedit))

end Runs

/-! ## Routes that could only create the row -/

section Idle
variable {P : Platform} {inputs : Nat → Input} {req : Request} {sh : Shared}

/-- While the row exists, a statement that could only create it changes nothing. -/
theorem writes_of_setup {st : Stmt} (hst : ∀ e, st.effect = some e → e = .newSetup) {inp : Input}
    {locked : List Uuid} {db : Database} (hsome : db.setupState.isSome = true) {r : Executed st}
    (hrun : st.run P inp locked db = .ok r) : r.writes = [] := by
  refine List.eq_nil_iff_forall_not_mem.mpr fun w hw => ?_
  have heffect := Stmt.run_effect r hrun w hw
  have hnew := hst _ heffect
  rw [hnew] at heffect
  cases st <;> first | (cases heffect; done) | skip
  simp only [Stmt.run, bind_eq_ok, require_eq_ok] at hrun
  obtain ⟨-, hnone, -⟩ := hrun
  rw [Option.isNone_iff_eq_none] at hnone
  rw [hnone] at hsome
  cases hsome

/-- The tables are `db`, and no transaction has changed anything. -/
def Solo.Idle (db : Database) (s : Solo) : Prop :=
  s.shared.db = db ∧ ∀ slot, (s.store.tx slot).writes = []

theorem Solo.Idle.setTx {db : Database} {s : Solo} (h : s.Idle db) {slot : Slot} {tx : Tx}
    (htx : tx.writes = []) (slot' : Slot) : ((s.store.setTx slot tx).tx slot').writes = [] := by
  by_cases heq : slot = slot'
  · subst heq
    rw [Store.tx_setTx_self]
    exact htx
  · rw [Store.tx_setTx_of_ne heq]
    exact h.2 slot'

theorem soloExec_idle {db : Database} (hsome : db.setupState.isSome = true) {op : Op}
    (hop : Within [.newSetup, .commit, .reset] op) {s : Solo} (hs : s.Idle db) :
    (soloExec P op s).2.Idle db := by
  cases op with
  | stmt slot st =>
    refine ⟨(executeOp_db fun slot' h => by cases h).trans hs.1, ?_⟩
    rcases executeStmt_cases P slot (s.inputs 0) [] s.shared s.store st with
      ⟨e, status, h, -⟩ | ⟨r, -, -, hrun, h⟩
    · simp only [soloExec, executeOp, h]
      exact hs.setTx (hs.2 slot)
    · rw [hs.2 slot, hs.1, Database.after_nil] at hrun
      have hnew : ∀ e, st.effect = some e → e = .newSetup := by
        intro e he
        have hmem := hop e he
        cases st <;> cases he <;> first | rfl | simp at hmem
      simp only [soloExec, executeOp, h, writes_of_setup hnew hsome hrun, List.append_nil]
      exact hs.setTx (hs.2 slot)
  | commit slot =>
    obtain ⟨hdb, hst⟩ := executeCommit_cases slot (s.inputs 0) s.shared s.store
    constructor
    · rcases hdb with h | ⟨-, h⟩
      · exact (congrArg Shared.db h).trans hs.1
      · refine (congrArg Shared.db h).trans ?_
        rw [hs.2 slot]
        exact hs.1
    · rcases hst with h | ⟨-, h, -⟩
      · simp only [soloExec, executeOp, h]
        exact hs.setTx rfl
      · simp only [soloExec, executeOp, h]
        exact hs.2
  | rollback slot =>
    simp only [soloExec, executeOp]
    split <;> exact ⟨hs.1, hs.setTx rfl⟩
  | close slot => exact ⟨hs.1, hs.setTx rfl⟩
  | send strategy mac interface broadcast =>
    have := hop _ rfl
    simp at this
  | _ => exact hs

theorem serve_idle (h : ∀ e ∈ req.route.effects, e ∈ [.newSetup, .commit, .reset])
    (hsome : sh.db.setupState.isSome = true) : (serve P req inputs sh).db = sh.db := by
  have hwithin : (handle P req).Uses (Within [.newSetup, .commit, .reset]) :=
    handle_within.mono fun op hop e he => h e (hop e he)
  have hinit : (Solo.init inputs sh).Idle sh.db := ⟨rfl, fun slot => by cases slot <;> rfl⟩
  exact (hwithin.invariant (soloExec P) (Solo.Idle sh.db)
    (fun op s hop hs => soloExec_idle hsome hop hs) hinit).1

end Idle

end WolMonkey
