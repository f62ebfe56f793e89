import Mathlib.Tactic.IntervalCases
import WolMonkey.Facts.Sessions

/-!
# Deleting a machine

`session.delete` on a machine first detaches the wake attempts and the probe results that
belong to it, whose column does not accept `NULL`. A machine can be deleted exactly when it
has neither; then the `ON DELETE` actions of the tables remove or detach everything else.
-/

namespace WolMonkey

open Programs Program

/-- `SqlMachineRepository.delete`, and the commit of its session. -/
def deleteAndCommit (machineId : String) : Code Bool := do
  let deleted ← SqlMachineRepository.delete machineId
  let _ ← await (.commit .main)
  return deleted

/-- The machine is gone with everything that belongs to it, its tokens are detached, and the
other rows are as before. -/
structure CleanedUp (id : Uuid) (db db' : Database) : Prop where
  machines : db'.machines = db.machines.filter (·.id != id)
  attempts : db'.attempts = db.attempts.filter (·.machineId != id)
  jobs : db'.jobs = db.jobs.filter (·.machineId != id)
  probeResults : db'.probeResults = db.probeResults.filter (·.machineId != id)
  tokens : db'.tokens = db.tokens.map fun t =>
    if t.machineId = some id then { t with machineId := none } else t
  users : db'.users = db.users
  sessions : db'.sessions = db.sessions
  setupState : db'.setupState = db.setupState
  settings : db'.settings = db.settings

/-- The machine has neither wake attempts nor probe results. -/
def Database.childless (db : Database) (id : Uuid) : Prop :=
  (∀ a ∈ db.attempts, a.machineId ≠ id) ∧ ∀ p ∈ db.probeResults, p.machineId ≠ id

section Deletion
variable {P : Platform} {sh : Shared} {inputs : Nat → Input} {id : Uuid}

/-- Without attempts, the cascade takes only the machine's own jobs. -/
theorem cleanedUp_deleteMachine {db : Database} (h : db.childless id) :
    CleanedUp id db (db.deleteMachine id) where
  machines := rfl
  attempts := rfl
  jobs := by
    have hgone : db.attempts.filter (·.machineId == id) = [] := by
      rw [List.filter_eq_nil_iff]
      intro a ha
      simpa using h.1 a ha
    simp only [Database.deleteMachine, hgone, List.any_nil, Bool.not_false, Bool.and_true]
  probeResults := rfl
  tokens := by
    simp only [Database.deleteMachine, updateRows, beq_iff_eq]
  users := rfl
  sessions := rfl
  setupState := rfl
  settings := rfl

theorem children_eq_false_iff {db : Database} :
    (db.attempts.any (·.machineId == id) || db.probeResults.any (·.machineId == id)) = false ↔
      db.childless id := by
  simp [Database.childless]

/-- The statements of `delete`, as far as they get: a deletion that returns `True` found the
machine and no children, and no call failed. -/
theorem childless_of_runs {s' : Solo}
    (h : (deleteAndCommit id.text).Runs (soloExec P) (Solo.init inputs sh) true s') :
    (∀ n < 4, (inputs n).fault = none) ∧ sh.db.childless id := by
  obtain ⟨deleted, s₁, hdelete, h⟩ := runs_bind.mp h
  obtain ⟨u, s₂, hcommit, hreturn⟩ := runs_bind.mp h
  obtain ⟨rfl, -⟩ := runs_pure.mp hreturn
  rcases runs_guardUuid hdelete with ⟨-, hdelete⟩ | ⟨-, hfalse, -⟩
  swap
  · cases hfalse
  obtain ⟨found, s₃, hget, hdelete⟩ := runs_bind.mp hdelete
  obtain ⟨hactive, hfault₀, r₀, hrun₀, rfl, rfl⟩ := runs_execute_iff.mp hget
  simp only [Stmt.run, bind_eq_ok, uuidParam_eq_ok, pure_eq_ok, Uuid.parse?_text] at hrun₀
  obtain ⟨u, hu, rfl⟩ := hrun₀
  cases hu
  dsimp only at hdelete
  split at hdelete
  · cases (runs_pure.mp hdelete).1
  rename_i model hmodel
  have hid : model.id = id := by simpa using List.find?_some hmodel
  obtain ⟨children, s₄, hchildren, hdelete⟩ := runs_bind.mp hdelete
  obtain ⟨-, hfault₁, r₁, hrun₁, rfl, rfl⟩ := runs_execute_iff.mp hchildren
  simp only [Stmt.run, pure_eq_ok] at hrun₁
  obtain rfl := hrun₁
  obtain ⟨u, s₅, hdrop, hreturn⟩ := runs_bind.mp hdelete
  obtain ⟨-, hfault₂, r₂, hrun₂, -, rfl⟩ := runs_execute_iff.mp hdrop
  simp only [Stmt.run, bind_eq_ok, require_eq_ok, pure_eq_ok, Bool.not_eq_true'] at hrun₂
  obtain ⟨-, hnone, -⟩ := hrun₂
  obtain ⟨-, rfl⟩ := runs_pure.mp hreturn
  obtain ⟨hfault₃, -⟩ := (runs_commit_iff (by exact hactive)).mp hcommit
  refine ⟨fun n hn => ?_, ?_⟩
  · interval_cases n
    · exact hfault₀
    · exact hfault₁
    · exact hfault₂
    · exact hfault₃
  · rw [hid] at hnone
    exact children_eq_false_iff.mp hnone

/-- A machine without children is deleted. -/
theorem runs_deleteAndCommit (hmachine : ∃ m ∈ sh.db.machines, m.id = id)
    (hfault : ∀ n < 4, (inputs n).fault = none) (h : sh.db.childless id) :
    ∃ s', (deleteAndCommit id.text).Runs (soloExec P) (Solo.init inputs sh) true s' ∧
      s'.shared.db = sh.db.deleteMachine id := by
  let s := Solo.init inputs sh
  have hactive : s.store.main.status = .active := rfl
  obtain ⟨m, hm⟩ : ∃ m, sh.db.machines.find? (·.id == id) = some m := by
    obtain ⟨m, hmem, hid⟩ := hmachine
    exact Option.isSome_iff_exists.mp (List.find?_isSome.mpr ⟨m, hmem, by simpa using hid⟩)
  have hid : m.id = id := by simpa using List.find?_some hm
  let r₀ : Executed (.machineGet id.text) := ⟨some m, [], []⟩
  have hget : (execute .main (.machineGet id.text)).Runs (soloExec P) s (some m) (s.ran r₀) := by
    refine runs_execute_iff.mpr ⟨hactive, hfault 0 (by omega), r₀, ?_, rfl, rfl⟩
    simp only [Stmt.run, bind_eq_ok, uuidParam_eq_ok, pure_eq_ok, Uuid.parse?_text]
    exact ⟨id, rfl, by rw [Solo.view_init, hm]⟩
  let r₁ : Executed (.machineChildren m.id) := ⟨false, [], []⟩
  have hchildren : (execute .main (.machineChildren m.id)).Runs (soloExec P) (s.ran r₀) false
      ((s.ran r₀).ran r₁) := by
    refine runs_execute_iff.mpr ⟨hactive, hfault 1 (by omega), r₁, ?_, rfl, rfl⟩
    have hnone := children_eq_false_iff.mpr h
    simp only [Stmt.run, pure_eq_ok, Solo.ran_view, r₀, Database.after_nil, Solo.view_init, hid, s,
      hnone, r₁]
  let r₂ : Executed (.machineDelete m.id false) := ⟨(), [.deleteMachine id], []⟩
  have hdrop : (execute .main (.machineDelete m.id false)).Runs (soloExec P) ((s.ran r₀).ran r₁) ()
      (((s.ran r₀).ran r₁).ran r₂) := by
    refine runs_execute_iff.mpr ⟨hactive, hfault 2 (by omega), r₂, ?_, rfl, rfl⟩
    simp only [Stmt.run, bind_eq_ok, require_eq_ok, pure_eq_ok]
    exact ⟨(), rfl, by simp only [hid, r₂]⟩
  have hdelete : (SqlMachineRepository.delete id.text).Runs (soloExec P) s true
      (((s.ran r₀).ran r₁).ran r₂) := by
    unfold SqlMachineRepository.delete guardUuid
    rw [if_pos (isValidUuid_text id)]
    exact runs_bind.mpr ⟨_, _, hget, runs_bind.mpr ⟨_, _, hchildren,
      runs_bind.mpr ⟨_, _, hdrop, runs_pure.mpr ⟨rfl, rfl⟩⟩⟩⟩
  refine ⟨_, runs_bind.mpr ⟨_, _, hdelete, runs_bind.mpr ⟨(), _,
    (runs_commit_iff (s := ((s.ran r₀).ran r₁).ran r₂) hactive).mpr ⟨hfault 3 (by omega), rfl⟩, runs_pure.mpr ⟨rfl, rfl⟩⟩⟩, ?_⟩
  simp only [Solo.ran_view, r₀, r₁, r₂, s, Database.after_nil, Database.after_cons,
    Solo.view_init, Write.apply]

/-- A machine is deleted and cleaned up after exactly when it has neither wake attempts nor
probe results, and no database call fails. -/
theorem delete_cleans_up_iff (P : Platform) (sh : Shared) (inputs : Nat → Input) (id : Uuid)
    (hmachine : ∃ m ∈ sh.db.machines, m.id = id) :
    (∃ s', (deleteAndCommit id.text).Runs (soloExec P) (Solo.init inputs sh) true s' ∧
        CleanedUp id sh.db s'.shared.db) ↔
      (∀ n < 4, (inputs n).fault = none) ∧ sh.db.childless id := by
  constructor
  · rintro ⟨s', h, -⟩
    exact childless_of_runs h
  · rintro ⟨hfault, hchildless⟩
    obtain ⟨s', hrun, hdb⟩ := runs_deleteAndCommit (P := P) hmachine hfault hchildless
    exact ⟨s', hrun, hdb ▸ cleanedUp_deleteMachine hchildless⟩

end Deletion

/-- The machine of a new installation can be deleted. -/
theorem delete_cleans_up_sample :
    let sh := serveAll Platform.signing firstSteps Shared.fresh
    ∃ s', (deleteAndCommit (Uuid.ofNat 3).text).Runs (soloExec Platform.signing)
        (Solo.init Input.quiet sh) true s' ∧ CleanedUp (Uuid.ofNat 3) sh.db s'.shared.db := by
  intro sh
  have hdb : sh.db = Database.installed := serveAll_firstSteps
  refine (delete_cleans_up_iff Platform.signing sh Input.quiet (Uuid.ofNat 3) ?_).mpr
    ⟨fun _ _ => rfl, ?_⟩
  · rw [hdb]
    decide
  · rw [hdb]
    exact ⟨nofun, nofun⟩

/-- Once it has been asked to wake up, it cannot be deleted any more. -/
theorem delete_fails_after_wake :
    let wake := adminRequest (.wakeMachine (Uuid.ofNat 3).text (.typed {}))
    let sh := serveAll Platform.signing (firstSteps ++ [(wake, Input.signing 4)]) Shared.fresh
    ¬ ∀ m ∈ sh.db.machines, ∃ s', (deleteAndCommit m.id.text).Runs (soloExec Platform.signing)
        (Solo.init Input.quiet sh) true s' ∧ CleanedUp m.id sh.db s'.shared.db := by
  intro wake sh h
  obtain ⟨m, hm, a, ha, hmachine⟩ :
      ∃ m ∈ sh.db.machines, ∃ a ∈ sh.db.attempts, a.machineId = m.id := by decide +kernel
  obtain ⟨s', hrun, -⟩ := h m hm
  exact (childless_of_runs hrun).2.1 a ha hmachine

end WolMonkey
