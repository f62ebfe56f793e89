import WolMonkey.Storage.Renaming

/-!
# Rolling the renaming back

`downgrade()` renames `udp_broadcast` to `udp`, also where it was not `upgrade()` that had put it
there, and it creates the constraint with the old name. The initial schema never had the old
name in its constraint, so going up and down again never leads back to it.
-/

namespace WolMonkey

open Migrations

/-- The content is valid before the revision: the machines satisfy the initial constraint. -/
structure Migrations.Schema.Valid (s : Schema) : Prop where
  allowed : s.allowed = initialStrategies
  machines : ∀ m ∈ s.db.machines, m.wakeStrategy ∈ initialStrategies

/-- The three tables are the same, and the constraint accepts the same values. -/
structure Migrations.Schema.RolledBack (s s' : Schema) : Prop where
  machines : s'.db.machines = s.db.machines
  attempts : s'.db.attempts = s.db.attempts
  settings : s'.db.settings = s.db.settings
  check : ∀ v, v ∈ s'.allowed ↔ v ∈ s.allowed

/-- `upgrade()` and then `downgrade()`. -/
def Migrations.Schema.upAndDown (s : Schema) : Option Schema :=
  (upgradeSchema s).bind downgradeSchema

/-- Nothing has the new name already. -/
structure Database.NoNewName (db : Database) : Prop where
  machines : ∀ m ∈ db.machines, m.wakeStrategy ≠ "udp_broadcast"
  attempts : ∀ a ∈ db.attempts, a.strategy ≠ "udp_broadcast"
  settings : ∀ r ∈ db.settings, r.key = strategySetting → r.value ≠ .scalar (.str "udp_broadcast")

/-! ## Forth and back -/

/-- Two updates in a row that undo each other on the rows of the first one restore a table exactly
when no other row is among those of the second one. -/
theorem updateRows_restores_iff {α : Type} {p q : α → Bool} {f g : α → α} {rows : List α}
    (hforth : ∀ r, p r = true → q (f r) = true ∧ g (f r) = r)
    (hback : ∀ r, q r = true → p r = false ∧ g r ≠ r) :
    updateRows q g (updateRows p f rows) = rows ↔ ∀ r ∈ rows, q r = false := by
  unfold updateRows
  rw [List.map_map]
  conv_lhs => rhs; rw [← List.map_id rows]
  rw [List.map_inj_left]
  refine forall₂_congr fun r _ => ?_
  simp only [Function.comp, id]
  by_cases hp : p r = true
  · obtain ⟨hq, hsame⟩ := hforth r hp
    have hnot : q r = false := by
      refine (Bool.not_eq_true _).mp fun hqr => ?_
      rw [(hback r hqr).1] at hp
      cases hp
    rw [if_pos hp, if_pos hq, hnot]
    exact iff_of_true hsame rfl
  · rw [if_neg hp]
    by_cases hq : q r = true
    · rw [if_pos hq, hq]
      exact iff_of_false (hback r hq).2 nofun
    · rw [if_neg hq]
      exact iff_of_true rfl ((Bool.not_eq_true _).mp hq)

theorem old_ne_new : "udp" ≠ "udp_broadcast" := by decide

theorem machines_restored_iff {machines : List Machine} :
    revertMachines (renameMachines machines) = machines ↔
      ∀ m ∈ machines, m.wakeStrategy ≠ "udp_broadcast" := by
  refine (updateRows_restores_iff (fun m hm => ?_) fun m hm => ?_).trans
    (forall₂_congr fun m _ => beq_eq_false_iff_ne)
  · obtain ⟨id, name, host, ip, mac, port, interface, strategy, broadcast, enabled, created, updated⟩ := m
    obtain rfl := beq_iff_eq.mp hm
    exact ⟨rfl, rfl⟩
  · have hnew := beq_iff_eq.mp hm
    rw [hnew]
    refine ⟨rfl, fun hsame => ?_⟩
    have hname := congrArg Machine.wakeStrategy hsame
    rw [hnew] at hname
    exact old_ne_new hname

theorem attempts_restored_iff {attempts : List WakeAttempt} :
    revertAttempts (renameAttempts attempts) = attempts ↔
      ∀ a ∈ attempts, a.strategy ≠ "udp_broadcast" := by
  refine (updateRows_restores_iff (fun a ha => ?_) fun a ha => ?_).trans
    (forall₂_congr fun a _ => beq_eq_false_iff_ne)
  · cases a
    obtain rfl := beq_iff_eq.mp ha
    exact ⟨rfl, rfl⟩
  · have hnew := beq_iff_eq.mp ha
    rw [hnew]
    refine ⟨rfl, fun hsame => ?_⟩
    have hname := congrArg WakeAttempt.strategy hsame
    rw [hnew] at hname
    exact old_ne_new hname

theorem settings_restored_iff {settings : List Setting} :
    revertSettings (renameSettings settings) = settings ↔
      ∀ r ∈ settings, r.key = strategySetting → r.value ≠ .scalar (.str "udp_broadcast") := by
  refine (updateRows_restores_iff (fun r hr => ?_) fun r hr => ?_).trans
    (forall₂_congr fun r _ => ?_)
  · obtain ⟨key, value⟩ := r
    simp only [Bool.and_eq_true, beq_iff_eq] at hr
    obtain ⟨rfl, rfl⟩ := hr
    exact ⟨rfl, rfl⟩
  · obtain ⟨key, value⟩ := r
    simp only [Bool.and_eq_true, beq_iff_eq] at hr
    obtain ⟨rfl, rfl⟩ := hr
    refine ⟨rfl, fun hsame => ?_⟩
    have hvalue := congrArg Setting.value hsame
    revert hvalue
    decide
  · rw [Bool.and_eq_false_iff, beq_eq_false_iff_ne, beq_eq_false_iff_ne, ← not_and_or, not_and]
    rfl

/-! ## Up and down -/

section UpAndDown
variable {s : Schema}

theorem createCheck_eq_some {allowed : List String} {db : Database}
    (h : ∀ m ∈ db.machines, m.wakeStrategy ∈ allowed) : createCheck allowed db = some ⟨db, allowed⟩ := by
  unfold createCheck
  rw [if_pos]
  exact List.all_eq_true.mpr fun m hm => List.contains_iff_mem.mpr (h m hm)

/-- Going up and down succeeds, with the old name in the constraint, and restores the rows exactly
when none of them has the new name already. -/
theorem upAndDown_of_valid (h : s.Valid) :
    ∃ s', s.upAndDown = some s' ∧ s'.allowed = ["etherwake", "udp"] ∧
      ((s'.db.machines = s.db.machines ∧ s'.db.attempts = s.db.attempts ∧
        s'.db.settings = s.db.settings) ↔ s.db.NoNewName) := by
  have hup : ∀ m ∈ renameMachines s.db.machines, m.wakeStrategy ∈ ["etherwake", "udp_broadcast"] := by
    intro m hm
    obtain ⟨m₀, hm₀, rfl⟩ := List.mem_map.mp hm
    split
    · exact List.mem_cons_of_mem _ List.mem_cons_self
    · exact h.machines m₀ hm₀
  have hdown : ∀ m ∈ revertMachines (renameMachines s.db.machines),
      m.wakeStrategy ∈ ["etherwake", "udp"] := by
    intro m hm
    obtain ⟨m₀, hm₀, rfl⟩ := List.mem_map.mp hm
    split
    · exact List.mem_cons_of_mem _ List.mem_cons_self
    · rename_i hother
      rcases List.mem_pair.mp (hup m₀ hm₀) with heq | heq
      · rw [heq]
        decide
      · exact absurd (beq_iff_eq.mpr heq) hother
  unfold Schema.upAndDown upgradeSchema downgradeSchema
  rw [createCheck_eq_some hup, Option.bind_some, createCheck_eq_some hdown]
  refine ⟨_, rfl, rfl, ?_⟩
  rw [machines_restored_iff, attempts_restored_iff, settings_restored_iff]
  exact ⟨fun ⟨hm, ha, hr⟩ => ⟨hm, ha, hr⟩, fun ⟨hm, ha, hr⟩ => ⟨hm, ha, hr⟩⟩

/-- **The revision cannot be rolled back**: whatever is stored, the constraint that `downgrade()`
creates is not the one that was there before. -/
theorem upAndDown_never_restores (h : s.Valid) :
    ¬ ∃ s', s.upAndDown = some s' ∧ s.RolledBack s' := by
  rintro ⟨s', hs', hrolled⟩
  obtain ⟨same, hsame, hallowed, -⟩ := upAndDown_of_valid h
  rw [hs', Option.some.injEq] at hsame
  subst hsame
  have hcheck := hrolled.check "udp"
  rw [hallowed, h.allowed] at hcheck
  revert hcheck
  decide

end UpAndDown

namespace RollbackSample

/-- An installation whose machine is woken by a broadcast. -/
def schema : Schema where
  db := { Database.installed with
    machines := Database.installed.machines.map fun m => { m with wakeStrategy := "udp_broadcast" } }
  allowed := initialStrategies

theorem valid : schema.Valid := ⟨rfl, by decide⟩

end RollbackSample

theorem upAndDown_never_restores_sample :
    ¬ ∃ s', RollbackSample.schema.upAndDown = some s' ∧ RollbackSample.schema.RolledBack s' :=
  upAndDown_never_restores RollbackSample.valid

/-- The machine comes back with the old name, which the constraint did not allow before. -/
theorem rollback_renames_machine :
    ¬ ∀ s : Schema, s.Valid → ∃ s', s.upAndDown = some s' ∧ s.RolledBack s' := by
  intro h
  obtain ⟨s', hs', hrolled⟩ := h _ RollbackSample.valid
  have hmachines := congrArg (Option.map fun s => s.db.machines) hs'
  rw [Option.map_some, hrolled.machines] at hmachines
  revert hmachines
  decide

end WolMonkey
