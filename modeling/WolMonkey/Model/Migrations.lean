import WolMonkey.Model.Services

/-!
# Migrations

Revision 7da1313001d6, which renames the strategy `udp`. The statements of `upgrade()` run in
one transaction, and the last one recreates a `CHECK` constraint, which fails when a row
does not satisfy it; `downgrade()` renames the strategy back in the same way.
-/

namespace WolMonkey

namespace Migrations

/-- `UPDATE machines SET wake_strategy = 'udp_broadcast' WHERE wake_strategy = 'udp'`. -/
def renameMachines (machines : List Machine) : List Machine :=
  updateRows (·.wakeStrategy == "udp") (fun m => { m with wakeStrategy := "udp_broadcast" })
    machines

/-- `UPDATE wake_attempts SET strategy = 'udp_broadcast' WHERE strategy = 'udp'`. -/
def renameAttempts (attempts : List WakeAttempt) : List WakeAttempt :=
  updateRows (·.strategy == "udp") (fun a => { a with strategy := "udp_broadcast" }) attempts

/-- `UPDATE settings SET value = '"udp_broadcast"' WHERE key = 'default_wake_strategy' AND
value = '"udp"'`: the predicate compares the column with a JSON string. -/
def renameSettings (settings : List Setting) : List Setting :=
  updateRows (fun r => r.key == "default_wake_strategy" && r.value == .scalar (.str "udp"))
    (fun r => { r with value := .scalar (.str "udp_broadcast") }) settings

/-- `upgrade()`; nothing is returned when the constraint cannot be created. -/
def upgrade (db : Database) : Option Database :=
  let machines := renameMachines db.machines
  if machines.all (fun m => wakeStrategyOk m.wakeStrategy) then
    some { db with machines, attempts := renameAttempts db.attempts
                   settings := renameSettings db.settings }
  else none

/-! ## The constraint -/

/-- The tables with the values that `ck_machines_wake_strategy` allows. -/
structure Schema where
  db : Database
  allowed : List String

/-- The values that the constraint of revision a079c458d58b allows; revision 09d75b0dfde5
leaves it as it is. -/
def initialStrategies : List String := ["etherwake", "udp_broadcast"]

/-- `create_check_constraint`: it fails when a row does not satisfy the constraint. -/
def createCheck (allowed : List String) (db : Database) : Option Schema :=
  if db.machines.all (fun m => allowed.contains m.wakeStrategy) then some ⟨db, allowed⟩ else none

/-- `UPDATE machines SET wake_strategy = 'udp' WHERE wake_strategy = 'udp_broadcast'`. -/
def revertMachines (machines : List Machine) : List Machine :=
  updateRows (·.wakeStrategy == "udp_broadcast") (fun m => { m with wakeStrategy := "udp" })
    machines

/-- `UPDATE wake_attempts SET strategy = 'udp' WHERE strategy = 'udp_broadcast'`. -/
def revertAttempts (attempts : List WakeAttempt) : List WakeAttempt :=
  updateRows (·.strategy == "udp_broadcast") (fun a => { a with strategy := "udp" }) attempts

/-- `UPDATE settings SET value = '"udp"' WHERE key = 'default_wake_strategy' AND
value = '"udp_broadcast"'`. -/
def revertSettings (settings : List Setting) : List Setting :=
  updateRows
    (fun r => r.key == "default_wake_strategy" && r.value == .scalar (.str "udp_broadcast"))
    (fun r => { r with value := .scalar (.str "udp") }) settings

/-- `upgrade()`, which drops the constraint and creates it again. -/
def upgradeSchema (s : Schema) : Option Schema :=
  createCheck ["etherwake", "udp_broadcast"]
    { s.db with machines := renameMachines s.db.machines, attempts := renameAttempts s.db.attempts
                settings := renameSettings s.db.settings }

/-- `downgrade()`. -/
def downgradeSchema (s : Schema) : Option Schema :=
  createCheck ["etherwake", "udp"]
    { s.db with machines := revertMachines s.db.machines, attempts := revertAttempts s.db.attempts
                settings := revertSettings s.db.settings }

end Migrations

end WolMonkey
