import WolMonkey.Facts.Wakes
import WolMonkey.Model.Migrations

/-!
# Renaming a strategy in stored data

The strategy `udp` is stored in four places and in two encodings: as text in machines, wake
attempts and the payloads of queued jobs, and as the JSON object `{"v": …}` in the settings.
The migration looks for a JSON string in the settings and does not look at the jobs, so it
renames everything exactly when neither of these two holds the old name.
-/

namespace WolMonkey

open Programs Program

/-! ## What should happen -/

/-- The new name of a strategy. -/
def renamed (name : String) : String := if name = "udp" then "udp_broadcast" else name

def Scalar.renamed : Scalar → Scalar
  | str s => str (WolMonkey.renamed s)
  | v => v

def strategySetting : String := "default_wake_strategy"

/-- The setting with the renamed value, in the encoding of the repository. -/
def Setting.renamed (r : Setting) : Setting :=
  match r with
  | ⟨key, .object [("v", v)]⟩ =>
    if key = strategySetting then ⟨key, .object [("v", v.renamed)]⟩ else r
  | _ => r

/-- The queued job with the renamed override. -/
def WakeJob.renamed (j : WakeJob) : WakeJob :=
  if j.status = .queued then
    { j with payload := j.payload.map fun kv =>
        if kv.1 = "strategy_override" then (kv.1, kv.2.renamed) else kv }
  else j

/-- The tables with the new name in all four places, and nothing else changed. -/
def Database.renamed (db : Database) : Database :=
  { db with
    machines := db.machines.map fun m => { m with wakeStrategy := WolMonkey.renamed m.wakeStrategy }
    attempts := db.attempts.map fun a => { a with strategy := WolMonkey.renamed a.strategy }
    settings := db.settings.map Setting.renamed
    jobs := db.jobs.map WakeJob.renamed }

/-- The names before the migration. -/
def OldStrategy (name : String) : Prop := name = "etherwake" ∨ name = "udp"

/-- What the application stored before the migration: strategies have their old names, a
setting is the object that `SqlSettingsRepository.set` writes, and the override of a queued
job is a strategy or `null`. -/
structure Database.Old (db : Database) : Prop where
  machines : ∀ m ∈ db.machines, OldStrategy m.wakeStrategy
  attempts : ∀ a ∈ db.attempts, OldStrategy a.strategy
  settings : ∀ r ∈ db.settings, ∃ v, r.value = .object [("v", v)] ∧
    (r.key = strategySetting → ∃ name, v = .str name ∧ OldStrategy name)
  overrides : ∀ j ∈ db.jobs, j.status = .queued → ∀ v, ("strategy_override", v) ∈ j.payload →
    v = .null ∨ ∃ name, v = .str name ∧ OldStrategy name

/-- The override that the worker reads from the payload of a job. -/
def WakeJob.override (j : WakeJob) : Option String :=
  let override := j.payload.get "strategy_override" .null
  if override.truthy then some override.pyStr else none

/-- Code that runs on the tables and returns `a`. -/
def Returned {α : Type} (P : Platform) (db : Database) (code : Code α) (a : α) : Prop :=
  ∃ s', code.Runs (soloExec P) (Solo.init Input.quiet { Shared.fresh with db }) a s'

/-- The migration preserves the meaning of everything stored. -/
structure Preserved (P : Platform) (db db' : Database) : Prop where
  /-- Every field reads its value with the new name, and all other data is unchanged. -/
  renamed : db' = db.renamed
  /-- `get` returns the renamed value of the setting. -/
  get : ∃ v, Returned P db (SqlSettingsRepository.get strategySetting) v ∧
    Returned P db' (SqlSettingsRepository.get strategySetting) v.renamed
  /-- `get_all` raises on no row. -/
  getAll : ∃ values, Returned P db' SqlSettingsRepository.getAll values
  /-- `get_strategy` accepts the strategy of every queued job. -/
  accepted : ∀ j ∈ db'.jobs, j.status = .queued → ∀ m ∈ db'.machines, m.id = j.machineId →
    ∃ strategy, Returned P db' (getStrategy P (orElse j.override m.wakeStrategy)) strategy

/-! ## What happens -/

/-- The old name is neither the default strategy nor the override of a queued job. -/
structure Database.Unaffected (db : Database) : Prop where
  setting : ∀ r ∈ db.settings, r.key = strategySetting → r.value ≠ .object [("v", .str "udp")]
  overrides : ∀ j ∈ db.jobs, j.status = .queued → ("strategy_override", .str "udp") ∉ j.payload

section Upgrade
variable {P : Platform} {db : Database}

theorem renameMachines_eq (machines : List Machine) :
    Migrations.renameMachines machines =
      machines.map fun m => { m with wakeStrategy := renamed m.wakeStrategy } := by
  unfold Migrations.renameMachines updateRows renamed
  refine List.map_congr_left fun m _ => ?_
  by_cases h : m.wakeStrategy = "udp" <;> simp [h]

theorem renameAttempts_eq (attempts : List WakeAttempt) :
    Migrations.renameAttempts attempts =
      attempts.map fun a => { a with strategy := renamed a.strategy } := by
  unfold Migrations.renameAttempts updateRows renamed
  refine List.map_congr_left fun a _ => ?_
  by_cases h : a.strategy = "udp" <;> simp [h]

/-- No setting of the repository is a bare JSON string. -/
theorem renameSettings_eq (h : db.Old) : Migrations.renameSettings db.settings = db.settings := by
  refine updateRows_eq_self fun r hr hp => ?_
  obtain ⟨v, hv, -⟩ := h.settings r hr
  simp [hv] at hp

theorem wakeStrategyOk_renamed {name : String} (h : OldStrategy name) :
    wakeStrategyOk (renamed name) = true := by
  rcases h with rfl | rfl <;> decide

/-- On old data the migration succeeds; settings and jobs stay as they are. -/
theorem upgrade_eq (h : db.Old) :
    Migrations.upgrade db = some { db.renamed with settings := db.settings, jobs := db.jobs } := by
  unfold Migrations.upgrade
  simp only [renameMachines_eq, renameAttempts_eq, renameSettings_eq h]
  rw [if_pos]
  · rfl
  · rw [List.all_eq_true]
    intro m' hm'
    obtain ⟨m, hm, rfl⟩ := List.mem_map.mp hm'
    exact wakeStrategyOk_renamed (h.machines m hm)

theorem Scalar.renamed_eq_self {v : Scalar} (h : v ≠ .str "udp") : v.renamed = v := by
  cases v with
  | str s =>
    have hs : s ≠ "udp" := fun hs => h (by rw [hs])
    simp [Scalar.renamed, WolMonkey.renamed, hs]
  | _ => rfl

theorem Setting.renamed_eq_self_iff {r : Setting} {v : Scalar} (hv : r.value = .object [("v", v)]) :
    r.renamed = r ↔ (r.key = strategySetting → r.value ≠ .object [("v", .str "udp")]) := by
  obtain ⟨key, value⟩ := r
  dsimp only at hv
  subst hv
  by_cases hkey : key = strategySetting
  · by_cases hudp : v = .str "udp"
    · subst hudp
      simp [Setting.renamed, hkey, Scalar.renamed, WolMonkey.renamed]
    · simp [Setting.renamed, hkey, Scalar.renamed_eq_self hudp, hudp]
  · simp [Setting.renamed, hkey]

theorem WakeJob.renamed_eq_self_iff {j : WakeJob} :
    j.renamed = j ↔ (j.status = .queued → ("strategy_override", .str "udp") ∉ j.payload) := by
  by_cases hstatus : j.status = .queued
  · have hpayload : j.renamed = j ↔ (j.payload.map fun kv =>
        if kv.1 = "strategy_override" then (kv.1, kv.2.renamed) else kv) = j.payload := by
      unfold WakeJob.renamed
      rw [if_pos hstatus]
      constructor
      · exact fun h => congrArg WakeJob.payload h
      · intro h
        rw [h]
    rw [hpayload]
    constructor
    · intro h _ hmem
      have hudp := List.map_inj_left.mp (h.trans (List.map_id _).symm) _ hmem
      simp [Scalar.renamed, WolMonkey.renamed] at hudp
    · intro h
      refine (List.map_congr_left fun kv hkv => ?_).trans (List.map_id _)
      obtain ⟨key, v⟩ := kv
      split
      · rename_i hkey
        obtain rfl : key = "strategy_override" := hkey
        rw [Scalar.renamed_eq_self fun hv => h hstatus (hv ▸ hkv)]
        rfl
      · rfl
  · simp [WakeJob.renamed, hstatus]

/-- Renaming the settings and the jobs changes nothing exactly when they are unaffected. -/
theorem unaffected_iff (h : db.Old) :
    (db.settings.map Setting.renamed = db.settings ∧ db.jobs.map WakeJob.renamed = db.jobs) ↔
      db.Unaffected := by
  have hsettings : db.settings.map Setting.renamed = db.settings ↔
      ∀ r ∈ db.settings, r.renamed = r := by
    conv_lhs => rhs; rw [← List.map_id db.settings]
    exact List.map_inj_left
  have hjobs : db.jobs.map WakeJob.renamed = db.jobs ↔ ∀ j ∈ db.jobs, j.renamed = j := by
    conv_lhs => rhs; rw [← List.map_id db.jobs]
    exact List.map_inj_left
  rw [hsettings, hjobs]
  constructor
  · rintro ⟨hs, hj⟩
    refine ⟨fun r hr => ?_, fun j hj' => WakeJob.renamed_eq_self_iff.mp (hj j hj')⟩
    obtain ⟨v, hv, -⟩ := h.settings r hr
    exact (Setting.renamed_eq_self_iff hv).mp (hs r hr)
  · rintro ⟨hs, hj⟩
    refine ⟨fun r hr => ?_, fun j hj' => WakeJob.renamed_eq_self_iff.mpr (hj j hj')⟩
    obtain ⟨v, hv, -⟩ := h.settings r hr
    exact (Setting.renamed_eq_self_iff hv).mpr (hs r hr)

/-! ### What the application reads -/

/-- Every row is the object that the repository writes. -/
def Wrapped (settings : List Setting) : Prop := ∀ r ∈ settings, ∃ v, r.value = .object [("v", v)]

theorem Database.Old.wrapped (h : db.Old) : Wrapped db.settings :=
  fun r hr => (h.settings r hr).imp fun _ hv => hv.1

/-- A statement of a new request on the tables. -/
theorem returned_execute (st : Stmt) {r : Executed st}
    (h : st.run P {} (lockedJobs [] {} .main) db = .ok r) : Returned P db (execute .main st) r.answer :=
  ⟨_, runs_execute_iff.mpr ⟨rfl, rfl, r, h, rfl, rfl⟩⟩

/-- What `get` reads depends on the settings only. -/
theorem returned_get {settings : List Setting} (h : Wrapped settings) :
    ∃ v, (∀ db : Database, db.settings = settings →
        Returned P db (SqlSettingsRepository.get strategySetting) v) ∧
      (v = .null ∨ ∃ r ∈ settings, r.key = strategySetting ∧ r.value = .object [("v", v)]) := by
  have hexec : ∀ db : Database, db.settings = settings →
      Returned P db (execute .main (.settingGet strategySetting))
        (settings.find? (·.key == strategySetting)) := by
    rintro db rfl
    exact returned_execute (.settingGet strategySetting) (r := ⟨_, [], []⟩) rfl
  cases hfind : settings.find? (·.key == strategySetting) with
  | none =>
    refine ⟨.null, fun db hdb => ?_, .inl rfl⟩
    obtain ⟨s', hrun⟩ := hexec db hdb
    rw [hfind] at hrun
    exact ⟨s', runs_bind.mpr ⟨none, s', hrun, runs_pure.mpr ⟨rfl, rfl⟩⟩⟩
  | some row =>
    have hmem := List.mem_of_find?_eq_some hfind
    have hkey : row.key = strategySetting := by simpa using List.find?_some hfind
    obtain ⟨v, hv⟩ := h row hmem
    refine ⟨v, fun db hdb => ?_, .inr ⟨row, hmem, hkey, hv⟩⟩
    obtain ⟨s', hrun⟩ := hexec db hdb
    rw [hfind] at hrun
    refine ⟨s', runs_bind.mpr ⟨some row, s', hrun, ?_⟩⟩
    dsimp only
    rw [hv]
    exact runs_pure.mpr ⟨rfl, rfl⟩

theorem runs_valuesOf {rows : List Setting} (h : Wrapped rows) (s : Solo) :
    ∃ values, (SqlSettingsRepository.valuesOf rows).Runs (soloExec P) s values s := by
  induction rows with
  | nil => exact ⟨[], runs_pure.mpr ⟨rfl, rfl⟩⟩
  | cons row rows ih =>
    obtain ⟨v, hv⟩ := h row List.mem_cons_self
    obtain ⟨values, hvalues⟩ := ih fun r hr => h r (List.mem_cons_of_mem _ hr)
    refine ⟨(row.key, v) :: values, runs_bind.mpr ⟨v, s, ?_, runs_bind.mpr ⟨values, s, hvalues,
      runs_pure.mpr ⟨rfl, rfl⟩⟩⟩⟩
    rw [hv]
    exact runs_pure.mpr ⟨rfl, rfl⟩

theorem returned_getAll (h : Wrapped db.settings) :
    ∃ values, Returned P db SqlSettingsRepository.getAll values := by
  have hexec : Returned P db (execute .main .settingList) db.settings :=
    returned_execute .settingList (r := ⟨_, [], []⟩) rfl
  obtain ⟨s', hrun⟩ := hexec
  obtain ⟨values, hvalues⟩ := runs_valuesOf (P := P) h s'
  exact ⟨values, s', runs_bind.mpr ⟨_, _, hrun, hvalues⟩⟩

/-- A queued job without the old name uses a strategy that exists. -/
theorem accepted_of_unaffected (h : db.Old) (hfree : db.Unaffected) {j : WakeJob} (hj : j ∈ db.jobs)
    (hqueued : j.status = .queued) {m : Machine} (hm : m ∈ db.machines) :
    wakeStrategyOk (orElse j.override (renamed m.wakeStrategy)) = true := by
  have hmachine := wakeStrategyOk_renamed (h.machines m hm)
  unfold WakeJob.override JsonObject.get
  cases hlookup : j.payload.lookup "strategy_override" with
  | none => exact hmachine
  | some v =>
    have hmem : ("strategy_override", v) ∈ j.payload := by
      rw [List.lookup_eq_some_iff] at hlookup
      obtain ⟨l₁, l₂, hsplit, -⟩ := hlookup
      rw [hsplit]
      simp
    rcases h.overrides j hj hqueued v hmem with rfl | ⟨name, rfl, rfl | rfl⟩
    · exact hmachine
    · rfl
    · exact (hfree.overrides j hj hqueued hmem).elim

/-- The migration succeeds and preserves the meaning of what is stored exactly when the old
name is neither the default strategy nor the override of a queued job. -/
theorem rename_preserves_iff (P : Platform) (db : Database) (h : db.Old) :
    (∃ db', Migrations.upgrade db = some db' ∧ Preserved P db db') ↔ db.Unaffected := by
  rw [upgrade_eq h]
  constructor
  · rintro ⟨db', hdb', hpreserved⟩
    cases hdb'
    have hrenamed := hpreserved.renamed
    exact (unaffected_iff h).mp
      ⟨(congrArg Database.settings hrenamed).symm, (congrArg Database.jobs hrenamed).symm⟩
  · intro hfree
    obtain ⟨hsettings, hjobs⟩ := (unaffected_iff h).mpr hfree
    refine ⟨_, rfl, ?_, ?_, ?_, ?_⟩
    · unfold Database.renamed
      rw [hsettings, hjobs]
    · obtain ⟨v, hv, hcase⟩ := returned_get (P := P) h.wrapped
      have hsame : v.renamed = v := by
        rcases hcase with rfl | ⟨r, hr, hkey, hvalue⟩
        · rfl
        · refine Scalar.renamed_eq_self fun hudp => hfree.setting r hr hkey ?_
          rw [hvalue, hudp]
      refine ⟨v, hv db rfl, ?_⟩
      rw [hsame]
      exact hv _ rfl
    · exact returned_getAll h.wrapped
    · intro j hj hqueued m' hm' _
      obtain ⟨m, hm, rfl⟩ := List.mem_map.mp hm'
      obtain ⟨strategy, hrun⟩ := runs_getStrategy (P := P)
        (accepted_of_unaffected h hfree hj hqueued hm)
      exact ⟨strategy, _, hrun⟩

end Upgrade

/-- The installation before the migration, with the old name as the default strategy. -/
def Database.beforeRenaming : Database :=
  { Database.installed with
    settings := [⟨strategySetting, .object [("v", .str "udp")]⟩] }

theorem rename_preserves_sample :
    ∃ db', Migrations.upgrade Database.installed = some db' ∧
      Preserved Platform.sample Database.installed db' := by
  refine (rename_preserves_iff Platform.sample Database.installed ⟨?_, nofun, nofun, nofun⟩).mpr
    ⟨nofun, nofun⟩
  unfold OldStrategy
  decide

/-- The migration leaves the setting `{"v": "udp"}` as it is. -/
theorem rename_misses_setting :
    ¬ ∀ db : Database, db.Old → ∃ db', Migrations.upgrade db = some db' ∧
      Preserved Platform.sample db db' := by
  intro h
  have hold : Database.beforeRenaming.Old := by
    refine ⟨by unfold OldStrategy; decide, nofun, fun r hr => ?_, nofun⟩
    obtain rfl := List.mem_singleton.mp hr
    exact ⟨.str "udp", rfl, fun _ => ⟨"udp", rfl, .inr rfl⟩⟩
  obtain ⟨db', hdb', hpreserved⟩ := h _ hold
  have hsettings := congrArg Database.settings hpreserved.renamed
  have hupgrade := congrArg (Option.map Database.settings) hdb'
  rw [Option.map_some, hsettings] at hupgrade
  revert hupgrade
  decide

end WolMonkey
