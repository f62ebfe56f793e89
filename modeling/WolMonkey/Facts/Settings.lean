import WolMonkey.Facts.Sessions

/-!
# Stored settings

What `SettingsService.set` does when it returns: a value that the column already holds is
not sent, and any other value is stored under its key, unless its text has a NUL character.
-/

namespace WolMonkey

open Programs Program

/-- The row of a setting. -/
def Database.setting? (db : Database) (key : String) : Option Setting :=
  db.settings.find? (·.key == key)

/-- The setting is stored with this value. -/
def Database.holds (db : Database) (key : String) (value : Scalar) : Bool :=
  (db.setting? key).any (·.value.holds value)

/-- Storing the value does not fail. -/
def Database.settable (db : Database) (key : String) (value : Scalar) : Bool :=
  value.storable || db.holds key value

/-- The write that stores a setting. -/
def Write.SetsKey (key : String) : Write → Prop
  | insertSetting s => s.key = key
  | updateSetting k _ => k = key
  | _ => False

theorem setting?_apply_of_ne {w : Write} {key k : String} (h : w.SetsKey key) (hne : k ≠ key)
    (db : Database) : (w.apply db).setting? k = db.setting? k := by
  cases w <;> try contradiction
  · rename_i s
    have hs : (s.key == k) = false := by
      have : s.key = key := h
      simpa [this] using fun h' => hne h'.symm
    simp [Write.apply, Database.setting?, hs]
  · rename_i k' v
    obtain rfl : k' = key := h
    refine find?_updateRows fun r hr => ?_
    have hr' : r.key = k' := by simpa using hr
    have hne' : (k' == k) = false := by simpa using fun h' => hne h'.symm
    simp [hr', hne']

section Runs
variable {P : Platform} {s s' : Solo} {key : String} {value : Scalar} {u : Unit}

theorem runs_settingGet {found : Option Setting}
    (h : (execute .main (.settingGet key)).Runs (soloExec P) s found s') :
    found = s.view.setting? key ∧ s.Same s' := by
  have hsame := Runs.same (P := P) (uses_read rfl) h
  obtain ⟨r, hran, rfl⟩ := runs_execute h
  obtain ⟨locked, hrun⟩ := hran.run
  simp only [Stmt.run, bind_eq_ok, require_eq_ok, pure_eq_ok] at hrun
  obtain ⟨v, -, rfl⟩ := hrun
  exact ⟨rfl, hsame⟩

/-- What storing a setting has done: nothing when the column holds the value already. -/
theorem runs_set (hkey : varchar 100 key = some key)
    (h : (SettingsService.set key value).Runs (soloExec P) s u s') :
    s.view.settable key value = true ∧
      ((s.view.holds key value = true ∧ s.Same s') ∨
        ∃ w, w.SetsKey key ∧ s'.shared.db = s.shared.db ∧
          s'.store.main.writes = s.store.main.writes ++ [w]) := by
  obtain ⟨found, s₁, hget, h⟩ := runs_bind.mp h
  obtain ⟨hfound, hsame⟩ := runs_settingGet hget
  cases found with
  | none =>
    obtain ⟨r, hran, -⟩ := runs_execute h
    obtain ⟨locked, hrun⟩ := hran.run
    simp only [Stmt.run, bind_eq_ok, accepted_eq_ok, hkey, require_eq_ok, pure_eq_ok] at hrun
    obtain ⟨k, hk, v, hstor, -, -, rfl⟩ := hrun
    cases hk
    refine ⟨by simp [Database.settable, hstor], .inr
      ⟨.insertSetting ⟨key, .object [("v", value)]⟩, rfl, ?_, ?_⟩⟩
    · rw [hran.db, hsame.db]
    · rw [hran.writes, hsame.writes]
  | some model =>
    obtain ⟨r, hran, -⟩ := runs_execute h
    obtain ⟨locked, hrun⟩ := hran.run
    have hmodel : model.key = key := by
      have := List.find?_some hfound.symm
      simpa using this
    simp only [Stmt.run] at hrun
    split at hrun
    · rename_i hholds
      rw [pure_eq_ok] at hrun
      subst hrun
      have hheld : s.view.holds key value = true := by
        simp [Database.holds, ← hfound, hholds]
      refine ⟨by simp [Database.settable, hheld], .inl ⟨hheld, hsame.trans ⟨hran.db, ?_⟩⟩⟩
      rw [hran.writes, List.append_nil]
    · simp only [bind_eq_ok, require_eq_ok, pure_eq_ok] at hrun
      obtain ⟨v, hstor, rfl⟩ := hrun
      refine ⟨by simp [Database.settable, hstor], .inr
        ⟨.updateSetting model.key (.object [("v", value)]), hmodel, ?_, ?_⟩⟩
      · rw [hran.db, hsame.db]
      · rw [hran.writes, hsame.writes]

/-- Storing a setting leaves the rows of other settings as they are. -/
theorem runs_set_other (hkey : varchar 100 key = some key) {k : String} (hne : k ≠ key)
    (h : (SettingsService.set key value).Runs (soloExec P) s u s') :
    s'.view.setting? k = s.view.setting? k := by
  rcases (runs_set hkey h).2 with ⟨-, hsame⟩ | ⟨w, hw, hdb, hwrites⟩
  · rw [hsame.view]
  · simp only [Solo.view, hdb, hwrites, Database.after_append, Database.after_cons,
      Database.after_nil]
    exact setting?_apply_of_ne hw hne _

/-- A network step that returns was given values that can be stored. -/
theorem runs_saveNetwork {body : NetworkConfigRequest}
    (h : (Api.saveNetwork body).Runs (soloExec P) s u s') :
    s.view.settable "wake_interface" (.str body.wakeInterface) = true ∧
      s.view.settable "default_wake_strategy" (.str body.defaultWakeStrategy) = true := by
  obtain ⟨u₁, s₁, h₁, h⟩ := runs_bind.mp h
  obtain ⟨u₂, s₂, h₂, -⟩ := runs_bind.mp h
  refine ⟨(runs_set (by decide) h₁).1, ?_⟩
  have h' := (runs_set (by decide) h₂).1
  unfold Database.settable Database.holds at h' ⊢
  rwa [runs_set_other (by decide) (by decide) h₁] at h'

end Runs

end WolMonkey
