import WolMonkey.Model.App

/-!
# Effects of statements

What a statement can change. `Returns Q x` says that `Q` holds of whatever `x` returns; a
statement is a chain of checks, so facts about its result go through the chain by
`returns_bind`. The effect of a statement is the kind of the rows it writes
(`Stmt.run_effect`).
-/

namespace WolMonkey

open Programs

/-! ## Effects -/

/-- The kinds of effects: one for each kind of row change, the locking of jobs, the sending of
packets, the login limiter, and the ends of transactions. -/
inductive Effect where
  | newUser | lastLogin | passwordHash
  | newMachine | editMachine | dropMachine
  | newAttempt | attemptStatus
  | newSession | endSession
  | newToken | endToken | touchToken
  | newSetup | editSetup
  | newSetting | editSetting
  | newJob | lockJob | jobRunning | jobDone | jobError
  | send | rate | commit | reset
deriving DecidableEq

def Write.effect : Write → Effect
  | insertUser _ => .newUser
  | setLastLogin _ _ => .lastLogin
  | setPasswordHash _ _ => .passwordHash
  | insertMachine _ => .newMachine
  | updateMachine _ _ _ => .editMachine
  | deleteMachine _ => .dropMachine
  | insertAttempt _ => .newAttempt
  | setAttemptStatus _ _ _ _ => .attemptStatus
  | insertSession _ => .newSession
  | revokeSession _ => .endSession
  | insertToken _ => .newToken
  | revokeToken _ _ => .endToken
  | touchToken _ _ => .touchToken
  | insertSetup _ => .newSetup
  | updateSetup _ => .editSetup
  | insertSetting _ => .newSetting
  | updateSetting _ _ => .editSetting
  | insertJob _ => .newJob
  | setJobRunning _ _ => .jobRunning
  | setJobDone _ => .jobDone
  | setJobError _ _ => .jobError

/-- The effect of a statement; a statement without one only reads. -/
def Stmt.effect : Stmt → Option Effect
  | userInsert _ _ _ => some .newUser
  | userSetLastLogin _ => some .lastLogin
  | userSetPasswordHash _ _ => some .passwordHash
  | machineInsert _ => some .newMachine
  | machineUpdate _ _ => some .editMachine
  | machineDelete _ _ => some .dropMachine
  | attemptInsert _ => some .newAttempt
  | attemptUpdateStatus _ _ _ _ => some .attemptStatus
  | sessionInsert _ _ _ _ _ => some .newSession
  | sessionRevoke _ => some .endSession
  | tokenInsert _ _ _ _ _ => some .newToken
  | tokenRevoke _ => some .endToken
  | tokenTouch _ => some .touchToken
  | setupInsert _ => some .newSetup
  | setupUpdate _ _ => some .editSetup
  | settingInsert _ _ => some .newSetting
  | settingUpdate _ _ => some .editSetting
  | jobInsert _ _ _ _ => some .newJob
  | jobClaim => some .lockJob
  | jobSetRunning _ _ => some .jobRunning
  | jobSetDone _ => some .jobDone
  | jobSetError _ _ => some .jobError
  | _ => none

def Op.effect : Op → Option Effect
  | .stmt _ s => s.effect
  | .send _ _ _ _ => some .send
  | .checkLoginRate _ => some .rate
  | .commit _ => some .commit
  | .rollback _ => some .reset
  | .close _ => some .reset
  | _ => none

/-- `Q` holds of the value that a fallible computation returns. -/
def Returns {ε α : Type} (Q : α → Prop) (x : Except ε α) : Prop := ∀ a, x = .ok a → Q a

section Returns
variable {ε α β : Type} {Q : β → Prop}

theorem returns_pure {b : β} (h : Q b) : Returns Q (pure b : Except ε β) := by
  intro a ha
  cases ha
  exact h

theorem returns_throw {e : ε} : Returns Q (throw e : Except ε β) := nofun

theorem returns_bind {x : Except ε α} {f : α → Except ε β} (h : ∀ a, x = .ok a → Returns Q (f a)) :
    Returns Q (x >>= f) := by
  cases x with
  | error e => exact nofun
  | ok a => exact h a rfl

theorem bind_eq_ok {x : Except ε α} {f : α → Except ε β} {b : β} :
    x >>= f = .ok b ↔ ∃ a, x = .ok a ∧ f a = .ok b := by
  cases x with
  | error e => exact ⟨nofun, fun ⟨_, h, _⟩ => nomatch h⟩
  | ok a => exact ⟨fun h => ⟨a, rfl, h⟩, fun ⟨_, h, h'⟩ => by cases h; exact h'⟩

theorem pure_eq_ok {a b : β} : (pure a : Except ε β) = .ok b ↔ a = b :=
  ⟨Except.ok.inj, congrArg Except.ok⟩

theorem throw_eq_ok {e : ε} {b : β} : (throw e : Except ε β) = .ok b ↔ False := ⟨nofun, nofun⟩

end Returns

theorem require_eq_ok {b : Bool} {e : DbError} {u : Unit} : require b e = .ok u ↔ b = true := by
  cases b
  · exact ⟨nofun, nofun⟩
  · exact ⟨fun _ => rfl, fun _ => rfl⟩

theorem uuidParam_eq_ok {s : String} {u : Uuid} :
    uuidParam s = .ok u ↔ Uuid.parse? s = some u := by
  unfold uuidParam
  split <;> simp_all

theorem accepted_eq_ok {α : Type} {x : Option α} {a : α} : accepted x = .ok a ↔ x = some a := by
  cases x <;> simp [accepted]

theorem varchar_eq_self {n : Nat} {s : String} (h : s.toList.length ≤ n) (ht : textOk s = true) :
    varchar n s = some s := by
  simp [varchar, h, ht]

/-- The names of strategies fit into their column. -/
theorem varchar_strategy {name : String} (h : wakeStrategyOk name = true) :
    varchar 20 name = some name := by
  rcases Bool.or_eq_true _ _ |>.mp h with hname | hname
  · rw [beq_iff_eq.mp hname]
    rfl
  · rw [beq_iff_eq.mp hname]
    rfl

/-- What the driver reads as an identifier has no NUL character. -/
theorem textOk_of_parse? {s : String} {u : Uuid} (h : Uuid.parse? s = some u) :
    textOk s = true := by
  unfold textOk
  rw [Bool.not_eq_true', ← Bool.not_eq_true, List.contains_iff_mem]
  intro hmem
  exact absurd ((digits_of_parse? h).2 '\x00' hmem (by decide)) (by decide)

theorem textOk_text (u : Uuid) : textOk u.text = true := textOk_of_parse? (Uuid.parse?_text u)

theorem textOk_append {a b : String} (ha : textOk a = true) (hb : textOk b = true) :
    textOk (a ++ b) = true := by
  simp only [textOk, Bool.not_eq_true', String.toList_append, List.contains_eq_mem,
    decide_eq_false_iff_not] at ha hb ⊢
  rw [List.mem_append, not_or]
  exact ⟨ha, hb⟩

theorem textOk_repr (n : Nat) : textOk n.repr = true := by
  simp only [textOk, Bool.not_eq_true', List.contains_eq_mem, decide_eq_false_iff_not,
    Nat.toList_repr]
  intro hmem
  exact absurd (Nat.isDigit_of_mem_toDigits (by decide) (by decide) hmem) (by decide)

theorem textOk_toString (n : Int) : textOk (toString n) = true := by
  cases n with
  | ofNat n => exact textOk_repr n
  | negSucc n => exact textOk_append (a := "-") (by decide) (textOk_repr (n + 1))

/-- The text of an identifier fits into every column of its length. -/
theorem varchar_text {n : Nat} (hn : 36 ≤ n) (u : Uuid) : varchar n u.text = some u.text :=
  varchar_eq_self (Nat.le_trans (Uuid.length_text u) hn) (textOk_text u)

/-- A statement writes rows of its own effect only. -/
theorem Stmt.run_effect {P : Platform} {inp : Input} {locked : List Uuid} {db : Database}
    {s : Stmt} : Returns (fun r => ∀ w ∈ r.writes, s.effect = some w.effect)
      (s.run P inp locked db) := by
  cases s <;> simp only [run]
  -- every statement is a chain of checks that ends in one write or in none
  all_goals
    repeat' first
      | exact returns_pure (by simp [Stmt.effect, Write.effect])
      | exact returns_throw
      | refine returns_bind fun _ _ => ?_
      | split

/-- A fold that keeps what it has or takes the element ends with one of the elements. -/
theorem mem_of_foldl_pick {α : Type} {pick : Option α → α → Option α} {x : α}
    (hpick : ∀ best a, pick best a = best ∨ pick best a = some a) (l : List α)
    (best : Option α) (h : l.foldl pick best = some x) : best = some x ∨ x ∈ l := by
  induction l generalizing best with
  | nil => exact .inl h
  | cons a l ih =>
    rcases ih _ h with hbest | hmem
    · rcases hpick best a with hkept | htaken
      · exact .inl (hkept.symm.trans hbest)
      · rw [htaken] at hbest
        exact .inr (List.mem_cons.mpr (.inl (Option.some.inj hbest).symm))
    · exact .inr (List.mem_cons_of_mem _ hmem)

/-- `ORDER BY … LIMIT 1` finds one of the rows. -/
theorem oldestJob_mem {jobs : List WakeJob} {j : WakeJob} (h : oldestJob jobs = some j) :
    j ∈ jobs := by
  refine (mem_of_foldl_pick (fun best a => ?_) jobs none h).resolve_left (by simp)
  split
  · exact .inr rfl
  · split
    · exact .inr rfl
    · exact .inl rfl

/-- Only a claim locks job rows. -/
theorem Stmt.run_locks {P : Platform} {inp : Input} {locked : List Uuid} {db : Database}
    {s : Stmt} (hs : s.effect ≠ some .lockJob) :
    Returns (fun r => r.locks = []) (s.run P inp locked db) := by
  cases s <;> simp only [run]
  case jobClaim => exact absurd rfl hs
  all_goals
    repeat' first
      | exact returns_pure rfl
      | exact returns_throw
      | refine returns_bind fun _ _ => ?_
      | split

end WolMonkey
