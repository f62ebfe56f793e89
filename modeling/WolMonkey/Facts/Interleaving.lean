import WolMonkey.Facts.Execution

/-!
# Transactions beside each other

What the open transactions of different threads have to do with each other. A change locks
the keys of its row, so that two threads never have open changes of the same row
(`World.apart_rows`); what a thread commits reaches rows that no other thread has changed.
-/

namespace WolMonkey

open Programs Program

section Rows
variable {K : Type} (row : Write → Option K)

/-- Changes of the same row exclude each other. -/
def Exclusive : Prop :=
  ∀ (db : Database) (v w : Write) (k : K), row v = some k → row w = some k →
    v.conflicts db w = true

/-- An open transaction of the thread has changed the row. -/
def Store.Touches (st : Store) (k : K) : Prop := ∃ slot, ∃ w ∈ (st.tx slot).writes, row w = some k

/-- The threads have not changed the same row. -/
def Store.Apart (st st' : Store) : Prop := ∀ k, st.Touches row k → ¬ st'.Touches row k

variable {row}

theorem Store.not_touches_empty (k : K) : ¬ ({} : Store).Touches row k := by
  rintro ⟨slot, w, hw, -⟩
  cases slot <;> cases hw

theorem Store.Apart.symm {st st' : Store} (h : st.Apart row st') : st'.Apart row st :=
  fun k hk hk' => h k hk' hk

theorem Store.apart_empty (st : Store) : ({} : Store).Apart row st :=
  fun k hk => (Store.not_touches_empty k hk).elim

/-- Replacing a transaction by one without further changes touches no further row. -/
theorem Store.Touches.of_setTx {st : Store} {slot : Slot} {tx : Tx} {k : K}
    (h : (st.setTx slot tx).Touches row k) :
    st.Touches row k ∨ ∃ w ∈ tx.writes, row w = some k := by
  obtain ⟨slot', w, hw, hrow⟩ := h
  by_cases hslot : slot = slot'
  · subst hslot
    rw [Store.tx_setTx_self] at hw
    exact .inr ⟨w, hw, hrow⟩
  · rw [Store.tx_setTx_of_ne hslot] at hw
    exact .inl ⟨slot', w, hw, hrow⟩

section Step
variable {P : Platform} {op : Op} {inp : Input} {others : List Store} {sh : Shared} {st : Store}

/-- The rows that a thread has changed: those of before, and those that a statement changes
now. -/
theorem executeOp_touches {k : K} (h : (executeOp P op inp others sh st).2.2.Touches row k) :
    st.Touches row k ∨ ∃ slot s r, op = .stmt slot s ∧
      s.run P inp (lockedJobs others st slot) (sh.db.after (st.tx slot).writes) = .ok r ∧
        ∃ w ∈ r.writes, row w = some k := by
  have hempty : ∀ slot, (st.setTx slot {}).Touches row k → st.Touches row k := by
    intro slot h
    rcases h.of_setTx with h | ⟨w, hw, -⟩
    · exact h
    · cases hw
  cases op with
  | stmt slot s =>
    rcases executeStmt_cases P slot inp others sh st s with ⟨e, status, hexec, -⟩ |
      ⟨r, -, -, hrun, hexec⟩
    · simp only [executeOp, hexec] at h
      rcases h.of_setTx with h | ⟨w, hw, hrow⟩
      · exact .inl h
      · exact .inl ⟨slot, w, hw, hrow⟩
    · simp only [executeOp, hexec] at h
      rcases h.of_setTx with h | ⟨w, hw, hrow⟩
      · exact .inl h
      · rcases List.mem_append.mp hw with hw | hw
        · exact .inl ⟨slot, w, hw, hrow⟩
        · exact .inr ⟨slot, s, r, rfl, hrun, w, hw, hrow⟩
  | commit slot =>
    rcases (executeCommit_cases slot inp sh st).2 with hst | ⟨-, hst, -⟩
    · simp only [executeOp, hst] at h
      exact .inl (hempty slot h)
    · simp only [executeOp, hst] at h
      exact .inl h
  | rollback slot =>
    simp only [executeOp] at h
    split at h <;> exact .inl (hempty slot h)
  | close slot => exact .inl (hempty slot h)
  | send strategy mac interface broadcast =>
    simp only [executeOp] at h
    split at h <;> exact .inl h
  | _ => exact .inl h

/-- An operation that does not have to wait changes no row that another thread has changed. -/
theorem executeOp_apart (hrow : Exclusive row) (hen : enabledOp P op inp others sh st = true)
    (h : ∀ o ∈ others, st.Apart row o) :
    ∀ o ∈ others, (executeOp P op inp others sh st).2.2.Apart row o := by
  intro o ho k hk hother
  rcases executeOp_touches hk with hk | ⟨slot, s, r, rfl, hrun, w, hw, hwrow⟩
  · exact h o ho k hk hother
  · obtain ⟨slot', v, hv, hvrow⟩ := hother
    simp only [enabledOp, Bool.and_eq_true, hrun, List.all_eq_true] at hen
    have htx : o.tx slot' ∈ otherTxs others st slot := by
      have hflat : o.tx slot' ∈ others.flatMap fun o => [o.main, o.queue] := by
        refine List.mem_flatMap.mpr ⟨o, ho, ?_⟩
        cases slot' <;> simp [Store.tx]
      cases slot <;> exact List.mem_append_left _ hflat
    have hfree := hen.2 w hw _ htx
    have hblocks : (o.tx slot').blocks sh.db w = true := by
      unfold Tx.blocks
      rw [Bool.or_eq_true]
      exact .inl (List.any_eq_true.mpr ⟨v, hv, hrow sh.db v w k hvrow hwrow⟩)
    rw [hblocks] at hfree
    cases hfree

end Step

/-- No two threads ever have open changes of the same row. -/
theorem World.apart_rows {P : Platform} (hrow : Exclusive row) {w w' : System.World P}
    {a : Action (machine P) Label} (h : w.Apart (Store.Apart row))
    (hact : w.act (start P) a = some w') : w'.Apart (Store.Apart row) :=
  World.apart_act (fun _ _ h => h.symm) Store.apart_empty h hact
    fun _ _ _ _ _ hen h => executeOp_apart hrow hen h

end Rows

/-! ## Threads that make changes of one kind -/

section Making
variable {P : Platform} {W : Write → Prop} {w w' : System.World P} {a : Action (machine P) Label}

/-- The threads make only changes with `W`. -/
def MakesOnly (W : Write → Prop) (w : System.World P) : Prop :=
  ∀ t ∈ w.threads, t.program.Uses (MakesOn P W) ∧ Store.Only W t.store

theorem MakesOnly.act (h : MakesOnly W w) (hact : w.act (start P) a = some w')
    (hspawn : ∀ label, a = .spawn label → (start P label).Uses (MakesOn P W)) :
    MakesOnly W w' ∧ Reaches W w.shared.db w'.shared.db := by
  rcases World.act_cases (start P) hact with ⟨label, rfl, rfl⟩ | ⟨tid, t, rfl, ht, -, rfl⟩ |
    ⟨tid, inp, t, op, next, rfl, ht, hp, -, rfl⟩
  · refine ⟨fun t ht => ?_, .refl _⟩
    rcases List.mem_append.mp ht with ht | ht
    · exact h t ht
    · cases List.mem_singleton.mp ht
      exact ⟨hspawn label rfl, Store.only_empty⟩
  · refine ⟨fun u hu => ?_, .refl _⟩
    rcases List.mem_or_eq_of_mem_set hu with hu | rfl
    · exact h u hu
    · exact ⟨uses_stuck, Store.only_empty⟩
  · obtain ⟨huses, honly⟩ := h t (List.mem_of_getElem? ht)
    rw [hp] at huses
    unfold Uses at huses
    let r := executeOp P op inp (w.others tid) w.shared t.store
    have hstep : r.2.2.Only W ∧ Reaches W w.shared.db r.2.1.db := executeOp_only huses.1 honly
    obtain ⟨honly', hreaches⟩ := hstep
    refine ⟨fun u hu => ?_, hreaches⟩
    rcases List.mem_or_eq_of_mem_set hu with hu | rfl
    · exact h u hu
    · exact ⟨huses.2 _, honly'⟩

/-- **Runs of one kind of change.** When all threads make only changes with `W`, only such
changes reach the tables. -/
theorem makesOnly_of_reachable {allowed : System.World P → Action (machine P) Label → Prop}
    (hrun : Reachable (start P) allowed w w') (h : MakesOnly W w)
    (hstart : ∀ v label, allowed v (.spawn label) → (start P label).Uses (MakesOn P W)) :
    MakesOnly W w' ∧ Reaches W w.shared.db w'.shared.db := by
  let Inv : System.World P → Prop := fun v => MakesOnly W v ∧ Reaches W w.shared.db v.shared.db
  suffices Inv w' from this
  refine hrun.invariant ⟨h, .refl _⟩ fun v a v' _ hv hallowed hact => ?_
  obtain ⟨hmakes, hreaches⟩ := hv.1.act hact fun label ha => hstart v label (ha ▸ hallowed)
  exact ⟨hmakes, hv.2.trans hreaches⟩

end Making

/-! ## The rows of attempts -/

/-- The attempt that a change is about. -/
def Write.attempt? : Write → Option Uuid
  | insertAttempt a => some a.id
  | setAttemptStatus id _ _ _ => some id
  | _ => none

theorem exclusive_attempt : Exclusive Write.attempt? := by
  intro db v w k hv hw
  have hkey : ∀ u : Write, u.attempt? = some k → u.exclusive db = [.attempt k] := by
    intro u hu
    cases u <;> simp only [Write.attempt?, Option.some.injEq, reduceCtorEq] at hu
    all_goals
      subst hu
      rfl
  simp only [Write.conflicts, hkey v hv, hkey w hw]
  simp

/-- Changes that leave the attempts and the machines alone. -/
def Effect.spares : Effect → Bool
  | .newMachine | .editMachine | .dropMachine | .newAttempt | .attemptStatus => false
  | _ => true

theorem untouched_attempts_of_spares :
    Untouched (fun w => w.effect.spares = true) fun db => (db.attempts, db.machines) := by
  intro w db hw
  cases w <;> first
    | rfl
    | cases hw

end WolMonkey
