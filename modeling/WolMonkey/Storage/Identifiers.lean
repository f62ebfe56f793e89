import Mathlib.Data.List.Perm.Subperm
import WolMonkey.Facts.Interleaving

/-!
# Identifiers

Rows are found by their identifiers, so these must never be given out twice. Whatever is
interleaved, committed, rolled back, lost or crashed, the identifiers of every table stay
distinct, and the identifier of a row that is gone never comes back.
-/

namespace WolMonkey

open Programs

/-! ## Identifiers of rows -/

/-- The tables whose rows have an identifier that is drawn. -/
inductive Table where
  | users
  | machines
  | attempts
  | jobs
  | sessions
  | tokens
deriving DecidableEq

def Database.ids (db : Database) : Table → List Uuid
  | .users => db.users.map (·.id)
  | .machines => db.machines.map (·.id)
  | .attempts => db.attempts.map (·.id)
  | .jobs => db.jobs.map (·.id)
  | .sessions => db.sessions.map (·.id)
  | .tokens => db.tokens.map (·.id)

/-- The identifier of the row that a change adds to the table. -/
def Write.newId? : Table → Write → Option Uuid
  | .users, insertUser u => some u.id
  | .machines, insertMachine m => some m.id
  | .attempts, insertAttempt a => some a.id
  | .jobs, insertJob j => some j.id
  | .sessions, insertSession s => some s.id
  | .tokens, insertToken k => some k.id
  | _, _ => none

section Changes
variable {τ : Table}

theorem ids_apply (x : Write) (db : Database) :
    ((x.apply db).ids τ).Sublist (db.ids τ ++ (x.newId? τ).toList) := by
  have hsame : (x.apply db).ids τ = db.ids τ →
      ((x.apply db).ids τ).Sublist (db.ids τ ++ (x.newId? τ).toList) := by
    intro h
    rw [h]
    exact List.sublist_append_left _ _
  have hmapped : ∀ {α : Type} (id : α → Uuid) (rows : List α) (p : α → Bool) (f : α → α),
      (∀ r, id (f r) = id r) → (updateRows p f rows).map id = rows.map id :=
    fun id rows p f hf => map_updateRows hf
  cases x with
  | deleteMachine id =>
    cases τ with
    | machines | attempts | jobs =>
      exact ((List.filter_sublist).map _).trans (List.sublist_append_left _ _)
    | tokens => exact hsame (hmapped _ _ _ _ fun _ => rfl)
    | _ => exact hsame rfl
  | _ =>
    cases τ <;> first
      | exact hsame rfl
      | exact hsame (hmapped _ _ _ _ fun _ => rfl)
      | (simp only [Database.ids, Write.apply, List.map_append, Write.newId?]
         exact List.Sublist.refl _)

/-- Changes add the identifiers of the rows they insert, and no others. -/
theorem ids_after (xs : List Write) (db : Database) :
    ((db.after xs).ids τ).Sublist (db.ids τ ++ xs.filterMap (Write.newId? τ)) := by
  induction xs generalizing db with
  | nil => simp
  | cons x xs ih =>
    have hstep := (ih (x.apply db)).trans ((ids_apply x db).append_right _)
    rw [List.append_assoc] at hstep
    cases hx : x.newId? τ with
    | none => simpa [hx] using hstep
    | some k => simpa [hx] using hstep

theorem exclusive_newId : Exclusive (Write.newId? τ) := by
  intro db v w k hv hw
  have hkey : ∀ u : Write, u.newId? τ = some k → ∃ key keys, u.exclusive db = key :: keys ∧
      key = (match τ with
        | .users => RowKey.user k
        | .machines => .machine k
        | .attempts => .attempt k
        | .jobs => .job k
        | .sessions => .session k
        | .tokens => .token k) := by
    intro u hu
    cases τ <;> cases u <;> simp only [Write.newId?, Option.some.injEq, reduceCtorEq] at hu
    all_goals
      subst hu
      exact ⟨_, _, rfl, rfl⟩
  obtain ⟨key, keys, hvkeys, hkeyv⟩ := hkey v hv
  obtain ⟨key', keys', hwkeys, hkeyw⟩ := hkey w hw
  have heq : key = key' := hkeyv.trans hkeyw.symm
  simp [Write.conflicts, hvkeys, hwkeys, heq]

/-- A statement adds at most one row to the table, with the identifier that it draws. -/
theorem run_newId {P : Platform} {inp : Input} {locked : List Uuid} {db : Database} {s : Stmt} :
    Returns (fun r => r.writes.filterMap (Write.newId? τ) = [] ∨
      s.inserts = true ∧ r.writes.filterMap (Write.newId? τ) = [inp.fresh])
      (s.run P inp locked db) := by
  cases s <;> simp only [Stmt.run]
  all_goals
    repeat' first
      | exact returns_pure (by cases τ <;> simp [Write.newId?, Stmt.inserts])
      | exact returns_throw
      | refine returns_bind fun _ _ => ?_
      | split

end Changes

/-! ## Identifiers in open transactions -/

def Tx.newIds (tx : Tx) (τ : Table) : List Uuid := tx.writes.filterMap (Write.newId? τ)

/-- The identifiers of the rows that are inserted and not committed. -/
def Store.newIds (st : Store) (τ : Table) : List Uuid := st.main.newIds τ ++ st.queue.newIds τ

section Open
variable {P : Platform} {τ : Table} {op : Op} {inp : Input} {others : List Store} {sh : Shared}
  {st : Store}

theorem touches_of_newIds {k : Uuid} (h : k ∈ st.newIds τ) : st.Touches (Write.newId? τ) k := by
  rcases List.mem_append.mp h with h | h
  · obtain ⟨x, hx, hk⟩ := List.mem_filterMap.mp h
    exact ⟨.main, x, hx, hk⟩
  · obtain ⟨x, hx, hk⟩ := List.mem_filterMap.mp h
    exact ⟨.queue, x, hx, hk⟩

/-- A transaction that is replaced. -/
theorem newIds_setTx (slot : Slot) (tx : Tx) (l : List Uuid)
    (h : (tx.newIds τ ++ l).Subperm ((st.tx slot).newIds τ)) :
    ((st.setTx slot tx).newIds τ ++ l).Subperm (st.newIds τ) := by
  cases slot with
  | main =>
    have hperm : ((st.setTx .main tx).newIds τ ++ l).Perm (tx.newIds τ ++ l ++ st.queue.newIds τ) := by
      show (tx.newIds τ ++ st.queue.newIds τ ++ l).Perm _
      rw [List.append_assoc, List.append_assoc]
      exact List.Perm.append_left _ List.perm_append_comm
    exact hperm.subperm.trans ((List.subperm_append_right _).mpr h)
  | queue =>
    show (st.main.newIds τ ++ tx.newIds τ ++ l).Subperm _
    rw [List.append_assoc]
    exact (List.subperm_append_left _).mpr h

/-- A transaction that inserts one more row. -/
theorem newIds_setTx_concat (slot : Slot) (tx : Tx) (k : Uuid)
    (h : tx.newIds τ = (st.tx slot).newIds τ ++ [k]) :
    ((st.setTx slot tx).newIds τ).Subperm ([k] ++ st.newIds τ) := by
  cases slot with
  | main =>
    show (tx.newIds τ ++ st.queue.newIds τ).Subperm _
    rw [h]
    exact (List.Perm.append_right _ List.perm_append_comm).subperm
  | queue =>
    show (st.main.newIds τ ++ tx.newIds τ).Subperm _
    rw [h, ← List.append_assoc]
    exact List.perm_append_comm.subperm

/-- One operation draws identifiers that are new, and commits some that were open. -/
theorem executeOp_newIds (hen : enabledOp P op inp others sh st = true) :
    let r := executeOp P op inp others sh st
    ∃ drawn committed : List Uuid,
      (r.2.2.newIds τ ++ committed).Subperm (drawn ++ st.newIds τ) ∧
      (r.2.1.db.ids τ).Sublist (sh.db.ids τ ++ committed) ∧ drawn.Nodup ∧
      (∀ k ∈ drawn, k ∉ sh.issued ∧ k ∈ r.2.1.issued) ∧ ∀ k ∈ sh.issued, k ∈ r.2.1.issued := by
  -- nothing is drawn and nothing committed
  have hquiet : ∀ (sh' : Shared) (st' : Store), sh'.db = sh.db →
      (∀ k ∈ sh.issued, k ∈ sh'.issued) → (st'.newIds τ ++ []).Subperm (st.newIds τ) →
      ∃ drawn committed : List Uuid,
        (st'.newIds τ ++ committed).Subperm (drawn ++ st.newIds τ) ∧
        (sh'.db.ids τ).Sublist (sh.db.ids τ ++ committed) ∧ drawn.Nodup ∧
        (∀ k ∈ drawn, k ∉ sh.issued ∧ k ∈ sh'.issued) ∧ ∀ k ∈ sh.issued, k ∈ sh'.issued := by
    intro sh' st' hdb hissued hids
    refine ⟨[], [], hids, ?_, List.nodup_nil, by simp, hissued⟩
    rw [hdb]
    exact List.sublist_append_left _ _
  have hsame : (st.newIds τ ++ []).Subperm (st.newIds τ) := by
    rw [List.append_nil]
  have hcleared : ∀ slot, ((st.setTx slot {}).newIds τ ++ []).Subperm (st.newIds τ) :=
    fun slot => newIds_setTx slot {} [] (List.nil_subperm)
  cases op with
  | stmt slot s =>
    have hgrows : ∀ k ∈ sh.issued, k ∈ (if s.inserts then { sh with issued := inp.fresh :: sh.issued }
        else sh).issued := by
      intro k hk
      split
      · exact List.mem_cons_of_mem _ hk
      · exact hk
    have hdb : (if s.inserts then { sh with issued := inp.fresh :: sh.issued } else sh).db =
        sh.db := by
      split <;> rfl
    rcases executeStmt_cases P slot inp others sh st s with ⟨e, status, hexec, -⟩ |
      ⟨r, -, -, hrun, hexec⟩
    · simp only [executeOp, hexec]
      refine hquiet _ _ hdb hgrows (newIds_setTx slot _ [] ?_)
      rw [List.append_nil]
      exact List.Subperm.refl _
    · simp only [executeOp, hexec]
      have hnew : ∀ (locks : List Uuid) (status : TxStatus),
          (Tx.mk ((st.tx slot).writes ++ r.writes) locks status).newIds τ =
            (st.tx slot).newIds τ ++ r.writes.filterMap (Write.newId? τ) := by
        intro locks status
        simp only [Tx.newIds, List.filterMap_append]
      rcases run_newId (τ := τ) r hrun with hnone | ⟨hinserts, hone⟩
      · refine hquiet _ _ hdb hgrows (newIds_setTx slot _ [] ?_)
        rw [hnew, hnone, List.append_nil, List.append_nil]
      · have hfresh : inp.fresh ∉ sh.issued := by
          simp only [enabledOp, hinserts, Bool.not_true, Bool.false_or, Bool.and_eq_true,
            Bool.not_eq_true', List.contains_eq_mem, decide_eq_false_iff_not] at hen
          exact hen.1
        refine ⟨[inp.fresh], [], ?_, ?_, by simp, ?_, hgrows⟩
        · rw [List.append_nil]
          exact newIds_setTx_concat slot _ _ (by rw [hnew, hone])
        · rw [hdb, List.append_nil]
        · intro k hk
          rw [List.mem_singleton.mp hk, if_pos hinserts]
          exact ⟨hfresh, List.mem_cons_self⟩
  | commit slot =>
    obtain ⟨hdb, hst⟩ := executeCommit_cases slot inp sh st
    simp only [executeOp]
    have hids : ((executeCommit slot inp sh st).2.2.newIds τ ++ []).Subperm (st.newIds τ) := by
      rcases hst with hst | ⟨-, hst, -⟩
      · rw [hst]
        exact hcleared slot
      · rw [hst]
        exact hsame
    rcases hdb with hdb | ⟨hactive, hdb⟩
    · rw [hdb]
      exact hquiet sh _ rfl (fun k hk => hk) hids
    · have hclear : (executeCommit slot inp sh st).2.2 = st.setTx slot {} := by
        refine hst.resolve_right ?_
        rintro ⟨hinactive, -⟩
        rw [hactive] at hinactive
        cases hinactive
      rw [hdb, hclear]
      refine ⟨[], (st.tx slot).newIds τ, ?_, ids_after _ _, List.nodup_nil, by simp, fun k hk => hk⟩
      exact newIds_setTx slot {} _ (List.Subperm.refl _)
  | rollback slot =>
    simp only [executeOp]
    split <;> exact hquiet sh _ rfl (fun k hk => hk) (hcleared slot)
  | close slot => exact hquiet sh _ rfl (fun k hk => hk) (hcleared slot)
  | send strategy mac interface broadcast =>
    simp only [executeOp]
    split <;> exact hquiet sh st rfl (fun k hk => hk) hsame
  | _ => exact hquiet _ st rfl (fun k hk => hk) hsame

end Open

/-! ## Identifiers in runs -/

section Worlds
variable {P : Platform} {τ : Table} {w w' : System.World P} {a : Action (machine P) Label}
  {allowed : System.World P → Action (machine P) Label → Prop}

/-- The identifiers of the table are distinct and drawn, and so are those in open
transactions. -/
structure Keyed (τ : Table) (w : System.World P) : Prop where
  nodup : (w.shared.db.ids τ).Nodup
  drawn : ∀ k ∈ w.shared.db.ids τ, k ∈ w.shared.issued
  pending : ∀ t ∈ w.threads, (t.store.newIds τ).Nodup ∧
    ∀ k ∈ t.store.newIds τ, k ∈ w.shared.issued ∧ k ∉ w.shared.db.ids τ
  apart : w.Apart (Store.Apart (Write.newId? τ))

theorem nodup_of_subperm {l l' : List Uuid} (h : l.Subperm l') (hl' : l'.Nodup) : l.Nodup := by
  obtain ⟨m, hperm, hsub⟩ := h
  exact hperm.nodup_iff.mp (hl'.sublist hsub)

theorem Keyed.act (h : Keyed τ w) (hact : w.act (start P) a = some w') : Keyed τ w' := by
  have hapart := World.apart_rows exclusive_newId h.apart hact
  rcases World.act_cases (start P) hact with ⟨label, rfl, rfl⟩ | ⟨tid, t, rfl, ht, -, rfl⟩ |
    ⟨tid, inp, t, op, next, rfl, ht, hp, hen, rfl⟩
  · refine ⟨h.nodup, h.drawn, fun t ht => ?_, hapart⟩
    rcases List.mem_append.mp ht with ht | ht
    · exact h.pending t ht
    · cases List.mem_singleton.mp ht
      exact ⟨List.nodup_nil, fun k hk => (List.not_mem_nil hk).elim⟩
  · refine ⟨h.nodup, h.drawn, fun u hu => ?_, hapart⟩
    rcases List.mem_or_eq_of_mem_set hu with hu | rfl
    · exact h.pending u hu
    · exact ⟨List.nodup_nil, fun k hk => (List.not_mem_nil hk).elim⟩
  · obtain ⟨drawn, committed, hopen, htable, hdrawn, hnew, hgrows⟩ := executeOp_newIds (τ := τ) hen
    obtain ⟨hnodup, hmine⟩ := h.pending t (List.mem_of_getElem? ht)
    have hall : (drawn ++ t.store.newIds τ).Nodup := by
      refine List.nodup_append.mpr ⟨hdrawn, hnodup, fun k hk k' hk' heq => ?_⟩
      subst heq
      exact (hnew k hk).1 (hmine k hk').1
    have hlater := nodup_of_subperm hopen hall
    have hcommitted : ∀ k ∈ committed, k ∈ drawn ∨ k ∈ t.store.newIds τ := fun k hk =>
      List.mem_append.mp (hopen.subset (List.mem_append_right _ hk))
    have hdisjoint : ∀ k ∈ w.shared.db.ids τ, k ∉ committed := by
      intro k hk hk'
      rcases hcommitted k hk' with hk' | hk'
      · exact (hnew k hk').1 (h.drawn k hk)
      · exact (hmine k hk').2 hk
    obtain ⟨hlaterNodup, hcommittedNodup, hapartOpen⟩ := List.nodup_append.mp hlater
    refine ⟨?_, fun k hk => ?_, fun u hu => ?_, hapart⟩
    · refine List.Nodup.sublist htable (List.nodup_append.mpr ⟨h.nodup, hcommittedNodup, ?_⟩)
      intro k hk k' hk' heq
      subst heq
      exact hdisjoint k hk hk'
    · rcases List.mem_append.mp (htable.subset hk) with hk | hk
      · exact hgrows k (h.drawn k hk)
      · rcases hcommitted k hk with hk | hk
        · exact (hnew k hk).2
        · exact hgrows k (hmine k hk).1
    · obtain ⟨j, hj⟩ := List.mem_iff_getElem?.mp hu
      rw [World.stepped, List.getElem?_set] at hj
      by_cases htid : tid = j
      · rw [if_pos htid] at hj
        split at hj
        swap
        · cases hj
        cases hj
        refine ⟨hlaterNodup, fun k hk => ⟨?_, fun hk' => ?_⟩⟩
        · rcases List.mem_append.mp (hopen.subset (List.mem_append_left _ hk)) with hk | hk
          · exact (hnew k hk).2
          · exact hgrows k (hmine k hk).1
        · rcases List.mem_append.mp (htable.subset hk') with hk' | hk'
          · rcases List.mem_append.mp (hopen.subset (List.mem_append_left _ hk)) with hk | hk
            · exact (hnew k hk).1 (h.drawn k hk')
            · exact (hmine k hk).2 hk'
          · exact hapartOpen k hk k hk' rfl
      · rw [if_neg htid] at hj
        obtain ⟨hunodup, hothers⟩ := h.pending u (List.mem_of_getElem? hj)
        refine ⟨hunodup, fun k hk => ⟨hgrows k (hothers k hk).1, fun hk' => ?_⟩⟩
        rcases List.mem_append.mp (htable.subset hk') with hk' | hk'
        · exact (hothers k hk).2 hk'
        · rcases hcommitted k hk' with hk' | hk'
          · exact (hnew k hk').1 (hothers k hk).1
          · exact h.apart tid j t u htid ht hj k (touches_of_newIds hk') (touches_of_newIds hk)

/-- The identifiers of a table are distinct, and were drawn. -/
structure WellKeyed (τ : Table) (db : Database) (issued : List Uuid) : Prop where
  nodup : (db.ids τ).Nodup
  drawn : ∀ k ∈ db.ids τ, k ∈ issued

theorem keyed_of_reachable {db : Database} {issued : List Uuid} (h : WellKeyed τ db issued)
    (hrun : Reachable (start P) allowed (System.World.init P db issued) w) : Keyed τ w := by
  refine hrun.invariant ⟨h.nodup, h.drawn, fun t ht => ?_, fun i j t u _ ht => ?_⟩
    fun v a v' _ hv _ hact => hv.act hact
  · cases ht
  · cases ht

/-! ### Identifiers that are not in use -/

/-- The identifier was drawn, and no open transaction inserts a row with it. -/
structure Retired (τ : Table) (k : Uuid) (w : System.World P) : Prop where
  drawn : k ∈ w.shared.issued
  unused : ∀ t ∈ w.threads, k ∉ t.store.newIds τ

theorem Keyed.retired (h : Keyed τ w) {k : Uuid} (hk : k ∈ w.shared.db.ids τ) : Retired τ k w :=
  ⟨h.drawn k hk, fun t ht hopen => ((h.pending t ht).2 k hopen).2 hk⟩

/-- A retired identifier stays so, and enters the table no more. -/
theorem Retired.act {k : Uuid} (h : Retired τ k w) (hact : w.act (start P) a = some w') :
    Retired τ k w' ∧ (k ∈ w'.shared.db.ids τ → k ∈ w.shared.db.ids τ) := by
  rcases World.act_cases (start P) hact with ⟨label, rfl, rfl⟩ | ⟨tid, t, rfl, ht, -, rfl⟩ |
    ⟨tid, inp, t, op, next, rfl, ht, hp, hen, rfl⟩
  · refine ⟨⟨h.drawn, fun t ht => ?_⟩, fun hk => hk⟩
    rcases List.mem_append.mp ht with ht | ht
    · exact h.unused t ht
    · cases List.mem_singleton.mp ht
      exact List.not_mem_nil
  · refine ⟨⟨h.drawn, fun u hu => ?_⟩, fun hk => hk⟩
    rcases List.mem_or_eq_of_mem_set hu with hu | rfl
    · exact h.unused u hu
    · exact List.not_mem_nil
  · obtain ⟨drawn, committed, hopen, htable, -, hnew, hgrows⟩ := executeOp_newIds (τ := τ) hen
    have hnot : k ∉ drawn ++ t.store.newIds τ := by
      intro hk
      rcases List.mem_append.mp hk with hk | hk
      · exact (hnew k hk).1 h.drawn
      · exact h.unused t (List.mem_of_getElem? ht) hk
    refine ⟨⟨hgrows k h.drawn, fun u hu => ?_⟩, fun hk => ?_⟩
    · rcases List.mem_or_eq_of_mem_set hu with hu | rfl
      · exact h.unused u hu
      · exact fun hk => hnot (hopen.subset (List.mem_append_left _ hk))
    · refine (List.mem_append.mp (htable.subset hk)).resolve_right fun hk => ?_
      exact hnot (hopen.subset (List.mem_append_right _ hk))

theorem Retired.run {k : Uuid} (h : Retired τ k w) (hrun : Reachable (start P) allowed w w') :
    Retired τ k w' ∧ (k ∈ w'.shared.db.ids τ → k ∈ w.shared.db.ids τ) := by
  let Inv : System.World P → Prop := fun v =>
    Retired τ k v ∧ (k ∈ v.shared.db.ids τ → k ∈ w.shared.db.ids τ)
  suffices Inv w' from this
  refine hrun.invariant ⟨h, fun hk => hk⟩ fun v a v' _ hv _ hact => ?_
  obtain ⟨hretired, hback⟩ := hv.1.act hact
  exact ⟨hretired, fun hk => hv.2 (hback hk)⟩

end Worlds

/-- The administrator deletes the machine. -/
def deleteMachineActions : List (Action (machine Platform.signing) Label) :=
  .spawn (.request (adminRequest (.deleteMachine (Uuid.ofNat 3).text))) ::
    List.replicate 9 (.step 0 { now := sampleTime })

end WolMonkey
