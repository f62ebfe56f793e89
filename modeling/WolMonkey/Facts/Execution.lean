import WolMonkey.Facts.Footprint

/-!
# Executing operations

All that executing one operation can do to the tables and to the transactions of its
thread, and what follows for code with a footprint: the tables it leaves are reached by
changes of its effects (`Reaches`), whatever fails on the way.
-/

namespace WolMonkey

open Programs Program

section Execution
variable (P : Platform) (slot : Slot) (inp : Input) (others : List Store) (sh : Shared) (st : Store)

/-! ## One operation -/

/-- A statement fails and changes nothing, or its changes join its transaction. -/
theorem executeStmt_cases (s : Stmt) :
    (∃ e status, executeStmt P slot s inp others sh st =
        (.error (.database e), st.setTx slot { st.tx slot with status }) ∧
      (s.isFlush = true ∨ (st.tx slot).status ≠ .active → status ≠ .active)) ∨
    ∃ r, (st.tx slot).status = .active ∧ inp.fault = none ∧
      s.run P inp (lockedJobs others st slot) (sh.db.after (st.tx slot).writes) = .ok r ∧
      executeStmt P slot s inp others sh st =
        (.ok r.answer,
          st.setTx slot { st.tx slot with writes := (st.tx slot).writes ++ r.writes
                                          locks := (st.tx slot).locks ++ r.locks }) := by
  unfold executeStmt
  dsimp only
  split
  · exact .inl ⟨_, _, rfl, by simp⟩
  · refine .inl ⟨_, _, rfl, fun _ => ?_⟩
    split <;> simp
  · rename_i hactive
    split
    · refine .inl ⟨_, _, rfl, fun _ => ?_⟩
      split <;> simp
    · rename_i hfault
      split
      · refine .inl ⟨_, _, rfl, fun h => ?_⟩
        simp only [hactive, ne_eq, not_true_eq_false, or_false] at h
        simp [h]
      · refine .inl ⟨_, _, rfl, fun _ => ?_⟩
        split <;> simp
      · rename_i r hr
        exact .inr ⟨r, hactive, hfault, hr, by simp⟩

/-- A commit clears its transaction, or the session refuses and stays as it is; the tables
stay or take in the changes of an active transaction. -/
theorem executeCommit_cases :
    let r := executeCommit slot inp sh st
    (r.2.1 = sh ∨
      ((st.tx slot).status = .active ∧ r.2.1 = { sh with db := sh.db.after (st.tx slot).writes })) ∧
    (r.2.2 = st.setTx slot {} ∨ ((st.tx slot).status = .inactive ∧ r.2.2 = st ∧ ∃ e, r.1 = .error e)) := by
  unfold executeCommit
  dsimp only
  split <;> simp_all

/-! ## Tables that changes of one kind reach -/

variable {P slot inp others sh st} {W : Write → Prop}

/-- The tables `db'` come from `db` by changes with `W`. -/
def Reaches (W : Write → Prop) (db db' : Database) : Prop :=
  ∃ ws : List Write, (∀ w ∈ ws, W w) ∧ db' = db.after ws

theorem Reaches.refl (db : Database) : Reaches W db db := ⟨[], by simp, rfl⟩

theorem Reaches.trans {a b c : Database} (h : Reaches W a b) (h' : Reaches W b c) :
    Reaches W a c := by
  obtain ⟨ws, hws, rfl⟩ := h
  obtain ⟨vs, hvs, rfl⟩ := h'
  refine ⟨ws ++ vs, fun w hw => ?_, (Database.after_append _ _ _).symm⟩
  rcases List.mem_append.mp hw with hw | hw
  · exact hws w hw
  · exact hvs w hw

/-- What every change with `W` preserves holds of the tables reached. -/
theorem Reaches.invariant (Inv : Database → Prop) {db db' : Database} (h : Reaches W db db')
    (step : ∀ w db, W w → Inv db → Inv (w.apply db)) (hdb : Inv db) : Inv db' := by
  obtain ⟨ws, hws, rfl⟩ := h
  induction ws generalizing db with
  | nil => exact hdb
  | cons w ws ih =>
    exact ih (step w db (hws w List.mem_cons_self) hdb)
      (fun v hv => hws v (List.mem_cons_of_mem _ hv))

/-- No change with `W` touches `f`. -/
def Untouched {β : Type} (W : Write → Prop) (f : Database → β) : Prop :=
  ∀ (w : Write) (db : Database), W w → f (w.apply db) = f db

theorem Reaches.keeps {β : Type} {f : Database → β} {db db' : Database} (h : Reaches W db db')
    (hf : Untouched W f) : f db' = f db :=
  h.invariant (fun d => f d = f db) (fun w d hw hkept => (hf w d hw).trans hkept) rfl

theorem Untouched.after {β : Type} {f : Database → β} (hf : Untouched W f) {ws : List Write}
    (hws : ∀ w ∈ ws, W w) (db : Database) : f (db.after ws) = f db :=
  Reaches.keeps ⟨ws, hws, rfl⟩ hf

/-- The open changes of both transactions satisfy `W`. -/
def Store.Only (W : Write → Prop) (st : Store) : Prop :=
  ∀ slot, ∀ w ∈ (st.tx slot).writes, W w

theorem Store.only_empty : Store.Only W {} := by
  intro slot w hw
  cases slot <;> cases hw

theorem Store.Only.setTx (h : st.Only W) {tx : Tx} (htx : ∀ w ∈ tx.writes, W w) :
    (st.setTx slot tx).Only W := by
  intro slot' w hw
  by_cases heq : slot = slot'
  · subst heq
    rw [Store.tx_setTx_self] at hw
    exact htx w hw
  · rw [Store.tx_setTx_of_ne heq] at hw
    exact h slot' w hw

/-- Every change that the operation can make satisfies `W`. -/
def Makes (W : Write → Prop) : Op → Prop
  | .stmt _ s => ∀ P inp locked db, Returns (fun r => ∀ w ∈ r.writes, W w) (s.run P inp locked db)
  | _ => True

/-- The same, on one platform. -/
def MakesOn (P : Platform) (W : Write → Prop) : Op → Prop
  | .stmt _ s => ∀ inp locked db, Returns (fun r => ∀ w ∈ r.writes, W w) (s.run P inp locked db)
  | _ => True

theorem Makes.on {op : Op} (h : Makes W op) (P : Platform) : MakesOn P W op := by
  cases op with
  | stmt slot s => exact h P
  | _ => trivial

theorem makesOn_of_within {es : List Effect} (hW : ∀ w : Write, w.effect ∈ es → W w) {op : Op}
    (h : Within es op) : MakesOn P W op := by
  cases op with
  | stmt slot s => exact fun inp locked db r hr w hw => hW w (h _ (Stmt.run_effect r hr w hw))
  | _ => trivial

theorem executeStmt_only {s : Stmt} (hop : MakesOn P W (.stmt slot s)) (hst : st.Only W) :
    (executeStmt P slot s inp others sh st).2.Only W := by
  rcases executeStmt_cases P slot inp others sh st s with ⟨e, status, h, -⟩ | ⟨r, -, -, hrun, h⟩
  · rw [h]
    exact hst.setTx (hst slot)
  · rw [h]
    refine hst.setTx fun w hw => ?_
    rcases List.mem_append.mp hw with hw | hw
    · exact hst slot w hw
    · exact hop _ _ _ r hrun w hw

theorem executeCommit_only (hst : st.Only W) :
    (executeCommit slot inp sh st).2.2.Only W ∧
      Reaches W sh.db (executeCommit slot inp sh st).2.1.db := by
  obtain ⟨hdb, hst'⟩ := executeCommit_cases slot inp sh st
  constructor
  · rcases hst' with h | ⟨-, h, -⟩
    · rw [h]
      exact hst.setTx (by simp)
    · rw [h]
      exact hst
  · rcases hdb with h | ⟨-, h⟩
    · rw [h]
      exact Reaches.refl sh.db
    · rw [h]
      exact ⟨_, hst slot, rfl⟩

/-- An operation that makes only changes with `W` adds and commits only such changes. -/
theorem executeOp_only {op : Op} (hop : MakesOn P W op) (hst : st.Only W) :
    (executeOp P op inp others sh st).2.2.Only W ∧
      Reaches W sh.db (executeOp P op inp others sh st).2.1.db := by
  have same : st.Only W ∧ Reaches W sh.db sh.db := ⟨hst, Reaches.refl sh.db⟩
  cases op with
  | stmt slot s =>
    refine ⟨executeStmt_only hop hst, ?_⟩
    simp only [executeOp]
    split <;> exact Reaches.refl sh.db
  | commit slot => exact executeCommit_only hst
  | rollback slot =>
    simp only [executeOp]
    split <;> exact ⟨hst.setTx (by simp), Reaches.refl sh.db⟩
  | close slot => exact ⟨hst.setTx (by simp), Reaches.refl sh.db⟩
  | send strategy mac interface broadcast =>
    simp only [executeOp]
    split <;> exact same
  | _ => exact same

/-- Without a commit the tables stay as they are. -/
theorem executeOp_db {op : Op} (hop : ∀ slot, op ≠ .commit slot) :
    (executeOp P op inp others sh st).2.1.db = sh.db := by
  cases op with
  | commit slot => exact absurd rfl (hop slot)
  | stmt slot s => simp only [executeOp]; split <;> rfl
  | rollback slot => simp only [executeOp]; split <;> rfl
  | send strategy mac interface broadcast => simp only [executeOp]; split <;> rfl
  | _ => rfl

end Execution

/-! ## Requests that run alone -/

section Alone
variable {P : Platform} {es : List Effect} {α : Type}

/-- Code that makes only changes with `W`, run alone. -/
theorem eval_only {W : Write → Prop} {p : Code α} (hp : p.Uses (MakesOn P W)) {s : Solo}
    (hst : s.store.Only W) :
    (p.eval (soloExec P) s).2.store.Only W ∧
      Reaches W s.shared.db (p.eval (soloExec P) s).2.shared.db := by
  refine hp.invariant (soloExec P)
    (fun s' => s'.store.Only W ∧ Reaches W s.shared.db s'.shared.db) ?_ ⟨hst, Reaches.refl _⟩
  rintro op s' hop ⟨hst', hdb⟩
  obtain ⟨h, h'⟩ := executeOp_only (P := P) hop hst'
  exact ⟨h, hdb.trans h'⟩

theorem soloExec_db {op : Op} (hop : Within es op) (hc : .commit ∉ es) (s : Solo) :
    (soloExec P op s).2.shared.db = s.shared.db := by
  refine executeOp_db fun slot hop' => ?_
  subst hop'
  exact hc (hop .commit rfl)

/-- Code that cannot commit leaves the tables as they are. -/
theorem eval_db {p : Code α} (hp : p.Uses (Within es)) (hc : .commit ∉ es) (s : Solo) :
    (p.eval (soloExec P) s).2.shared.db = s.shared.db :=
  hp.frame (·.shared.db) (fun _ s h => soloExec_db h hc s) s

theorem eval_bind_db {β : Type} (es : List Effect) {p : Code α} {f : α → Code β} (hc : .commit ∉ es)
    (hf : ∀ a, (f a).Uses (Within es)) (s : Solo) :
    ((p >>= f).eval (soloExec P) s).2.shared.db = (p.eval (soloExec P) s).2.shared.db :=
  eval_bind_frame (·.shared.db) (fun _ s h => soloExec_db h hc s) hf s

theorem eval_tryCatch_db (es : List Effect) {p : Code α} {handler : PyExc → Code α} (hc : .commit ∉ es)
    (hh : ∀ e, (handler e).Uses (Within es)) (s : Solo) :
    ((p.tryCatch handler).eval (soloExec P) s).2.shared.db =
      (p.eval (soloExec P) s).2.shared.db :=
  eval_tryCatch_frame (·.shared.db) (fun _ s h => soloExec_db h hc s) hh s

/-- Closing a session leaves the tables as they are. -/
theorem eval_withSession_db {slot : Slot} {body : Code α} (s : Solo) :
    ((withSession slot body).eval (soloExec P) s).2.shared.db =
      (body.eval (soloExec P) s).2.shared.db := by
  unfold withSession
  rw [eval_bind_db [.reset] (by simp), eval_tryCatch_db [.reset] (by simp)]
  · exact fun e => Uses.bind (uses_effect rfl (by simp)) fun _ => uses_raise _
  · exact fun a => Uses.bind (uses_effect rfl (by simp)) fun _ => uses_pure _

/-- What the ends of sessions do not change is what the body of a request leaves. -/
theorem getDbSession_frame {γ : Type} (F : Solo → γ) {ok : Op → Prop}
    (hF : ∀ op s, ok op → F (soloExec P op s).2 = F s) (hs : Sessions ok) (body : Code α)
    (s : Solo) :
    F ((getDbSession body).eval (soloExec P) s).2 = F (body.eval (soloExec P) s).2 := by
  obtain ⟨hcommit, hrollback, hclose⟩ := hs .main
  have huses : ∀ {op : Op}, ok op → (await op).Uses ok := fun h => (uses_perform _).mpr h
  unfold getDbSession withSession
  rw [eval_bind_frame F hF, eval_tryCatch_frame F hF, eval_tryCatch_frame F hF,
    eval_bind_frame F hF]
  · exact fun a => Uses.bind (huses hcommit) fun _ => uses_pure _
  · exact fun e => Uses.bind (huses hrollback) fun _ => uses_raise _
  · exact fun e => Uses.bind (huses hclose) fun _ => uses_raise _
  · exact fun a => Uses.bind (huses hclose) fun _ => uses_pure _

/-- An invariant that the body of a request leaves holds after the ends of its session. -/
theorem getDbSession_invariant (Inv : Solo → Prop) {ok : Op → Prop}
    (step : ∀ op s, ok op → Inv s → Inv (soloExec P op s).2) (hs : Sessions ok) {body : Code α}
    {s : Solo} (h : Inv (body.eval (soloExec P) s).2) :
    Inv ((getDbSession body).eval (soloExec P) s).2 := by
  obtain ⟨hcommit, hrollback, hclose⟩ := hs .main
  have huses : ∀ {op : Op}, ok op → (await op).Uses ok := fun h => (uses_perform _).mpr h
  unfold getDbSession withSession
  refine eval_bind_invariant (soloExec P) Inv step
    (fun a => Uses.bind (huses hclose) fun _ => uses_pure _) ?_
  refine eval_tryCatch_invariant (soloExec P) Inv step
    (fun e => Uses.bind (huses hclose) fun _ => uses_raise _) ?_
  refine eval_tryCatch_invariant (soloExec P) Inv step
    (fun e => Uses.bind (huses hrollback) fun _ => uses_raise _) ?_
  exact eval_bind_invariant (soloExec P) Inv step
    (fun a => Uses.bind (huses hcommit) fun _ => uses_pure _) h

/-- The changes with which the body of a request ends are all that its session commits. -/
theorem getDbSession_reaches {W : Write → Prop} {db : Database} {body : Code α} {s : Solo}
    (hstore : (body.eval (soloExec P) s).2.store.Only W)
    (h : Reaches W db (body.eval (soloExec P) s).2.shared.db) :
    Reaches W db ((getDbSession body).eval (soloExec P) s).2.shared.db := by
  have hends : Sessions (MakesOn P W) := fun slot => ⟨trivial, trivial, trivial⟩
  refine (getDbSession_invariant (fun s => s.store.Only W ∧ Reaches W db s.shared.db) ?_ hends
    ⟨hstore, h⟩).2
  rintro op s hop ⟨honly, hreach⟩
  obtain ⟨honly', hreach'⟩ := executeOp_only (P := P) hop honly
  exact ⟨honly', hreach.trans hreach'⟩

/-- Operations that are not the ends of sessions are performed by the body. -/
theorem performs_getDbSession {test : Op → Bool} (hs : Sessions fun op => test op = false)
    {body : Code α} {s : Solo} (h : (getDbSession body).performs (soloExec P) test s = true) :
    body.performs (soloExec P) test s = true := by
  obtain ⟨hcommit, hrollback, hclose⟩ := hs .main
  have hend : ∀ {op : Op} {β : Type} {f : op.Answer → Code β}, test op = false →
      (∀ a, (f a).Uses fun op => test op = false) → ∀ s,
      ¬ (await op >>= f).performs (soloExec P) test s = true := by
    intro op β f hop hf s hp
    have huses : (await op >>= f).Uses fun op => test op = false :=
      Uses.bind ((uses_perform _).mpr hop) hf
    exact Bool.false_ne_true ((huses.not_performs s).symm.trans hp)
  rcases performs_bind.mp h with h | ⟨a, s', -, h⟩
  · rcases performs_tryCatch.mp h with h | ⟨e, s', -, h⟩
    · rcases performs_tryCatch.mp h with h | ⟨e, s', -, h⟩
      · rcases performs_bind.mp h with h | ⟨a, s', -, h⟩
        · exact h
        · exact (hend hcommit (fun _ => uses_pure _) s' h).elim
      · exact (hend hrollback (fun _ => uses_raise _) s' h).elim
    · exact (hend hclose (fun _ => uses_raise _) s' h).elim
  · exact (hend hclose (fun _ => uses_pure _) s' h).elim

/-- Committing the work session: the tables stay, or take in an active transaction. -/
theorem eval_commit_db (slot : Slot) (s : Solo) :
    ((await (.commit slot)).eval (soloExec P) s).2.shared.db = s.shared.db ∨
      ((s.store.tx slot).status = .active ∧
        ((await (.commit slot)).eval (soloExec P) s).2.shared.db =
          s.shared.db.after (s.store.tx slot).writes) := by
  unfold await
  rw [eval_perform_snd]
  rcases (executeCommit_cases slot (s.inputs 0) s.shared s.store).1 with h | ⟨hactive, h⟩
  · exact .inl (congrArg Shared.db h)
  · exact .inr ⟨hactive, congrArg Shared.db h⟩

/-- The tables as the work session sees them. -/
def Solo.view (s : Solo) : Database := s.shared.db.after s.store.main.writes

/-- The tables after a request that runs in `get_db_session`: those before it, or those that
a body which returned in an active transaction saw at its end. -/
theorem getDbSession_db {body : Code α} (hb : body.Uses (Within es)) (hc : .commit ∉ es)
    (s : Solo) :
    ((getDbSession body).eval (soloExec P) s).2.shared.db = s.shared.db ∨
      ∃ a s', body.Runs (soloExec P) s a s' ∧ s'.store.main.status = .active ∧
        ((getDbSession body).eval (soloExec P) s).2.shared.db = s'.view := by
  have hbody := eval_db (P := P) hb hc s
  unfold getDbSession
  rw [eval_withSession_db, eval_tryCatch_db [.reset] (by simp)
    (fun e => Uses.bind (uses_effect rfl (by simp)) fun _ => uses_raise _), eval_bind]
  split
  · rename_i a s' hrun
    rw [hrun] at hbody
    rw [eval_bind_db [] (by simp) fun _ => uses_pure _]
    rcases eval_commit_db (P := P) .main s' with h | ⟨hactive, h⟩
    · exact .inl (h.trans hbody)
    · exact .inr ⟨a, s', hrun, hactive, h⟩
  · rename_i e s' hrun
    exact .inl (by rw [hrun] at hbody; exact hbody)
  · rename_i s' hrun
    exact .inl (by rw [hrun] at hbody; exact hbody)

/-! ## Runs of code that runs alone -/

/-- Later inputs of the same request. -/
def Solo.Later (s s' : Solo) : Prop := ∃ k, s'.inputs = fun n => s.inputs (k + n)

theorem Solo.Later.refl (s : Solo) : s.Later s := ⟨0, funext fun n => by rw [Nat.zero_add]⟩

theorem Solo.Later.trans {a b c : Solo} (h : a.Later b) (h' : b.Later c) : a.Later c := by
  obtain ⟨k, hk⟩ := h
  obtain ⟨l, hl⟩ := h'
  exact ⟨k + l, hl.trans (by simp only [hk, Nat.add_assoc])⟩

/-- The inputs are consumed in order. -/
theorem eval_later (p : Code α) (s : Solo) : s.Later (p.eval (soloExec P) s).2 := by
  induction p generalizing s with
  | pure a => exact .refl s
  | raise e => exact .refl s
  | stuck => exact .refl s
  | call op next ih =>
    refine Solo.Later.trans (b := (soloExec P op s).2) ⟨1, ?_⟩ (ih _ _)
    funext n
    rw [Nat.add_comm]
    rfl

/-- Same tables and same open changes: what reading leaves. -/
structure Solo.Same (s s' : Solo) : Prop where
  db : s'.shared.db = s.shared.db
  writes : s'.store.main.writes = s.store.main.writes

theorem Solo.Same.refl (s : Solo) : s.Same s := ⟨rfl, rfl⟩

theorem Solo.Same.trans {a b c : Solo} (h : a.Same b) (h' : b.Same c) : a.Same c :=
  ⟨h'.db.trans h.db, h'.writes.trans h.writes⟩

theorem Solo.Same.view {s s' : Solo} (h : s.Same s') : s'.view = s.view := by
  simp only [Solo.view, h.db, h.writes]

/-- A statement that writes nothing leaves the tables and the open changes. -/
theorem soloExec_stmt_same {slot : Slot} {st : Stmt} {s : Solo}
    (hwrites : slot = .main → ∀ locked r,
      st.run P (s.inputs 0) locked s.view = .ok r → r.writes = []) :
    s.Same (soloExec P (.stmt slot st) s).2 := by
  refine ⟨executeOp_db (fun slot' h => by cases h), ?_⟩
  rcases executeStmt_cases P slot (s.inputs 0) [] s.shared s.store st with
    ⟨e, status, h, -⟩ | ⟨r, -, -, hrun, h⟩
  · simp only [soloExec, executeOp, h]
    cases slot <;> rfl
  · simp only [soloExec, executeOp, h]
    cases slot with
    | main => simp only [hwrites rfl _ r hrun, List.append_nil]; rfl
    | queue => rfl

theorem soloExec_same {op : Op} (hop : Within [] op) (s : Solo) : s.Same (soloExec P op s).2 := by
  cases op with
  | stmt slot st =>
    refine soloExec_stmt_same fun _ locked r hr => List.eq_nil_iff_forall_not_mem.mpr fun w hw => ?_
    cases hop _ (Stmt.run_effect r hr w hw)
  | commit slot => cases hop _ rfl
  | rollback slot => cases hop _ rfl
  | close slot => cases hop _ rfl
  | send strategy mac interface broadcast => cases hop _ rfl
  | checkLoginRate ip => cases hop _ rfl
  | _ => exact ⟨rfl, rfl⟩

/-- Code that only reads leaves the tables and the open changes as they are. -/
theorem eval_same {p : Code α} (hp : p.Uses (Within [])) (s : Solo) :
    s.Same (p.eval (soloExec P) s).2 :=
  hp.invariant (soloExec P) (fun s' => s.Same s')
    (fun _ s' hop h => h.trans (soloExec_same hop s')) (.refl s)

theorem Runs.same {p : Code α} (hp : p.Uses (Within [])) {s s' : Solo} {a : α}
    (h : p.Runs (soloExec P) s a s') : s.Same s' := by
  have := eval_same (P := P) hp s
  rw [h] at this
  exact this

theorem Runs.later {p : Code α} {s s' : Solo} {a : α} (h : p.Runs (soloExec P) s a s') :
    s.Later s' := by
  have := eval_later (P := P) p s
  rw [h] at this
  exact this

/-- What a statement of the work session that returns has done. -/
structure Solo.Ran (P : Platform) (st : Stmt) (s : Solo) (r : Executed st) (s' : Solo) : Prop where
  run : ∃ locked, st.run P (s.inputs 0) locked s.view = .ok r
  active : s.store.main.status = .active
  active' : s'.store.main.status = .active
  db : s'.shared.db = s.shared.db
  writes : s'.store.main.writes = s.store.main.writes ++ r.writes

theorem Solo.Ran.view {st : Stmt} {s s' : Solo} {r : Executed st} (h : s.Ran P st r s') :
    s'.view = s.view.after r.writes := by
  simp only [Solo.view, h.db, h.writes, Database.after_append]

/-- The state after a statement of the work session that returned. -/
def Solo.ran (s : Solo) {st : Stmt} (r : Executed st) : Solo where
  shared := if st.inserts then { s.shared with issued := (s.inputs 0).fresh :: s.shared.issued }
    else s.shared
  store := s.store.setTx .main { s.store.main with writes := s.store.main.writes ++ r.writes
                                                   locks := s.store.main.locks ++ r.locks }
  inputs n := s.inputs (n + 1)

@[simp] theorem Solo.ran_inputs (s : Solo) {st : Stmt} (r : Executed st) (n : Nat) :
    (s.ran r).inputs n = s.inputs (n + 1) := rfl

@[simp] theorem Solo.ran_status (s : Solo) {st : Stmt} (r : Executed st) :
    (s.ran r).store.main.status = s.store.main.status := rfl

theorem Solo.ran_db (s : Solo) {st : Stmt} (r : Executed st) :
    (s.ran r).shared.db = s.shared.db := by
  unfold Solo.ran
  dsimp only
  split <;> rfl

@[simp] theorem Solo.ran_view (s : Solo) {st : Stmt} (r : Executed st) :
    (s.ran r).view = s.view.after r.writes := by
  simp only [Solo.view, Solo.ran_db, ← Database.after_append]
  rfl

/-- The state after a statement of either session that returned. -/
def Solo.ranOn (s : Solo) (slot : Slot) {st : Stmt} (r : Executed st) : Solo where
  shared := if st.inserts then { s.shared with issued := (s.inputs 0).fresh :: s.shared.issued }
    else s.shared
  store := s.store.setTx slot { s.store.tx slot with
    writes := (s.store.tx slot).writes ++ r.writes, locks := (s.store.tx slot).locks ++ r.locks }
  inputs n := s.inputs (n + 1)

/-- When a statement of a session returns, and what it leaves. -/
theorem runs_executeOn_iff {slot : Slot} {st : Stmt} {s s' : Solo} {a : st.Answer} :
    (execute slot st).Runs (soloExec P) s a s' ↔
      (s.store.tx slot).status = .active ∧ (s.inputs 0).fault = none ∧
        ∃ r, st.run P (s.inputs 0) (lockedJobs [] s.store slot)
            (s.shared.db.after (s.store.tx slot).writes) = .ok r ∧
          a = r.answer ∧ s' = s.ranOn slot r := by
  unfold execute
  rw [runs_perform]
  simp only [soloExec, executeOp]
  constructor
  · intro heq
    rcases executeStmt_cases P slot (s.inputs 0) [] s.shared s.store st with
      ⟨e, status, h, -⟩ | ⟨r, hactive, hfault, hrun, h⟩
    · rw [h] at heq
      cases congrArg Prod.fst heq
    · rw [h] at heq
      obtain ⟨ha, rfl⟩ := Prod.mk.inj heq
      exact ⟨hactive, hfault, r, hrun, (Except.ok.inj ha).symm, rfl⟩
  · rintro ⟨hactive, hfault, r, hrun, rfl, rfl⟩
    have hexec : executeStmt P slot st (s.inputs 0) [] s.shared s.store =
        (.ok r.answer, s.store.setTx slot { s.store.tx slot with
          writes := (s.store.tx slot).writes ++ r.writes
          locks := (s.store.tx slot).locks ++ r.locks }) := by
      simp only [executeStmt, hactive, hfault, hrun]
    rw [hexec]
    rfl

/-- The same for the work session. -/
theorem runs_execute_iff {st : Stmt} {s s' : Solo} {a : st.Answer} :
    (execute .main st).Runs (soloExec P) s a s' ↔
      s.store.main.status = .active ∧ (s.inputs 0).fault = none ∧
        ∃ r, st.run P (s.inputs 0) (lockedJobs [] s.store .main) s.view = .ok r ∧
          a = r.answer ∧ s' = s.ran r :=
  runs_executeOn_iff

theorem runs_execute {st : Stmt} {s s' : Solo} {a : st.Answer}
    (h : (execute .main st).Runs (soloExec P) s a s') : ∃ r, s.Ran P st r s' ∧ a = r.answer := by
  obtain ⟨hactive, -, r, hrun, rfl, rfl⟩ := runs_execute_iff.mp h
  exact ⟨r, ⟨⟨_, hrun⟩, hactive, hactive, s.ran_db r, rfl⟩, rfl⟩

/-- When committing an active session returns, and what it leaves. -/
theorem runs_commitOn_iff {slot : Slot} {s s' : Solo} {u : Unit}
    (hactive : (s.store.tx slot).status = .active) :
    (await (.commit slot)).Runs (soloExec P) s u s' ↔
      (s.inputs 0).fault = none ∧
        s' = ⟨{ s.shared with db := s.shared.db.after (s.store.tx slot).writes },
          s.store.setTx slot {}, fun n => s.inputs (n + 1)⟩ := by
  unfold await
  rw [runs_perform]
  simp only [soloExec, executeOp, executeCommit, hactive]
  cases hfault : (s.inputs 0).fault with
  | none => exact ⟨fun h => ⟨rfl, (congrArg Prod.snd h).symm⟩, fun h => by rw [h.2]⟩
  | some f =>
    cases f <;> exact ⟨fun h => (nomatch congrArg Prod.fst h), fun h => (nomatch h.1)⟩

/-- The same for the work session. -/
theorem runs_commit_iff {s s' : Solo} {u : Unit} (hactive : s.store.main.status = .active) :
    (await (.commit .main)).Runs (soloExec P) s u s' ↔
      (s.inputs 0).fault = none ∧
        s' = ⟨{ s.shared with db := s.view }, s.store.setTx .main {}, fun n => s.inputs (n + 1)⟩ :=
  runs_commitOn_iff hactive

theorem runs_now {s s' : Solo} {t : DateTime} (h : (await .now).Runs (soloExec P) s t s') :
    t = (s.inputs 0).now ∧ s.Same s' := by
  have hsame := Runs.same (P := P) (uses_await rfl) h
  unfold await at h
  rw [runs_perform] at h
  exact ⟨(Except.ok.inj (congrArg Prod.fst h)).symm, hsame⟩

theorem runs_guardUuid {value : String} {absent a : α} {query : Code α} {s s' : Solo}
    (h : (guardUuid value absent query).Runs (soloExec P) s a s') :
    (isValidUuid value = true ∧ query.Runs (soloExec P) s a s') ∨
      (isValidUuid value = false ∧ a = absent ∧ s' = s) := by
  unfold guardUuid at h
  split at h
  · exact .inl ⟨‹_›, h⟩
  · rw [runs_pure] at h
    exact .inr ⟨Bool.eq_false_iff.mpr ‹_›, h.1.symm, h.2.symm⟩

/-! ## Changes of the work session -/

/-- From `s` to `s'` only changes with `W` were added to the work session. -/
def Solo.Adds (W : Write → Prop) (s s' : Solo) : Prop :=
  s'.shared.db = s.shared.db ∧
    ∃ ws, s'.store.main.writes = s.store.main.writes ++ ws ∧ ∀ w ∈ ws, W w

theorem Solo.Same.adds {W : Write → Prop} {s s' : Solo} (h : s.Same s') : s.Adds W s' :=
  ⟨h.db, [], by rw [h.writes, List.append_nil], by simp⟩

theorem Solo.Adds.trans {W : Write → Prop} {a b c : Solo} (h : a.Adds W b) (h' : b.Adds W c) : a.Adds W c := by
  obtain ⟨hdb, ws, hws, hW⟩ := h
  obtain ⟨hdb', vs, hvs, hV⟩ := h'
  refine ⟨hdb'.trans hdb, ws ++ vs, by rw [hvs, hws, List.append_assoc], fun w hw => ?_⟩
  rcases List.mem_append.mp hw with hw | hw
  · exact hW w hw
  · exact hV w hw

theorem Solo.Adds.mono {W V : Write → Prop} {s s' : Solo} (h : s.Adds W s')
    (hWV : ∀ w, W w → V w) : s.Adds V s' := by
  obtain ⟨hdb, ws, hws, hW⟩ := h
  exact ⟨hdb, ws, hws, fun w hw => hWV w (hW w hw)⟩

/-- What every change with `W` keeps, holds of what the work session sees in the end. -/
theorem Solo.Adds.invariant {W : Write → Prop} (Inv : Database → Prop) {s s' : Solo}
    (h : s.Adds W s') (hstep : ∀ w db, W w → Inv db → Inv (w.apply db)) (hinv : Inv s.view) :
    Inv s'.view := by
  obtain ⟨hdb, ws, hws, hW⟩ := h
  refine Reaches.invariant Inv (W := W) ⟨ws, hW, ?_⟩ hstep hinv
  rw [Solo.view, hdb, hws, Database.after_append]
  rfl

theorem Solo.Ran.adds {W : Write → Prop} {st : Stmt} {s s' : Solo} {r : Executed st} (h : s.Ran P st r s')
    (hW : ∀ w ∈ r.writes, W w) : s.Adds W s' := ⟨h.db, r.writes, h.writes, hW⟩

/-- What no change with `W` touches is the same in the work session. -/
theorem Solo.Adds.keeps {β : Type} {W : Write → Prop} {f : Database → β} {s s' : Solo}
    (h : s.Adds W s') (hf : Untouched W f) : f s'.view = f s.view := by
  obtain ⟨hdb, ws, hws, hW⟩ := h
  rw [Solo.view, hdb, hws, Database.after_append]
  exact hf.after hW _

theorem soloExec_adds {op : Op} (hop : Within es op) (hc : .commit ∉ es) (hr : .reset ∉ es)
    (s : Solo) : s.Adds (fun w => w.effect ∈ es) (soloExec P op s).2 := by
  cases op with
  | stmt slot st =>
    refine ⟨executeOp_db fun slot' h => (nomatch h), ?_⟩
    rcases executeStmt_cases P slot (s.inputs 0) [] s.shared s.store st with
      ⟨e, status, h, -⟩ | ⟨r, -, -, hrun, h⟩
    · refine ⟨[], ?_, by simp⟩
      simp only [soloExec, executeOp, h, List.append_nil]
      cases slot <;> rfl
    · cases slot with
      | main =>
        refine ⟨r.writes, by simp only [soloExec, executeOp, h]; rfl, fun w hw => ?_⟩
        exact hop _ (Stmt.run_effect r hrun w hw)
      | queue =>
        refine ⟨[], ?_, by simp⟩
        simp only [soloExec, executeOp, h, List.append_nil]
        rfl
  | commit slot => exact (hc (hop .commit rfl)).elim
  | rollback slot => exact (hr (hop .reset rfl)).elim
  | close slot => exact (hr (hop .reset rfl)).elim
  | send strategy mac interface broadcast =>
    refine ⟨executeOp_db fun slot' h => (nomatch h), [], ?_, by simp⟩
    simp only [soloExec, executeOp, List.append_nil]
    split <;> rfl
  | _ => exact ⟨executeOp_db fun slot' h => (nomatch h), [], by rw [List.append_nil]; rfl, by simp⟩

/-- Code that does not end its transaction only adds changes with its effects. -/
theorem Runs.adds (es : List Effect) {p : Code α} (hp : p.Uses (Within es)) (hc : .commit ∉ es) (hr : .reset ∉ es)
    {s s' : Solo} {a : α} (h : p.Runs (soloExec P) s a s') :
    s.Adds (fun w => w.effect ∈ es) s' := by
  have hadds := hp.invariant (soloExec P) (fun s' => s.Adds (fun w => w.effect ∈ es) s')
    (fun _ s' hop h => h.trans (soloExec_adds hop hc hr s')) (Solo.Same.refl s).adds
  rw [h] at hadds
  exact hadds

/-! ## Requests -/

@[simp] theorem Solo.view_init (inputs : Nat → Input) (sh : Shared) :
    (Solo.init inputs sh).view = sh.db := rfl

/-- Turning an exception into a response changes nothing. -/
theorem serve_eq (req : Request) (inputs : Nat → Input) (sh : Shared) :
    serve P req inputs sh = ((endpoint P req).eval (soloExec P) (Solo.init inputs sh)).2.shared := by
  unfold serve runSolo handle respond
  rw [eval_tryCatch]
  split
  · rename_i e s' h
    rw [h]
    rfl
  · rfl

/-- A request makes only the changes that its code makes. -/
theorem serve_reaches_of_uses {W : Write → Prop} {req : Request}
    (h : (endpoint P req).Uses (MakesOn P W))
    (inputs : Nat → Input) (sh : Shared) : Reaches W sh.db (serve P req inputs sh).db := by
  rw [serve_eq]
  exact (eval_only h Store.only_empty).2

/-- A request makes changes with the effects of its route only. -/
theorem serve_reaches (req : Request) (inputs : Nat → Input) (sh : Shared) :
    Reaches (fun w => w.effect ∈ req.route.effects) sh.db (serve P req inputs sh).db :=
  serve_reaches_of_uses (endpoint_within.mono fun _ => makesOn_of_within fun _ h => h) inputs sh

/-- A statement that raises, raises a database error. -/
theorem eval_execute_raised {slot : Slot} {st : Stmt} {s s' : Solo} {e : PyExc}
    (h : (execute slot st).eval (soloExec P) s = (.raised e, s')) : ∃ d, e = .database d := by
  unfold execute at h
  rw [eval_perform] at h
  simp only [soloExec, executeOp] at h
  rcases executeStmt_cases P slot (s.inputs 0) [] s.shared s.store st with
    ⟨d, status, h', -⟩ | ⟨r, -, -, -, h'⟩
  · rw [h'] at h
    exact ⟨d, by cases congrArg Prod.fst h; rfl⟩
  · rw [h'] at h
    cases congrArg Prod.fst h

section FailsWith
variable {Q : PyExc → Prop}

/-- Statements raise database errors. -/
theorem failsWith_execute {slot : Slot} {st : Stmt} (hQ : ∀ d, Q (.database d)) :
    FailsWith (soloExec P) Q (execute slot st) := by
  refine failsWith_perform fun s e h => ?_
  have heval : (execute slot st).eval (soloExec P) s = (.raised e, (soloExec P (.stmt slot st) s).2) := by
    unfold execute
    rw [eval_perform, h]
  obtain ⟨d, rfl⟩ := eval_execute_raised heval
  exact hQ d

/-- Operations that never raise. -/
theorem failsWith_await {op : Op} (hop : ∀ s, ∃ a, (soloExec P op s).1 = .ok a) :
    FailsWith (soloExec P) Q (await op) := by
  refine failsWith_perform fun s e h => ?_
  obtain ⟨a, ha⟩ := hop s
  rw [ha] at h
  cases h

theorem failsWith_guardUuid {value : String} {absent : α} {query : Code α}
    (h : FailsWith (soloExec P) Q query) :
    FailsWith (soloExec P) Q (guardUuid value absent query) := by
  unfold guardUuid
  split
  · exact h
  · exact failsWith_pure _

theorem failsWith_commit {slot : Slot} (hQ : ∀ d, Q (.database d)) :
    FailsWith (soloExec P) Q (await (.commit slot)) := by
  refine failsWith_perform fun s e h => ?_
  simp only [soloExec, executeOp, executeCommit] at h
  split at h <;> cases h <;> exact hQ _

theorem failsWith_rollback {slot : Slot} (hQ : ∀ d, Q (.database d)) :
    FailsWith (soloExec P) Q (await (.rollback slot)) := by
  refine failsWith_perform fun s e h => ?_
  simp only [soloExec, executeOp] at h
  split at h <;> cases h
  exact hQ _

theorem failsWith_withSession {slot : Slot} {body : Code α} (h : FailsWith (soloExec P) Q body) :
    FailsWith (soloExec P) Q (withSession slot body) := by
  have hclose : FailsWith (soloExec P) Q (await (.close slot)) :=
    failsWith_await fun s => ⟨(), rfl⟩
  refine FailsWith.bind (FailsWith.tryCatch h fun exc hexc => ?_) fun result => ?_
  · exact FailsWith.bind hclose fun _ => failsWith_raise hexc
  · exact FailsWith.bind hclose fun _ => failsWith_pure _

/-- What the body of a request raises, `get_db_session` raises, and database errors. -/
theorem failsWith_getDbSession {body : Code α} (hQ : ∀ d, Q (.database d))
    (h : FailsWith (soloExec P) Q body) : FailsWith (soloExec P) Q (getDbSession body) := by
  refine failsWith_withSession (FailsWith.tryCatch (FailsWith.bind h fun result => ?_)
    fun exc hexc => ?_)
  · exact FailsWith.bind (failsWith_commit hQ) fun _ => failsWith_pure _
  · exact FailsWith.bind (failsWith_rollback hQ) fun _ => failsWith_raise hexc

theorem failsWith_withBody {β γ δ : Type} {body : JsonBody β} {validate : β → Option γ}
    {deps : Code δ} {endpoint : δ → γ → Code α} (hQ : ∀ d, Q (.database d)) (hv : Q .validation)
    (hd : FailsWith (soloExec P) Q deps) (he : ∀ d c, FailsWith (soloExec P) Q (endpoint d c)) :
    FailsWith (soloExec P) Q (withBody body validate deps endpoint) := by
  cases body with
  | malformed => exact failsWith_raise hv
  | mistyped =>
    exact failsWith_getDbSession hQ (FailsWith.bind hd fun _ => failsWith_raise hv)
  | typed b =>
    refine failsWith_getDbSession hQ (FailsWith.bind hd fun d => ?_)
    cases validate b with
    | none => exact failsWith_raise hv
    | some c => exact he d c

end FailsWith

/-- What a request leaves whose body returns in an active transaction, and that its commit
worked. -/
theorem runs_getDbSession_committed {body : Code α} {a : α} {s s' : Solo}
    (h : (getDbSession body).Runs (soloExec P) s a s') :
    ∃ s₁, body.Runs (soloExec P) s a s₁ ∧
      (s₁.store.main.status = .active →
        (s₁.inputs 0).fault = none ∧ s'.shared.db = s₁.view) := by
  obtain ⟨b, s₁, hcaught, hclose⟩ := runs_bind.mp h
  obtain ⟨u, s₂, hclosed, hreturn⟩ := runs_bind.mp hclose
  obtain ⟨rfl, rfl⟩ := runs_pure.mp hreturn
  have hdb : s₂.shared.db = s₁.shared.db := by
    have huses : (await (.close .main)).Uses (Within [.reset]) := uses_effect rfl (by simp)
    have hsame := eval_db (P := P) huses (by simp) s₁
    rw [hclosed] at hsame
    exact hsame
  rcases runs_tryCatch.mp hcaught with h | ⟨e, s₃, -, h⟩
  swap
  · obtain ⟨u, s₄, -, h⟩ := runs_bind.mp h
    exact (runs_raise.mp h).elim
  rcases runs_tryCatch.mp h with h | ⟨e, s₃, -, h⟩
  swap
  · obtain ⟨u, s₄, -, h⟩ := runs_bind.mp h
    exact (runs_raise.mp h).elim
  obtain ⟨c, s₃, hbody, hcommit⟩ := runs_bind.mp h
  obtain ⟨u, s₄, hcommitted, hreturn⟩ := runs_bind.mp hcommit
  obtain ⟨rfl, rfl⟩ := runs_pure.mp hreturn
  refine ⟨s₃, hbody, fun hactive => ?_⟩
  obtain ⟨hfault, rfl⟩ := (runs_commit_iff hactive).mp hcommitted
  exact ⟨hfault, hdb⟩

/-- What a request leaves whose body returns in an active transaction. -/
theorem runs_getDbSession_view {body : Code α} {a : α} {s s' : Solo}
    (h : (getDbSession body).Runs (soloExec P) s a s') :
    ∃ s₁, body.Runs (soloExec P) s a s₁ ∧
      (s₁.store.main.status = .active → s'.shared.db = s₁.view) := by
  obtain ⟨s₁, hbody, hcommitted⟩ := runs_getDbSession_committed h
  exact ⟨s₁, hbody, fun hactive => (hcommitted hactive).2⟩

/-- What `get_db_session` returns, its body returned. -/
theorem runs_getDbSession {body : Code α} {a : α} {s s' : Solo}
    (h : (getDbSession body).Runs (soloExec P) s a s') :
    ∃ s₁, body.Runs (soloExec P) s a s₁ := by
  obtain ⟨s₁, hbody, -⟩ := runs_getDbSession_view h
  exact ⟨s₁, hbody⟩

/-- What a route with a JSON body returns, its endpoint returned. -/
theorem runs_withBody {β γ δ : Type} {body : JsonBody β} {validate : β → Option γ} {deps : Code δ}
    {endpoint : δ → γ → Code α} {a : α} {s s' : Solo}
    (h : (withBody body validate deps endpoint).Runs (soloExec P) s a s') :
    ∃ b c d s₁ s₂, body = .typed b ∧ validate b = some c ∧ deps.Runs (soloExec P) s d s₁ ∧
      (endpoint d c).Runs (soloExec P) s₁ a s₂ := by
  cases body with
  | malformed => exact (runs_raise.mp h).elim
  | mistyped =>
    obtain ⟨s₁, h⟩ := runs_getDbSession h
    obtain ⟨d, s₂, -, h⟩ := runs_bind.mp h
    exact (runs_raise.mp h).elim
  | typed b =>
    obtain ⟨s₁, h⟩ := runs_getDbSession h
    obtain ⟨d, s₂, hdeps, h⟩ := runs_bind.mp h
    cases hv : validate b with
    | none =>
      rw [hv] at h
      exact (runs_raise.mp h).elim
    | some c =>
      rw [hv] at h
      exact ⟨b, c, d, s₂, s₁, rfl, hv, hdeps, h⟩

/-- The tables after `get_db_session` around a body that only reads when it returns. -/
theorem getDbSession_same {body : Code α} {s : Solo} (hb : body.Uses (Within es))
    (hc : .commit ∉ es) (hs : s.store.main.writes = [])
    (hsame : ∀ a s', body.Runs (soloExec P) s a s' → s.Same s') :
    ((getDbSession body).eval (soloExec P) s).2.shared.db = s.shared.db := by
  rcases getDbSession_db (P := P) hb hc s with h | ⟨a, s', hrun, -, h⟩
  · exact h
  · rw [h, (hsame a s' hrun).view, Solo.view, hs, Database.after_nil]

theorem getDbSession_congr {p q : Code α} {s s' : Solo}
    (h : p.eval (soloExec P) s = q.eval (soloExec P) s') :
    (getDbSession p).eval (soloExec P) s = (getDbSession q).eval (soloExec P) s' := by
  simp only [getDbSession, withSession, eval_bind, eval_tryCatch, h]

/-- What follows a guard that lets nothing through does not matter. -/
theorem getDbSession_blocked {β : Type} {guard : Code β} {f : β → Code α} {s : Solo}
    (hg : guard.Uses (Within es)) (hc : .commit ∉ es)
    (hblock : ∀ a s', ¬ guard.Runs (soloExec P) s a s') :
    ((getDbSession (guard >>= f)).eval (soloExec P) s).2.shared.db = s.shared.db := by
  have hraise : (guard >>= f).eval (soloExec P) s =
      (guard >>= fun _ => raise .validation).eval (soloExec P) s :=
    eval_bind_congr fun a s' h => (hblock a s' h).elim
  rw [getDbSession_congr hraise]
  rcases getDbSession_db (P := P) (Uses.bind hg fun _ => uses_raise PyExc.validation) hc s with
    h | ⟨a, s', hrun, -⟩
  · exact h
  · obtain ⟨b, s₁, -, hraised⟩ := runs_bind.mp hrun
    exact (runs_raise.mp hraised).elim

/-- Dependencies that let nothing through. -/
theorem withBody_blocked {β γ δ : Type} {body : JsonBody β} {validate : β → Option γ}
    {deps : Code δ} {endpoint : δ → γ → Code α} {s : Solo} (hd : deps.Uses (Within es))
    (hc : .commit ∉ es) (hblock : ∀ a s', ¬ deps.Runs (soloExec P) s a s') :
    ((withBody body validate deps endpoint).eval (soloExec P) s).2.shared.db = s.shared.db := by
  cases body with
  | malformed => rfl
  | mistyped => exact getDbSession_blocked hd hc hblock
  | typed b => exact getDbSession_blocked hd hc hblock

theorem checked_eq_some {β : Type} {valid : β → Bool} {b c : β} :
    checked valid b = some c ↔ valid b = true ∧ b = c := by
  unfold checked
  split <;> simp_all

/-- What a route makes of a body that is checked. -/
def onChecked {γ : Type} (c : Option γ) (endpoint : γ → Code α) : Code α :=
  match c with
  | some c => endpoint c
  | none => raise .validation

theorem withBody_typed {β γ δ : Type} (b : β) (validate : β → Option γ) (deps : Code δ)
    (endpoint : δ → γ → Code α) : withBody (.typed b) validate deps endpoint =
      getDbSession (deps >>= fun d => onChecked (validate b) (endpoint d)) := rfl

theorem uses_onChecked {γ : Type} {c : Option γ} {endpoint : γ → Code α}
    (h : ∀ c, (endpoint c).Uses (Within es)) : (onChecked c endpoint).Uses (Within es) := by
  cases c with
  | none => exact uses_raise _
  | some c => exact h c

theorem runs_onChecked {γ : Type} {c : Option γ} {endpoint : γ → Code α} {s s' : Solo} {a : α}
    (h : (onChecked c endpoint).Runs (soloExec P) s a s') :
    ∃ x, c = some x ∧ (endpoint x).Runs (soloExec P) s a s' := by
  cases c with
  | none => exact (runs_raise.mp h).elim
  | some x => exact ⟨x, rfl, h⟩

/-- The tables after a route with a JSON body. -/
theorem withBody_db {β γ δ : Type} (body : JsonBody β) (validate : β → Option γ) {deps : Code δ}
    {endpoint : δ → γ → Code α} (hd : deps.Uses (Within es))
    (he : ∀ d c, (endpoint d c).Uses (Within es)) (hc : .commit ∉ es) (s : Solo) :
    ((withBody body validate deps endpoint).eval (soloExec P) s).2.shared.db = s.shared.db ∨
      ∃ d s₁ b c a s', deps.Runs (soloExec P) s d s₁ ∧ body = .typed b ∧ validate b = some c ∧
        (endpoint d c).Runs (soloExec P) s₁ a s' ∧ s'.store.main.status = .active ∧
        ((withBody body validate deps endpoint).eval (soloExec P) s).2.shared.db = s'.view := by
  cases body with
  | malformed => exact .inl rfl
  | mistyped =>
    rcases getDbSession_db (P := P) (Uses.bind hd fun _ => uses_raise PyExc.validation) hc s with
      h | ⟨a, s', hrun, -⟩
    · exact .inl h
    · obtain ⟨d, s₁, -, hraise⟩ := runs_bind.mp hrun
      exact (runs_raise.mp hraise).elim
  | typed b =>
    rw [withBody_typed]
    have hb : (deps >>= fun d => onChecked (validate b) (endpoint d)).Uses (Within es) :=
      Uses.bind hd fun d => uses_onChecked (he d)
    rcases getDbSession_db (P := P) hb hc s with h | ⟨a, s', hrun, hactive, h⟩
    · exact .inl h
    · obtain ⟨d, s₁, hdeps, hend⟩ := runs_bind.mp hrun
      obtain ⟨c, hv, hend⟩ := runs_onChecked hend
      exact .inr ⟨d, s₁, b, c, a, s', hdeps, rfl, hv, hend, hactive, h⟩

/-- The tables after a route with a form. -/
theorem withForm_db (es : List Effect) {γ : Type} {form : Option γ} {endpoint : γ → Code α}
    (he : ∀ c, (endpoint c).Uses (Within es)) (hc : .commit ∉ es) (s : Solo) :
    ((withForm form endpoint).eval (soloExec P) s).2.shared.db = s.shared.db ∨
      ∃ c a s', form = some c ∧ (endpoint c).Runs (soloExec P) s a s' ∧
        s'.store.main.status = .active ∧
        ((withForm form endpoint).eval (soloExec P) s).2.shared.db = s'.view := by
  cases form with
  | none =>
    have hb : (raise PyExc.validation : Code α).Uses (Within es) := uses_raise _
    rcases getDbSession_db (P := P) hb hc s with h | ⟨a, s', hrun, -⟩
    · exact .inl h
    · exact (runs_raise.mp hrun).elim
  | some c =>
    rcases getDbSession_db (P := P) (he c) hc s with h | ⟨a, s', hrun, hactive, h⟩
    · exact .inl h
    · exact .inr ⟨c, a, s', rfl, hrun, hactive, h⟩

/-- What holds of the tables before a request, and of what a body that returned leaves. -/
theorem getDbSession_post {T : Database → Prop} {body : Code α} {s : Solo}
    (hb : body.Uses (Within es)) (hc : .commit ∉ es) (hbefore : T s.shared.db)
    (h : ∀ a s', body.Runs (soloExec P) s a s' → T s'.view) :
    T ((getDbSession body).eval (soloExec P) s).2.shared.db := by
  rcases getDbSession_db (P := P) hb hc s with hdb | ⟨a, s', hrun, -, hdb⟩
  · rw [hdb]
    exact hbefore
  · rw [hdb]
    exact h a s' hrun

theorem withBody_post (es : List Effect) {T : Database → Prop} {β γ δ : Type} {body : JsonBody β}
    {validate : β → Option γ} {deps : Code δ} {endpoint : δ → γ → Code α} {s : Solo}
    (hd : deps.Uses (Within es)) (he : ∀ d c, (endpoint d c).Uses (Within es))
    (hc : .commit ∉ es) (hbefore : T s.shared.db)
    (h : ∀ d s₁ b c a s', deps.Runs (soloExec P) s d s₁ → body = .typed b → validate b = some c →
      (endpoint d c).Runs (soloExec P) s₁ a s' → T s'.view) :
    T ((withBody body validate deps endpoint).eval (soloExec P) s).2.shared.db := by
  rcases withBody_db (P := P) body validate hd he hc s with
    hdb | ⟨d, s₁, b, c, a, s', hdeps, hbody, hvalid, hrun, -, hdb⟩
  · rw [hdb]
    exact hbefore
  · rw [hdb]
    exact h d s₁ b c a s' hdeps hbody hvalid hrun

theorem withForm_post (es : List Effect) {T : Database → Prop} {γ : Type} {form : Option γ} {endpoint : γ → Code α}
    {s : Solo} (he : ∀ c, (endpoint c).Uses (Within es)) (hc : .commit ∉ es)
    (hbefore : T s.shared.db)
    (h : ∀ c a s', form = some c → (endpoint c).Runs (soloExec P) s a s' → T s'.view) :
    T ((withForm form endpoint).eval (soloExec P) s).2.shared.db := by
  rcases withForm_db (P := P) es he hc s with hdb | ⟨c, a, s', hform, hrun, -, hdb⟩
  · rw [hdb]
    exact hbefore
  · rw [hdb]
    exact h c a s' hform hrun

/-- Every request of a sequence meets a condition on the state in which it is served. -/
def Throughout (P : Platform) (C : Shared → Request → (Nat → Input) → Prop) :
    List (Request × (Nat → Input)) → Shared → Prop
  | [], _ => True
  | (req, inputs) :: rest, sh => C sh req inputs ∧ Throughout P C rest (serve P req inputs sh)

end Alone

/-! ## Concrete runs -/

/-- A password, and its Argon2 hash for one salt. -/
def Platform.samplePassword : String := "correct horse battery staple"

def Platform.sampleHash : String :=
  "$argon2id$v=19$m=65536,t=3,p=4$MIIRqgvgQbgj220jfp0MPA" ++
    "$YfwJSVjtjSU0zzV/P3S9nnQ/USre2wvJMjfCIjrTQbg"

/-- An API token, and its SHA-256 digest. -/
def Platform.sampleToken : String := "wm_0a1b2c3d_00112233445566778899aabbccddeeff01234567"

def Platform.sampleDigest : String :=
  "59339049275cbe2cbc15caf3df89a9f5f246ad10f7226259a69e68c4a0091e06"

/-- A platform for concrete runs. It answers as the real one does for addresses in
canonical form, for the password and the token above, and for texts in ASCII; it signs no
CSRF tokens. -/
def Platform.sample : Platform where
  inet s := if ipAddressOk s then some s else none
  macaddr := validateMac
  sha256 _ := sampleDigest
  argon2Hash _ _ := sampleHash
  argon2Verify _ plain := if plain == samplePassword then .verified else .mismatch
  argon2NeedsRehash _ := false
  csrfDumps _ _ _ := ""
  csrfLoads _ _ := none
  printable _ := false
  lower s := s

/-- A CSRF secret, and the token that is signed for it and the session with the identifier 2
under the application secret `0123456789abcdef0123456789abcdef`. -/
def Platform.sampleSecret : String :=
  "7ce12ba8782a32f74357cefb81edb8c20ea4d755115ecb4063348b8cc9d41f34"

def Platform.sampleCsrf : String :=
  ".eJxtijsgSCAMBe-SWmfIB4nehoQwY03peHcpKN3iFfv2gXE3uCAt9p9ZEGwwwmdcPJCsalGqTL0I56m6KUYzdUpR" ++
    "pZWcEXO4STqYRefhZxPsLPB-iDEdig.aE7hgA.DMXBHoFVsB7KUcMUJKkT9bJFrjE"

def sampleTime : DateTime := DateTime.seconds 1750000000

def sampleSession : Uuid := Uuid.ofNat 2

/-- The sample platform with that token. -/
def Platform.signing : Platform :=
  { sample with
    csrfDumps := fun _ _ _ => sampleCsrf
    csrfLoads := fun _ token =>
      if token == sampleCsrf then some (sampleSession.text, sampleSecret) else none }

/-- Inputs of a request at the time of that token: every new identifier has the number `id`. -/
def Input.signing (id : Nat) : Nat → Input := fun _ =>
  { now := sampleTime, fresh := Uuid.ofNat id, random := Platform.sampleSecret }

/-- The random text of a request that creates the sample token. -/
def Input.token : Nat → Input := fun n =>
  { Input.signing 5 n with
    random := if n = 4 then "0a1b2c3d" else "00112233445566778899aabbccddeeff01234567" }

/-- A request of the administrator with the session cookie and the CSRF token. -/
def adminRequest (route : Route) : Request :=
  { route, cookie := some sampleSession.text, csrfHeader := some Platform.sampleCsrf }

/-- The first steps in a new installation: an administrator, and a machine. -/
def firstSteps : List (Request × (Nat → Input)) :=
  [({ route := .setupAdminPost ⟨.value "admin", .value Platform.samplePassword⟩ },
      Input.signing 2),
    (adminRequest (.createMachine (.typed
      { name := "nas", ipAddress := "192.168.1.10", macAddress := "aa:bb:cc:dd:ee:ff" })),
      Input.signing 3)]

/-- The tables after the first steps. -/
def Database.installed : Database where
  users := [⟨Uuid.ofNat 2, "admin", Platform.sampleHash, "admin", some sampleTime⟩]
  machines := [
    { id := Uuid.ofNat 3, name := "nas", hostname := none, ipAddress := "192.168.1.10"
      macAddress := "aa:bb:cc:dd:ee:ff", sshPort := 22, wakeInterface := none
      wakeStrategy := "etherwake", broadcastAddress := none, enabled := true
      createdAt := sampleTime, updatedAt := sampleTime }]
  attempts := []
  jobs := []
  probeResults := []
  sessions := [
    { id := sampleSession, userId := Uuid.ofNat 2, csrfSecret := Platform.sampleSecret, ip := none
      userAgent := none, expiresAt := sampleTime + DateTime.hours 12, revoked := false
      createdAt := sampleTime }]
  tokens := []
  setupState := some ⟨false, "network", ["admin_account"]⟩
  settings := []

/-- Inputs of a request to which nothing special happens. -/
def Input.quiet : Nat → Input := fun _ => {}

/-- A new installation. -/
def Shared.fresh : Shared := ⟨Database.empty, fun _ => [], []⟩

/-- A new installation with an administrator and a machine. -/
def Shared.installed : Shared := { Shared.fresh with db := Database.installed }

theorem serveAll_firstSteps :
    (serveAll Platform.signing firstSteps Shared.fresh).db = Database.installed := by
  decide +kernel

end WolMonkey
