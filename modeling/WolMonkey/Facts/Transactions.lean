import WolMonkey.Facts.Execution

/-!
# Failures inside a transaction

A request works in one transaction, which it may go on using after a statement has failed.
The journal of a request records whether one of its statements failed and which changes it
made; the phase of its transaction says what has become of it. Code that only goes on in
the right phases is `Sound`: it returns in the phase of an undisturbed transaction, or in
one that can no longer change anything.
-/

namespace WolMonkey

open Programs Program

/-! ## The journal of a request -/

/-- What a request does with the database: whether a statement or a commit fails, the
changes that its statements make, and whether it asks for a commit. -/
structure Journal where
  failed : Bool := false
  writes : List Write := []
  asked : Bool := false
deriving DecidableEq

def raises {ε α : Type} : Except ε α → Bool
  | .error _ => true
  | .ok _ => false

section Journal
variable (P : Platform)

/-- The entry of one operation. A commit whose acknowledgement is lost has not failed. -/
def Journal.note (op : Op) (s : Solo) (j : Journal) : Journal :=
  let r := soloExec P op s
  match op with
  | .stmt slot _ =>
    { j with failed := j.failed || raises r.1
             writes := j.writes ++
               ((r.2.store.tx slot).writes.drop (s.store.tx slot).writes.length) }
  | .commit _ =>
    { j with failed := j.failed || (raises r.1 && (s.inputs 0).fault != some .lost)
             asked := true }
  | _ => j

/-- Execute an operation and note it down. -/
abbrev journaled : (op : app.Op) → Solo × Journal → app.Reply op × Solo × Journal :=
  watch (soloExec P) (Journal.note P)

/-- The journal of a request that runs alone. -/
def journal (req : Request) (inputs : Nat → Input) (sh : Shared) : Journal :=
  ((handle P req).eval (journaled P) (Solo.init inputs sh, {})).2.2

end Journal

/-! ## Phases -/

/-- What has become of a transaction. -/
inductive Phase where
  | untouched
  | changed
  /-- A statement failed, and the transaction refuses everything. -/
  | refusing
  /-- A statement failed, and no change is left. -/
  | emptied
  /-- A parameter could not be encoded after other changes, which are still there. -/
  | torn
deriving DecidableEq

/-- Nothing has failed. -/
def Phase.fine : Phase → Bool
  | untouched | changed => true
  | _ => false

/-- The driver can encode the parameters of the statement. -/
def Stmt.encodable : Stmt → Bool
  | userGet id | userSetLastLogin id | userSetPasswordHash id _ | machineGet id | attemptGet id
  | attemptUpdateStatus id _ _ _ | attemptActive id | sessionGet id | sessionRevoke id
  | tokenListForMachine id | tokenRevoke id | tokenTouch id | jobSetDone id
  | jobSetError id _ => (Uuid.parse? id).isSome
  | _ => true

/-- A failure that leaves the transaction open: the server has not seen the statement. -/
def unsent (s : Stmt) (e : PyExc) : Bool := !s.isFlush && e == .database .invalidParameter

def Phase.next (g : Phase) : (op : Op) → app.Reply op → Phase
  | .stmt _ s, .ok _ =>
    match g with
    | .untouched => if s.effect = none then .untouched else .changed
    | g => g
  | .stmt _ s, .error e =>
    if unsent s e then
      match g with
      | .untouched => .emptied
      | .changed => .torn
      | g => g
    else .refusing
  | .rollback _, _ => .emptied
  | _, _ => g

/-- What code may do in a phase. -/
def Phase.permits (g : Phase) : Op → Prop
  | .stmt slot s => slot = .main ∧ (g = .emptied → s.effect = none)
  | .rollback slot => slot = .main ∧ g.fine = false
  | .commit _ | .close _ => False
  | _ => True

/-- What the database may reply in a phase. -/
def Phase.possible (g : Phase) : (op : Op) → app.Reply op → Prop
  | .stmt _ s, .ok _ => g ≠ .refusing ∧ s.encodable = true
  | .stmt _ s, .error e => s.encodable = true → unsent s e = false
  | _, _ => True

abbrev transaction : Monitor app where
  Ghost := Phase
  next := Phase.next
  permits := Phase.permits
  possible := Phase.possible

/-- What a phase says about the transaction and the journal; `db` are the tables when the
request started. -/
def InPhase (db : Database) (g : Phase) (x : Solo × Journal) : Prop :=
  x.1.shared.db = db ∧ x.2.asked = false ∧
    match g with
    | .untouched => x.2.failed = false ∧ x.1.store.main.status = .active ∧
        x.1.store.main.writes = [] ∧ x.2.writes = []
    | .changed => x.2.failed = false ∧ x.1.store.main.status = .active ∧
        x.1.store.main.writes = x.2.writes
    | .refusing => x.2.failed = true ∧ x.1.store.main.status ≠ .active
    | .emptied => x.2.failed = true ∧ x.1.store.main.writes = []
    | .torn => x.2.failed = true

section Phases
variable {P : Platform}

theorem bind_ne_error {ε α β : Type} {x : Except ε α} {f : α → Except ε β} {e : ε}
    (hx : x ≠ .error e) (hf : ∀ a, f a ≠ .error e) : (x >>= f) ≠ .error e := by
  cases x with
  | error e' => exact fun h => hx (congrArg Except.error (Except.error.inj h))
  | ok a => exact hf a

theorem pure_ne_error {ε α : Type} {a : α} {e : ε} : (pure a : Except ε α) ≠ .error e := nofun

theorem throw_ne_error {ε α : Type} {e e' : ε} (h : e ≠ e') : (throw e : Except ε α) ≠ .error e' :=
  fun h' => h (Except.error.inj h')

theorem require_ne_error {ok : Bool} {e e' : DbError} (h : e ≠ e') : require ok e ≠ .error e' := by
  cases ok
  · exact fun h' => h (Except.error.inj h')
  · exact nofun

theorem uuidParam_ne_error {s : String} (h : (Uuid.parse? s).isSome = true) {e : DbError} :
    uuidParam s ≠ .error e := by
  obtain ⟨u, hu⟩ := Option.isSome_iff_exists.mp h
  rw [uuidParam_eq_ok.mpr hu]
  exact nofun

/-- An encodable statement that is no flush reaches the server. -/
theorem Stmt.run_encodable {s : Stmt} {inp : Input} {locked : List Uuid} {db : Database}
    (hs : s.encodable = true) (hflush : s.isFlush = false) :
    s.run P inp locked db ≠ .error .invalidParameter := by
  cases s <;> simp only [run]
  all_goals first
    | (exfalso; simp [isFlush] at hflush; done)
    | skip
  -- the remaining statements are chains of checks, and only a parameter could be unfit
  all_goals
    repeat' first
      | exact pure_ne_error
      | exact throw_ne_error (by decide)
      | refine bind_ne_error (uuidParam_ne_error hs) fun _ => ?_
      | refine bind_ne_error (require_ne_error (by decide)) fun _ => ?_
      | split

/-- A statement that succeeds is encodable. -/
theorem Stmt.encodable_of_run {s : Stmt} {inp : Input} {locked : List Uuid} {db : Database}
    {r : Executed s} (h : s.run P inp locked db = .ok r) : s.encodable = true := by
  cases s <;> first
    | rfl
    | (simp only [run, bind_eq_ok, uuidParam_eq_ok] at h
       obtain ⟨u, hu, -⟩ := h
       simp [encodable, hu])

/-- A statement that fails in an active transaction and leaves it active was not sent. -/
theorem executeStmt_unsent {slot : Slot} {s : Stmt} {inp : Input} {others : List Store}
    {sh : Shared} {st : Store} {e : PyExc}
    (h : (executeStmt P slot s inp others sh st).1 = .error e) :
    (unsent s e = true → (st.tx slot).status = .active ∧
        s.run P inp (lockedJobs others st slot) (sh.db.after (st.tx slot).writes) =
          .error .invalidParameter) ∧
      (unsent s e = false → ((executeStmt P slot s inp others sh st).2.tx slot).status ≠ .active) := by
  unfold executeStmt at h ⊢
  dsimp only at h ⊢
  cases hstatus : (st.tx slot).status with
  | inactive =>
    rw [hstatus] at h
    cases h
    exact ⟨by simp [unsent], by simp⟩
  | aborted =>
    rw [hstatus] at h
    cases h
    refine ⟨by simp [unsent], fun _ => ?_⟩
    rw [Store.tx_setTx_self]
    dsimp only
    split <;> simp
  | active =>
    rw [hstatus] at h
    dsimp only at h ⊢
    split at h
    · cases h
      refine ⟨by simp [unsent], fun _ => ?_⟩
      rename_i hfault
      simp only [Store.tx_setTx_self]
      split <;> simp
    · rename_i hfault
      split at h
      · rename_i hrun
        cases h
        refine ⟨fun _ => ⟨rfl, hrun⟩, fun hunsent => ?_⟩
        simp only [Store.tx_setTx_self]
        simp only [unsent, beq_self_eq_true, Bool.and_true, Bool.not_eq_false'] at hunsent
        simp [hunsent]
      · rename_i d hne hrun
        cases h
        refine ⟨fun hunsent => ?_, fun _ => ?_⟩
        · simp only [unsent, Bool.and_eq_true, beq_iff_eq, PyExc.database.injEq] at hunsent
          exact (hne hunsent.2).elim
        · simp only [Store.tx_setTx_self]
          split <;> simp
      · cases h

/-- A statement that fails. -/
theorem InPhase.failed {db : Database} {g : Phase} {s : Solo} {j : Journal} {st : Stmt}
    (h : InPhase db g (s, j)) {e : DbError} {status : TxStatus}
    (hexec : executeStmt P .main st (s.inputs 0) [] s.shared s.store =
      (.error (.database e), s.store.setTx .main { s.store.main with status })) :
    g.possible (.stmt .main st) (journaled P (.stmt .main st) (s, j)).1 ∧
      InPhase db (g.next (.stmt .main st) (journaled P (.stmt .main st) (s, j)).1)
        (journaled P (.stmt .main st) (s, j)).2 := by
  obtain ⟨hunsent, hsent⟩ := executeStmt_unsent (congrArg Prod.fst hexec)
  rw [hexec] at hsent
  have hdb : (soloExec P (.stmt .main st) s).2.shared.db = s.shared.db :=
    executeOp_db (by simp)
  have hreply : (soloExec P (.stmt .main st) s).1 = .error (.database e) := by
    simp only [soloExec, executeOp, hexec]
  have hstore : (soloExec P (.stmt .main st) s).2.store =
      s.store.setTx .main { s.store.main with status } := by
    simp only [soloExec, executeOp, hexec]
  have hnote : Journal.note P (.stmt .main st) s j = { j with failed := true } := by
    simp only [Journal.note, hreply, hstore, raises, Bool.or_true, Store.tx, Store.setTx,
      List.drop_length, List.append_nil]
  obtain ⟨hbefore, hasked, hphase⟩ := h
  simp only [journaled, watch, hreply, hnote]
  refine ⟨fun hencodable => ?_, hdb.trans hbefore, hasked, ?_⟩
  · cases hu : unsent st (.database e) with
    | false => rfl
    | true =>
      have hflush : st.isFlush = false := by
        simp only [unsent, Bool.and_eq_true, Bool.not_eq_true'] at hu
        exact hu.1
      exact (Stmt.run_encodable hencodable hflush (hunsent hu).2).elim
  · simp only [Phase.next]
    cases hu : unsent st (.database e) with
    | false => exact ⟨trivial, by rw [hstore]; exact hsent hu⟩
    | true =>
      rw [if_pos rfl]
      cases g with
      | untouched => exact ⟨trivial, by rw [hstore]; exact hphase.2.2.1⟩
      | changed => trivial
      | refusing => exact (hphase.2 (hunsent hu).1).elim
      | emptied => exact ⟨trivial, by rw [hstore]; exact hphase.2⟩
      | torn => trivial

/-- A statement that succeeds. -/
theorem InPhase.succeeded {db : Database} {g : Phase} {s : Solo} {j : Journal} {st : Stmt}
    (h : InPhase db g (s, j)) (hpermits : g = .emptied → st.effect = none) {r : Executed st}
    {locked : List Uuid} (hactive : s.store.main.status = .active)
    (hrun : st.run P (s.inputs 0) locked s.view = .ok r)
    (hexec : executeStmt P .main st (s.inputs 0) [] s.shared s.store =
      (.ok r.answer, s.store.setTx .main { s.store.main with
        writes := s.store.main.writes ++ r.writes, locks := s.store.main.locks ++ r.locks })) :
    g.possible (.stmt .main st) (journaled P (.stmt .main st) (s, j)).1 ∧
      InPhase db (g.next (.stmt .main st) (journaled P (.stmt .main st) (s, j)).1)
        (journaled P (.stmt .main st) (s, j)).2 := by
  have hdb : (soloExec P (.stmt .main st) s).2.shared.db = s.shared.db :=
    executeOp_db (by simp)
  have hreply : (soloExec P (.stmt .main st) s).1 = .ok r.answer := by
    simp only [soloExec, executeOp, hexec]
  have hstore : (soloExec P (.stmt .main st) s).2.store = s.store.setTx .main { s.store.main with
      writes := s.store.main.writes ++ r.writes, locks := s.store.main.locks ++ r.locks } := by
    simp only [soloExec, executeOp, hexec]
  have hnote : Journal.note P (.stmt .main st) s j = { j with writes := j.writes ++ r.writes } := by
    simp only [Journal.note, hreply, hstore, raises, Bool.or_false, Store.tx, Store.setTx,
      List.drop_left]
  have hread : st.effect = none → r.writes = [] := fun heffect =>
    List.eq_nil_iff_forall_not_mem.mpr fun w hw =>
      absurd (heffect.symm.trans (Stmt.run_effect r hrun w hw)) (by simp)
  obtain ⟨hbefore, hasked, hphase⟩ := h
  simp only [journaled, watch, hreply, hnote]
  have hencodable := Stmt.encodable_of_run hrun
  cases g with
  | untouched =>
    refine ⟨⟨by simp, hencodable⟩, hdb.trans hbefore, hasked, ?_⟩
    simp only [Phase.next, hstore, Store.setTx]
    by_cases heffect : st.effect = none
    · rw [if_pos heffect]
      refine ⟨hphase.1, hactive, ?_, ?_⟩
      · exact List.append_eq_nil_iff.mpr ⟨hphase.2.2.1, hread heffect⟩
      · exact List.append_eq_nil_iff.mpr ⟨hphase.2.2.2, hread heffect⟩
    · rw [if_neg heffect]
      exact ⟨hphase.1, hactive, congrArg (· ++ r.writes) (hphase.2.2.1.trans hphase.2.2.2.symm)⟩
  | changed =>
    refine ⟨⟨by simp, hencodable⟩, hdb.trans hbefore, hasked, hphase.1, ?_, ?_⟩
    · rw [hstore]
      exact hactive
    · rw [hstore]
      exact congrArg (· ++ r.writes) hphase.2.2
  | refusing => exact (hphase.2 hactive).elim
  | emptied =>
    refine ⟨⟨by simp, hencodable⟩, hdb.trans hbefore, hasked, hphase.1, ?_⟩
    rw [hstore]
    simp only [Store.setTx, hread (hpermits rfl), List.append_nil]
    exact hphase.2
  | torn => exact ⟨⟨by simp, hencodable⟩, hdb.trans hbefore, hasked, hphase⟩

/-- What every permitted operation does to the phase. -/
theorem InPhase.step {db : Database} {g : Phase} {x : Solo × Journal} {op : Op}
    (h : InPhase db g x) (hpermits : g.permits op) :
    g.possible op (journaled P op x).1 ∧
      InPhase db (g.next op (journaled P op x).1)
        (journaled P op x).2 := by
  obtain ⟨s, j⟩ := x
  cases op with
  | stmt slot st =>
    obtain ⟨rfl, hread⟩ := hpermits
    rcases executeStmt_cases P .main (s.inputs 0) [] s.shared s.store st with
      ⟨e, status, hexec, -⟩ | ⟨r, hactive, -, hrun, hexec⟩
    · exact h.failed hexec
    · exact h.succeeded hread hactive hrun hexec
  | commit slot => exact hpermits.elim
  | close slot => exact hpermits.elim
  | rollback slot =>
    obtain ⟨rfl, hfine⟩ := hpermits
    obtain ⟨hbefore, hasked, hphase⟩ := h
    have hfailed : j.failed = true := by
      cases g with
      | untouched => cases hfine
      | changed => cases hfine
      | refusing => exact hphase.1
      | emptied => exact hphase.1
      | torn => exact hphase
    have hstore : (soloExec P (.rollback .main) s).2.store = s.store.setTx .main {} := by
      simp only [soloExec, executeOp]
      split <;> rfl
    have hdb : (soloExec P (.rollback .main) s).2.shared.db = s.shared.db :=
      executeOp_db (by simp)
    refine ⟨trivial, hdb.trans hbefore, hasked, hfailed, ?_⟩
    simp only [journaled, watch, hstore]
    rfl
  | send strategy mac interface broadcast =>
    refine ⟨trivial, ?_⟩
    simp only [journaled, watch, soloExec, executeOp]
    split <;> exact h
  | _ => exact ⟨trivial, h⟩

end Phases

/-! ## The end of a request -/

/-- The tables after a request compared with those before it: a failure leaves everything
as it was, and without one all changes are committed together when the request asked. -/
def AllOrNothing (db db' : Database) (j : Journal) : Prop :=
  (j.failed = true → db' = db) ∧
    (j.failed = false → db' = if j.asked then db.after j.writes else db)

section End
variable {P : Platform} {α : Type}

/-- The operations after the commit or the failure of a request. -/
def Op.ends (op : Op) : Prop := op = .rollback .main ∨ op = .close .main

/-- What follows the commit or the failure of a request changes nothing more. -/
theorem getDbSession_journal (body : Code α) (x : Solo × Journal) :
    let r := ((getDbSession body).eval (journaled P) x).2
    (r.1.shared.db, r.2) =
      match body.eval (journaled P) x with
      | (.value _, x') =>
        ((journaled P (.commit .main) x').2.1.shared.db, (journaled P (.commit .main) x').2.2)
      | (_, x') => (x'.1.shared.db, x'.2) := by
  let F : Solo × Journal → Database × Journal := fun x => (x.1.shared.db, x.2)
  have hF : ∀ op x, op.ends → F (journaled P op x).2 = F x := by
    rintro op x (rfl | rfl)
    · exact Prod.ext (executeOp_db (by simp)) rfl
    · rfl
  have hend : ∀ {op : Op} {β : Type} {f : op.Answer → Code β},
      op.ends → (∀ a, (f a).Uses Op.ends) → (await op >>= f).Uses Op.ends :=
    fun hop hf => Uses.bind ((uses_perform _).mpr hop) hf
  show F _ = _
  unfold getDbSession withSession
  rw [eval_bind_frame F hF fun a => hend (.inr rfl) fun _ => uses_pure _,
    eval_tryCatch_frame F hF fun e => hend (.inr rfl) fun _ => uses_raise _,
    eval_tryCatch_frame F hF fun e => hend (.inl rfl) fun _ => uses_raise _, eval_bind]
  rcases body.eval (journaled P) x with ⟨a | e | _, x'⟩
  · dsimp only
    rw [eval_bind_frame F hF fun _ => uses_pure _]
    unfold await
    rw [eval_perform_snd]
  · rfl
  · rfl

/-- Committing in a phase that is not torn. -/
theorem InPhase.commit {db : Database} {g : Phase} {x : Solo × Journal} (h : InPhase db g x)
    (hg : g ≠ .torn) :
    AllOrNothing db (journaled P (.commit .main) x).2.1.shared.db
      (journaled P (.commit .main) x).2.2 := by
  obtain ⟨s, j⟩ := x
  obtain ⟨rfl, -, hphase⟩ := h
  -- after a failure there is nothing that the commit could store
  have hnothing : j.failed = true →
      (s.store.main.status = .active → s.store.main.writes = []) →
      AllOrNothing s.shared.db (journaled P (.commit .main) (s, j)).2.1.shared.db
        (journaled P (.commit .main) (s, j)).2.2 := by
    intro hfailed hwrites
    refine ⟨fun _ => ?_, fun h => ?_⟩
    · rcases (executeCommit_cases .main (s.inputs 0) s.shared s.store).1 with h | ⟨hactive, h⟩
      · exact congrArg Shared.db h
      · refine (congrArg Shared.db h).trans ?_
        simp only [Store.tx, hwrites hactive, Database.after_nil]
    · simp [watch, Journal.note, hfailed] at h
  have hall : j.failed = false → s.store.main.status = .active →
      s.store.main.writes = j.writes →
      AllOrNothing s.shared.db (journaled P (.commit .main) (s, j)).2.1.shared.db
        (journaled P (.commit .main) (s, j)).2.2 := by
    intro hfailed hactive hwrites
    simp only [AllOrNothing, journaled, watch, Journal.note, soloExec, executeOp, executeCommit,
      Store.tx, hactive, hwrites]
    cases (s.inputs 0).fault with
    | none => simp [raises, hfailed]
    | some f => cases f <;> simp [raises, hfailed]
  cases g with
  | untouched => exact hall hphase.1 hphase.2.1 (hphase.2.2.1.trans hphase.2.2.2.symm)
  | changed => exact hall hphase.1 hphase.2.1 hphase.2.2
  | refusing => exact hnothing hphase.1 fun hactive => (hphase.2 hactive).elim
  | emptied => exact hnothing hphase.1 fun _ => hphase.2
  | torn => exact (hg rfl).elim

/-- Code that is not torn when it returns. -/
def Safe (p : Code α) : Prop :=
  Obeys transaction (fun _ g => g ≠ Phase.torn) (fun _ _ => True) Phase.untouched p

theorem getDbSession_allOrNothing {body : Code α} (h : Safe body) (inputs : Nat → Input)
    (sh : Shared) :
    let r := ((getDbSession body).eval (journaled P) (Solo.init inputs sh, {})).2
    AllOrNothing sh.db r.1.shared.db r.2 := by
  have step : ∀ g x op, InPhase sh.db g x → transaction.permits g op →
      transaction.possible g op (journaled P op x).1 ∧
        InPhase sh.db (transaction.next g op (journaled P op x).1) (journaled P op x).2 :=
    fun _ _ _ hx hpermits => hx.step hpermits
  obtain ⟨g, hphase, hreturned, -⟩ := h.run step (s := (Solo.init inputs sh, {}))
    ⟨rfl, rfl, rfl, rfl, rfl, rfl⟩
  have hend := getDbSession_journal (P := P) body (Solo.init inputs sh, {})
  dsimp only at hend ⊢
  -- the request asks for a commit only after its body has returned
  have hraised : ∀ x', InPhase sh.db g x' → AllOrNothing sh.db x'.1.shared.db x'.2 := by
    rintro x' ⟨hdb, hasked, -⟩
    exact ⟨fun _ => hdb, fun _ => by rw [hasked]; exact hdb⟩
  cases hr : body.eval (journaled P) (Solo.init inputs sh, {}) with
  | mk outcome x' =>
    rw [hr] at hend hphase hreturned
    cases outcome with
    | value a =>
      obtain ⟨hdb, hjournal⟩ := Prod.mk.inj hend
      rw [hdb, hjournal]
      exact hphase.commit (hreturned a rfl)
    | raised e =>
      obtain ⟨hdb, hjournal⟩ := Prod.mk.inj hend
      rw [hdb, hjournal]
      exact hraised x' hphase
    | stuck =>
      obtain ⟨hdb, hjournal⟩ := Prod.mk.inj hend
      rw [hdb, hjournal]
      exact hraised x' hphase

end End

/-! ## Code that cannot tear its transaction -/

/-- A phase in which every statement either succeeds or reaches the server. -/
def Phase.steady (g : Phase) : Bool := g.fine || g == .refusing

/-- The operation is none of the ends of a transaction, and no statement of it is unsent. -/
def Op.plain : Op → Prop
  | .stmt slot s => slot = .main ∧ (s.isFlush || s.encodable) = true
  | .commit _ | .rollback _ | .close _ => False
  | _ => True

section Plain
variable {α : Type}

theorem obeys_plain {p : Code α} (hp : p.Uses Op.plain) {g : Phase} (hg : g.steady = true) :
    Obeys transaction (fun _ g => Phase.steady g = true) (fun _ g => Phase.steady g = true) g p := by
  refine hp.obeys (fun g op hop hg => ?_) hg
  cases op with
  | stmt slot s =>
    obtain ⟨hslot, hsent⟩ := hop
    refine ⟨⟨hslot, fun h => by rw [h] at hg; cases hg⟩, fun r hr => ?_⟩
    cases r with
    | error e =>
      have hunsent : unsent s e = false := by
        cases hflush : s.isFlush with
        | true => simp [unsent, hflush]
        | false =>
          rw [hflush, Bool.false_or] at hsent
          exact hr hsent
      simp [Phase.next, hunsent, Phase.steady]
    | ok a =>
      cases g with
      | untouched =>
        simp only [Phase.next]
        split <;> rfl
      | _ => exact hg
  | commit slot => exact hop.elim
  | rollback slot => exact hop.elim
  | close slot => exact hop.elim
  | _ => exact ⟨trivial, fun _ _ => hg⟩

theorem plain_execute {s : Stmt} (h : (s.isFlush || s.encodable) = true) :
    (execute .main s).Uses Op.plain := (uses_perform _).mpr ⟨rfl, h⟩

theorem plain_await {op : Op} (h : op.plain) : (await op).Uses Op.plain := (uses_perform _).mpr h

theorem encodable_text (u : Uuid) : (Uuid.parse? u.text).isSome = true := by
  rw [Uuid.parse?_text]
  rfl

theorem plain_guardUuid {value : String} {absent : α} {query : Code α} (h : query.Uses Op.plain) :
    (guardUuid value absent query).Uses Op.plain := by
  unfold guardUuid
  split
  · exact h
  · exact uses_pure _

theorem plain_setupGet : SqlSetupStateRepository.get.Uses Op.plain := by
  refine Uses.bind (plain_execute rfl) fun found => ?_
  cases found with
  | some model => exact uses_pure _
  | none => exact Uses.bind (plain_execute rfl) fun _ => plain_execute rfl

theorem plain_setupUpdate {columns : SetupColumns} :
    (SqlSetupStateRepository.update columns).Uses Op.plain := by
  refine Uses.bind (plain_execute rfl) fun found => Uses.bind ?_ fun _ => plain_execute rfl
  cases found <;> exact plain_execute rfl

theorem plain_advance {step : String} : (SetupStateService.advance step).Uses Op.plain := by
  refine Uses.bind plain_setupGet fun record => ?_
  dsimp only
  split
  · exact Uses.bind plain_setupUpdate fun _ => uses_pure _
  · exact Uses.bind plain_setupUpdate fun _ => uses_pure _

theorem plain_requireIncomplete : Api.requireIncomplete.Uses Op.plain := by
  refine Uses.bind (Uses.bind plain_setupGet fun _ => uses_pure _) fun complete => ?_
  split <;> simp

theorem plain_settingsSet {key : String} {value : Scalar} :
    (SettingsService.set key value).Uses Op.plain := by
  refine Uses.bind (plain_execute rfl) fun found => ?_
  cases found <;> exact plain_execute rfl

theorem plain_saveNetwork {body : NetworkConfigRequest} :
    (Api.saveNetwork body).Uses Op.plain :=
  Uses.bind plain_settingsSet fun _ => Uses.bind plain_settingsSet fun _ => plain_settingsSet

theorem plain_settingsGetAll : SettingsService.getAll.Uses Op.plain := by
  refine Uses.bind (plain_execute rfl) fun rows => ?_
  induction rows with
  | nil => exact uses_pure _
  | cons r rows ih =>
    refine Uses.bind ?_ fun v => Uses.bind ih fun _ => uses_pure _
    unfold SqlSettingsRepository.valueOf
    split <;> simp

theorem plain_machineCreate {fields : MachineFields} :
    (SqlMachineRepository.create fields).Uses Op.plain :=
  Uses.bind (plain_execute rfl) fun _ => plain_execute rfl

theorem plain_createAdmin {username password : String} :
    (AuthService.createAdmin username password).Uses Op.plain := by
  refine Uses.bind (Uses.bind (plain_execute rfl) fun _ => uses_pure _) fun found => ?_
  split
  · simp
  · refine Uses.bind (plain_await trivial) fun _ => ?_
    exact Uses.bind (plain_execute rfl) fun _ => plain_execute rfl

variable {P : Platform}

theorem plain_openSession {user : User} {password : String} {ip userAgent : Option String} :
    (AuthService.openSession P user password ip userAgent).Uses Op.plain := by
  refine Uses.bind ?_ fun _ => ?_
  · unfold AuthService.rehash
    split
    · exact Uses.bind (plain_await trivial) fun _ => plain_execute (encodable_text user.id)
    · exact uses_pure _
  · refine Uses.bind (plain_await trivial) fun _ => Uses.bind (plain_await trivial) fun _ => ?_
    refine Uses.bind (Uses.bind (plain_execute rfl) fun _ => plain_execute rfl) fun _ => ?_
    exact Uses.bind (plain_execute (encodable_text user.id)) fun _ => uses_pure _

theorem plain_login {username password : String} {ip userAgent : Option String} :
    (AuthService.login P username password ip userAgent).Uses Op.plain := by
  refine Uses.bind (plain_execute rfl) fun found => ?_
  cases found with
  | none => exact uses_raise _
  | some user =>
    refine Uses.bind ?_ fun verified => ?_
    · unfold verifyPassword
      split <;> simp
    · split
      · exact plain_openSession
      · exact uses_raise _

theorem plain_createApiToken {name userId : String} {machineId : Option String} :
    (AuthService.createApiToken P name userId machineId).Uses Op.plain := by
  refine Uses.bind (Uses.bind (plain_await trivial) fun _ => Uses.bind (plain_await trivial)
    fun _ => uses_pure _) fun token => ?_
  exact Uses.bind (Uses.bind (plain_execute rfl) fun _ => plain_execute rfl) fun _ => uses_pure _

/-- A cookie that the driver can encode. -/
theorem plain_validateSession {cookie : String} (h : (Uuid.parse? cookie).isSome = true) :
    (AuthService.validateSession cookie).Uses Op.plain := by
  refine Uses.bind (plain_guardUuid (plain_execute h)) fun found => ?_
  cases found with
  | none => exact uses_raise _
  | some session =>
    dsimp only
    split
    · exact uses_raise _
    · refine Uses.bind (plain_await trivial) fun now => ?_
      split
      · exact uses_raise _
      · refine Uses.bind (plain_guardUuid (plain_execute (encodable_text session.userId)))
          fun user => ?_
        cases user <;> simp

theorem plain_getCsrf {req : Request} (h : (Uuid.parse? (req.cookie.getD "")).isSome = true) :
    (Web.getCsrf req).Uses Op.plain := by
  unfold Web.getCsrf
  dsimp only
  split
  · exact uses_pure _
  · exact Uses.tryCatch (Uses.bind (plain_validateSession h) fun _ => plain_await trivial)
      fun _ => uses_pure _

end Plain

end WolMonkey
