import WolMonkey.Facts.Sessions

/-!
# Requests that nothing disturbs

What a request that runs alone does when none of its database calls fails: the statements
that the database accepts return, and their changes join the transaction. `Solo.At` is the
state between two operations of such a request.
-/

namespace WolMonkey

open Programs Program

/-- Both sessions are open, with these changes; the inputs are still those of the request. -/
structure Solo.At (inputs : Nat → Input) (db : Database) (main queue : List Write) (s : Solo) :
    Prop where
  db : s.shared.db = db
  store : s.store = ⟨{ writes := main }, { writes := queue }⟩
  later : ∃ k, ∀ n, s.inputs n = inputs (k + n)

theorem Solo.at_init (inputs : Nat → Input) (sh : Shared) :
    (Solo.init inputs sh).At inputs sh.db [] [] :=
  ⟨rfl, rfl, 0, fun n => by rw [Nat.zero_add]; rfl⟩

section Steps
variable {P : Platform} {inputs : Nat → Input} {db : Database} {main queue : List Write} {s : Solo}

theorem Solo.At.input (h : s.At inputs db main queue) : ∃ k, s.inputs 0 = inputs k ∧
    ∀ n, s.inputs (n + 1) = inputs (k + 1 + n) := by
  obtain ⟨k, hk⟩ := h.later
  exact ⟨k, hk 0, fun n => by rw [hk]; congr 1; omega⟩

section Statements
variable {st : Stmt} {r : Input → Executed st} (hfault : ∀ n, (inputs n).fault = none)
  (hlocks : ∀ n, (r (inputs n)).locks = [])
include hfault hlocks

/-- A statement of the work session that the database accepts. -/
theorem Solo.At.execute (h : s.At inputs db main queue)
    (hrun : ∀ n locked, st.run P (inputs n) locked (db.after main) = .ok (r (inputs n))) :
    (execute .main st).Completes (soloExec P) s fun a s' => ∃ n, a = (r (inputs n)).answer ∧
      s'.At inputs db (main ++ (r (inputs n)).writes) queue := by
  obtain ⟨k, hinput, hlater⟩ := h.input
  have hview : s.view = db.after main := by rw [Solo.view, h.db, h.store]
  have hactive : s.store.main.status = .active := by rw [h.store]
  have hran := runs_execute_iff (P := P).mpr ⟨hactive, by rw [hinput]; exact hfault k,
    r (inputs k), by rw [hinput, hview]; exact hrun k _, rfl, rfl⟩
  refine ⟨_, _, hran, k, rfl, (s.ran_db _).trans h.db, ?_, k + 1, hlater⟩
  simp only [Solo.ran, h.store, Store.setTx, hlocks, List.append_nil]

/-- The same in the session of the job queue. -/
theorem Solo.At.executeQueue (h : s.At inputs db main queue)
    (hrun : ∀ n locked, st.run P (inputs n) locked (db.after queue) = .ok (r (inputs n))) :
    (WolMonkey.execute .queue st).Completes (soloExec P) s fun a s' =>
      ∃ n, a = (r (inputs n)).answer ∧
        s'.At inputs db main (queue ++ (r (inputs n)).writes) := by
  obtain ⟨k, hinput, hlater⟩ := h.input
  have hexec : executeStmt P .queue st (s.inputs 0) [] s.shared s.store =
      (.ok (r (inputs k)).answer,
        ⟨{ writes := main }, { writes := queue ++ (r (inputs k)).writes }⟩) := by
    simp only [executeStmt, h.store, h.db, Store.tx, hinput, hfault, hrun, Store.setTx, hlocks,
      List.append_nil]
  refine completes_perform (a := (r (inputs k)).answer) ?_ ⟨k, rfl, ?_, ?_, k + 1, hlater⟩
  · simp only [soloExec, executeOp, hexec]
  · have hdb : (soloExec P (.stmt .queue st) s).2.shared.db = s.shared.db :=
      executeOp_db (by simp)
    exact hdb.trans h.db
  · simp only [soloExec, executeOp, hexec]

end Statements

/-- An operation beside the database that answers. -/
theorem Solo.At.ask (h : s.At inputs db main queue) (op : Op) (a : Input → op.Answer)
    (hanswer : ∀ inp sh st, executeOp P op inp [] sh st = (.ok (a inp), sh, st)) :
    (await op).Completes (soloExec P) s fun b s' => ∃ n, b = a (inputs n) ∧
      s'.At inputs db main queue := by
  obtain ⟨k, hinput, hlater⟩ := h.input
  refine completes_perform (a := a (inputs k)) ?_ ⟨k, rfl, ?_, ?_, k + 1, hlater⟩
  · simp only [soloExec, hanswer, hinput]
  · simp only [soloExec, hanswer, h.db]
  · simp only [soloExec, hanswer, h.store]

/-- Committing the work session. -/
theorem Solo.At.commit (h : s.At inputs db main queue) (hfault : ∀ n, (inputs n).fault = none) :
    (await (.commit .main)).Completes (soloExec P) s fun _ s' =>
      s'.At inputs (db.after main) [] queue := by
  obtain ⟨k, hinput, hlater⟩ := h.input
  have hexec : executeCommit .main (s.inputs 0) s.shared s.store =
      (.ok (), { s.shared with db := db.after main }, ⟨{}, { writes := queue }⟩) := by
    simp only [executeCommit, h.store, h.db, Store.tx, hinput, hfault, Store.setTx]
  refine completes_perform (a := ()) ?_ ⟨?_, ?_, k + 1, hlater⟩
  · simp only [soloExec, executeOp, hexec]
  · simp only [soloExec, executeOp, hexec]
  · simp only [soloExec, executeOp, hexec]

/-- Committing the session of the job queue. -/
theorem Solo.At.commitQueue (h : s.At inputs db main queue)
    (hfault : ∀ n, (inputs n).fault = none) :
    (await (.commit .queue)).Completes (soloExec P) s fun _ s' =>
      s'.At inputs (db.after queue) main [] := by
  obtain ⟨k, hinput, hlater⟩ := h.input
  have hexec : executeCommit .queue (s.inputs 0) s.shared s.store =
      (.ok (), { s.shared with db := db.after queue }, ⟨{ writes := main }, {}⟩) := by
    simp only [executeCommit, h.store, h.db, Store.tx, hinput, hfault, Store.setTx]
  refine completes_perform (a := ()) ?_ ⟨?_, ?_, k + 1, hlater⟩
  · simp only [soloExec, executeOp, hexec]
  · simp only [soloExec, executeOp, hexec]
  · simp only [soloExec, executeOp, hexec]

/-- Closing a session whose changes are committed. -/
theorem Solo.At.close (slot : Slot) (h : s.At inputs db [] []) :
    (await (.close slot)).Completes (soloExec P) s fun _ s' => s'.At inputs db [] [] := by
  obtain ⟨k, hinput, hlater⟩ := h.input
  refine completes_perform (a := ()) rfl ⟨h.db, ?_, k + 1, hlater⟩
  simp only [soloExec, executeOp, h.store]
  cases slot <;> rfl

end Steps

/-! ## Reading -/

section Reading
variable {P : Platform} {inputs : Nat → Input} {db : Database} {main queue : List Write} {s : Solo}

theorem completes_guardUuid {α : Type} {value : String} {u : Uuid} {absent : α} {query : Code α}
    {Q : α → Solo → Prop} (hvalue : Uuid.parse? value = some u)
    (h : query.Completes (soloExec P) s Q) :
    (guardUuid value absent query).Completes (soloExec P) s Q := by
  unfold guardUuid
  rw [if_pos (isValidUuid_of_parse? hvalue)]
  exact h

variable (hfault : ∀ n, (inputs n).fault = none)
include hfault

/-- A statement that reads, whatever its input is. -/
theorem Solo.At.read {st : Stmt} {a : st.Answer} (h : s.At inputs db main queue)
    (hrun : ∀ inp locked, st.run P inp locked (db.after main) = .ok ⟨a, [], []⟩) :
    (WolMonkey.execute .main st).Completes (soloExec P) s fun b s' => b = a ∧
      s'.At inputs db main queue := by
  refine (h.execute (r := fun _ => ⟨a, [], []⟩) hfault (fun _ => rfl)
    fun n locked => hrun (inputs n) locked).mono ?_
  rintro b s' ⟨n, hb, hs'⟩
  rw [List.append_nil] at hs'
  exact ⟨hb, hs'⟩

theorem completes_machineGetById {machineId : String} {id : Uuid} (h : s.At inputs db main queue)
    (hid : Uuid.parse? machineId = some id) :
    (SqlMachineRepository.getById machineId).Completes (soloExec P) s fun found s' =>
      found = (db.after main).machines.find? (·.id == id) ∧ s'.At inputs db main queue := by
  refine completes_guardUuid hid (h.read hfault fun inp locked => ?_)
  simp only [Stmt.run, uuidParam_eq_ok.mpr hid]
  rfl

/-- A live session is validated. -/
theorem completes_validateSession {cookie : String} {session : Session} {user : User}
    (h : s.At inputs db main queue)
    (hlive : ∀ n, LiveSession (db.after main) (inputs n).now cookie session user) :
    (AuthService.validateSession cookie).Completes (soloExec P) s fun a s' =>
      a = (session, user) ∧ s'.At inputs db main queue := by
  obtain ⟨id, hid, hrow, hrevoked, -, huser⟩ := hlive 0
  refine Completes.bind (Q := fun found s' => found = some session ∧ s'.At inputs db main queue)
    (completes_guardUuid hid (h.read hfault fun inp locked => ?_)) ?_
  · simp only [Stmt.run, uuidParam_eq_ok.mpr hid, ← hrow]
    rfl
  rintro found s₁ ⟨rfl, h₁⟩
  simp only [hrevoked, Bool.false_eq_true, if_false]
  refine (h₁.ask .now (fun inp => inp.now) fun _ _ _ => rfl).bind ?_
  rintro now s₂ ⟨n, rfl, h₂⟩
  have hexpires : ¬ session.expiresAt < (inputs n).now := Int.not_lt.mpr (hlive n).choose_spec.2.2.2.1
  rw [if_neg hexpires]
  refine Completes.bind (Q := fun found s' => found = some user ∧ s'.At inputs db main queue)
    (completes_guardUuid (Uuid.parse?_text session.userId)
      (h₂.read hfault fun inp locked => ?_)) ?_
  · simp only [Stmt.run, uuidParam_eq_ok.mpr (Uuid.parse?_text session.userId), ← huser]
    rfl
  rintro found s₃ ⟨rfl, h₃⟩
  exact completes_pure ⟨rfl, h₃⟩

/-- A live session with its CSRF token is let through. -/
theorem completes_csrfProtectedUser {req : Request} {cookie : String} {session : Session}
    {user : User} (h : s.At inputs db main queue) (hcookie : req.cookie = some cookie)
    (hlive : ∀ n, LiveSession (db.after main) (inputs n).now cookie session user)
    (htoken : req.csrfToken ≠ "")
    (hcsrf : ∀ n, P.csrfLoads (inputs n).now req.csrfToken =
      some (session.id.text, session.csrfSecret)) :
    (csrfProtectedUser req).Completes (soloExec P) s fun u s' =>
      u = user ∧ s'.At inputs db main queue := by
  unfold csrfProtectedUser getCurrentSessionAndUser
  rw [hcookie]
  refine (completes_validateSession hfault h hlive).tryCatch.bind ?_
  rintro _ s₁ ⟨rfl, h₁⟩
  have hne : ¬ (req.csrfToken == "") = true := by simpa using htoken
  simp only [requireCsrf, hne, if_false, Bool.false_eq_true, validateCsrfToken]
  refine Completes.bind (Q := fun _ s' => s'.At inputs db main queue) ?_
    fun _ s₂ h₂ => completes_pure ⟨rfl, h₂⟩
  refine Completes.bind (Q := fun ok s' => ok = true ∧ s'.At inputs db main queue) ?_ ?_
  · refine (h₁.ask (.csrfLoads req.csrfToken)
      (fun inp => P.csrfLoads inp.now req.csrfToken) fun _ _ _ => rfl).bind ?_
    rintro data s₂ ⟨n, rfl, h₂⟩
    exact completes_pure ⟨by rw [hcsrf n]; simp, h₂⟩
  · rintro ok s₂ ⟨rfl, h₂⟩
    exact completes_pure h₂

end Reading

/-! ## Looking up the session -/

/-- The operations by which a session is looked up. -/
def Op.looksUp : Op → Prop
  | .stmt .main (.sessionGet _) | .stmt .main (.userGet _) | .now => True
  | _ => False

section LookUp
variable {P : Platform} {inputs : Nat → Input} {db : Database} {main queue : List Write} {α : Type}

theorem looksUp_validateSession {cookie : String} :
    (AuthService.validateSession cookie).Uses Op.looksUp := by
  have hlookup : ∀ {op : Op}, op.looksUp → (await op).Uses Op.looksUp := fun h =>
    (uses_perform _).mpr h
  refine Uses.bind ?_ fun found => ?_
  · unfold SqlSessionRepository.getById guardUuid
    split
    · exact hlookup trivial
    · exact uses_pure _
  cases found with
  | none => exact uses_raise _
  | some session =>
    dsimp only
    split
    · exact uses_raise _
    refine Uses.bind (hlookup trivial) fun now => ?_
    split
    · exact uses_raise _
    refine Uses.bind ?_ fun user => ?_
    · unfold SqlUserRepository.getById guardUuid
      split
      · exact hlookup trivial
      · exact uses_pure _
    cases user <;> simp

theorem failsWith_validateSession {Q : PyExc → Prop} {cookie : String} (hQ : ∀ e, Q e) :
    FailsWith (soloExec P) Q (AuthService.validateSession cookie) := by
  have hexecute : ∀ {st : Stmt}, FailsWith (soloExec P) Q (execute .main st) :=
    failsWith_execute fun d => hQ _
  refine FailsWith.bind (failsWith_guardUuid hexecute) fun found => ?_
  cases found with
  | none => exact failsWith_raise (hQ _)
  | some session =>
    dsimp only
    split
    · exact failsWith_raise (hQ _)
    refine FailsWith.bind (failsWith_await fun s => ⟨_, rfl⟩) fun now => ?_
    split
    · exact failsWith_raise (hQ _)
    refine FailsWith.bind (failsWith_guardUuid hexecute) fun user => ?_
    cases user with
    | none => exact failsWith_raise (hQ _)
    | some user => exact failsWith_pure _

variable (hfault : ∀ n, (inputs n).fault = none)
include hfault

/-- Looking up a session disturbs nothing, whether it succeeds or not. -/
theorem at_looksUp {op : Op} {s : Solo} (hop : op.looksUp) (h : s.At inputs db main queue) :
    (soloExec P op s).2.At inputs db main queue := by
  obtain ⟨k, hinput, hlater⟩ := h.input
  have hfault' : (s.inputs 0).fault = none := by rw [hinput]; exact hfault k
  cases op with
  | now => exact ⟨h.db, h.store, k + 1, hlater⟩
  | stmt slot st =>
    cases slot with
    | queue => exact hop.elim
    | main =>
      have hdb : (soloExec P (.stmt .main st) s).2.shared.db = s.shared.db :=
        executeOp_db (by simp)
      have hsame : (⟨{ writes := main ++ [] }, { writes := queue }⟩ : Store) =
          ⟨{ writes := main }, { writes := queue }⟩ := by rw [List.append_nil]
      refine ⟨hdb.trans h.db, ?_, k + 1, hlater⟩
      cases st with
      | sessionGet id =>
        simp only [soloExec, executeOp, executeStmt, h.store, h.db, Store.tx, hfault', Stmt.run,
          uuidParam]
        cases Uuid.parse? id with
        | none => rfl
        | some u => exact hsame
      | userGet id =>
        simp only [soloExec, executeOp, executeStmt, h.store, h.db, Store.tx, hfault', Stmt.run,
          uuidParam]
        cases Uuid.parse? id with
        | none => rfl
        | some u => exact hsame
      | _ => exact hop.elim
  | _ => exact hop.elim

/-- Code that looks up sessions and never raises returns, and disturbs nothing. -/
theorem Solo.At.lookUp {p : Code α} {s : Solo} (h : s.At inputs db main queue)
    (hp : p.Uses Op.looksUp) (hnever : FailsWith (soloExec P) (fun _ => False) p) :
    p.Completes (soloExec P) s fun _ s' => s'.At inputs db main queue := by
  obtain ⟨a, s', hrun⟩ := exists_runs_of_failsWith hnever s
  have hat := hp.invariant (soloExec P) (fun s => s.At inputs db main queue)
    (fun _ _ hop h => at_looksUp hfault hop h) h
  rw [hrun] at hat
  exact ⟨a, s', hrun, hat⟩

/-- The page's guard returns, whoever is asking. -/
theorem completes_requireWebAuth (req : Request) {s : Solo} (h : s.At inputs db main queue) :
    (Web.requireWebAuth req).Completes (soloExec P) s fun _ s' => s'.At inputs db main queue := by
  unfold Web.requireWebAuth
  dsimp only
  split
  · exact completes_pure h
  · exact h.lookUp hfault
      (Uses.tryCatch (Uses.bind looksUp_validateSession fun _ => uses_pure _) fun _ => uses_pure _)
      (FailsWith.tryCatch (R := fun _ => True) (FailsWith.bind
        (failsWith_validateSession fun _ => trivial) fun _ => failsWith_pure _)
        fun _ _ => failsWith_pure _)

/-- The token for the page is found or left empty. -/
theorem completes_getCsrf (req : Request) {s : Solo} (h : s.At inputs db main queue) :
    (Web.getCsrf req).Completes (soloExec P) s fun _ s' => s'.At inputs db main queue := by
  unfold Web.getCsrf
  dsimp only
  split
  · exact completes_pure h
  have hlooks : (AuthService.validateSession (req.cookie.getD "")).Uses Op.looksUp :=
    looksUp_validateSession
  have hnever : FailsWith (soloExec P) (fun _ => True)
    (AuthService.validateSession (req.cookie.getD "")) := failsWith_validateSession fun _ => trivial
  have hat := hlooks.invariant (soloExec P) (fun s => s.At inputs db main queue)
    (fun _ _ hop h => at_looksUp hfault hop h) h
  rcases heval : (AuthService.validateSession (req.cookie.getD "")).eval (soloExec P) s with
    ⟨⟨session, user⟩ | e | _, s'⟩
  · rw [heval] at hat
    refine Completes.tryCatch (Completes.bind (Q := fun _ s' => s'.At inputs db main queue)
      ⟨(session, user), s', heval, hat⟩ fun a s₁ h₁ => ?_)
    exact (h₁.ask (.csrfDumps a.1.id.text a.1.csrfSecret)
      (fun inp => P.csrfDumps inp.now a.1.id.text a.1.csrfSecret) fun _ _ _ => rfl).mono
      fun _ _ ⟨_, _, h₂⟩ => h₂
  · rw [heval] at hat
    exact ⟨"", s', runs_tryCatch.mpr (.inr ⟨e, s', eval_bind_raised.mpr (.inl heval),
      runs_pure.mpr ⟨rfl, rfl⟩⟩), hat⟩
  · exact absurd (congrArg Prod.fst heval) (hnever s).1

end LookUp

/-! ## Requests -/

section Requests
variable {P : Platform} {inputs : Nat → Input} {α : Type}

/-- A request whose body returns is committed. -/
theorem completes_getDbSession {body : Code α} {s : Solo} {Q : α → Database → Prop}
    (hfault : ∀ n, (inputs n).fault = none)
    (h : body.Completes (soloExec P) s fun a s' => ∃ db main, s'.At inputs db main [] ∧
      Q a (db.after main)) :
    (getDbSession body).Completes (soloExec P) s fun a s' => ∃ db, s'.At inputs db [] [] ∧
      Q a db := by
  unfold getDbSession withSession
  refine Completes.bind (Q := fun a s' => ∃ db, s'.At inputs db [] [] ∧ Q a db)
    (Completes.tryCatch (Completes.tryCatch (h.bind ?_))) ?_
  · rintro a s₁ ⟨db, main, h₁, hQ⟩
    exact (h₁.commit hfault).bind fun _ s₂ h₂ => completes_pure ⟨_, h₂, hQ⟩
  · rintro a s₁ ⟨db, h₁, hQ⟩
    exact (h₁.close .main).bind fun _ s₂ h₂ => completes_pure ⟨db, h₂, hQ⟩

theorem completes_handle {req : Request} {s : Solo} {Q : Response → Solo → Prop}
    (h : (endpoint P req).Completes (soloExec P) s Q) :
    (handle P req).Completes (soloExec P) s Q := h.tryCatch

end Requests

end WolMonkey
