import WolMonkey.Facts.Wakes

/-!
# Reading a session and a machine

When the operations that only read return, as equivalences: the rows they find, the inputs
at their positions, and the state after them (`Solo.skip`). `runs_csrfProtectedUser_iff` says
so of the guard of the mutating routes.
-/

namespace WolMonkey

open Programs Program

/-- The state when `k` inputs have been taken. -/
def Solo.skip (s : Solo) (k : Nat) : Solo := ⟨s.shared, s.store, fun n => s.inputs (k + n)⟩

@[simp] theorem Solo.skip_view (s : Solo) (k : Nat) : (s.skip k).view = s.view := rfl

@[simp] theorem Solo.skip_input (s : Solo) (k : Nat) : (s.skip k).inputs 0 = s.inputs k := rfl

theorem Solo.skip_skip (s : Solo) (k l : Nat) : (s.skip k).skip l = s.skip (k + l) := by
  simp only [Solo.skip, Nat.add_assoc]

theorem Solo.skip_one (s : Solo) :
    s.skip 1 = ⟨s.shared, s.store, fun n => s.inputs (n + 1)⟩ := by
  simp only [Solo.skip, Nat.add_comm 1]

section Reading
variable {P : Platform} {s s' : Solo}

theorem Stmt.inserts_of_effect {st : Stmt} (h : st.effect = none) : st.inserts = false := by
  cases st <;> first | rfl | cases h

/-- A statement without an effect leaves everything as it was. -/
theorem Solo.ran_eq_skip {st : Stmt} {r : Executed st} {inp : Input} {locked : List Uuid}
    {db : Database} (heffect : st.effect = none) (hrun : st.run P inp locked db = .ok r)
    (s : Solo) : s.ran r = s.skip 1 := by
  have hwrites : r.writes = [] := List.eq_nil_iff_forall_not_mem.mpr fun w hw =>
    nomatch heffect.symm.trans (Stmt.run_effect r hrun w hw)
  have hlocks : r.locks = [] := Stmt.run_locks (by rw [heffect]; exact nofun) r hrun
  rcases s with ⟨shared, ⟨main, queue⟩, inputs⟩
  simp only [Solo.ran, Solo.skip_one, Stmt.inserts_of_effect heffect, hwrites, hlocks,
    List.append_nil, Store.setTx, Bool.false_eq_true, if_false]

/-- When a statement that only reads returns. -/
theorem runs_reads_iff {st : Stmt} {a : st.Answer} (heffect : st.effect = none) :
    (execute .main st).Runs (soloExec P) s a s' ↔
      s.store.main.status = .active ∧ (s.inputs 0).fault = none ∧
        (∃ r, st.run P (s.inputs 0) (lockedJobs [] s.store .main) s.view = .ok r ∧
          a = r.answer) ∧ s' = s.skip 1 := by
  rw [runs_execute_iff]
  constructor
  · rintro ⟨hactive, hfault, r, hrun, ha, hs'⟩
    rw [Solo.ran_eq_skip heffect hrun] at hs'
    exact ⟨hactive, hfault, ⟨r, hrun, ha⟩, hs'⟩
  · rintro ⟨hactive, hfault, ⟨r, hrun, ha⟩, hs'⟩
    rw [← Solo.ran_eq_skip heffect hrun] at hs'
    exact ⟨hactive, hfault, r, hrun, ha, hs'⟩

theorem runs_guardUuid_some {α : Type} {value : String} {a : α} {query : Code (Option α)} :
    (guardUuid value none query).Runs (soloExec P) s (some a) s' ↔
      isValidUuid value = true ∧ query.Runs (soloExec P) s (some a) s' := by
  unfold guardUuid
  split
  · rename_i hvalid
    exact ⟨fun h => ⟨hvalid, h⟩, And.right⟩
  · rename_i hvalid
    rw [runs_pure]
    exact ⟨fun h => (nomatch h.1), fun h => absurd h.1 hvalid⟩

/-- When a machine is found. -/
theorem runs_machineGetById_iff {machineId : String} {m : Machine} :
    (SqlMachineRepository.getById machineId).Runs (soloExec P) s (some m) s' ↔
      s.store.main.status = .active ∧ (s.inputs 0).fault = none ∧
        s.view.machine? machineId = some m ∧ s' = s.skip 1 := by
  unfold SqlMachineRepository.getById
  rw [runs_guardUuid_some, runs_reads_iff rfl, machine?_eq_some]
  simp only [Stmt.run, bind_eq_ok, uuidParam_eq_ok, pure_eq_ok]
  constructor
  · rintro ⟨hvalid, hactive, hfault, ⟨r, ⟨id, hid, rfl⟩, hm⟩, hs'⟩
    exact ⟨hactive, hfault, ⟨hvalid, id, hid, hm.symm⟩, hs'⟩
  · rintro ⟨hactive, hfault, ⟨hvalid, id, hid, hm⟩, hs'⟩
    exact ⟨hvalid, hactive, hfault, ⟨_, ⟨id, hid, rfl⟩, hm.symm⟩, hs'⟩

theorem runs_sessionGetById_iff {sessionId : String} {session : Session} :
    (SqlSessionRepository.getById sessionId).Runs (soloExec P) s (some session) s' ↔
      s.store.main.status = .active ∧ (s.inputs 0).fault = none ∧
        (∃ id, Uuid.parse? sessionId = some id ∧
          s.view.sessions.find? (·.id == id) = some session) ∧ s' = s.skip 1 := by
  unfold SqlSessionRepository.getById
  rw [runs_guardUuid_some, runs_reads_iff rfl]
  simp only [Stmt.run, bind_eq_ok, uuidParam_eq_ok, pure_eq_ok]
  constructor
  · rintro ⟨-, hactive, hfault, ⟨r, ⟨id, hid, rfl⟩, hrow⟩, hs'⟩
    exact ⟨hactive, hfault, ⟨id, hid, hrow.symm⟩, hs'⟩
  · rintro ⟨hactive, hfault, ⟨id, hid, hrow⟩, hs'⟩
    exact ⟨isValidUuid_of_parse? hid, hactive, hfault, ⟨_, ⟨id, hid, rfl⟩, hrow.symm⟩, hs'⟩

theorem runs_userGetById_iff {id : Uuid} {user : User} :
    (SqlUserRepository.getById id.text).Runs (soloExec P) s (some user) s' ↔
      s.store.main.status = .active ∧ (s.inputs 0).fault = none ∧
        s.view.users.find? (·.id == id) = some user ∧ s' = s.skip 1 := by
  unfold SqlUserRepository.getById
  rw [runs_guardUuid_some, runs_reads_iff rfl]
  simp only [Stmt.run, bind_eq_ok, uuidParam_eq_ok, pure_eq_ok, Uuid.parse?_text]
  constructor
  · rintro ⟨-, hactive, hfault, ⟨r, ⟨u, hu, rfl⟩, hrow⟩, hs'⟩
    cases hu
    exact ⟨hactive, hfault, hrow.symm, hs'⟩
  · rintro ⟨hactive, hfault, hrow, hs'⟩
    exact ⟨isValidUuid_text id, hactive, hfault, ⟨_, ⟨id, rfl, rfl⟩, hrow.symm⟩, hs'⟩

theorem runs_now_iff {t : DateTime} :
    (await .now).Runs (soloExec P) s t s' ↔ t = (s.inputs 0).now ∧ s' = s.skip 1 := by
  unfold await
  rw [runs_perform, Solo.skip_one]
  constructor
  · intro h
    exact ⟨(Except.ok.inj (congrArg Prod.fst h)).symm, (congrArg Prod.snd h).symm⟩
  · rintro ⟨rfl, rfl⟩
    rfl

/-- When a session is validated: exactly when it is live and no call fails. -/
theorem runs_validateSession_iff {cookie : String} {session : Session} {user : User} :
    (AuthService.validateSession cookie).Runs (soloExec P) s (session, user) s' ↔
      s.store.main.status = .active ∧ (s.inputs 0).fault = none ∧ (s.inputs 2).fault = none ∧
        LiveSession s.view (s.inputs 1).now cookie session user ∧ s' = s.skip 3 := by
  constructor
  · intro h
    obtain ⟨found, s₁, hget, h⟩ := runs_bind.mp h
    cases found with
    | none => exact (runs_raise.mp h).elim
    | some row =>
      obtain ⟨hactive, hfault₀, ⟨id, hid, hrow⟩, rfl⟩ := runs_sessionGetById_iff.mp hget
      dsimp only at h
      split at h
      · exact (runs_raise.mp h).elim
      rename_i hrevoked
      obtain ⟨now, s₂, hnow, h⟩ := runs_bind.mp h
      obtain ⟨rfl, rfl⟩ := runs_now_iff.mp hnow
      split at h
      · exact (runs_raise.mp h).elim
      rename_i hexpires
      obtain ⟨found, s₃, huser, h⟩ := runs_bind.mp h
      cases found with
      | none => exact (runs_raise.mp h).elim
      | some row' =>
        obtain ⟨-, hfault₂, hrow', rfl⟩ := runs_userGetById_iff.mp huser
        obtain ⟨hpair, rfl⟩ := runs_pure.mp h
        cases hpair
        simp only [Solo.skip_skip, Solo.skip_input, Solo.skip_view] at hexpires hfault₂ hrow'
        exact ⟨hactive, hfault₀, hfault₂, ⟨id, hid, hrow, by simpa using hrevoked,
          Int.not_lt.mp hexpires, hrow'⟩, by rw [Solo.skip_skip, Solo.skip_skip]⟩
  · rintro ⟨hactive, hfault₀, hfault₂, ⟨id, hid, hrow, hrevoked, hexpires, huser⟩, rfl⟩
    refine runs_bind.mpr ⟨some session, s.skip 1,
      runs_sessionGetById_iff.mpr ⟨hactive, hfault₀, ⟨id, hid, hrow⟩, rfl⟩, ?_⟩
    simp only [hrevoked, Bool.false_eq_true, if_false]
    refine runs_bind.mpr ⟨(s.inputs 1).now, s.skip 2, runs_now_iff.mpr ⟨?_, ?_⟩, ?_⟩
    · rw [Solo.skip_input]
    · rw [Solo.skip_skip]
    rw [if_neg (Int.not_lt.mpr hexpires)]
    refine runs_bind.mpr ⟨some user, s.skip 3, runs_userGetById_iff.mpr ⟨hactive, ?_, huser, ?_⟩,
      runs_pure.mpr ⟨rfl, rfl⟩⟩
    · rwa [Solo.skip_input]
    · rw [Solo.skip_skip]

theorem runs_csrfLoads_iff {token : String} {data : Option (String × String)} :
    (await (.csrfLoads token)).Runs (soloExec P) s data s' ↔
      data = P.csrfLoads (s.inputs 0).now token ∧ s' = s.skip 1 := by
  unfold await
  rw [runs_perform, Solo.skip_one]
  constructor
  · intro h
    exact ⟨(Except.ok.inj (congrArg Prod.fst h)).symm, (congrArg Prod.snd h).symm⟩
  · rintro ⟨rfl, rfl⟩
    rfl

/-- When the CSRF check lets a session through. -/
theorem runs_requireCsrf_iff {req : Request} {session : Session} {u : Unit} :
    (requireCsrf req session).Runs (soloExec P) s u s' ↔
      req.csrfToken ≠ "" ∧ P.csrfLoads (s.inputs 0).now req.csrfToken =
        some (session.id.text, session.csrfSecret) ∧ s' = s.skip 1 := by
  unfold requireCsrf
  split
  · rename_i hempty
    rw [runs_raise]
    exact ⟨False.elim, fun h => absurd (by simpa using hempty) h.1⟩
  rename_i hne
  constructor
  · intro h
    obtain ⟨ok, s₁, hvalid, h⟩ := runs_bind.mp h
    obtain ⟨data, s₂, hloads, hdata⟩ := runs_bind.mp hvalid
    obtain ⟨rfl, rfl⟩ := runs_csrfLoads_iff.mp hloads
    obtain ⟨rfl, rfl⟩ := runs_pure.mp hdata
    split at h
    · rename_i hok
      obtain ⟨-, rfl⟩ := runs_pure.mp h
      exact ⟨by simpa using hne, of_decide_eq_true hok, rfl⟩
    · exact (runs_raise.mp h).elim
  · rintro ⟨-, hdata, rfl⟩
    refine runs_bind.mpr ⟨true, s.skip 1, runs_bind.mpr ⟨_, s.skip 1,
      runs_csrfLoads_iff.mpr ⟨rfl, rfl⟩, runs_pure.mpr ⟨?_, rfl⟩⟩, runs_pure.mpr ⟨rfl, rfl⟩⟩
    exact decide_eq_true hdata

/-- When a request gets past its session and its CSRF token, as operations 0 to 3. -/
theorem runs_csrfProtectedUser_iff {req : Request} {user : User} :
    (csrfProtectedUser req).Runs (soloExec P) s user s' ↔
      s.store.main.status = .active ∧ (s.inputs 0).fault = none ∧ (s.inputs 2).fault = none ∧
        req.csrfToken ≠ "" ∧ (∃ cookie session, req.cookie = some cookie ∧
          LiveSession s.view (s.inputs 1).now cookie session user ∧
          P.csrfLoads (s.inputs 3).now req.csrfToken =
            some (session.id.text, session.csrfSecret)) ∧ s' = s.skip 4 := by
  unfold csrfProtectedUser getCurrentSessionAndUser
  constructor
  · intro h
    obtain ⟨⟨session, user'⟩, s₁, hsession, h⟩ := runs_bind.mp h
    obtain ⟨u, s₂, hcsrf, h⟩ := runs_bind.mp h
    obtain ⟨rfl, rfl⟩ := runs_pure.mp h
    split at hsession
    · exact (runs_raise.mp hsession).elim
    rename_i cookie hcookie
    rcases runs_tryCatch.mp hsession with hsession | ⟨e, s₃, -, hraise⟩
    swap
    · exact (runs_raise.mp hraise).elim
    obtain ⟨hactive, hfault₀, hfault₂, hlive, rfl⟩ := runs_validateSession_iff.mp hsession
    obtain ⟨hne, hloads, rfl⟩ := runs_requireCsrf_iff.mp hcsrf
    rw [Solo.skip_input] at hloads
    exact ⟨hactive, hfault₀, hfault₂, hne, ⟨cookie, session, hcookie, hlive, hloads⟩,
      by rw [Solo.skip_skip]⟩
  · rintro ⟨hactive, hfault₀, hfault₂, hne, ⟨cookie, session, hcookie, hlive, hloads⟩, rfl⟩
    rw [hcookie]
    refine runs_bind.mpr ⟨(session, user), s.skip 3, runs_tryCatch.mpr (.inl
      (runs_validateSession_iff.mpr ⟨hactive, hfault₀, hfault₂, hlive, rfl⟩)), ?_⟩
    refine runs_bind.mpr ⟨(), s.skip 4, runs_requireCsrf_iff.mpr ⟨hne, ?_, ?_⟩,
      runs_pure.mpr ⟨rfl, rfl⟩⟩
    · rwa [Solo.skip_input]
    · rw [Solo.skip_skip]

end Reading

end WolMonkey
