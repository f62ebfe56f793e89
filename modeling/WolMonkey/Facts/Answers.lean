import WolMonkey.Facts.Wakes

/-!
# Requests and their answers

What the response of a request says about the tables it leaves, when no database call
fails: a response that the endpoint returned stands for what its code saw at its end, and
a response that an exception became stands for no change at all.
-/

namespace WolMonkey

open Programs Program

/-- No database call of the request fails, and it is served at one instant. -/
def Calm (inputs : Nat → Input) : Prop :=
  ∀ n, (inputs n).fault = none ∧ (inputs n).now = (inputs 0).now

/-- The request changes nothing, and if it is answered, an exception became the response. -/
structure Rejected (P : Platform) (req : Request) (inputs : Nat → Input) (sh : Shared) : Prop where
  db : (serve P req inputs sh).db = sh.db
  response : ∀ r, WolMonkey.response P req inputs sh = some r → ∃ e, r = errorResponse req.route e

/-- The tables that a request leaves whose code ended in a state: what the code saw, or what
was there before; the latter only if its transaction failed. -/
structure Solo.Leaves (before : Database) (s : Solo) (after : Database) : Prop where
  either : after = before ∨ after = s.view
  active : s.store.main.status = .active → after = s.view

/-- Code that only read leaves what was there before. -/
theorem Solo.Leaves.same {before after : Database} {s : Solo} (h : s.Leaves before after)
    (hview : s.view = before) : after = before := by
  rcases h.either with h | h
  · exact h
  · exact h.trans hview

section Answers
variable {P : Platform} {req : Request} {inputs : Nat → Input} {sh : Shared}

theorem response_eq (P : Platform) (req : Request) (inputs : Nat → Input) (sh : Shared) :
    response P req inputs sh =
      match ((endpoint P req).eval (soloExec P) (Solo.init inputs sh)).1 with
      | .value r => some r
      | .raised e => some (errorResponse req.route e)
      | .stuck => none := by
  unfold response runSolo handle respond
  rw [eval_tryCatch]
  rcases heval : (endpoint P req).eval (soloExec P) (Solo.init inputs sh) with ⟨r | e | _, s'⟩
  · simp only [heval]
  · simp only [heval]
    rfl
  · simp only [heval]

theorem response_of_runs {r : Response} {s' : Solo}
    (h : (endpoint P req).Runs (soloExec P) (Solo.init inputs sh) r s') :
    response P req inputs sh = some r ∧ serve P req inputs sh = s'.shared := by
  have heval : (endpoint P req).eval (soloExec P) (Solo.init inputs sh) = (.value r, s') := h
  rw [response_eq, serve_eq, heval]
  exact ⟨rfl, rfl⟩

/-- A request whose endpoint does not return is rejected, if it leaves the tables. -/
theorem rejected_of_not_runs
    (h : ∀ r s', ¬ (endpoint P req).Runs (soloExec P) (Solo.init inputs sh) r s')
    (hdb : (serve P req inputs sh).db = sh.db) : Rejected P req inputs sh := by
  refine ⟨hdb, fun r hr => ?_⟩
  rw [response_eq] at hr
  rcases heval : (endpoint P req).eval (soloExec P) (Solo.init inputs sh) with ⟨r' | e | _, s'⟩
  · exact (h r' s' heval).elim
  · rw [heval] at hr
    cases hr
    exact ⟨e, rfl⟩
  · rw [heval] at hr
    cases hr

/-! ## Refusals -/

/-- The exception becomes a response with an error status. -/
def PyExc.Refuses (e : PyExc) : Prop :=
  ∀ status detail headers, e = .http status detail headers → 400 ≤ status

theorem status_errorResponse {e : PyExc} (h : e.Refuses) (route : Route) :
    400 ≤ (errorResponse route e).status := by
  unfold errorResponse
  split
  · split
    · simp
    · simp [errorPage]
  · exact h _ _ _ rfl
  · simp
  · simp [errorPage]

theorem refuses_database (d : DbError) : (PyExc.database d).Refuses := nofun

theorem refuses_http {status : Nat} {detail : String} {headers : List (String × String)}
    (h : 400 ≤ status) : (PyExc.http status detail headers).Refuses := by
  intro s d hs heq
  cases heq
  exact h

/-- An endpoint that can only fail with an error status and does not return is refused. -/
theorem refused_of_not_runs (hfails : FailsWith (soloExec P) PyExc.Refuses (endpoint P req))
    (h : ∀ r s', ¬ (endpoint P req).Runs (soloExec P) (Solo.init inputs sh) r s') :
    ∃ r, response P req inputs sh = some r ∧ 400 ≤ r.status := by
  have hs := hfails (Solo.init inputs sh)
  rw [response_eq]
  rcases heval : (endpoint P req).eval (soloExec P) (Solo.init inputs sh) with ⟨r | e | _, s'⟩
  · exact (h r s' heval).elim
  · exact ⟨errorResponse req.route e, by rw [heval], status_errorResponse (hs.2 e s' heval) _⟩
  · exact (hs.1 (by rw [heval])).elim

/-! ## Sessions of calm requests -/

variable {es : List Effect}

/-- A body that returns in an active transaction is committed. -/
theorem exists_runs_getDbSession {α : Type} {body : Code α} {s s' : Solo} {a : α}
    (hrun : body.Runs (soloExec P) s a s') (hactive : s'.store.main.status = .active)
    (hfault : (s'.inputs 0).fault = none) :
    ∃ s'', (getDbSession body).Runs (soloExec P) s a s'' := by
  let s₁ : Solo := ⟨{ s'.shared with db := s'.view }, s'.store.setTx .main {},
    fun n => s'.inputs (n + 1)⟩
  have hcommit : (await (.commit .main)).Runs (soloExec P) s' () s₁ :=
    (runs_commit_iff hactive).mpr ⟨hfault, rfl⟩
  have hclose : (await (.close .main)).Runs (soloExec P) s₁ () (soloExec P (.close .main) s₁).2 :=
    runs_perform.mpr rfl
  refine ⟨_, runs_bind.mpr ⟨a, s₁, ?_, runs_bind.mpr ⟨(), _, hclose, runs_pure.mpr ⟨rfl, rfl⟩⟩⟩⟩
  refine runs_tryCatch.mpr (.inl (runs_tryCatch.mpr (.inl ?_)))
  exact runs_bind.mpr ⟨a, s', hrun, runs_bind.mpr ⟨(), s₁, hcommit, runs_pure.mpr ⟨rfl, rfl⟩⟩⟩

/-- A request in `get_db_session`: its body returned the response, or it is rejected. -/
theorem answered_getDbSession (es) {body : Code Response} (hend : endpoint P req = getDbSession body)
    (hb : body.Uses (Within es)) (hc : .commit ∉ es) (hcalm : Calm inputs) :
    (∃ r s', body.Runs (soloExec P) (Solo.init inputs sh) r s' ∧
      response P req inputs sh = some r ∧
      s'.Leaves sh.db (serve P req inputs sh).db) ∨
    Rejected P req inputs sh := by
  by_cases hruns : ∃ r s', (endpoint P req).Runs (soloExec P) (Solo.init inputs sh) r s'
  · obtain ⟨r, s', hrun⟩ := hruns
    obtain ⟨hr, hserve⟩ := response_of_runs hrun
    rw [hend] at hrun
    obtain ⟨s₁, hbody, hview⟩ := runs_getDbSession_view hrun
    refine .inl ⟨r, s₁, hbody, hr, ?_, fun hactive => by rw [hserve, hview hactive]⟩
    rw [serve_eq, hend]
    rcases getDbSession_db (P := P) hb hc (Solo.init inputs sh) with h | ⟨r', s₂, hbody', -, h⟩
    · exact .inl h
    · have hsame : (Outcome.value r', s₂) = (Outcome.value r, s₁) := hbody'.symm.trans hbody
      cases hsame
      exact .inr h
  · refine .inr (rejected_of_not_runs (fun r s' h => hruns ⟨r, s', h⟩) ?_)
    rw [serve_eq, hend]
    rcases getDbSession_db (P := P) hb hc (Solo.init inputs sh) with h | ⟨r, s', hrun, hactive, -⟩
    · exact h
    · obtain ⟨k, hk⟩ := Runs.later hrun
      have hfault : (s'.inputs 0).fault = none := by
        rw [hk]
        exact (hcalm _).1
      obtain ⟨s'', hruns'⟩ := exists_runs_getDbSession hrun hactive hfault
      exact (hruns ⟨r, s'', by rw [hend]; exact hruns'⟩).elim

/-- The same for a route with a JSON body. -/
theorem answered_withBody (es) {β γ δ : Type} {body : JsonBody β} {validate : β → Option γ}
    {deps : Code δ} {code : δ → γ → Code Response}
    (hend : endpoint P req = withBody body validate deps code) (hd : deps.Uses (Within es))
    (he : ∀ d c, (code d c).Uses (Within es)) (hc : .commit ∉ es) (hcalm : Calm inputs) :
    (∃ b c d s₁ r s', body = .typed b ∧ validate b = some c ∧
      deps.Runs (soloExec P) (Solo.init inputs sh) d s₁ ∧ (code d c).Runs (soloExec P) s₁ r s' ∧
      response P req inputs sh = some r ∧
      s'.Leaves sh.db (serve P req inputs sh).db) ∨
    Rejected P req inputs sh := by
  cases body with
  | malformed =>
    refine .inr (rejected_of_not_runs (fun r s' h => ?_) ?_)
    · rw [hend] at h
      exact runs_raise.mp h
    · rw [serve_eq, hend]
      rfl
  | mistyped =>
    have hb : (deps >>= fun _ => raise PyExc.validation : Code Response).Uses (Within es) :=
      Uses.bind hd fun _ => uses_raise _
    rcases answered_getDbSession es hend hb hc hcalm with ⟨r, s', hrun, -, -⟩ | h
    · obtain ⟨d, s₁, -, hraise⟩ := runs_bind.mp hrun
      exact (runs_raise.mp hraise).elim
    · exact .inr h
  | typed b =>
    rw [withBody_typed] at hend
    have hb : (deps >>= fun d => onChecked (validate b) (code d)).Uses (Within es) :=
      Uses.bind hd fun d => uses_onChecked (he d)
    rcases answered_getDbSession es hend hb hc hcalm with ⟨r, s', hrun, hr, hdb⟩ | h
    · obtain ⟨d, s₁, hdeps, hcode⟩ := runs_bind.mp hrun
      obtain ⟨c, hv, hcode⟩ := runs_onChecked hcode
      exact .inl ⟨b, c, d, s₁, r, s', rfl, hv, hdeps, hcode, hr, hdb⟩
    · exact .inr h

/-- The same for a route with a form. -/
theorem answered_withForm (es) {γ : Type} {form : Option γ} {code : γ → Code Response}
    (hend : endpoint P req = withForm form code) (he : ∀ c, (code c).Uses (Within es))
    (hc : .commit ∉ es) (hcalm : Calm inputs) :
    (∃ c r s', form = some c ∧ (code c).Runs (soloExec P) (Solo.init inputs sh) r s' ∧
      response P req inputs sh = some r ∧
      s'.Leaves sh.db (serve P req inputs sh).db) ∨
    Rejected P req inputs sh := by
  cases form with
  | none =>
    have hb : (raise PyExc.validation : Code Response).Uses (Within es) := uses_raise _
    rcases answered_getDbSession es hend hb hc hcalm with ⟨r, s', hrun, -, -⟩ | h
    · exact (runs_raise.mp hrun).elim
    · exact .inr h
  | some c =>
    rcases answered_getDbSession es hend (he c) hc hcalm with ⟨r, s', hrun, hr, hdb⟩ | h
    · exact .inl ⟨c, r, s', rfl, hrun, hr, hdb⟩
    · exact .inr h

/-- A statement that raises leaves the tables and the open changes. -/
theorem execute_raised_same {st : Stmt} {s s' : Solo} {e : PyExc}
    (h : (execute .main st).eval (soloExec P) s = (.raised e, s')) : s.Same s' := by
  unfold execute at h
  rw [eval_perform] at h
  simp only [soloExec, executeOp] at h
  rcases executeStmt_cases P .main (s.inputs 0) [] s.shared s.store st with
    ⟨d, status, hexec, -⟩ | ⟨r, -, -, -, hexec⟩
  · rw [hexec] at h
    obtain ⟨-, rfl⟩ := Prod.mk.inj h
    refine ⟨?_, rfl⟩
    dsimp only
    split <;> rfl
  · rw [hexec] at h
    cases congrArg Prod.fst h

end Answers

end WolMonkey
