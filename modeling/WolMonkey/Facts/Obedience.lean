import WolMonkey.Facts.Footprint

/-!
# Obedience through the wrappers

Every monitor meets the same wrappers: database sessions, bodies, forms and the handler of
a request. A monitor that always permits the end of a session only has to look at the code
inside them. `Label.effects` is the table of the effects of the threads.
-/

namespace WolMonkey

open Programs Program

/-- Permitted whatever has happened before. -/
def Always (M : Monitor app) (op : Op) : Prop := ∀ g, M.permits g op

/-- The ends of the work session are always permitted. -/
structure EndsFreely (M : Monitor app) : Prop where
  commit : Always M (.commit .main)
  rollback : Always M (.rollback .main)
  close : Always M (.close .main)

section Wrappers
variable {M : Monitor app} {g : M.Ghost} {α : Type}

theorem heeds_await {op : Op} : (await op).Heeds M g ↔ M.permits g op := heeds_perform

theorem heeds_execute {slot : Slot} {s : Stmt} :
    (execute slot s).Heeds M g ↔ M.permits g (.stmt slot s) := heeds_perform

/-- What the code in a session establishes has to survive the end of the session. -/
theorem obeys_inSession {slot : Slot} {body : Code α} {post : α → M.Ghost → Prop}
    (hclose : Always M (.close slot))
    (h : Obeys M (fun a g' => ∀ r, post a (M.next g' (.close slot) r)) (fun _ _ => True) g body) :
    Obeys M post (fun _ _ => True) g (withSession slot body) := by
  unfold withSession
  rw [obeys_bind, obeys_tryCatch]
  refine h.mono (fun a g' ha => ?_) fun e g' _ => ?_
  · rw [obeys_bind, obeys_await]
    exact ⟨hclose _, fun _ _ => (obeys_pure a).mpr (ha _), fun _ _ => trivial⟩
  · rw [obeys_bind, obeys_await]
    exact ⟨hclose _, fun _ _ => (obeys_raise e).mpr trivial, fun _ _ => trivial⟩

theorem heeds_withSession {slot : Slot} {body : Code α} (hclose : Always M (.close slot))
    (h : body.Heeds M g) : (withSession slot body).Heeds M g :=
  obeys_inSession hclose (h.mono (fun _ _ _ _ => trivial) fun _ _ _ => trivial)

theorem heeds_getDbSession (hs : EndsFreely M) {body : Code α} (h : body.Heeds M g) :
    (getDbSession body).Heeds M g := by
  refine heeds_withSession hs.close ?_
  rw [heeds_tryCatch, obeys_bind]
  refine h.mono (fun a g' _ => ?_) fun e g' _ => ?_
  · rw [obeys_bind, obeys_await]
    refine ⟨hs.commit _, fun _ _ => (obeys_pure _).mpr trivial, fun e _ => ?_⟩
    rw [heeds_bind, obeys_await]
    exact ⟨hs.rollback _, fun _ _ => (obeys_raise e).mpr trivial, fun _ _ => trivial⟩
  · rw [heeds_bind, obeys_await]
    exact ⟨hs.rollback _, fun _ _ => (obeys_raise e).mpr trivial, fun _ _ => trivial⟩

theorem heeds_withBody (hs : EndsFreely M) {β γ δ : Type} {body : JsonBody β}
    {validate : β → Option γ} {deps : Code δ} {endpoint : δ → γ → Code α}
    (h : Obeys M (fun d g' => ∀ b c, body = .typed b → validate b = some c →
      (endpoint d c).Heeds M g') (fun _ _ => True) g deps) :
    (withBody body validate deps endpoint).Heeds M g := by
  cases body with
  | malformed => exact heeds_raise _
  | mistyped =>
    refine heeds_getDbSession hs (heeds_bind.mpr (h.mono (fun _ _ _ => ?_) fun _ _ _ => trivial))
    exact heeds_raise _
  | typed b =>
    refine heeds_getDbSession hs (heeds_bind.mpr (h.mono (fun d g' hd => ?_) fun _ _ _ => trivial))
    cases hv : validate b with
    | none => exact heeds_raise _
    | some c => exact hd b c rfl hv

theorem heeds_withForm (hs : EndsFreely M) {γ : Type} {form : Option γ}
    {endpoint : γ → Code α} (h : ∀ c, form = some c → (endpoint c).Heeds M g) :
    (withForm form endpoint).Heeds M g := by
  refine heeds_getDbSession hs ?_
  cases form with
  | none => exact heeds_raise _
  | some c => exact h c rfl

end Wrappers

section Threads
variable {P : Platform} {M : Monitor app} {g : M.Ghost}

theorem heeds_handle {req : Request} (h : (endpoint P req).Heeds M g) :
    (handle P req).Heeds M g :=
  heeds_tryCatch.mpr (h.mono (fun _ _ _ => trivial) fun _ _ _ => heeds_pure _)

theorem heeds_start_request {req : Request} (h : (endpoint P req).Heeds M g) :
    (start P (.request req)).Heeds M g :=
  heeds_bind.mpr ((heeds_handle h).mono (fun _ _ _ => heeds_pure _) fun _ _ _ => trivial)

theorem heeds_start_worker {fuel : Nat} (h : (workerIteration P fuel).Heeds M g) :
    (start P (.worker fuel)).Heeds M g :=
  heeds_bind.mpr (h.mono (fun _ _ _ => heeds_pure _) fun _ _ _ => trivial)

end Threads

/-! ## What a thread can change -/

section Effects
variable {P : Platform} {fuel : Nat} {es : List Effect}

/-- What processing a job can change. -/
theorem uses_processJob {jobId : String} {payload : JsonObject}
    (ha : .newAttempt ∈ es) (hs : .attemptStatus ∈ es) (hsend : .send ∈ es) :
    (processJob P fuel jobId payload).Uses (Within es) := by
  refine Uses.bind ?_ fun args => Uses.bind (Uses.tryCatch ?_ fun exc => ?_) fun woken => ?_
  · unfold payloadArgs
    split
    · exact uses_raise _
    · exact uses_pure _
  · exact Uses.bind (uses_wake ha hs hsend) fun _ => uses_pure _
  · exact Uses.bind (uses_await rfl) fun _ => uses_pure _
  · split
    · exact uses_ensureJobOnline (fun _ h => within_of_none h)
        (fun _ _ _ _ _ _ => within_of_effect rfl hs) fuel
    · exact uses_pure _

theorem uses_executeJob {jobId : String} {payload : JsonObject} (ha : .newAttempt ∈ es)
    (hs : .attemptStatus ∈ es) (hsend : .send ∈ es) (hdone : .jobDone ∈ es) (herror : .jobError ∈ es)
    (hc : .commit ∈ es ∧ .reset ∈ es) : (executeJob P fuel jobId payload).Uses (Within es) := by
  have hclose : ∀ slot, Within es (.close slot) := fun slot => (sessions_within.mpr hc slot).2.2
  have hmark : ∀ {s : Stmt} {e : Effect}, s.effect = some e → e ∈ es →
      (withSession .queue do
        let _ ← execute .queue s
        await (.commit .queue)).Uses (Within es) := fun hs he =>
    uses_withSession (Uses.bind (uses_write hs he) fun _ => uses_effect rfl hc.1) (hclose .queue)
  refine uses_withSession (Uses.tryCatch ?_ fun exc => ?_) (hclose .main)
  · exact Uses.bind (uses_processJob ha hs hsend) fun _ =>
      Uses.bind (hmark rfl hdone) fun _ => uses_effect rfl hc.1
  · exact Uses.bind (uses_effect rfl hc.2) fun _ =>
      Uses.bind (hmark rfl herror) fun _ => uses_await rfl

/-- The effects that an iteration of a worker can have. -/
def workerEffects : List Effect :=
  [.lockJob, .jobRunning, .jobDone, .jobError, .newAttempt, .attemptStatus, .send, .commit, .reset]

theorem uses_workerIteration : (workerIteration P fuel).Uses (Within workerEffects) := by
  have hsleep : (await .sleep).Uses (Within workerEffects) := uses_await rfl
  refine Uses.bind (Uses.tryCatch (Uses.bind (uses_claimNext ?_ ?_ ?_) fun found => ?_) fun _ =>
    uses_pure _) fun _ => hsleep
  · decide
  · decide
  · decide
  cases found with
  | none => exact uses_pure _
  | some found =>
    have hexecute : (executeJob P fuel found.1 found.2).Uses (Within workerEffects) := by
      apply uses_executeJob <;> decide
    exact hexecute

/-- The effects that a thread can have. -/
def Label.effects : Label → List Effect
  | .request req => req.route.effects
  | .worker _ => workerEffects

theorem start_within (label : Label) : (start P label).Uses (Within label.effects) := by
  cases label with
  | request req => exact Uses.bind handle_within fun _ => uses_pure _
  | worker fuel => exact Uses.bind uses_workerIteration fun _ => uses_pure _

end Effects

end WolMonkey
