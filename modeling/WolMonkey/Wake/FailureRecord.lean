import WolMonkey.Facts.Wakes

/-!
# The record of a failed direct wake

`WakeService.wake` stores that a strategy failed and then raises. A direct wake makes an
`HTTPException` of that, which goes through `get_db_session` and rolls the record back, so
a failed direct wake never leaves one.
-/

namespace WolMonkey

open Programs Program

/-- There is one more wake attempt than before: it was made for the machine and the token,
and it failed with the error. -/
def FailureOnRecord (db db' : Database) (machineId : Uuid) (token : ApiToken) (error : String) :
    Prop :=
  db'.attempts.length = db.attempts.length + 1 ∧
    ∃ a ∈ db'.attempts, a ∉ db.attempts ∧ a.machineId = machineId ∧ a.actorType = "api_token" ∧
      a.actorId = token.id.text ∧ a.status = .failed ∧ a.error = some error ∧
      a.finishedAt.isSome = true

/-- A direct wake whose strategy raises leaves the tables as they were. -/
theorem serve_failed_wake {P : Platform} {req : Request} {machineId : String}
    {body : JsonBody WakeRequest} {inputs : Nat → Input} (sh : Shared)
    (hroute : req.route = .wakeMachineDirect machineId body)
    (hfails : ∀ n, (inputs n).sendError ≠ none) : (serve P req inputs sh).db = sh.db := by
  rcases wakeMachineDirect_db (P := P) hroute inputs sh with h | ⟨token, s₁, b, id, s', hdeps, -, -,
    hwake, -⟩
  · exact h
  · obtain ⟨n, hn⟩ := sent_of_runs_wake hwake
    obtain ⟨k, hk⟩ := Runs.later hdeps
    rw [hk] at hn
    exact (hfails _ hn).elim

/-- No direct wake whose strategy raises an exception is on record afterwards. -/
theorem direct_failure_not_on_record (P : Platform) (req : Request) (machineId : String)
    (body : JsonBody WakeRequest) (inputs : Nat → Input) (sh : Shared) (id : Uuid)
    (token : ApiToken) (error : String) (hroute : req.route = .wakeMachineDirect machineId body)
    (hraises : ∀ n, (inputs n).sendError = some error) :
    ¬ FailureOnRecord sh.db (serve P req inputs sh).db id token error := by
  rintro ⟨hlength, -⟩
  have hsame := serve_failed_wake (P := P) sh hroute fun n h => by
    rw [hraises n] at h
    cases h
  rw [hsame] at hlength
  omega

/-- A request with the sample token. -/
def tokenRequest (route : Route) : Request :=
  { route, authorization := some ("Bearer " ++ Platform.sampleToken) }

/-- The row of the sample token. -/
def ApiToken.sample (machineId : Option Uuid) : ApiToken where
  id := Uuid.ofNat 5
  userId := Uuid.ofNat 2
  machineId := machineId
  name := "phone"
  tokenHash := Platform.sampleDigest
  tokenPrefix := "0a1b2c3d"
  lastUsedAt := none
  revokedAt := none
  createdAt := sampleTime

/-- The installation with one machine, and with a token. -/
def Shared.withToken (machineId : Option Uuid) : Shared :=
  { Shared.fresh with db := { Database.installed with tokens := [ApiToken.sample machineId] } }

/-- The inputs of a wake whose command fails. -/
def Input.failing : Nat → Input := fun _ =>
  { now := sampleTime, fresh := Uuid.ofNat 6, sendError := some "etherwake failed" }

theorem direct_failure_not_on_record_sample :
    let req := tokenRequest (.wakeMachineDirect (Uuid.ofNat 3).text (.typed {}))
    let sh := Shared.withToken none
    ¬ FailureOnRecord sh.db (serve Platform.sample req Input.failing sh).db (Uuid.ofNat 3)
      (ApiToken.sample none) "etherwake failed" :=
  direct_failure_not_on_record Platform.sample _ _ _ Input.failing _ _ _ "etherwake failed" rfl
    fun _ => rfl

/-- A direct wake of an enabled machine comes to call its strategy, which raises, and leaves
no record. -/
theorem direct_failure_lost :
    ¬ ∀ (inputs : Nat → Input) (error : String), (∀ n, (inputs n).sendError = some error) →
      sendsPacket Platform.sample
        (tokenRequest (.wakeMachineDirect (Uuid.ofNat 3).text (.typed {}))) inputs
        (Shared.withToken none) = true →
      FailureOnRecord (Shared.withToken none).db
        (serve Platform.sample
          (tokenRequest (.wakeMachineDirect (Uuid.ofNat 3).text (.typed {}))) inputs
          (Shared.withToken none)).db (Uuid.ofNat 3) (ApiToken.sample none) error := by
  intro h
  obtain ⟨hlength, -⟩ := h Input.failing "etherwake failed" (fun _ => rfl) (by decide +kernel)
  rw [serve_failed_wake (P := Platform.sample) _ rfl (fun n => by simp [Input.failing])] at hlength
  omega

end WolMonkey
