import WolMonkey.Model.Services

/-!
# Job queue and worker

`worker/job_queue.py` and `worker/main.py`. The job queue opens a session of its own for
every call. One iteration of `run_worker` claims a job, processes it in a session of its
own, marks it done and commits; an exception rolls the work back and marks the job as
failed, and an exception of that is only logged.
-/

namespace WolMonkey

open Programs

/-- `async with factory() as session`: the session is closed at the end, which rolls back
what is not committed. -/
def withSession {α : Type} (slot : Slot) (body : Code α) : Code α := do
  let result ← Program.tryCatch body fun exc => do
    let _ ← await (.close slot)
    raise exc
  let _ ← await (.close slot)
  return result

/-! ## Job queue -/

namespace JobQueue

/-- Claim the oldest queued job. -/
def claimNext : Code (Option (String × JsonObject)) :=
  withSession .queue do
    match ← execute .queue .jobClaim with
    | none => return none
    | some row =>
      let now ← await .now
      execute .queue (.jobSetRunning row.id now)
      let _ ← await (.commit .queue)
      return some (row.id.text, row.payload)

def markDone (jobId : String) : Code Unit :=
  withSession .queue do
    execute .queue (.jobSetDone jobId)
    await (.commit .queue)

def markError (jobId error : String) : Code Unit :=
  withSession .queue do
    execute .queue (.jobSetError jobId error)
    await (.commit .queue)

/-- Add a new job to the queue. -/
def enqueue (machineId attemptId jobType : String) (payload : JsonObject) : Code String :=
  withSession .queue do
    let id ← execute .queue (.jobInsert machineId attemptId jobType payload)
    let _ ← await (.commit .queue)
    let job ← execute .queue (.jobRefresh id)
    return job.id.text

end JobQueue

/-! ## Processing a job -/

/-- The value of a decimal digit, in any script. -/
def decimalDigit? (c : Char) : Option Nat :=
  (decimalZeros.find? fun z => z ≤ c.toNat && c.toNat ≤ z + 9).map fun z => c.toNat - z

/-- Decimal digits with single underscores between them. -/
def decimalBody : List Char → Option (List Nat)
  | [] => none
  | [c] => (decimalDigit? c).map fun d => [d]
  | c :: '_' :: cs => do return (← decimalDigit? c) :: (← decimalBody cs)
  | c :: cs => do return (← decimalDigit? c) :: (← decimalBody cs)

/-- `int(s)` of a string. -/
def pyInt (P : Platform) (s : String) : Except String Int :=
  let cs := strip isSpace s.toList
  match decimalBody (dropSign cs) with
  | none => .error ("invalid literal for int() with base 10: " ++ pyRepr P s)
  | some digits =>
    if 4300 < digits.length then
      .error ("Exceeds the limit (4300 digits) for integer string conversion: value has " ++
        toString digits.length ++
        " digits; use sys.set_int_max_str_digits() to increase the limit")
    else
      let n : Int := digits.foldl (fun n d => 10 * n + d) (0 : Nat)
      .ok (if cs.head? == some '-' then -n else n)

section Worker
variable (P : Platform) (fuel : Nat)

/-- The keyword arguments that a job's payload gives to `WakeService.wake`. -/
def payloadArgs (payload : JsonObject) : Code WakeArgs :=
  match pyInt P (payload.get "poll_timeout_s" (.int 120)).pyStr with
  | .error message => raise (.value message)
  | .ok pollTimeoutS =>
    let override := payload.get "strategy_override" .null
    pure
      { machineId := (payload.get "machine_id" (.str "")).pyStr
        actorType := (payload.get "actor_type" (.str "system")).pyStr
        actorId := (payload.get "actor_id" (.str "worker")).pyStr
        ensureOnline := (payload.get "ensure_online" (.bool false)).truthy
        pollTimeoutS
        strategyOverride := if override.truthy then some override.pyStr else none }

/-- The part of a job that waits for the machine, on the attempt that
`get_active_for_machine` picks. -/
def ensureJobOnline (jobId attemptId machineId : String) : Code Unit := do
  let active ← SqlWakeAttemptRepository.getActiveForMachine machineId
  let runId := match active with
    | some attempt => attempt.id.text
    | none => attemptId
  if runId == "" then return
  else do
    let finalStatus ← EnsureOnlineService.run fuel runId
    await (.log (.jobEnsureOnlineDone jobId finalStatus))

def processJob (jobId : String) (payload : JsonObject) : Code Unit := do
  let args ← payloadArgs P payload
  let woken ← Program.tryCatch
    (do
      let _ ← WakeService.wake P args
      return true)
    (fun exc => do
      let _ ← await (.log (.jobWakeFailed jobId exc.str))
      return false)
  if woken && args.ensureOnline then
    ensureJobOnline fuel jobId (payload.get "attempt_id" (.str "")).pyStr args.machineId
  else return

/-- What `run_worker` does with a claimed job. -/
def executeJob (jobId : String) (payload : JsonObject) : Code Unit :=
  withSession .main <|
    Program.tryCatch
      (do
        processJob P fuel jobId payload
        JobQueue.markDone jobId
        await (.commit .main))
      (fun exc => do
        let _ ← await (.rollback .main)
        JobQueue.markError jobId exc.str
        await (.log (.jobError jobId exc.str)))

/-- One iteration of `run_worker`. -/
def workerIteration : Code Unit := do
  Program.tryCatch
    (do
      match ← JobQueue.claimNext with
      | none => return
      | some (jobId, payload) => executeJob P fuel jobId payload)
    (fun _ => pure ())
  await .sleep

end Worker

end WolMonkey
