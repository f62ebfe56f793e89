import WolMonkey.Facts.Reading
import WolMonkey.Facts.Undisturbed
import WolMonkey.Library.Polling

/-!
# Polling until a machine is online

`EnsureOnlineService.run` on an attempt and a machine that exist: it terminates, returns the
right verdict, probes no longer than necessary, and writes exactly `waking` and its verdict.
The loop is an instance of `Polling.Rounds`: what it reads and is told in each of its rounds
comes from the inputs of the run.
-/

namespace WolMonkey

open Programs Program Polling

/-! ## The rounds of a run -/

/-- `StateProbe.probe` asks a second time, at the address of the machine. -/
def Machine.retries (m : Machine) (first : ProbeResult) : Bool :=
  m.hostname.getD "" != "" && (!(first.pingOk || first.tcpSshOk) && m.ipAddress != "" &&
    m.ipAddress != orElse m.hostname m.ipAddress)

/-- How many inputs a probe takes. -/
def Machine.probeInputs (m : Machine) (inputs : Nat → Input) : Nat :=
  if m.retries (inputs 0).probe then 2 else 1

/-- What a probe reports. -/
def Machine.probed (m : Machine) (inputs : Nat → Input) : ProbeResult :=
  if m.retries (inputs 0).probe then (inputs 1).probe else (inputs 0).probe

/-- The inputs after a round that reads the clock, probes and sleeps. -/
def Machine.afterRound (m : Machine) (inputs : Nat → Input) : Nat → Input :=
  fun n => inputs (1 + (m.probeInputs (fun k => inputs (1 + k)) + (1 + n)))

/-- The inputs with which round `i` starts. -/
def Machine.roundInputs (m : Machine) : Nat → (Nat → Input) → Nat → Input
  | 0, inputs => inputs
  | i + 1, inputs => m.roundInputs i (m.afterRound inputs)

/-- The rounds of the loop: the time since the start of the attempt, and whether the probe
reports the machine online. -/
def Machine.rounds (m : Machine) (startedAt : DateTime) (inputs : Nat → Input) : Rounds where
  time i := (m.roundInputs i inputs 0).now - startedAt
  answer i := decide ((m.probed fun n => m.roundInputs i inputs (1 + n)).derivedState = .online)

theorem Machine.tail_rounds (m : Machine) (startedAt : DateTime) (inputs : Nat → Input) :
    (m.rounds startedAt inputs).tail = m.rounds startedAt (m.afterRound inputs) := rfl

/-- The probe of the loop's host: the first request of `StateProbe.probe`. -/
def Machine.isProbe (m : Machine) : Op → Bool
  | .probe host _ => host == orElse m.hostname m.ipAddress
  | _ => false

/-! ## One operation -/

section Steps
variable {P : Platform} {s : Solo} {m : Machine}

/-- An operation beside the database takes one input. -/
theorem yields_skip {op : Op} {a : op.Answer}
    (hanswer : executeOp P op (s.inputs 0) [] s.shared s.store = (.ok a, s.shared, s.store)) :
    (await op).Yields (soloExec P) s a (s.skip 1) [op] := by
  refine yields_perform ?_
  simp only [soloExec, hanswer, Solo.skip, Nat.add_comm]

theorem probeMachine_eq : StateProbe.probeMachine m = do
    let result ← await (.probe (orElse m.hostname m.ipAddress) m.sshPort)
    if m.retries result then await (.probe m.ipAddress m.sshPort) else return result := by
  unfold StateProbe.probeMachine StateProbe.probe
  congr 1
  funext result
  unfold Machine.retries
  by_cases hname : m.hostname.getD "" = ""
  · simp [hname]
  · simp [hname, bne]

/-- A probe of the machine: what it reports, and the one request it begins with. -/
theorem yields_probeMachine : ∃ ops, (StateProbe.probeMachine m).Yields (soloExec P) s
    (m.probed s.inputs) (s.skip (m.probeInputs s.inputs)) ops ∧ ops.countP m.isProbe = 1 := by
  let host := orElse m.hostname m.ipAddress
  have hfirst : (await (.probe host m.sshPort)).Yields (soloExec P) s (s.inputs 0).probe (s.skip 1)
    [Op.probe host m.sshPort] := yields_skip rfl
  rw [probeMachine_eq]
  unfold Machine.probed Machine.probeInputs
  by_cases hretry : m.retries (s.inputs 0).probe = true
  · have hother : m.ipAddress ≠ host := by
      simp only [Machine.retries, Bool.and_eq_true, bne_iff_ne] at hretry
      exact hretry.2.2
    have hsecond : (await (.probe m.ipAddress m.sshPort)).Yields (soloExec P) (s.skip 1)
        (s.inputs 1).probe ((s.skip 1).skip 1) [Op.probe m.ipAddress m.sshPort] := yields_skip rfl
    rw [Solo.skip_skip] at hsecond
    simp only [hretry, if_true]
    refine ⟨[.probe host m.sshPort] ++ [.probe m.ipAddress m.sshPort], hfirst.bind ?_, ?_⟩
    · simp only [hretry, if_true]
      exact hsecond
    · simp [Machine.isProbe, host, hother]
  · simp only [hretry, if_false, Bool.false_eq_true]
    refine ⟨[.probe host m.sshPort] ++ [], hfirst.bind ?_, ?_⟩
    · simp only [hretry, if_false, Bool.false_eq_true]
      exact yields_pure _ _
    · simp [Machine.isProbe, host]

/-- What setting the status of the attempt leaves. -/
structure Solo.Recorded (s : Solo) (w : Write) (s' : Solo) : Prop where
  shared : s'.shared = s.shared
  active : s'.store.main.status = .active
  writes : s'.store.main.writes = s.store.main.writes ++ [w]
  inputs : s'.inputs = fun n => s.inputs (1 + n)

theorem yields_updateStatus {attemptId : String} {id : Uuid} (status : AttemptStatus)
    (error : Option String) (finishedAt : Option DateTime) (hactive : s.store.main.status = .active)
    (hfault : (s.inputs 0).fault = none) (hid : Uuid.parse? attemptId = some id)
    (herror : error.all textOk = true) :
    ∃ s', (SqlWakeAttemptRepository.updateStatus attemptId status error finishedAt).Yields
        (soloExec P) s () s' [.stmt .main (.attemptUpdateStatus attemptId status error finishedAt)] ∧
      s.Recorded (.setAttemptStatus id status error finishedAt) s' := by
  let r : Executed (.attemptUpdateStatus attemptId status error finishedAt) :=
    ⟨(), [.setAttemptStatus id status error finishedAt], []⟩
  have hrun : (execute .main (.attemptUpdateStatus attemptId status error finishedAt)).Runs
      (soloExec P) s () (s.ran r) := by
    refine runs_execute_iff.mpr ⟨hactive, hfault, r, ?_, rfl, rfl⟩
    simp only [Stmt.run, bind_eq_ok, uuidParam_eq_ok, require_eq_ok, pure_eq_ok, r]
    exact ⟨id, hid, (), herror, rfl⟩
  unfold execute at hrun
  refine ⟨s.ran r, yields_perform (runs_perform.mp hrun), rfl, hactive, rfl, ?_⟩
  funext n
  rw [Nat.add_comm]
  rfl

end Steps

/-! ## The loop -/

/-- The verdict of the loop. -/
def AttemptStatus.verdict (found : Bool) : AttemptStatus := if found then .online else .timeout

/-- The error that goes with a verdict. -/
def verdictError (timeoutS : Int) (found : Bool) : Option String :=
  if found then none
  else some ("Machine did not come online within " ++ toString timeoutS ++ "s")

theorem textOk_verdictError (timeoutS : Int) (found : Bool) :
    (verdictError timeoutS found).all textOk = true := by
  cases found with
  | true => rfl
  | false =>
    exact textOk_append (textOk_append (by decide) (textOk_toString timeoutS)) (by decide)

/-- The write of a verdict. -/
def verdictWrite (id : Uuid) (timeoutS : Int) (found : Bool) (finished : DateTime) : Write :=
  .setAttemptStatus id (.verdict found) (verdictError timeoutS found) (some finished)

/-- The code returns its verdict, after this many probes, and has written it down. -/
def EndsWith (P : Platform) (id : Uuid) (m : Machine) (timeoutS : Int) (found : Bool) (asked : Nat)
    (code : Code AttemptStatus) (s : Solo) : Prop :=
  ∃ finished s' ops, code.Yields (soloExec P) s (.verdict found) s' ops ∧
    ops.countP m.isProbe = asked ∧ s'.shared = s.shared ∧
      s'.store.main.writes = s.store.main.writes ++ [verdictWrite id timeoutS found finished]

section Loop
variable {P : Platform} {attemptId : String} {id : Uuid} {m : Machine} {startedAt : DateTime}
  {timeoutS : Int} {found : Bool}

/-- The last statement of the loop. -/
theorem endsWith_finish {s : Solo} (hid : Uuid.parse? attemptId = some id) (found : Bool)
    (hactive : s.store.main.status = .active) (hfault : ∀ n, (s.inputs n).fault = none) :
    EndsWith P id m timeoutS found 0 (do
      let finished ← await .now
      SqlWakeAttemptRepository.updateStatus attemptId (.verdict found)
        (verdictError timeoutS found) (some finished)
      return .verdict found) s := by
  have hnow : (await .now).Yields (soloExec P) s (s.inputs 0).now (s.skip 1) [.now] :=
    yields_skip rfl
  obtain ⟨s', hupdate, hrecorded⟩ := yields_updateStatus (P := P) (s := s.skip 1) (.verdict found)
    (verdictError timeoutS found) (some (s.inputs 0).now) hactive (hfault 1) hid
    (textOk_verdictError timeoutS found)
  exact ⟨(s.inputs 0).now, s', _, hnow.bind (hupdate.bind (yields_pure _ _)), rfl,
    hrecorded.shared, hrecorded.writes⟩

/-- Code in front of the end of a loop, which makes some of its probes. -/
theorem EndsWith.bind {α : Type} {p : Code α} {f : α → Code AttemptStatus} {s s₁ : Solo} {a : α}
    {ops : List Op} {asked k : Nat} (hp : p.Yields (soloExec P) s a s₁ ops)
    (hshared : s₁.shared = s.shared) (hwrites : s₁.store.main.writes = s.store.main.writes)
    (hasked : ops.countP m.isProbe + k = asked)
    (hf : EndsWith P id m timeoutS found k (f a) s₁) :
    EndsWith P id m timeoutS found asked (p >>= f) s := by
  obtain ⟨finished, s', ops', hyields, hcount, hshared', hwrites'⟩ := hf
  refine ⟨finished, s', ops ++ ops', hp.bind hyields, ?_, hshared'.trans hshared, ?_⟩
  · rw [List.countP_append, hcount, hasked]
  · rw [hwrites', hwrites]

/-- The loop ends as its rounds say, once it has been given enough fuel. -/
theorem endsWith_poll (hid : Uuid.parse? attemptId = some id) {fuel : Nat} :
    ∀ {asked : Nat} {s : Solo},
      (m.rounds startedAt s.inputs).Stops (DateTime.seconds timeoutS) found asked → asked < fuel →
        s.store.main.status = .active → (∀ n, (s.inputs n).fault = none) →
          EndsWith P id m timeoutS found asked
            (EnsureOnlineService.poll attemptId m startedAt timeoutS fuel) s := by
  induction fuel with
  | zero => exact fun _ h => absurd h (Nat.not_lt_zero _)
  | succ fuel ih =>
    intro asked s hstops hfuel hactive hfault
    have hnow : (await .now).Yields (soloExec P) s (s.inputs 0).now (s.skip 1) [.now] :=
      yields_skip rfl
    obtain ⟨ops, hprobe, hcount⟩ := yields_probeMachine (P := P) (s := s.skip 1) (m := m)
    let s₂ := (s.skip 1).skip (m.probeInputs (s.skip 1).inputs)
    unfold EnsureOnlineService.poll
    by_cases hpass : (m.rounds startedAt s.inputs).Passes (DateTime.seconds timeoutS) 0
    · obtain ⟨rest, rfl, htail⟩ := hstops.tail hpass
      have hin : ¬ (s.inputs 0).now - startedAt ≥ DateTime.seconds timeoutS := Int.not_le.mpr hpass.1
      have hno : (m.probed (s.skip 1).inputs).derivedState ≠ .online := of_decide_eq_false hpass.2
      have hsleep : (await .sleep).Yields (soloExec P) s₂ () (s₂.skip 1) [.sleep] := yields_skip rfl
      refine EndsWith.bind  hnow rfl rfl (Nat.zero_add _) ?_
      rw [if_neg hin]
      refine EndsWith.bind hprobe rfl rfl (by rw [hcount, Nat.add_comm]) ?_
      split
      · rename_i honline
        exact absurd honline hno
      · -- the next round begins with the inputs after this one
        refine EndsWith.bind hsleep rfl rfl (Nat.zero_add _) ?_
        exact ih htail (by omega) hactive fun n => hfault _
    · rcases hstops.of_not_passes hpass with ⟨rfl, rfl, hin, hyes⟩ | ⟨rfl, rfl, hlate⟩
      · have hin' : ¬ (s.inputs 0).now - startedAt ≥ DateTime.seconds timeoutS := Int.not_le.mpr hin
        have hyes' : (m.probed (s.skip 1).inputs).derivedState = .online := of_decide_eq_true hyes
        refine EndsWith.bind hnow rfl rfl (Nat.zero_add _) ?_
        rw [if_neg hin']
        refine EndsWith.bind (k := 0) hprobe rfl rfl hcount ?_
        rw [hyes']
        exact endsWith_finish hid true hactive fun n => hfault _
      · have hout : (s.inputs 0).now - startedAt ≥ DateTime.seconds timeoutS := hlate
        refine EndsWith.bind hnow rfl rfl (Nat.zero_add _) ?_
        rw [if_pos hout]
        exact endsWith_finish hid false hactive fun n => hfault (1 + n)

end Loop

/-! ## The whole run -/

section Run
variable {P : Platform} {s : Solo}

/-- A statement that reads takes one input. -/
theorem yields_read {st : Stmt} {a : st.Answer} (heffect : st.effect = none)
    (hactive : s.store.main.status = .active) (hfault : (s.inputs 0).fault = none)
    (hrun : ∀ locked, st.run P (s.inputs 0) locked s.view = .ok ⟨a, [], []⟩) :
    (execute .main st).Yields (soloExec P) s a (s.skip 1) [.stmt .main st] := by
  have hexec : (execute .main st).Runs (soloExec P) s a (s.skip 1) :=
    (runs_reads_iff heffect).mpr ⟨hactive, hfault, ⟨_, hrun _, rfl⟩, rfl⟩
  unfold execute at hexec
  exact yields_perform (runs_perform.mp hexec)

theorem yields_guardUuid {α : Type} {value : String} {u : Uuid} {absent a : α} {query : Code α}
    {s' : Solo} {ops : List Op} (hvalue : Uuid.parse? value = some u)
    (h : query.Yields (soloExec P) s a s' ops) :
    (guardUuid value absent query).Yields (soloExec P) s a s' ops := by
  unfold guardUuid
  rw [if_pos (isValidUuid_of_parse? hvalue)]
  exact h

end Run

/-- **The run on an existing attempt.** When every round of the loop takes at least the
interval, the run terminates within its bound, with the verdict that an answer in time
gives; it does not probe again after that answer, and what it writes is `waking` and then the
verdict, finished, with an error exactly for a timeout. -/
theorem ensure_online_exact (P : Platform) (s : Solo) (attemptId : String) (id : Uuid)
    (attempt : WakeAttempt) (machine : Machine) (interval : Int)
    (hactive : s.store.main.status = .active) (hfault : ∀ n, (s.inputs n).fault = none)
    (hid : Uuid.parse? attemptId = some id)
    (hattempt : s.view.attempts.find? (·.id == id) = some attempt)
    (hmachine : s.view.machines.find? (·.id == attempt.machineId) = some machine)
    (hclock : (machine.rounds attempt.startedAt fun n => s.inputs (3 + n)).Advances interval) :
    let rounds := machine.rounds attempt.startedAt fun n => s.inputs (3 + n)
    let limit := DateTime.seconds attempt.pollTimeoutS
    let bound := ⌈((limit - rounds.time 0 : Int) : ℚ) / interval⌉₊
    ∃ status probes error,
      (∀ fuel > bound, ∃ s' ops finished,
        (EnsureOnlineService.run fuel attemptId).Yields (soloExec P) s status s' ops ∧
          ops.countP machine.isProbe = probes ∧
          s'.store.main.writes = s.store.main.writes ++ [.setAttemptStatus id .waking none none,
            .setAttemptStatus id status error (some finished)]) ∧
      (status = .online ∨ status = .timeout) ∧
      (status = .online ↔ ∃ i, rounds.time i < limit ∧ rounds.answer i = true) ∧
      (status = .online → ∃ i, probes = i + 1 ∧ rounds.time i < limit ∧ rounds.answer i = true ∧
        ∀ j < i, rounds.answer j = false) ∧
      probes ≤ bound ∧
      (error.isSome = true ↔ status = .timeout) := by
  intro rounds limit bound
  obtain ⟨found, asked, hstops⟩ := hclock.exists_stops limit
  have hbound : asked ≤ bound := hstops.asked_le hclock
  have hverdict : AttemptStatus.verdict found = .online ↔ found = true := by cases found <;> decide
  refine ⟨.verdict found, asked, verdictError attempt.pollTimeoutS found, fun fuel hfuel => ?_, ?_,
    hverdict.trans (hstops.found_iff hclock), fun hfound => ?_, hbound, ?_⟩
  · have hgetAttempt : (SqlWakeAttemptRepository.getById attemptId).Yields (soloExec P) s
        (some attempt) (s.skip 1) [.stmt .main (.attemptGet attemptId)] := by
      refine yields_guardUuid hid (yields_read rfl hactive (hfault 0) fun locked => ?_)
      simp only [Stmt.run, uuidParam_eq_ok.mpr hid, ← hattempt]
      rfl
    have hgetMachine : (SqlMachineRepository.getById attempt.machineId.text).Yields (soloExec P)
        (s.skip 1) (some machine) ((s.skip 1).skip 1)
        [.stmt .main (.machineGet attempt.machineId.text)] := by
      have hparsed := Uuid.parse?_text attempt.machineId
      refine yields_guardUuid hparsed (yields_read rfl hactive (hfault 1) fun locked => ?_)
      simp only [Stmt.run, uuidParam_eq_ok.mpr hparsed, ← hmachine]
      rfl
    obtain ⟨s₃, hwaking, hrecorded⟩ := yields_updateStatus (P := P) (s := (s.skip 1).skip 1)
      .waking none none hactive (hfault 2) hid rfl
    have hinputs : s₃.inputs = fun n => s.inputs (3 + n) := by
      rw [hrecorded.inputs]
      funext n
      simp only [Solo.skip]
      congr 1
      omega
    have hend : EndsWith P id machine attempt.pollTimeoutS found asked
        (EnsureOnlineService.poll attemptId machine attempt.startedAt attempt.pollTimeoutS fuel) s₃ := by
      refine endsWith_poll hid ?_ (Nat.lt_of_le_of_lt hbound hfuel) hrecorded.active ?_
      · rw [hinputs]
        exact hstops
      · rw [hinputs]
        exact fun n => hfault _
    obtain ⟨finished, s', ops, hpoll, hcount, -, hwrites⟩ := hend
    refine ⟨s', _, finished,
      hgetAttempt.bind (hgetMachine.bind (hwaking.bind hpoll)), ?_, ?_⟩
    · have hquiet : ([.stmt .main (.attemptGet attemptId)] ++
          ([.stmt .main (.machineGet attempt.machineId.text)] ++
            [.stmt .main (.attemptUpdateStatus attemptId .waking none none)]) : List Op).countP
          machine.isProbe = 0 := rfl
      simp only [List.countP_append] at hquiet ⊢
      omega
    · rw [hwrites, hrecorded.writes, List.append_assoc]
      rfl
  · cases found
    · exact .inr rfl
    · exact .inl rfl
  · obtain rfl := hverdict.mp hfound
    exact hstops.last_yes
  · cases found
    · exact iff_of_true rfl rfl
    · exact iff_of_false (by simp [verdictError]) (by decide)

/-! ## A machine that stays off -/

theorem Machine.roundInputs_succ (m : Machine) (i : Nat) (inputs : Nat → Input) :
    m.roundInputs (i + 1) inputs = m.afterRound (m.roundInputs i inputs) := by
  induction i generalizing inputs with
  | zero => rfl
  | succ i ih => exact ih (m.afterRound inputs)

/-- When every operation takes at least the interval, so does every round. -/
theorem Machine.advances_rounds (m : Machine) (startedAt : DateTime) {inputs : Nat → Input}
    {interval : Int} (hpos : 0 < interval)
    (h : ∀ n, (inputs n).now + interval ≤ (inputs (n + 1)).now) :
    (m.rounds startedAt inputs).Advances interval := by
  have hsteady : ∀ i n, (m.roundInputs i inputs n).now + interval ≤
      (m.roundInputs i inputs (n + 1)).now := by
    intro i
    induction i with
    | zero => exact h
    | succ i ih =>
      intro n
      rw [m.roundInputs_succ]
      exact ih _
  refine ⟨hpos, fun i => ?_⟩
  have hlater : ∀ k, (m.roundInputs i inputs 0).now + interval ≤
      (m.roundInputs i inputs (1 + k)).now := by
    intro k
    induction k with
    | zero => exact hsteady i 0
    | succ k ih =>
      have hstep := hsteady i (1 + k)
      rw [← Nat.add_assoc]
      linarith
  show (m.roundInputs i inputs 0).now - startedAt + interval ≤
    (m.roundInputs (i + 1) inputs 0).now - startedAt
  rw [m.roundInputs_succ]
  have hround := hlater (m.probeInputs (fun k => m.roundInputs i inputs (1 + k)) + (1 + 0))
  unfold Machine.afterRound
  linarith

/-- An attempt of the last 20 seconds. -/
def WakeAttempt.sample : WakeAttempt where
  id := Uuid.ofNat 4
  machineId := Uuid.ofNat 3
  actorType := "user"
  actorId := (Uuid.ofNat 2).text
  strategy := "etherwake"
  status := .sent
  ensureOnline := true
  pollTimeoutS := 20
  error := none
  startedAt := sampleTime
  finishedAt := none

/-- Inputs of which each takes five seconds; every ping is answered. -/
def Input.ticking : Nat → Input := fun n =>
  { now := sampleTime + DateTime.seconds (5 * n), probe := ⟨true, false⟩ }

/-- The first probe is answered, 15 seconds after the start of the attempt. -/
theorem ensure_online_exact_sample :
    let sh := { Shared.installed with db :=
      { Database.installed with attempts := [WakeAttempt.sample] } }
    ∃ s' ops, (EnsureOnlineService.run 2 WakeAttempt.sample.id.text).Yields
      (soloExec Platform.sample) (Solo.init Input.ticking sh) .online s' ops := by
  intro sh
  let machine : Machine := Database.installed.machines.head (by decide)
  have hclock : (machine.rounds WakeAttempt.sample.startedAt
      fun n => Input.ticking (3 + n)).Advances (DateTime.seconds 5) := by
    refine machine.advances_rounds _ (by decide) fun n => ?_
    simp only [Input.ticking, DateTime.seconds]
    push_cast
    linarith
  obtain ⟨status, probes, error, hruns, -, honline, -⟩ := ensure_online_exact Platform.sample
    (Solo.init Input.ticking sh) _ WakeAttempt.sample.id WakeAttempt.sample machine _ rfl (fun _ => rfl)
    (Uuid.parse?_text _) (by decide) (by decide) hclock
  obtain rfl := honline.mpr ⟨0, by decide, by decide⟩
  have hfuel : 2 > ⌈((DateTime.seconds 20 - DateTime.seconds 15 : Int) : ℚ) / DateTime.seconds 5⌉₊ := by
    have hone : ((DateTime.seconds 20 - DateTime.seconds 15 : Int) : ℚ) / DateTime.seconds 5 = 1 := by
      norm_num [DateTime.seconds]
    rw [hone, Nat.ceil_one]
    decide
  obtain ⟨s', ops, finished, hyields, -⟩ := hruns 2 hfuel
  exact ⟨s', ops, hyields⟩

end WolMonkey
