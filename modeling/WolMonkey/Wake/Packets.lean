import WolMonkey.Access.Mediation
import WolMonkey.Facts.Provenance
import WolMonkey.Host.Ipv4
import WolMonkey.Wake.QueueContract
import WolMonkey.Wake.Strategy

/-!
# Packets

Every Wake-on-LAN packet of the running system has been asked for. Each thread sends at most
one; what it sends goes to a machine that was stored and enabled, on behalf of the one that
the attempt names; and different packets go back to different requests, or to jobs that were
queued before the system started.
-/

namespace WolMonkey

open Programs Program

/-! ## The arguments of a wake -/

/-- The arguments of the wake that the body of a request describes. -/
def argsOf (machineId : String) (b : WakeRequest) (actorType actorId : String) : WakeArgs :=
  { machineId, actorType, actorId, ensureOnline := b.ensureOnline, pollTimeoutS := b.pollTimeoutS
    strategyOverride := Api.strategyName b }

/-- `int(str(n))` of a timeout that a request may have. -/
theorem pyInt_timeout (P : Platform) {n : Int} (h : inRange n 10 600 = true) :
    pyInt P (toString n) = .ok n := by
  have hall : ∀ n : Fin 601,
      (decimalBody (dropSign (strip isSpace (toString (n.val : Int)).toList))).any
        (fun ds => decide (ds.length ≤ 4300) &&
          decide (ds.foldl (fun n d => 10 * n + d) 0 = n.val)) = true ∧
        (strip isSpace (toString (n.val : Int)).toList).head? ≠ some '-' := by
    decide +kernel
  simp only [inRange, Bool.and_eq_true, decide_eq_true_eq] at h
  obtain ⟨m, rfl⟩ := Int.eq_ofNat_of_zero_le (show 0 ≤ n by omega)
  obtain ⟨hdigits, hsign⟩ := hall ⟨m, by omega⟩
  unfold pyInt
  dsimp only
  cases hbody : decimalBody (dropSign (strip isSpace (toString (m : Int)).toList)) with
  | none =>
    rw [hbody] at hdigits
    cases hdigits
  | some ds =>
    rw [hbody] at hdigits
    simp only [Option.any_some, Bool.and_eq_true, decide_eq_true_eq] at hdigits
    dsimp only
    rw [if_neg (by omega)]
    simp only [beq_iff_eq, hsign, if_false]
    exact congrArg Except.ok ((Ipv4.foldl_digits 10 ds 0).trans (congrArg Nat.cast hdigits.2))

/-- The worker gets the arguments that the request has put into the job. -/
theorem payloadArgs_wakePayload (P : Platform) {machineId attemptId actorId : String}
    {b : WakeRequest} (hvalid : b.valid = true) :
    payloadArgs P (Api.wakePayload machineId attemptId actorId b) =
      Program.pure (argsOf machineId b "user" actorId) := by
  have htimeout : (JsonObject.get (Api.wakePayload machineId attemptId actorId b)
      "poll_timeout_s" (.int 120)).pyStr = toString b.pollTimeoutS := by
    unfold Api.wakePayload
    cases Api.strategyName b <;> rfl
  unfold payloadArgs
  rw [htimeout, pyInt_timeout P hvalid]
  dsimp only
  unfold argsOf Api.wakePayload Api.strategyName
  obtain ⟨ensureOnline, pollTimeoutS, strategy⟩ := b
  cases ensureOnline <;> rcases strategy with _ | _ | _ <;> rfl

/-! ## What threads have sent and added -/

section Logs
variable {P : Platform} {w w' : System.World P} {allowed : System.World P → Action (machine P) Label → Prop}
  {a : Action (machine P) Label}

/-- The thread has sent a packet. -/
def Sent (w : System.World P) (i : Nat) : Prop :=
  ∃ t e, w.threads[i]? = some t ∧ e ∈ t.log ∧ isSend e.op = true

/-- The thread has added the job. -/
def Adds (t : Thread (machine P) Label Result) (job : Uuid × JsonObject) : Prop :=
  ∃ e ∈ t.log, addedBy e.op e.reply = some job

theorem queuePost_eq (t : Thread (machine P) Label Result) :
    queuePost t = postAfter t.label t.done := by
  unfold queuePost Thread.ghost postAfter Thread.done
  rw [List.foldr_map]

/-- A job that was returned stays with its worker. -/
theorem Post.returned_next {g : Post} {job : Uuid × JsonObject} (h : g.returned = some job)
    (op : Op) (r : app.Reply op) : (g.next op r).returned = some job := by
  have hdrops : g.drops.returned = some job := by
    cases g <;> exact h
  have hcommits : g.commits.returned = some job := by
    cases g <;> first
      | exact h
      | cases h
  have hcloses : g.closes.returned = some job := by
    cases g <;> exact h
  have hkept : ∀ f : Post → Post, (∀ j, f (.working j) = .working j) →
      (∀ j, f (.closing j) = .closing j) → (f g).returned = some job := by
    intro f hworking hclosing
    cases g with
    | working j => rw [hworking]; exact h
    | closing j => rw [hclosing]; exact h
    | _ => cases h
  cases r with
  | error e =>
    show (g.failed op).returned = some job
    unfold Post.failed
    split
    · exact hkept Post.fails (fun _ => rfl) fun _ => rfl
    · exact hdrops
    · exact hdrops
    · exact hdrops
    · exact h
  | ok answer =>
    show (g.answered op answer).returned = some job
    unfold Post.answered
    split
    · exact hkept (fun g => g.adds _ _) (fun _ => rfl) fun _ => rfl
    · exact hkept (fun g => g.holds _) (fun _ => rfl) fun _ => rfl
    · exact hkept Post.marks (fun _ => rfl) fun _ => rfl
    · exact hcloses
    · exact hcloses
    · exact hcommits
    · exact hdrops
    · exact hdrops
    · exact h

theorem returned_of_longer {label : Label} {done : List (Event app)} {job : Uuid × JsonObject}
    (h : (postAfter label done).returned = some job) (later : List (Event app)) :
    (postAfter label (later ++ done)).returned = some job := by
  induction later with
  | nil => exact h
  | cons e later ih => exact Post.returned_next ih e.op e.reply

theorem op_of_addedBy {op : Op} {r : app.Reply op} {job : Uuid × JsonObject}
    (h : addedBy op r = some job) : ∃ machineId attemptId jobType payload,
      op = .stmt .queue (.jobInsert machineId attemptId jobType payload) := by
  unfold addedBy at h
  split at h
  · exact ⟨_, _, _, _, rfl⟩
  · cases h

/-- An added job has the identifier that was drawn. -/
theorem fresh_of_addedBy {op : Op} {inp : Input} {others : List Store} {sh : Shared} {st : Store}
    {job : Uuid × JsonObject} (h : addedBy op (executeOp P op inp others sh st).1 = some job) :
    job.1 = inp.fresh := by
  obtain ⟨machineId, attemptId, jobType, payload, rfl⟩ := op_of_addedBy h
  simp only [executeOp] at h
  rcases executeStmt_cases P .queue inp others sh st
      (.jobInsert machineId attemptId jobType payload) with ⟨e, status, hs, -⟩ |
    ⟨r, -, -, hrun, hs⟩
  · rw [hs] at h
    cases h
  · rw [hs] at h
    obtain ⟨j, hanswer, -, -, hid, -⟩ := run_jobInsert hrun
    obtain rfl := Option.some.inj h
    exact hanswer.trans hid

/-- The jobs that the threads add have new identifiers, and no two threads add the same. -/
structure AddsOnce (issued : List Uuid) (w : System.World P) : Prop where
  grown : ∀ k ∈ issued, k ∈ w.shared.issued
  drawn : ∀ t ∈ w.threads, ∀ job, Adds t job → job.1 ∈ w.shared.issued ∧ job.1 ∉ issued
  once : ∀ (i j : Nat) (t u : Thread (machine P) Label Result) (job job' : Uuid × JsonObject),
    w.threads[i]? = some t → w.threads[j]? = some u → Adds t job → Adds u job' →
      job.1 = job'.1 → i = j

theorem AddsOnce.act {issued : List Uuid} (h : AddsOnce issued w)
    (hact : w.act (start P) a = some w') : AddsOnce issued w' := by
  rcases World.act_cases (start P) hact with ⟨label, rfl, rfl⟩ | ⟨tid, t, rfl, ht, -, rfl⟩ |
    ⟨tid, inp, t, op, next, rfl, ht, hp, hen, rfl⟩
  · have hold : ∀ (i : Nat) (t : Thread (machine P) Label Result) (job : Uuid × JsonObject),
        (w.threads ++ [World.newThread (start P) label])[i]? = some t →
        Adds t job → w.threads[i]? = some t := by
      intro i t job ht hadds
      rw [List.getElem?_append] at ht
      split at ht
      · exact ht
      · obtain ⟨hlt, hget⟩ := List.getElem?_eq_some_iff.mp ht
        rw [List.getElem_singleton] at hget
        obtain ⟨e, he, -⟩ := hadds
        rw [← hget] at he
        exact (List.not_mem_nil he).elim
    refine ⟨h.grown, fun t ht job hadds => ?_, fun i j t u job job' hi hj ht hu heq => ?_⟩
    · obtain ⟨i, hi⟩ := List.mem_iff_getElem?.mp ht
      exact h.drawn t (List.mem_of_getElem? (hold i t job hi hadds)) job hadds
    · exact h.once i j t u job job' (hold i t job hi ht) (hold j u job' hj hu) ht hu heq
  · -- a thread that crashes keeps its log
    have hold : ∀ (i : Nat) (u : Thread (machine P) Label Result) (job : Uuid × JsonObject),
        (w.threads.set tid t.killed)[i]? = some u → Adds u job →
        ∃ u', w.threads[i]? = some u' ∧ Adds u' job := by
      intro i u job hu hadds
      by_cases hi : tid = i
      · subst hi
        rw [List.getElem?_set_self (List.getElem?_eq_some_iff.mp ht).1] at hu
        cases hu
        exact ⟨t, ht, hadds⟩
      · exact ⟨u, by rwa [List.getElem?_set_ne hi] at hu, hadds⟩
    refine ⟨h.grown, fun u hu job hadds => ?_, fun i j u u' job job' hi hj hu hu' heq => ?_⟩
    · obtain ⟨i, hi⟩ := List.mem_iff_getElem?.mp hu
      obtain ⟨u', hu', hadds'⟩ := hold i u job hi hadds
      exact h.drawn u' (List.mem_of_getElem? hu') job hadds'
    · obtain ⟨v, hv, hvadds⟩ := hold i u job hi hu
      obtain ⟨v', hv', hvadds'⟩ := hold j u' job' hj hu'
      exact h.once i j v v' job job' hv hv' hvadds hvadds' heq
  · obtain ⟨hgrows, hdraws⟩ := issued_grows hen
    let r := executeOp P op inp (w.others tid) w.shared t.store
    -- what was added before, or is added now with a new identifier
    have hold : ∀ (i : Nat) (u : Thread (machine P) Label Result) (job : Uuid × JsonObject),
        (w.threads.set tid (t.performed op next r w.clock))[i]? = some u →
        Adds u job → (∃ u', w.threads[i]? = some u' ∧ Adds u' job) ∨
          i = tid ∧ job.1 = inp.fresh ∧ inp.fresh ∉ w.shared.issued ∧
            r.2.1.issued = inp.fresh :: w.shared.issued := by
      intro i u job hu hadds
      by_cases hi : tid = i
      · subst hi
        rw [List.getElem?_set_self (List.getElem?_eq_some_iff.mp ht).1] at hu
        cases hu
        obtain ⟨e, he, hadded⟩ := hadds
        rcases List.mem_cons.mp he with rfl | he
        · refine .inr ⟨rfl, ?_, hdraws job hadded⟩
          exact fresh_of_addedBy hadded
        · exact .inl ⟨t, ht, e, he, hadded⟩
      · exact .inl ⟨u, by rwa [List.getElem?_set_ne hi] at hu, hadds⟩
    refine ⟨fun k hk => hgrows k (h.grown k hk), fun u hu job hadds => ?_,
      fun i j u u' job job' hi hj hu hu' heq => ?_⟩
    · obtain ⟨i, hi⟩ := List.mem_iff_getElem?.mp hu
      rcases hold i u job hi hadds with ⟨u', hu', hadds'⟩ | ⟨-, hjob, hfresh, hissued⟩
      · obtain ⟨hdrawn, hnew⟩ := h.drawn u' (List.mem_of_getElem? hu') job hadds'
        exact ⟨hgrows _ hdrawn, hnew⟩
      · rw [hjob]
        refine ⟨?_, fun hk => hfresh (h.grown _ hk)⟩
        show inp.fresh ∈ r.2.1.issued
        rw [hissued]
        exact List.mem_cons_self
    · rcases hold i u job hi hu with ⟨v, hv, hvadds⟩ | ⟨hi', hjob, hfresh, -⟩
      · rcases hold j u' job' hj hu' with ⟨v', hv', hvadds'⟩ | ⟨-, hjob', hfresh, -⟩
        · exact h.once i j v v' job job' hv hv' hvadds hvadds' heq
        · have hdrawn := (h.drawn v (List.mem_of_getElem? hv) job hvadds).1
          rw [heq, hjob'] at hdrawn
          exact absurd hdrawn hfresh
      · rcases hold j u' job' hj hu' with ⟨v', hv', hvadds'⟩ | ⟨hj', -⟩
        · have hdrawn := (h.drawn v' (List.mem_of_getElem? hv') job' hvadds').1
          rw [← heq, hjob] at hdrawn
          exact absurd hdrawn hfresh
        · exact hi'.trans hj'.symm

theorem addsOnce_of_reachable {db : Database} {issued : List Uuid}
    (hrun : Reachable (start P) allowed (System.World.init P db issued) w) : AddsOnce issued w := by
  refine hrun.invariant ⟨fun k hk => hk, fun t ht => ?_, fun i j t u _ _ ht => ?_⟩
    fun v a v' _ hv _ hact => hv.act hact
  · cases ht
  · cases ht

/-- A thread adds at most one job. -/
theorem job_unique {db : Database} {issued : List Uuid}
    (hrun : Reachable (start P) allowed (System.World.init P db issued) w) {i : Nat}
    {t : Thread (machine P) Label Result} (ht : w.threads[i]? = some t) {job job' : Uuid × JsonObject}
    (h : Adds t job) (h' : Adds t job') : job = job' := by
  have hone : ∀ {later earlier : List (Stamped app)} {e : Stamped app} {job : Uuid × JsonObject},
      t.log = later ++ e :: earlier → addedBy e.op e.reply = some job →
      ∀ e' ∈ earlier, ∀ job', addedBy e'.op e'.reply ≠ some job' := by
    intro later earlier e job hlog hadds e' he' job' hadds'
    have hfollowed := hrun.followed rfl (fun _ label _ => traced_start label) ht hlog
    obtain ⟨_, _, _, _, hop⟩ := op_of_addedBy hadds
    obtain ⟨_, _, _, _, hop'⟩ := op_of_addedBy hadds'
    rw [hop] at hfollowed
    have hnone := hfollowed.1 e'.toEvent (List.mem_map_of_mem he')
    rw [hop'] at hnone
    cases hnone
  obtain ⟨e, he, hadds⟩ := h
  obtain ⟨e', he', hadds'⟩ := h'
  obtain ⟨later, earlier, hlog⟩ := List.append_of_mem he
  rw [hlog, List.mem_append, List.mem_cons] at he'
  rcases he' with he' | rfl | he'
  · obtain ⟨later', mid, rfl⟩ := List.append_of_mem he'
    have hsplit : t.log = later' ++ e' :: (mid ++ e :: earlier) := by rw [hlog]; simp
    exact absurd hadds (hone hsplit hadds' e (by simp) job)
  · exact Option.some.inj (hadds.symm.trans hadds')
  · exact absurd hadds' (hone hlog hadds e' he' job')

end Logs

/-! ## Origins -/

/-- Where a packet comes from. -/
inductive Origin where
  /-- The thread serves a request that wakes the machine itself. -/
  | direct (i : Nat)
  /-- A request that another thread served has added the job. -/
  | queued (i : Nat)
  /-- The job was there when the system started. -/
  | initial (id : Uuid)
deriving DecidableEq

section Origins
variable {P : Platform}

/-- The thread that has added the job with the identifier. -/
def adder (w : System.World P) (id : Uuid) : Option Nat :=
  w.threads.findIdx? fun t => t.log.any fun e => (addedBy e.op e.reply).any (·.1 == id)

/-- Where the packet of a thread comes from. -/
def origin (w : System.World P) (i : Nat) : Option Origin :=
  (w.threads[i]?).bind fun t =>
    match t.label with
    | .request _ => some (.direct i)
    | .worker _ => (returnedJob t).map fun job => (adder w job.1).elim (.initial job.1) .queued

/-- What was asked for: the arguments of the wake for which thread `i` has sent its packet by
the event `e`, after `earlier`. -/
def AskedBy (P : Platform) (db : Database) (w₀ w : System.World P) (i : Nat) (e : Stamped app)
    (earlier : List (Stamped app)) (a : WakeArgs) : Origin → Prop
  | .direct j => j = i ∧ ∃ t req machineId b id, w.threads[i]? = some t ∧ t.label = .request req ∧
      req.route = .wakeMachineDirect machineId (.typed b) ∧ HeldToken P w₀ w i req earlier id ∧
      a = argsOf machineId b "api_token" id.text
  | .queued j => ∃ t later e₀ log req machineId b s, w.threads[j]? = some t ∧
      t.label = .request req ∧ req.route = .wakeMachine machineId (.typed b) ∧
      t.log = later ++ e₀ :: log ∧ e₀.op.addsJob = true ∧ e₀.time < e.time ∧
      HeldSession P w₀ w j req log s ∧
      (∃ time, P.csrfLoads time req.csrfToken = some (s.id.text, s.csrfSecret)) ∧
      a = argsOf machineId b "user" s.userId.text
  | .initial id => ∃ j ∈ db.jobs, j.id = id ∧ payloadArgs P j.payload = Program.pure a

/-- The packet is for the machine of the arguments, which was stored and enabled; an attempt
that names who asked was recorded before. -/
def PacketFor (P : Platform) (w₀ w : System.World P) (i : Nat) (earlier : List (Stamped app))
    (a : WakeArgs) (mac : String) (interface broadcast : Option String) : Prop :=
  ∃ m fields id, Meanwhile P w₀ w i earlier (fun db => m ∈ db.machines) ∧
    Uuid.parse? a.machineId = some m.id ∧ m.enabled = true ∧ mac = m.macAddress ∧
    interface = m.wakeInterface ∧ broadcast = m.broadcastAddress ∧
    Answered (earlier.map Stamped.toEvent) (.stmt .main (.attemptInsert fields)) id ∧
    fields.machineId = a.machineId ∧ fields.actorType = a.actorType ∧ fields.actorId = a.actorId

variable {w : System.World P} {db : Database} {issued : List Uuid}
  {allowed : System.World P → Action (machine P) Label → Prop}

theorem adds_of_any {t : Thread (machine P) Label Result} {id : Uuid} :
    (t.log.any fun e => (addedBy e.op e.reply).any (·.1 == id)) = true ↔
      ∃ payload, Adds t (id, payload) := by
  rw [List.any_eq_true]
  constructor
  · rintro ⟨e, he, hadded⟩
    obtain ⟨⟨id', payload⟩, hjob, hid⟩ := (Option.any_eq_true _ _).mp hadded
    obtain rfl : id' = id := by simpa using hid
    exact ⟨payload, e, he, hjob⟩
  · rintro ⟨payload, e, he, hjob⟩
    exact ⟨e, he, by rw [hjob]; simp⟩

theorem adder_eq_some (hadds : AddsOnce issued w) {r : Nat} {t : Thread (machine P) Label Result}
    {id : Uuid} {payload : JsonObject} (ht : w.threads[r]? = some t) (h : Adds t (id, payload)) :
    adder w id = some r := by
  obtain ⟨hr, hget⟩ := List.getElem?_eq_some_iff.mp ht
  refine List.findIdx?_eq_some_iff_getElem.mpr ⟨hr, ?_, fun j hj => ?_⟩
  · rw [hget]
    exact adds_of_any.mpr ⟨payload, h⟩
  · have hlt : j < w.threads.length := by omega
    intro hany
    obtain ⟨payload', h'⟩ := adds_of_any.mp hany
    have heq := hadds.once j r w.threads[j] t _ _ (List.getElem?_eq_getElem hlt) ht h' h rfl
    omega

theorem adder_eq_none (hadds : AddsOnce issued w) {id : Uuid} (hid : id ∈ issued) :
    adder w id = none := by
  refine List.findIdx?_eq_none_iff.mpr fun t ht => ?_
  by_contra hany
  obtain ⟨payload, h⟩ := adds_of_any.mp (by simpa using hany)
  exact (hadds.drawn t ht _ h).2 hid

/-- Who has got a job keeps it. -/
theorem returnedJob_of_working {t : Thread (machine P) Label Result}
    {later earlier : List (Stamped app)} {e : Stamped app} {j : WakeJob}
    (hlog : t.log = later ++ e :: earlier)
    (hpost : postAfter t.label (earlier.map Stamped.toEvent) = .working j) :
    returnedJob t = some j.entry := by
  have hdone : t.done = (later ++ [e]).map Stamped.toEvent ++ earlier.map Stamped.toEvent := by
    unfold Thread.done
    rw [hlog]
    simp
  unfold returnedJob
  rw [queuePost_eq, hdone]
  exact returned_of_longer (by rw [hpost]; rfl) _

/-! ## From histories to packets -/

variable {i : Nat} {t : Thread (machine P) Label Result} {later earlier : List (Stamped app)}
  {e : Stamped app} {a : WakeArgs}

theorem packetFor_of_shows
    (hrun : Reachable (start P) (fun _ _ => True) (System.World.init P db issued) w)
    (ht : w.threads[i]? = some t) (hlog : t.log = later ++ e :: earlier)
    (heffects : ∀ x ∈ t.label.effects, x.sparesMachines = true) {mac : String}
    {interface broadcast : Option String}
    (h : ShowsWake (earlier.map Stamped.toEvent) a mac interface broadcast) :
    PacketFor P (System.World.init P db issued) w i earlier a mac interface broadcast := by
  obtain ⟨m, fields, id, hread, henabled, hmac, hinterface, hbroadcast, hattempt, hfields⟩ := h
  have hsplit : t.log = (later ++ [e]) ++ earlier := by rw [hlog]; simp
  have hfound : During (start P) (fun _ _ => True) (System.World.init P db issued) w i earlier
      fun sh => m ∈ sh.db.machines ∧ Uuid.parse? a.machineId = some m.id := by
    refine (answered_during ownEffects_init hrun rfl ht hsplit hread).mono fun sh hsh => ?_
    obtain ⟨inp, locked, xs, r, hxs, hstmt, hanswer⟩ := hsh
    obtain ⟨k, hk, hr⟩ := bind_eq_ok.mp hstmt
    obtain rfl := pure_eq_ok.mp hr
    have hkey : m.id = k := by simpa using List.find?_some hanswer
    have hmem := List.mem_of_find?_eq_some hanswer
    rw [untouched_machines.after fun x hx => heffects _ (hxs x hx)] at hmem
    exact ⟨hmem, hkey ▸ uuidParam_eq_ok.mp hk⟩
  have hid : Uuid.parse? a.machineId = some m.id := by
    obtain ⟨-, -, -, -, -, -, -, hid⟩ := hfound
    exact hid
  exact ⟨m, fields, id, hfound.mono fun sh hsh => hsh.1, hid, henabled, hmac, hinterface,
    hbroadcast, hattempt, hfields⟩

/-- A request has asked for the packet that it sends itself. -/
theorem askedBy_direct {req : Request}
    (hrun : Reachable (start P) (fun _ _ => True) (System.World.init P db issued) w)
    (ht : w.threads[i]? = some t) (hlabel : t.label = .request req)
    (hlog : t.log = later ++ e :: earlier)
    (h : WakeOf P (.request req) (earlier.map Stamped.toEvent) a) :
    origin w i = some (.direct i) ∧
      AskedBy P db (System.World.init P db issued) w i e earlier a (.direct i) ∧
        ∀ x ∈ t.label.effects, x.sparesMachines = true := by
  obtain ⟨machineId, b, raw, k, hroute, hraw, hk, ha⟩ := h
  have hsplit : t.log = (later ++ [e]) ++ earlier := by rw [hlog]; simp
  have hguard : req.route.guard = .token := by rw [hroute]; rfl
  refine ⟨?_, ⟨rfl, t, req, machineId, b, k.id, ht, hlabel, hroute, ?_, ha⟩, ?_⟩
  · unfold origin
    rw [ht]
    simp only [Option.bind_some, hlabel]
  · exact heldToken_of_shows ownEffects_init hrun rfl ht hlabel hsplit (.inl hguard) hraw hk
  · rw [hlabel]
    simp only [Label.effects, hroute, Route.effects]
    decide

/-- What a request has put into the queue, it has put there for a user. -/
theorem askedBy_queued {j : Nat} {u : Thread (machine P) Label Result}
    {later₀ log : List (Stamped app)} {e₀ : Stamped app} {id : Uuid} {payload : JsonObject}
    (hrun : Reachable (start P) (fun _ _ => True) (System.World.init P db issued) w)
    (hu : w.threads[j]? = some u) (hlog : u.log = later₀ ++ e₀ :: log)
    (hadded : addedBy e₀.op e₀.reply = some (id, payload)) (htime : e₀.time < e.time)
    (ha : payloadArgs P payload = Program.pure a) :
    AskedBy P db (System.World.init P db issued) w i e earlier a (.queued j) := by
  obtain ⟨machineId, attemptId, jobType, payload', hop⟩ := op_of_addedBy hadded
  have hsplit : u.log = (later₀ ++ [e₀]) ++ log := by rw [hlog]; simp
  have hfollowed := hrun.followed rfl (fun _ label _ => traced_start label) hu hlog
  obtain ⟨⟨op, r⟩, time⟩ := e₀
  obtain rfl : op = _ := hop
  obtain ⟨-, req, machineId, b, text, s, v, attemptId, hlabel, hroute, hvalid, hcookie, hs, hcsrf,
    hpayload⟩ := hfollowed
  have hguard : req.route.guard = .csrf := by rw [hroute]; rfl
  have howner : v.id = s.userId := owner_of_shows ownEffects_init hrun rfl hu hsplit hs
  have hsame : payload = payload' := by
    cases r with
    | error exc => cases hadded
    | ok id' => exact (congrArg Prod.snd (Option.some.inj hadded)).symm
  refine ⟨u, later₀, _, log, req, machineId, b, s, hu, hlabel, hroute, hlog, rfl, htime,
    heldSession_of_shows ownEffects_init hrun rfl hu hlabel hsplit (by simp [hguard]) hcookie hs,
    loads_of_answered hrun rfl hu hsplit hcsrf, ?_⟩
  rw [hsame, hpayload, payloadArgs_wakePayload P hvalid] at ha
  rw [← howner]
  exact (Program.pure.inj ha).symm

/-- The job that a worker works off was queued by a request, or before the start. -/
theorem askedBy_worker {fuel : Nat} (hstart : QueueStart db issued)
    (hrun : Reachable (start P) (fun _ _ => True) (System.World.init P db issued) w)
    (ht : w.threads[i]? = some t) (hlabel : t.label = .worker fuel)
    (hlog : t.log = later ++ e :: earlier)
    (h : WakeOf P (.worker fuel) (earlier.map Stamped.toEvent) a) :
    ∃ o, origin w i = some o ∧
      AskedBy P db (System.World.init P db issued) w i e earlier a o := by
  obtain ⟨job, hpost, ha⟩ := h
  rw [← hlabel] at hpost
  have hadds : AddsOnce issued w := addsOnce_of_reachable hrun
  have horigin : origin w i = some ((adder w job.id).elim (.initial job.id) .queued) := by
    unfold origin
    rw [ht]
    simp only [Option.bind_some, hlabel, returnedJob_of_working hlog hpost, Option.map_some]
    rfl
  -- the moment when the packet was sent
  obtain ⟨v, t', hv, hw, hlabel', hlog', hget, hclock, -⟩ := hrun.performed rfl ht hlog
  have hreturned : returnedJob t' = some job.entry := by
    unfold returnedJob
    rw [queuePost_eq, Thread.done, hlog', hlabel', hpost]
    rfl
  have hfrom := ((queueWorld_of_reachable hstart hv).returned_from (List.mem_of_getElem? hget)
    hreturned).1
  rcases hfrom with hinitial | ⟨u, hu, e₀, he₀, hadded⟩
  · obtain ⟨j, hj, hentry⟩ := List.mem_map.mp hinitial
    obtain ⟨hid, hpayload⟩ := Prod.mk.inj hentry
    refine ⟨.initial job.id, ?_, j, hj, hid, by rw [hpayload]; exact ha⟩
    rw [horigin, adder_eq_none hadds (hid ▸ hstart.drawn j hj)]
    rfl
  · have htime : e₀.time < e.time := hclock ▸ hv.time_lt rfl u hu e₀ he₀
    obtain ⟨r, hr⟩ := List.mem_iff_getElem?.mp hu
    obtain ⟨u', hu', -, hsuffix⟩ := hw.grows hr
    have he₀' : e₀ ∈ u'.log := hsuffix.mem he₀
    obtain ⟨later₀, log, hsplit⟩ := List.append_of_mem he₀'
    refine ⟨.queued r, ?_, askedBy_queued hrun hu' hsplit hadded htime ha⟩
    rw [horigin, adder_eq_some hadds hu' ⟨e₀, he₀', hadded⟩]
    rfl

/-- A thread that sends has an origin: it serves the request, or works off the job. -/
theorem origin_of_sent
    (hrun : Reachable (start P) (fun _ _ => True) (System.World.init P db issued) w)
    (h : Sent w i) : origin w i = some (.direct i) ∨ ∃ t job, w.threads[i]? = some t ∧
      returnedJob t = some job ∧
        origin w i = some ((adder w job.1).elim (.initial job.1) .queued) := by
  obtain ⟨t, e, ht, he, hsend⟩ := h
  obtain ⟨later, earlier, hlog⟩ := List.append_of_mem he
  have hfollowed := hrun.followed rfl (fun _ label _ => traced_start label) ht hlog
  have hwake : ∃ a, WakeOf P t.label (earlier.map Stamped.toEvent) a := by
    cases hop : e.op with
    | send strategy mac interface broadcast =>
      rw [hop] at hfollowed
      obtain ⟨-, a, hwake, -⟩ := hfollowed
      exact ⟨a, hwake⟩
    | _ =>
      rw [hop] at hsend
      cases hsend
  obtain ⟨a, hwake⟩ := hwake
  unfold origin
  rw [ht]
  cases hlabel : t.label with
  | request req =>
    refine .inl ?_
    simp only [Option.bind_some, hlabel]
  | worker fuel =>
    rw [hlabel] at hwake
    obtain ⟨job, hpost, -⟩ := hwake
    rw [← hlabel] at hpost
    have hreturned := returnedJob_of_working hlog hpost
    refine .inr ⟨t, job.entry, rfl, hreturned, ?_⟩
    simp only [Option.bind_some, hlabel, hreturned, Option.map_some]

theorem adds_of_adder {id : Uuid} {r : Nat} (h : adder w id = some r) :
    ∃ t payload, w.threads[r]? = some t ∧ Adds t (id, payload) := by
  obtain ⟨hr, hany, -⟩ := List.findIdx?_eq_some_iff_getElem.mp h
  obtain ⟨payload, hadds⟩ := adds_of_any.mp hany
  exact ⟨w.threads[r], payload, List.getElem?_eq_getElem hr, hadds⟩

/-- Workers whose packets have the same origin work off the same job. -/
theorem eq_of_origin {job job' : Uuid × JsonObject}
    (hrun : Reachable (start P) allowed (System.World.init P db issued) w)
    (h : (adder w job.1).elim (Origin.initial job.1) .queued =
      (adder w job'.1).elim (.initial job'.1) .queued) : job.1 = job'.1 := by
  cases hadder : adder w job.1 with
  | none =>
    rw [hadder] at h
    cases hadder' : adder w job'.1 with
    | none =>
      rw [hadder'] at h
      exact Origin.initial.inj h
    | some r =>
      rw [hadder'] at h
      cases h
  | some r =>
    rw [hadder] at h
    cases hadder' : adder w job'.1 with
    | none =>
      rw [hadder'] at h
      cases h
    | some r' =>
      rw [hadder'] at h
      obtain rfl : r = r' := Origin.queued.inj h
      obtain ⟨u, payload, hu, hadds⟩ := adds_of_adder hadder
      obtain ⟨u', payload', hu', hadds'⟩ := adds_of_adder hadder'
      obtain rfl := Option.some.inj (hu.symm.trans hu')
      exact (Prod.mk.inj (job_unique hrun hu hadds hadds')).1

theorem origins_apart {j : Nat} (hstart : QueueStart db issued)
    (hrun : Reachable (start P) (fun _ _ => True) (System.World.init P db issued) w)
    (hij : i ≠ j) (hi : Sent w i) (hj : Sent w j) : origin w i ≠ origin w j := by
  intro heq
  rcases origin_of_sent hrun hi with hdirect | ⟨t, job, ht, hreturned, horigin⟩
  · rcases origin_of_sent hrun hj with hdirect' | ⟨u, job', hu, -, horigin'⟩
    · rw [hdirect, hdirect'] at heq
      exact hij (Origin.direct.inj (Option.some.inj heq))
    · rw [hdirect, horigin'] at heq
      cases hadder : adder w job'.1 <;> rw [hadder] at heq <;> cases heq
  · rcases origin_of_sent hrun hj with hdirect' | ⟨u, job', hu, hreturned', horigin'⟩
    · rw [hdirect', horigin] at heq
      cases hadder : adder w job.1 <;> rw [hadder] at heq <;> cases heq
    · rw [horigin, horigin'] at heq
      exact (queueWorld_of_reachable hstart hrun).once i j t u job job' hij ht hu hreturned
        hreturned' (eq_of_origin hrun (Option.some.inj heq))

end Origins

/-! ## Main results -/

end WolMonkey
