import WolMonkey.Facts.Answers

/-!
# Tokens with a machine

`create_token` stores the machine that a token is made for, and nothing reads it again:
`POST /machines/{id}/wake/direct` accepts every live token for every machine. Such a
request for another machine is refused only for reasons that have nothing to do with the
token's machine (`OtherwiseRefused`), and these are exactly the cases in which the scope of
the token is kept.
-/

namespace WolMonkey

open Programs Program

/-- The reasons for which a direct wake is refused: the token is not live, the body is not
valid, the machine does not exist, is disabled or has no known strategy, one of the first
five database calls fails, or the identifier of the attempt is taken. -/
def OtherwiseRefused (P : Platform) (db : Database) (inputs : Nat → Input) (raw machineId : String)
    (body : JsonBody WakeRequest) : Prop :=
  db.liveToken? P raw = none ∨
    (∀ b, body = .typed b → b.valid = false) ∨
    (∀ b m, body = .typed b → db.machine? machineId = some m →
      m.enabled = false ∨ wakeStrategyOk (orElse (Api.strategyName b) m.wakeStrategy) = false) ∨
    (∃ n < 5, (inputs n).fault ≠ none) ∨
    ∃ w ∈ db.attempts, w.id = (inputs 3).fresh

section Direct
variable {P : Platform} {req : Request} {inputs : Nat → Input} {sh : Shared}
  {raw machineId : String} {body : JsonBody WakeRequest}

/-- A direct wake calls `strategy.wake` unless there is another reason to refuse it. -/
theorem sendsPacket_iff (hroute : req.route = .wakeMachineDirect machineId body)
    (hraw : bearerToken req.authorization = some raw) :
    sendsPacket P req inputs sh = true ↔ ¬ OtherwiseRefused P sh.db inputs raw machineId body := by
  constructor
  · intro hsends
    obtain ⟨token, s₁, b, hrun, rfl, hb, hready⟩ := wakeReady_of_sendsPacket hroute hsends
    obtain ⟨-, hfaults, hlive, w, hw, hview, -, hinputs⟩ :=
      runs_validateApiToken ((runs_getApiToken hraw).mp hrun)
    obtain ⟨hmachines, hattempts⟩ := machines_touched (Solo.init inputs sh).view hw
    rintro (hdead | hinvalid | hmachine | ⟨n, hn, hfault⟩ | ⟨a, ha, hid⟩)
    · rw [Solo.view_init, hdead] at hlive
      cases hlive
    · have := hinvalid b rfl
      rw [hb] at this
      cases this
    · obtain ⟨id, m, hid, hm, henabled, hstrategy⟩ := hready.machine
      rw [hview, hmachines] at hm
      rcases hmachine b m rfl (machine?_eq_some.mpr ⟨hready.valid, id, hid, hm⟩) with h | h
      · rw [h] at henabled
        cases henabled
      · have hstrategy' : wakeStrategyOk (orElse (Api.strategyName b) m.wakeStrategy) = true :=
          hstrategy
        rw [h] at hstrategy'
        cases hstrategy'
    · by_cases hlt : n < 2
      · exact hfault (hfaults n hlt)
      · have hlater := hready.faultless (n - 2) (by omega)
        rw [hinputs, Nat.sub_add_cancel (by omega)] at hlater
        exact hfault hlater
    · refine hready.fresh a ?_ ?_
      · rw [hview, hattempts]
        exact ha
      · rw [hinputs]
        exact hid
  · intro hno
    simp only [OtherwiseRefused, not_or, not_forall, not_exists, not_and, Bool.not_eq_false,
      ne_eq, not_not] at hno
    obtain ⟨hlive, ⟨b, hbody, hb⟩, ⟨b', m, hbody', hm, henabled, hstrategy⟩, hfaults, hfresh⟩ := hno
    subst hbody
    cases hbody'
    obtain ⟨token, hlive⟩ := Option.ne_none_iff_exists'.mp hlive
    obtain ⟨s₁, hvalidate⟩ := exists_runs_validateApiToken (P := P) (s := Solo.init inputs sh) rfl
      (fun n hn => hfaults n (by omega)) hlive
    obtain ⟨-, -, -, w, hw, hview, hactive, hinputs⟩ := runs_validateApiToken hvalidate
    obtain ⟨hmachines, hattempts⟩ := machines_touched (Solo.init inputs sh).view hw
    obtain ⟨hvalid, id, hid, hfind⟩ := machine?_eq_some.mp hm
    have hinRange : 10 ≤ b.pollTimeoutS ∧ b.pollTimeoutS ≤ 600 := by
      simpa [WakeRequest.valid, inRange] using hb
    refine sendsPacket_of_wakeReady hroute ((runs_getApiToken hraw).mpr hvalidate) hb ?_
    refine ⟨hactive, fun n hn => ?_, fun a ha => ?_, hvalid, ⟨id, m, hid, ?_, henabled, hstrategy⟩,
      ?_, ?_, ?_⟩
    · rw [hinputs]
      exact hfaults (n + 2) (by omega)
    · rw [hview, hattempts] at ha
      rw [hinputs]
      exact hfresh a ha
    · rw [hview, hmachines]
      exact hfind
    · have hactor : (varchar 20 "api_token").isSome = true := by decide
      exact hactor
    · rw [directArgs, varchar_text (by omega)]
      rfl
    · have hbounds : -2147483648 ≤ b.pollTimeoutS ∧ b.pollTimeoutS ≤ 2147483647 := by omega
      simp only [directArgs, int4Ok, Bool.and_eq_true]
      exact ⟨decide_eq_true hbounds.1, decide_eq_true hbounds.2⟩

/-! ## Refusals -/

theorem failsWith_wake {a : WakeArgs} :
    FailsWith (soloExec P) PyExc.Refuses (WakeService.wake P a) := by
  have hwake : ∀ message, (PyExc.wake message).Refuses := nofun
  refine FailsWith.bind (failsWith_guardUuid (failsWith_execute refuses_database)) fun found => ?_
  cases found with
  | none => exact failsWith_raise (hwake _)
  | some machine =>
    dsimp only
    split
    · exact failsWith_raise (hwake _)
    · refine FailsWith.bind (FailsWith.bind (failsWith_execute refuses_database) fun _ =>
        failsWith_execute refuses_database) fun attempt => FailsWith.bind ?_ fun strategy => ?_
      · unfold getStrategy
        split
        · exact failsWith_pure _
        · split
          · exact failsWith_pure _
          · exact failsWith_raise nofun
      · refine FailsWith.bind (FailsWith.tryCatch (R := fun _ => True) ?_ fun exc _ => ?_)
          fun _ => failsWith_pure _
        · refine FailsWith.bind (failsWith_perform fun _ _ _ => trivial) fun _ => ?_
          exact failsWith_execute fun _ => trivial
        · refine FailsWith.bind (failsWith_await fun s => ⟨_, rfl⟩) fun _ => ?_
          exact FailsWith.bind (failsWith_execute refuses_database) fun _ => failsWith_raise (hwake _)

theorem failsWith_getApiToken : FailsWith (soloExec P) PyExc.Refuses (getApiToken P req) := by
  unfold getApiToken
  split
  · exact failsWith_raise (refuses_http (by omega))
  · refine FailsWith.tryCatch (R := fun _ => True) ?_ fun _ _ =>
      failsWith_raise (refuses_http (by omega))
    refine FailsWith.bind (failsWith_execute fun _ => trivial) fun found => ?_
    cases found with
    | none => exact failsWith_raise trivial
    | some record =>
      dsimp only
      split
      · exact failsWith_raise trivial
      · exact FailsWith.bind (failsWith_execute fun _ => trivial) fun _ => failsWith_pure _

theorem failsWith_wakeMachineDirect :
    FailsWith (soloExec P) PyExc.Refuses (Api.wakeMachineDirect P req machineId body) := by
  rw [wakeMachineDirect_eq]
  refine failsWith_withBody refuses_database nofun failsWith_getApiToken fun token b => ?_
  refine FailsWith.bind (FailsWith.tryCatch failsWith_wake fun exc hexc => ?_)
    fun _ => failsWith_pure _
  split
  · exact failsWith_raise (refuses_http (by omega))
  · exact failsWith_raise hexc

/-- The request is answered with an error, and sends no packet. -/
def Refused (P : Platform) (req : Request) (inputs : Nat → Input) (sh : Shared) : Prop :=
  (∃ r, response P req inputs sh = some r ∧ 400 ≤ r.status) ∧ sendsPacket P req inputs sh = false

/-- A direct wake without a packet is answered with an error. -/
theorem refused_of_not_sends (hroute : req.route = .wakeMachineDirect machineId body)
    (h : sendsPacket P req inputs sh = false) : Refused P req inputs sh := by
  have hend : endpoint P req = Api.wakeMachineDirect P req machineId body := by
    rw [endpoint, hroute]
  refine ⟨refused_of_not_runs (hend ▸ failsWith_wakeMachineDirect) fun r s' hrun => ?_, h⟩
  have hsends := sendsPacket_of_runs hroute hrun
  rw [h] at hsends
  cases hsends

/-- A direct wake is refused exactly for one of the other reasons. -/
theorem refused_iff (hroute : req.route = .wakeMachineDirect machineId body)
    (hraw : bearerToken req.authorization = some raw) :
    Refused P req inputs sh ↔ OtherwiseRefused P sh.db inputs raw machineId body := by
  have hsends : sendsPacket P req inputs sh = true ↔
      ¬ OtherwiseRefused P sh.db inputs raw machineId body := sendsPacket_iff hroute hraw
  constructor
  · rintro ⟨-, hno⟩
    by_contra hother
    rw [hsends.mpr hother] at hno
    cases hno
  · intro hother
    refine refused_of_not_sends hroute (Bool.eq_false_iff.mpr fun h => ?_)
    exact hsends.mp h hother

end Direct

/-! ## Runs -/

/-- The raw token that a request creates, and the machine it is created for. -/
def granted (P : Platform) (req : Request) (inputs : Nat → Input) (sh : Shared) :
    Option (String × Uuid) :=
  match req.route, response P req inputs sh with
  | .createToken (.typed b), some { body := .tokenCreated _ _ _ raw, .. } =>
    (b.machineId.bind Uuid.parse?).map fun id => (raw, id)
  | _, _ => none

/-- Every direct wake of a run that bears a token created for another machine meets `C`. -/
def ForeignWakes (P : Platform)
    (C : Shared → Request → (Nat → Input) → String → String → JsonBody WakeRequest → Prop) :
    List (String × Uuid) → List (Request × (Nat → Input)) → Shared → Prop
  | _, [], _ => True
  | grants, (req, inputs) :: rest, sh =>
    (∀ machineId body raw id, req.route = .wakeMachineDirect machineId body →
      bearerToken req.authorization = some raw → (raw, id) ∈ grants →
      Uuid.parse? machineId ≠ some id → C sh req inputs raw machineId body) ∧
    ForeignWakes P C ((granted P req inputs sh).toList ++ grants) rest (serve P req inputs sh)

/-- The tokens of a run stay with the machines they are created for exactly when every
direct wake that bears one for another machine is refused for another reason. -/
theorem token_scope_kept_iff (P : Platform) (run : List (Request × (Nat → Input)))
    (sh : Shared) :
    ForeignWakes P (fun sh req inputs _ _ _ => Refused P req inputs sh) [] run sh ↔
      ForeignWakes P (fun sh _ inputs raw machineId body =>
        OtherwiseRefused P sh.db inputs raw machineId body) [] run sh := by
  suffices ∀ grants, ForeignWakes P (fun sh req inputs _ _ _ => Refused P req inputs sh) grants run
      sh ↔ ForeignWakes P (fun sh _ inputs raw machineId body =>
        OtherwiseRefused P sh.db inputs raw machineId body) grants run sh from this []
  induction run generalizing sh with
  | nil => exact fun grants => Iff.rfl
  | cons step rest ih =>
    obtain ⟨req, inputs⟩ := step
    intro grants
    refine and_congr ?_ (ih _ _)
    refine forall_congr' fun machineId => forall_congr' fun body => forall_congr' fun raw =>
      forall_congr' fun id => forall_congr' fun hroute => forall_congr' fun hraw => ?_
    exact forall_congr' fun _ => forall_congr' fun _ => refused_iff hroute hraw

/-- A second machine, a token for the first one, and a direct wake of the second with it. -/
theorem token_scope_broken :
    ¬ ∀ run : List (Request × (Nat → Input)),
      ForeignWakes Platform.signing (fun sh req inputs _ _ _ =>
        Refused Platform.signing req inputs sh) [] run Shared.fresh := by
  intro h
  have hrun := h (firstSteps ++
    [(adminRequest (.createMachine (.typed
        { name := "tv", ipAddress := "192.168.1.11", macAddress := "aa:bb:cc:dd:ee:01" })),
        Input.signing 4),
      (adminRequest (.createToken (.typed ⟨"nas only", some (Uuid.ofNat 3).text⟩)), Input.token),
      ({ route := .wakeMachineDirect (Uuid.ofNat 4).text (.typed {})
         authorization := some ("Bearer " ++ Platform.sampleToken) }, Input.signing 6)])
  obtain ⟨-, -, -, -, hwake, -⟩ := hrun
  have hrefused := hwake _ _ Platform.sampleToken (Uuid.ofNat 3) rfl (by decide +kernel)
    (by decide +kernel) (by decide +kernel)
  have hsends := hrefused.2
  revert hsends
  decide +kernel

end WolMonkey
