import Mathlib.Logic.Encodable.Basic
import Mathlib.Logic.Equiv.List
import WolMonkey.Facts.Undisturbed
import WolMonkey.Library.TimedTokens

/-!
# CSRF tokens

`require_csrf` lets a request through exactly when its token was issued for its session
within the last hour. The serializer is a parameter of the model; what is assumed of it is
`TimedSerializer.Lawful`, at whole seconds and the `max_age` of `validate_csrf_token`.
-/

namespace WolMonkey

open Programs Program Tokens

/-- The serializer of CSRF tokens: the payload is the session and its secret. -/
def Platform.csrfSerializer (P : Platform) : TimedSerializer (String × String) where
  dumps t a := P.csrfDumps t a.1 a.2
  loads := P.csrfLoads
  unit := DateTime.seconds 1
  maxAge := 3600

/-- `generate_csrf_token` returns the token for the session at the time. -/
def IssuedAt (P : Platform) (t : DateTime) (session : Session) (token : String) : Prop :=
  ∃ s s', (s.inputs 0).now = t ∧
    (generateCsrfToken session.id.text session.csrfSecret).Runs (soloExec P) s token s'

section Tokens
variable {P : Platform} {req : Request} {session : Session} {user : User} {token : String}
  {t : DateTime}

theorem issuedAt_iff : IssuedAt P t session token ↔
    token = P.csrfSerializer.dumps t (session.id.text, session.csrfSecret) := by
  constructor
  · rintro ⟨s, s', rfl, hrun⟩
    unfold generateCsrfToken await at hrun
    rw [runs_perform] at hrun
    exact (Except.ok.inj (congrArg Prod.fst hrun)).symm
  · rintro rfl
    exact ⟨Solo.init (fun _ => { now := t }) Shared.fresh, _, rfl, runs_perform.mpr rfl⟩

/-- `validate_csrf_token` at the time of the next input. -/
theorem eval_validateCsrfToken (s : Solo) (token sid sec : String) :
    ((validateCsrfToken token sid sec).eval (soloExec P) s).1 =
      .value (decide (P.csrfLoads (s.inputs 0).now token = some (sid, sec))) := by
  unfold validateCsrfToken await
  rw [eval_bind, eval_perform]
  rfl

/-- The check lets the request through, or raises the 403. -/
theorem eval_requireCsrf (req : Request) (session : Session) (hP : P.csrfSerializer.Lawful)
    (s : Solo) :
    ((requireCsrf req session).eval (soloExec P) s).1 =
        .value () ∧ P.csrfSerializer.Fresh (s.inputs 0).now (session.id.text, session.csrfSecret)
          req.csrfToken ∨
      ((requireCsrf req session).eval (soloExec P) s).1 = .raised csrfFailed ∧
        ¬ P.csrfSerializer.Fresh (s.inputs 0).now (session.id.text, session.csrfSecret)
          req.csrfToken := by
  unfold requireCsrf
  split
  · rename_i hempty
    refine .inr ⟨rfl, ?_⟩
    rintro ⟨t₀, -, -, htoken⟩
    exact hP.dumps_ne_empty t₀ _ (htoken.symm.trans (beq_iff_eq.mp hempty))
  · have hcheck := eval_validateCsrfToken (P := P) s req.csrfToken session.id.text
      session.csrfSecret
    rcases heval : (validateCsrfToken req.csrfToken session.id.text session.csrfSecret).eval
      (soloExec P) s with ⟨r, s'⟩
    rw [heval] at hcheck
    subst hcheck
    rw [eval_bind, heval]
    by_cases hloads : P.csrfLoads (s.inputs 0).now req.csrfToken =
        some (session.id.text, session.csrfSecret)
    · simp only [hloads, decide_true, if_true]
      exact .inl ⟨rfl, hP.loads_eq_some_iff.mp hloads⟩
    · simp only [hloads, decide_false, Bool.false_eq_true, if_false]
      exact .inr ⟨rfl, fun hfresh => hloads (hP.loads_eq_some_iff.mpr hfresh)⟩

end Tokens

/-! ## A serializer for one token -/

/-- The payload of the sample token, with the second of its signature. -/
def samplePayload : Int × String × String := (1750000000, sampleSession.text, Platform.sampleSecret)

/-- The sample token for its payload, and a code for every other payload. -/
def Platform.signToken (payload : Int × String × String) : String :=
  if payload = samplePayload then sampleCsrf
  else String.ofList (List.replicate (Encodable.encode (payload.1,
    payload.2.1.toList.map Char.toNat, payload.2.2.toList.map Char.toNat) + 1) 'x')

/-- The payload that may have been signed with this token. -/
def Platform.readToken (token : String) : Option (Int × String × String) :=
  if token = sampleCsrf then some samplePayload
  else (Encodable.decode (token.toList.length - 1) : Option (Int × List Nat × List Nat)).map
    fun code => (code.1, String.ofList (code.2.1.map Char.ofNat),
      String.ofList (code.2.2.map Char.ofNat))

/-- The sample platform with tokens for all payloads, which expire. -/
def Platform.timed : Platform :=
  { signing with
    csrfDumps := fun t sid sec => signToken (t / DateTime.seconds 1, sid, sec)
    csrfLoads := fun t token =>
      match readToken token with
      | some payload =>
        if signToken payload = token ∧ payload.1 ≤ t / DateTime.seconds 1 ∧
            t / DateTime.seconds 1 - payload.1 ≤ 3600 then some payload.2
        else none
      | none => none }

theorem Platform.readToken_signToken (payload : Int × String × String) :
    readToken (signToken payload) = some payload := by
  unfold signToken
  split
  · rename_i h
    rw [h]
    exact if_pos rfl
  · have hdot : sampleCsrf.toList.head? = some '.' := by decide +kernel
    have hne : ∀ n, String.ofList (List.replicate (n + 1) 'x') ≠ sampleCsrf := by
      intro n h
      rw [← h, String.toList_ofList, List.replicate_succ, List.head?_cons] at hdot
      cases hdot
    have hchars : ∀ s : String, String.ofList ((s.toList.map Char.toNat).map Char.ofNat) = s := by
      intro s
      rw [List.map_map]
      have hid : Char.ofNat ∘ Char.toNat = id := funext Char.ofNat_toNat
      rw [hid, List.map_id, String.ofList_toList]
    unfold readToken
    rw [if_neg (hne _)]
    simp only [String.toList_ofList, List.length_replicate, Nat.add_sub_cancel, Encodable.encodek,
      Option.map_some, hchars]

theorem Platform.signToken_ne_empty (payload : Int × String × String) : signToken payload ≠ "" := by
  intro h
  have hempty := congrArg (fun s : String => s.toList.isEmpty) h
  unfold signToken at hempty
  split at hempty
  · exact absurd hempty (by decide +kernel)
  · simp [List.replicate_succ] at hempty

theorem Platform.lawful_timed : timed.csrfSerializer.Lawful where
  unit_pos := by decide
  dumps_ne_empty t a := signToken_ne_empty _
  dumps_unit a h := congrArg (fun t => signToken (t, a.1, a.2)) h
  loads_dumps t t₀ a := by
    simp only [csrfSerializer, timed, readToken_signToken, true_and]
    rfl
  loads_forged t token h := by
    simp only [csrfSerializer, timed]
    split
    · rename_i payload hread
      have hother : signToken payload ≠ token := by
        intro hsigned
        refine h (payload.1 * DateTime.seconds 1) payload.2 ?_
        rw [← hsigned]
        have htime : payload.1 * DateTime.seconds 1 / DateTime.seconds 1 = payload.1 :=
          Int.mul_ediv_cancel _ (by decide)
        simp only [csrfSerializer, timed, htime]
      simp only [hother, false_and, if_false]
    · rfl

/-! ## Acceptance -/

end WolMonkey
