import Mathlib.Algebra.Order.Ring.Rat
import WolMonkey.Facts.Execution
import WolMonkey.Library.SlidingWindow

/-!
# The login limiter

`POST /api/auth/login` asks the limiter before it looks at the credentials; the form route
`POST /auth/login` does not. The limiter is a sliding window over the times of the calls it
admits, so no half-open interval of 60 seconds holds more than five password checks of one
client, unless the form route is used in it.
-/

namespace WolMonkey

open Programs Program SlidingWindow

/-- The first thing that `AuthService.login` awaits. -/
def isCredentialCheck : Op → Bool
  | .stmt _ (.userByUsername _) => true
  | _ => false

def Route.isLoginForm : Route → Bool
  | loginPost _ => true
  | _ => false

def Route.isLogin : Route → Bool
  | apiLogin _ | loginPost _ => true
  | _ => false

section Checks
variable (P : Platform)

/-- The request reaches `AuthService.login`. -/
def checksPassword (req : Request) (inputs : Nat → Input) (sh : Shared) : Bool :=
  (handle P req).performs (soloExec P) isCredentialCheck (Solo.init inputs sh)

/-- The times at which login requests of a client reach `AuthService.login`. -/
def passwordChecks (ip : String) : List (Request × (Nat → Input)) → Shared → List Rat
  | [], _ => []
  | (req, inputs) :: rest, sh =>
    (if req.route.isLogin && Api.loginIp req == ip && checksPassword P req inputs sh then
      [(inputs 0).monotonic] else []) ++ passwordChecks ip rest (serve P req inputs sh)

end Checks

/-! ## The limiter -/

/-- `_check_login_rate` is a sliding window in the bucket of the client. -/
theorem checkLoginRate_eq (now : Rat) (ip : String) (buckets : String → List Rat) :
    checkLoginRate now ip buckets =
      ((attempt loginWindow loginMaxAttempts now (buckets ip)).1,
        Function.update buckets ip (attempt loginWindow loginMaxAttempts now (buckets ip)).2) := by
  unfold checkLoginRate attempt live
  dsimp only
  split <;> rfl

section Requests
variable {P : Platform} {req : Request} {inputs : Nat → Input} {sh : Shared}

/-- Only the limiter changes its buckets. -/
theorem soloExec_rateBuckets {es : List Effect} (hrate : .rate ∉ es) {op : Op}
    (hop : Within es op) (s : Solo) :
    (soloExec P op s).2.shared.rateBuckets = s.shared.rateBuckets := by
  cases op with
  | stmt slot st => simp only [soloExec, executeOp]; split <;> rfl
  | commit slot =>
    rcases (executeCommit_cases slot (s.inputs 0) s.shared s.store).1 with h | ⟨-, h⟩
    · exact congrArg Shared.rateBuckets h
    · exact (congrArg Shared.rateBuckets h).trans rfl
  | rollback slot => simp only [soloExec, executeOp]; split <;> rfl
  | send strategy mac interface broadcast => simp only [soloExec, executeOp]; split <;> rfl
  | checkLoginRate ip => exact (hrate (hop .rate rfl)).elim
  | _ => rfl

theorem serve_rateBuckets (h : .rate ∉ req.route.effects) :
    (serve P req inputs sh).rateBuckets = sh.rateBuckets :=
  handle_within.frame (·.shared.rateBuckets) (fun _ s hop => soloExec_rateBuckets h hop s) _

theorem sessions_not_credentialCheck : Sessions fun op => isCredentialCheck op = false :=
  fun _ => ⟨rfl, rfl, rfl⟩

theorem rateless : .rate ∉ [Effect.commit, .reset, .lastLogin, .passwordHash, .newSession] := by
  decide

theorem getDbSession_rateBuckets (body : Code Response) (s : Solo) :
    ((getDbSession body).eval (soloExec P) s).2.shared.rateBuckets =
      (body.eval (soloExec P) s).2.shared.rateBuckets :=
  getDbSession_frame (·.shared.rateBuckets) (fun _ s hop => soloExec_rateBuckets rateless hop s)
    (by simp) body s

/-- A request that is answered with a validation error. -/
theorem serve_invalid {code : Code Response} (hend : endpoint P req = code)
    (hcode : code = raise .validation ∨ code = getDbSession (raise .validation)) :
    (serve P req inputs sh).rateBuckets = sh.rateBuckets ∧
      checksPassword P req inputs sh = false := by
  have hchecks : code.performs (soloExec P) isCredentialCheck (Solo.init inputs sh) = false := by
    rcases hcode with rfl | rfl
    · rfl
    · refine Bool.eq_false_iff.mpr fun h => ?_
      have := performs_getDbSession sessions_not_credentialCheck h
      cases this
  refine ⟨?_, Bool.eq_false_iff.mpr fun h => ?_⟩
  · rw [serve_eq, hend]
    rcases hcode with rfl | rfl
    · rfl
    · rw [getDbSession_rateBuckets]
      rfl
  · unfold checksPassword handle respond at h
    rw [hend] at h
    rcases performs_tryCatch.mp h with h | ⟨e, s', -, h⟩
    · rw [hchecks] at h
      cases h
    · cases h

theorem admitted_of_runs {ip : String} {u : Unit} {s s' : Solo}
    (h : (await (.checkLoginRate ip)).Runs (soloExec P) s u s') :
    (checkLoginRate (s.inputs 0).monotonic ip s.shared.rateBuckets).1 = true := by
  unfold await at h
  rw [runs_perform] at h
  have hreply := congrArg Prod.fst h
  by_contra hno
  simp only [soloExec, executeOp, hno, if_false] at hreply
  cases hreply

/-- The JSON route: a request with a fitting body asks the limiter first, and any other
leaves it alone. -/
theorem serve_apiLogin {body : JsonBody LoginRequest} (hroute : req.route = .apiLogin body) :
    ((serve P req inputs sh).rateBuckets = sh.rateBuckets ∧
        checksPassword P req inputs sh = false) ∨
      ((serve P req inputs sh).rateBuckets =
          (checkLoginRate (inputs 0).monotonic (Api.loginIp req) sh.rateBuckets).2 ∧
        (checksPassword P req inputs sh = true →
          (checkLoginRate (inputs 0).monotonic (Api.loginIp req) sh.rateBuckets).1 = true)) := by
  have hend : endpoint P req = Api.login P req body := by rw [endpoint, hroute]
  cases body with
  | malformed => exact .inl (serve_invalid hend (.inl rfl))
  | mistyped => exact .inl (serve_invalid hend (.inr rfl))
  | typed b =>
    cases hvalid : b.valid with
    | false =>
      refine .inl (serve_invalid hend (.inr ?_))
      simp only [Api.login, withBody, checked, hvalid]
      rfl
    | true =>
      have hcode : endpoint P req = getDbSession (await (.checkLoginRate (Api.loginIp req)) >>=
          fun _ => Api.loginAdmitted P req b) := by
        rw [hend]
        simp only [Api.login, withBody, checked, hvalid]
        rfl
      refine .inr ⟨?_, fun h => ?_⟩
      · have hlogin : ∀ u : Unit, (Api.loginAdmitted P req b).Uses
            (Within [.commit, .reset, .lastLogin, .passwordHash, .newSession]) := fun _ =>
          uses_loginAdmitted (by simp) (by simp) (by simp)
        rw [serve_eq, hcode, getDbSession_rateBuckets]
        refine (eval_bind_frame (·.shared.rateBuckets)
          (fun _ s hop => soloExec_rateBuckets rateless hop s) hlogin _).trans ?_
        rw [await, eval_perform_snd]
        rfl
      · unfold checksPassword handle respond at h
        rw [hcode] at h
        rcases performs_tryCatch.mp h with h | ⟨e, s', -, h⟩
        · rcases performs_bind.mp (performs_getDbSession sessions_not_credentialCheck h) with
            h | ⟨u, s', hrun, -⟩
          · have huses : (await (.checkLoginRate (Api.loginIp req))).Uses
                fun op => isCredentialCheck op = false := (uses_perform _).mpr rfl
            exact (Bool.false_ne_true ((huses.not_performs _).symm.trans h)).elim
          · have hadmitted := admitted_of_runs hrun
            exact hadmitted
        · cases h

/-- The routes without the limiter. -/
theorem serve_other (hroute : ∀ body, req.route ≠ .apiLogin body) :
    (serve P req inputs sh).rateBuckets = sh.rateBuckets := by
  refine serve_rateBuckets ?_
  cases hr : req.route with
  | apiLogin body => exact (hroute body hr).elim
  | _ => simp [Route.effects]

end Requests

/-! ## Runs -/

section Runs
variable {P : Platform} {ip : String}

/-- The requests of a run arrive in the order of the clock. -/
def InOrder (latest : Rat) (run : List (Request × (Nat → Input))) : Prop :=
  (latest :: run.map fun r => (r.2 0).monotonic).Pairwise (· ≤ ·)

/-- The client does not use the form route in the window. -/
def NoForm (ip : String) (a : Rat) (run : List (Request × (Nat → Input))) : Prop :=
  ∀ r ∈ run, Api.loginIp r.1 = ip → inWindow loginWindow a (r.2 0).monotonic = true →
    r.1.route.isLoginForm = false

/-- One request: the limiter of the client keeps its books, and a password check that it did
not attempt lies outside the window. -/
theorem serve_tracks {req : Request} {inputs : Nat → Input} {sh : Shared} {latest a : Rat}
    {history : List Rat} (hnow : latest ≤ (inputs 0).monotonic)
    (h : Tracks loginWindow loginMaxAttempts latest history (sh.rateBuckets ip))
    (hform : Api.loginIp req = ip → inWindow loginWindow a (inputs 0).monotonic = true →
      req.route.isLoginForm = false) :
    ∃ admitted, Tracks loginWindow loginMaxAttempts (inputs 0).monotonic (history ++ admitted)
        ((serve P req inputs sh).rateBuckets ip) ∧
      ((passwordChecks P ip [(req, inputs)] sh).filter (inWindow loginWindow a)).length ≤
        (admitted.filter (inWindow loginWindow a)).length := by
  -- nothing is admitted and nothing in the window is checked
  have quiet : (serve P req inputs sh).rateBuckets ip = sh.rateBuckets ip →
      (passwordChecks P ip [(req, inputs)] sh).filter (inWindow loginWindow a) = [] →
      ∃ admitted, Tracks loginWindow loginMaxAttempts (inputs 0).monotonic (history ++ admitted)
          ((serve P req inputs sh).rateBuckets ip) ∧
        ((passwordChecks P ip [(req, inputs)] sh).filter (inWindow loginWindow a)).length ≤
          (admitted.filter (inWindow loginWindow a)).length := by
    intro hbuckets hchecks
    refine ⟨[], ?_, by rw [hchecks]; simp⟩
    rw [hbuckets, List.append_nil]
    exact h.mono hnow
  by_cases hapi : ∃ body, req.route = .apiLogin body
  · obtain ⟨body, hroute⟩ := hapi
    rcases serve_apiLogin (P := P) hroute with ⟨hbuckets, hchecks⟩ | ⟨hbuckets, hadmitted⟩
    · exact quiet (by rw [hbuckets]) (by simp [passwordChecks, hchecks])
    · rw [checkLoginRate_eq] at hbuckets hadmitted
      dsimp only at hbuckets hadmitted
      by_cases hip : Api.loginIp req = ip
      · subst hip
        refine ⟨if (attempt loginWindow loginMaxAttempts (inputs 0).monotonic
          (sh.rateBuckets (Api.loginIp req))).1 then [(inputs 0).monotonic] else [], ?_, ?_⟩
        · have hnext := h.attempt hnow
          rw [hbuckets, Function.update_self]
          split <;> simpa [*] using hnext
        · by_cases hchecks : checksPassword P req inputs sh = true
          · have hroom := hadmitted hchecks
            simp [passwordChecks, hroute, Route.isLogin, hchecks, hroom]
          · simp [passwordChecks, hchecks]
      · refine quiet ?_ (by simp [passwordChecks, hip])
        rw [hbuckets, Function.update_of_ne (Ne.symm hip)]
  · refine quiet (by rw [serve_other fun body hb => hapi ⟨body, hb⟩]) ?_
    simp only [passwordChecks, List.append_nil, Bool.and_eq_true, beq_iff_eq]
    split
    · rename_i hlogin
      obtain ⟨⟨hlogin, hip⟩, -⟩ := hlogin
      rw [List.filter_eq_nil_iff]
      intro t ht hwindow
      obtain rfl := List.mem_singleton.mp ht
      have hnoform := hform hip hwindow
      cases hroute : req.route <;> simp [hroute, Route.isLogin, Route.isLoginForm] at hlogin hnoform
      exact hapi ⟨_, hroute⟩
    · rfl

theorem passwordChecks_cons (req : Request) (inputs : Nat → Input)
    (rest : List (Request × (Nat → Input))) (sh : Shared) :
    passwordChecks P ip ((req, inputs) :: rest) sh =
      passwordChecks P ip [(req, inputs)] sh ++ passwordChecks P ip rest (serve P req inputs sh) := by
  simp [passwordChecks]

/-- What was admitted before and is checked from now on stays within the bound. -/
theorem passwordChecks_bounded {a latest : Rat} {history : List Rat}
    {run : List (Request × (Nat → Input))} {sh : Shared} (horder : InOrder latest run)
    (hform : NoForm ip a run)
    (h : Tracks loginWindow loginMaxAttempts latest history (sh.rateBuckets ip)) :
    (history.filter (inWindow loginWindow a)).length +
      ((passwordChecks P ip run sh).filter (inWindow loginWindow a)).length ≤ loginMaxAttempts := by
  induction run generalizing latest history sh with
  | nil => simpa [passwordChecks] using h.bounded a
  | cons step rest ih =>
    obtain ⟨req, inputs⟩ := step
    have hnow : latest ≤ (inputs 0).monotonic := by
      have := (List.pairwise_cons.mp horder).1
      exact this _ (by simp)
    have hhead : Api.loginIp req = ip → inWindow loginWindow a (inputs 0).monotonic = true →
        req.route.isLoginForm = false := hform (req, inputs) List.mem_cons_self
    obtain ⟨admitted, htracks, hchecked⟩ := serve_tracks (P := P) hnow h hhead
    have hrest := ih (List.pairwise_cons.mp horder).2
      (fun r hr => hform r (List.mem_cons_of_mem _ hr)) htracks
    rw [List.filter_append, List.length_append] at hrest
    rw [passwordChecks_cons, List.filter_append, List.length_append]
    omega

/-- A login request of a client at a time. -/
def loginAt (route : Route) (time : Rat) : Request × (Nat → Input) :=
  ({ route, clientHost := some "203.0.113.5" }, fun _ => { monotonic := time })

end Runs

end WolMonkey
