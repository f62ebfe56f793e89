import WolMonkey.Access.LoginRate

/-!
# The login limiter and its whole history

`_check_login_rate` keeps a pruned list of times for every client and rewrites it on every
call. On calls in the order of the clock it decides as if it kept every call that it ever
admitted.
-/

namespace WolMonkey

open SlidingWindow

/-- The decisions of `_check_login_rate` on calls, each with its client and its time. -/
def loginDecisions : (String → List Rat) → List (String × Rat) → List Bool
  | _, [] => []
  | buckets, (ip, now) :: calls =>
    let r := checkLoginRate now ip buckets
    r.1 :: loginDecisions r.2 calls

/-- The calls that the limiter of a new process admits. -/
def admittedLogins (calls : List (String × Rat)) : List (String × Rat) :=
  granted calls (loginDecisions (fun _ => []) calls)

theorem loginDecisions_eq (buckets : String → List Rat) (calls : List (String × Rat)) :
    loginDecisions buckets calls = decisions loginWindow loginMaxAttempts buckets calls := by
  induction calls generalizing buckets with
  | nil => rfl
  | cons call calls ih =>
    obtain ⟨ip, now⟩ := call
    simp only [loginDecisions, decisions, checkLoginRate_eq, ih]

/-- On calls in the order of the clock the limiter decides by the history. -/
theorem loginDecisions_byHistory {calls : List (String × Rat)}
    (h : (calls.map (·.2)).Pairwise (· ≤ ·)) :
    loginDecisions (fun _ => []) calls = byHistory loginWindow loginMaxAttempts [] calls := by
  rw [loginDecisions_eq]
  exact (decisions_eq_byHistory _ _ h).1

theorem pairwise_sublist {xs ys : List (String × Rat)} (hsub : xs.Sublist ys)
    (h : (ys.map (·.2)).Pairwise (· ≤ ·)) : (xs.map (·.2)).Pairwise (· ≤ ·) :=
  h.sublist (hsub.map _)

end WolMonkey
