import Mathlib.Algebra.Order.Archimedean.Basic
import Mathlib.Data.Rat.Floor
import Mathlib.Tactic.Linarith
import Mathlib.Tactic.Ring

/-!
# Polling until a deadline

A loop that waits for something: in every round it reads a clock, gives up when the reading
has reached a limit, and otherwise asks whether what it waits for has happened. `Rounds` is
what the loop would read and be told, round by round. When every round takes at least some
interval, the loop stops (`Advances.exists_stops`), it stops with success exactly when some
answer in time is yes (`Stops.found_iff`), and it asks at most as often as intervals begin
in the time that was left (`Stops.asked_le`).
-/

namespace Polling

/-- The readings of the clock and the answers, for all the rounds that a loop might make. -/
structure Rounds where
  time : Nat → Int
  answer : Nat → Bool

namespace Rounds

/-- The rounds after the first. -/
def tail (R : Rounds) : Rounds := ⟨fun i => R.time (i + 1), fun i => R.answer (i + 1)⟩

/-- The loop goes on after this round. -/
def Passes (R : Rounds) (limit : Int) (i : Nat) : Prop := R.time i < limit ∧ R.answer i = false

instance (R : Rounds) (limit : Int) (i : Nat) : Decidable (R.Passes limit i) :=
  inferInstanceAs (Decidable (_ ∧ _))

/-- How the loop stops: whether it found what it waits for, and how often it has asked. -/
inductive Stops (R : Rounds) (limit : Int) : Bool → Nat → Prop where
  | found {i : Nat} (before : ∀ j < i, R.Passes limit j) (inTime : R.time i < limit)
      (yes : R.answer i = true) : Stops R limit true (i + 1)
  | gaveUp {i : Nat} (before : ∀ j < i, R.Passes limit j) (late : limit ≤ R.time i) :
      Stops R limit false i

/-- Every round takes at least an interval. -/
structure Advances (R : Rounds) (interval : Int) : Prop where
  pos : 0 < interval
  step : ∀ i, R.time i + interval ≤ R.time (i + 1)

variable {R : Rounds} {limit interval : Int} {found : Bool} {asked i j : Nat}

/-- The readings after `i` rounds. -/
theorem Advances.le_time (h : R.Advances interval) (i : Nat) :
    R.time 0 + i * interval ≤ R.time i := by
  induction i with
  | zero => simp
  | succ i ih =>
    have hstep := h.step i
    have hmul : ((i + 1 : Nat) : Int) * interval = i * interval + interval := by
      push_cast
      ring
    rw [hmul]
    omega

theorem Advances.time_le (h : R.Advances interval) (hij : i ≤ j) : R.time i ≤ R.time j := by
  induction j, hij using Nat.le_induction with
  | base => exact Int.le_refl _
  | succ j _ ih =>
    have hstep := h.step j
    have hpos := h.pos
    omega

/-- Some round is late. -/
theorem Advances.exists_late (h : R.Advances interval) (limit : Int) : ∃ i, limit ≤ R.time i := by
  refine ⟨(limit - R.time 0).toNat, ?_⟩
  have hle := h.le_time (limit - R.time 0).toNat
  have hpos : ((limit - R.time 0).toNat : Int) * 1 ≤ (limit - R.time 0).toNat * interval :=
    Int.mul_le_mul_of_nonneg_left h.pos (Int.natCast_nonneg _)
  omega

/-- The loop stops. -/
theorem Advances.exists_stops (h : R.Advances interval) (limit : Int) :
    ∃ found asked, R.Stops limit found asked := by
  have hends : ∃ i, ¬ R.Passes limit i := by
    obtain ⟨i, hlate⟩ := h.exists_late limit
    exact ⟨i, fun hpass => absurd hpass.1 (Int.not_lt.mpr hlate)⟩
  have hbefore : ∀ j < Nat.find hends, R.Passes limit j := fun j hj =>
    not_not.mp (Nat.find_min hends hj)
  by_cases hlate : limit ≤ R.time (Nat.find hends)
  · exact ⟨false, _, .gaveUp hbefore hlate⟩
  · have hyes : R.answer (Nat.find hends) = true := by
      by_contra hno
      exact Nat.find_spec hends ⟨Int.not_le.mp hlate, Bool.not_eq_true _ ▸ hno⟩
    exact ⟨true, _, .found hbefore (Int.not_le.mp hlate) hyes⟩

/-- It stops with success exactly when an answer in time is yes. -/
theorem Stops.found_iff (hstops : R.Stops limit found asked) (h : R.Advances interval) :
    found = true ↔ ∃ i, R.time i < limit ∧ R.answer i = true := by
  cases hstops with
  | found before inTime yes => exact iff_of_true rfl ⟨_, inTime, yes⟩
  | gaveUp before late =>
    refine iff_of_false (by decide) ?_
    rintro ⟨i, hi, hyes⟩
    by_cases hbefore : i < asked
    · exact absurd ((before i hbefore).2.symm.trans hyes) (by decide)
    · have := h.time_le (Nat.not_lt.mp hbefore)
      omega

/-- The last answer is the only yes. -/
theorem Stops.last_yes (hstops : R.Stops limit true asked) :
    ∃ i, asked = i + 1 ∧ R.time i < limit ∧ R.answer i = true ∧ ∀ j < i, R.answer j = false := by
  cases hstops with
  | found before inTime yes => exact ⟨_, rfl, inTime, yes, fun j hj => (before j hj).2⟩

/-- A round that is asked for began in time. -/
theorem Stops.inTime (hstops : R.Stops limit found asked) (hi : i < asked) : R.time i < limit := by
  cases hstops with
  | found before inTime yes =>
    rcases Nat.lt_succ_iff_lt_or_eq.mp hi with hlt | rfl
    · exact (before i hlt).1
    · exact inTime
  | gaveUp before late => exact (before i hi).1

/-- The loop asks at most once for every interval that begins in the remaining time. -/
theorem Stops.asked_le (hstops : R.Stops limit found asked) (h : R.Advances interval) :
    asked ≤ ⌈((limit - R.time 0 : Int) : ℚ) / interval⌉₊ := by
  cases asked with
  | zero => exact Nat.zero_le _
  | succ i =>
    have hpos : (0 : ℚ) < interval := by exact_mod_cast h.pos
    have htime : (i : Int) * interval < limit - R.time 0 := by
      have hle := h.le_time i
      have hlt := hstops.inTime (Nat.lt_succ_self i)
      omega
    have hquot : (i : ℚ) < ((limit - R.time 0 : Int) : ℚ) / interval := by
      rw [lt_div_iff₀ hpos]
      exact_mod_cast htime
    exact Nat.lt_ceil.mpr hquot

/-- After a round that passes, the loop stops as in the rounds after it. -/
theorem Stops.tail (hstops : R.Stops limit found asked) (hpass : R.Passes limit 0) :
    ∃ rest, asked = rest + 1 ∧ R.tail.Stops limit found rest := by
  cases hstops with
  | found before inTime yes =>
    rename_i i
    cases i with
    | zero => exact absurd (hpass.2.symm.trans yes) (by decide)
    | succ i => exact ⟨i + 1, rfl, .found (fun j hj => before (j + 1) (by omega)) inTime yes⟩
  | gaveUp before late =>
    cases asked with
    | zero => exact absurd hpass.1 (Int.not_lt.mpr late)
    | succ i => exact ⟨i, rfl, .gaveUp (fun j hj => before (j + 1) (by omega)) late⟩

/-- A first round that does not pass is the last. -/
theorem Stops.of_not_passes (hstops : R.Stops limit found asked) (hpass : ¬ R.Passes limit 0) :
    found = true ∧ asked = 1 ∧ R.time 0 < limit ∧ R.answer 0 = true ∨
      found = false ∧ asked = 0 ∧ limit ≤ R.time 0 := by
  cases hstops with
  | found before inTime yes =>
    rename_i i
    cases i with
    | zero => exact .inl ⟨rfl, rfl, inTime, yes⟩
    | succ i => exact absurd (before 0 (Nat.succ_pos i)) hpass
  | gaveUp before late =>
    cases asked with
    | zero => exact .inr ⟨rfl, rfl, late⟩
    | succ i => exact absurd (before 0 (Nat.succ_pos i)) hpass

end Rounds
end Polling
