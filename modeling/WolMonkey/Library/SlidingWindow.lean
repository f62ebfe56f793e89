import Mathlib.Algebra.Order.Group.Defs
import Mathlib.Algebra.Order.Group.Unbundled.Basic
import Mathlib.Data.List.Basic
import Mathlib.Logic.Function.Basic

/-!
# Sliding windows

A limiter that keeps the times of the calls it admitted, and admits a call when fewer than
`max` of them lie less than `width` back. `Tracks` relates what the limiter keeps to the
whole history of admitted calls; it is preserved by every call (`Tracks.attempt`), and says
that no half-open interval of length `width` holds more than `max` admitted calls.

Calls with keys go to one such limiter for each key. `byHistory` decides on them by the whole
history of admitted calls instead, and the two agree (`decisions_eq_byHistory`).
-/

namespace SlidingWindow

variable {T : Type} [AddCommGroup T] [LinearOrder T]

/-- The times that lie less than `width` back. -/
def live (width now : T) (stamps : List T) : List T := stamps.filter fun t => now - t < width

/-- One call: whether it is admitted, and the times that are kept. -/
def attempt (width : T) (max : Nat) (now : T) (stamps : List T) : Bool × List T :=
  if max ≤ (live width now stamps).length then (false, live width now stamps)
  else (true, live width now stamps ++ [now])

/-- The time lies in the half-open interval of length `width` that starts at `a`. -/
def inWindow (width a t : T) : Bool := a ≤ t && t < a + width

/-- The limiter keeps enough of the history of admitted calls, up to the time `latest`. -/
structure Tracks (width : T) (max : Nat) (latest : T) (history stamps : List T) : Prop where
  past : ∀ t ∈ history, t ≤ latest
  recent : ∀ now, latest ≤ now → live width now history = live width now stamps
  bounded : ∀ a, (history.filter (inWindow width a)).length ≤ max

variable {width : T} {max : Nat} {latest now : T} {history stamps : List T}

theorem tracks_nil : Tracks width max latest [] [] :=
  ⟨by simp, fun _ _ => rfl, by simp⟩

/-- The clock goes on without a call. -/
theorem Tracks.mono (h : Tracks width max latest history stamps) (hnow : latest ≤ now) :
    Tracks width max now history stamps :=
  ⟨fun t ht => le_trans (h.past t ht) hnow, fun n hn => h.recent n (le_trans hnow hn), h.bounded⟩

theorem live_append (ts us : List T) :
    live width now (ts ++ us) = live width now ts ++ live width now us :=
  List.filter_append ts us

variable [IsOrderedAddMonoid T]

/-- What is no longer live at some time is not live later. -/
theorem live_live {later : T} (h : now ≤ later) (ts : List T) :
    live width later (live width now ts) = live width later ts := by
  simp only [live, List.filter_filter]
  refine List.filter_congr fun t _ => ?_
  by_cases hlater : later - t < width
  · have hnow : now - t < width := lt_of_le_of_lt (sub_le_sub_right h t) hlater
    simp [hlater, hnow]
  · simp [hlater]

/-- In a window that holds `now`, every admitted call of the past is live. -/
theorem length_inWindow_le {a : T} (hnow : inWindow width a now = true) (ts : List T) :
    (ts.filter (inWindow width a)).length ≤ (live width now ts).length := by
  refine (List.monotone_filter_right ts fun t ht => ?_).length_le
  simp only [inWindow, Bool.and_eq_true, decide_eq_true_eq] at hnow ht ⊢
  exact sub_lt_iff_lt_add'.mpr (lt_of_lt_of_le hnow.2 (add_le_add_left ht.1 width))

/-- A call keeps the books: the history grows by the call if it is admitted. -/
theorem Tracks.attempt (h : Tracks width max latest history stamps) (hnow : latest ≤ now) :
    Tracks width max now
      (if (attempt width max now stamps).1 then history ++ [now] else history)
      (attempt width max now stamps).2 := by
  have hpast : ∀ t ∈ history, t ≤ now := fun t ht => le_trans (h.past t ht) hnow
  have hrecent : ∀ later, now ≤ later →
      live width later history = live width later (live width now stamps) := fun later hlater =>
    (h.recent later (le_trans hnow hlater)).trans (live_live hlater stamps).symm
  unfold SlidingWindow.attempt
  split
  · exact ⟨hpast, hrecent, h.bounded⟩
  · rename_i hroom
    simp only [if_true]
    refine ⟨fun t ht => ?_, fun later hlater => ?_, fun a => ?_⟩
    · rcases List.mem_append.mp ht with ht | ht
      · exact hpast t ht
      · exact le_of_eq (List.mem_singleton.mp ht)
    · rw [live_append, live_append, hrecent later hlater]
    · rw [List.filter_append, List.length_append]
      by_cases ha : inWindow width a now = true
      · -- the window holds the new call, so the others in it are among the live ones
        have hlive := length_inWindow_le ha history
        rw [h.recent now hnow] at hlive
        simp only [List.filter_cons_of_pos ha, List.filter_nil, List.length_singleton]
        omega
      · simp only [List.filter_cons_of_neg ha, List.filter_nil, List.length_nil, Nat.add_zero]
        exact h.bounded a

/-! ## Limiters with keys -/

section Keyed
variable {K : Type} [DecidableEq K]

section Definitions
omit [IsOrderedAddMonoid T]
variable (width : T) (max : Nat)

/-- The decisions on calls, each with its key and its time, from the kept times. -/
def decisions : (K → List T) → List (K × T) → List Bool
  | _, [] => []
  | kept, (key, now) :: calls =>
    (attempt width max now (kept key)).1 ::
      decisions (Function.update kept key (attempt width max now (kept key)).2) calls

/-- Fewer than `max` calls of the history have the key of the call and lie less than `width`
before it. -/
def room (history : List (K × T)) (call : K × T) : Bool :=
  (history.filter fun h => h.1 = call.1 && call.2 - h.2 < width).length < max

/-- The history grows by the calls for which there is room. -/
def grow (history : List (K × T)) (call : K × T) : List (K × T) :=
  if room width max history call then history ++ [call] else history

/-- The decisions on calls by the history of all admitted calls. -/
def byHistory : List (K × T) → List (K × T) → List Bool
  | _, [] => []
  | history, call :: calls =>
    room width max history call :: byHistory (grow width max history call) calls

end Definitions

/-- The calls that were decided positively. -/
def granted (calls : List (K × T)) (ds : List Bool) : List (K × T) :=
  ((calls.zip ds).filter (·.2)).map (·.1)

/-- The decisions on the calls of a key. -/
def decisionsOn (key : K) (calls : List (K × T)) (ds : List Bool) : List Bool :=
  ((calls.zip ds).filter (·.1.1 = key)).map (·.2)

/-- The times of the calls with a key. -/
def timesOf (key : K) (history : List (K × T)) : List T :=
  (history.filter (·.1 = key)).map (·.2)

variable {calls : List (K × T)}

omit [IsOrderedAddMonoid T] in
@[simp] theorem length_byHistory (history calls : List (K × T)) :
    (byHistory width max history calls).length = calls.length := by
  induction calls generalizing history with
  | nil => rfl
  | cons call calls ih => simp only [byHistory, List.length_cons, ih]

omit [IsOrderedAddMonoid T] in
/-- Later calls are decided by the calls that were granted before. -/
theorem byHistory_append (history earlier later : List (K × T)) :
    byHistory width max history (earlier ++ later) =
      byHistory width max history earlier ++
        byHistory width max (history ++ granted earlier (byHistory width max history earlier))
          later := by
  induction earlier generalizing history with
  | nil => simp [byHistory, granted]
  | cons call earlier ih =>
    simp only [List.cons_append, byHistory, ih]
    congr 3
    unfold grow granted
    cases hroom : room width max history call <;> simp

omit [IsOrderedAddMonoid T] in
theorem room_eq (history : List (K × T)) (call : K × T) :
    room width max history call =
      decide ((live width call.2 (timesOf call.1 history)).length < max) := by
  unfold room live timesOf
  rw [List.filter_map, List.length_map, List.filter_filter]
  congr 3
  refine List.filter_congr fun h _ => ?_
  simp only [Function.comp_apply, Bool.and_comm]

omit [IsOrderedAddMonoid T] in
theorem timesOf_grow (key : K) (history : List (K × T)) (call : K × T) :
    timesOf key (grow width max history call) =
      if room width max history call && call.1 = key then timesOf key history ++ [call.2]
      else timesOf key history := by
  unfold grow timesOf
  cases room width max history call with
  | false => rfl
  | true =>
    by_cases hkey : call.1 = key
    · simp [hkey]
    · simp [hkey]

/-- The limiters of all keys keep their books. -/
def TracksAll (width : T) (max : Nat) (latest : T) (history : List (K × T)) (kept : K → List T) :
    Prop := ∀ key, Tracks width max latest (timesOf key history) (kept key)

omit [DecidableEq K] [IsOrderedAddMonoid T] in
theorem attempt_fst (width now : T) (max : Nat) (stamps : List T) :
    (attempt width max now stamps).1 = decide ((live width now stamps).length < max) := by
  unfold attempt
  split
  · rename_i hfull
    simp [hfull]
  · rename_i hroom
    simpa using hroom

omit [IsOrderedAddMonoid T] in
/-- The limiter of the key decides as the history does. -/
theorem TracksAll.attempt_fst {kept : K → List T} {history : List (K × T)}
    (h : TracksAll width max latest history kept) (call : K × T) (hnow : latest ≤ call.2) :
    (attempt width max call.2 (kept call.1)).1 = room width max history call := by
  rw [SlidingWindow.attempt_fst, room_eq, (h call.1).recent call.2 hnow]

/-- One call keeps the books of all keys. -/
theorem TracksAll.attempt {kept : K → List T} {history : List (K × T)}
    (h : TracksAll width max latest history kept) (call : K × T) (hnow : latest ≤ call.2) :
    TracksAll width max call.2 (grow width max history call)
      (Function.update kept call.1 (attempt width max call.2 (kept call.1)).2) := by
  intro key
  rw [timesOf_grow]
  by_cases hkey : call.1 = key
  · subst hkey
    have hnext := (h call.1).attempt hnow
    rw [h.attempt_fst call hnow] at hnext
    rw [Function.update_self]
    simpa using hnext
  · rw [Function.update_of_ne (Ne.symm hkey)]
    simpa [hkey] using (h key).mono hnow

/-- For calls in the order of time the limiters decide by the history, and the history keeps
the bound. -/
theorem TracksAll.decisions {kept : K → List T} {history : List (K × T)}
    (h : TracksAll width max latest history kept)
    (horder : (latest :: calls.map (·.2)).Pairwise (· ≤ ·)) :
    decisions width max kept calls = byHistory width max history calls ∧
      ∀ key a, ((timesOf key
        (history ++ granted calls (byHistory width max history calls))).filter
          (inWindow width a)).length ≤ max := by
  induction calls generalizing latest history kept with
  | nil =>
    refine ⟨rfl, fun key a => ?_⟩
    simpa [granted] using (h key).bounded a
  | cons call calls ih =>
    obtain ⟨hfirst, hrest⟩ := List.pairwise_cons.mp horder
    have hnow : latest ≤ call.2 := hfirst _ (by simp)
    obtain ⟨hdecide, hbound⟩ := ih (h.attempt call hnow) hrest
    constructor
    · simp only [SlidingWindow.decisions, byHistory, h.attempt_fst call hnow, hdecide]
    · intro key a
      have hgrown : history ++ granted (call :: calls) (byHistory width max history (call :: calls)) =
          grow width max history call ++
            granted calls (byHistory width max (grow width max history call) calls) := by
        simp only [byHistory, granted]
        unfold grow
        cases hroom : room width max history call <;> simp
      rw [hgrown]
      exact hbound key a

/-- The limiters without books decide by the history of the calls from the start. -/
theorem decisions_eq_byHistory (width : T) (max : Nat)
    (horder : (calls.map (·.2)).Pairwise (· ≤ ·)) :
    decisions width max (fun _ => []) calls = byHistory width max [] calls ∧
      ∀ key a, ((timesOf key (granted calls (byHistory width max [] calls))).filter
        (inWindow width a)).length ≤ max := by
  cases calls with
  | nil => exact ⟨rfl, fun key a => by simp [granted, timesOf]⟩
  | cons call calls =>
    have hstart : TracksAll width max call.2 ([] : List (K × T)) fun _ => [] :=
      fun _ => tracks_nil
    refine hstart.decisions (List.pairwise_cons.mpr ⟨fun t ht => ?_, horder⟩)
    rcases List.mem_cons.mp ht with rfl | ht
    · exact le_refl _
    · exact (List.pairwise_cons.mp horder).1 t ht

/-! ### Calls that do not matter -/

omit [IsOrderedAddMonoid T] in
/-- A call that is rejected leaves no trace. -/
theorem byHistory_of_rejected {history later : List (K × T)} {call : K × T}
    (h : room width max history call = false) :
    byHistory width max history (call :: later) = false :: byHistory width max history later := by
  simp only [byHistory, grow, h, Bool.false_eq_true, if_false]

omit [IsOrderedAddMonoid T] in
/-- The decisions on the calls of a key are those without the calls of the other keys. -/
theorem decisionsOn_byHistory (key : K) (history calls : List (K × T)) :
    decisionsOn key calls (byHistory width max history calls) =
      byHistory width max (history.filter (·.1 = key)) (calls.filter (·.1 = key)) := by
  induction calls generalizing history with
  | nil => rfl
  | cons call calls ih =>
    have htail := ih (grow width max history call)
    simp only [decisionsOn, byHistory, List.zip_cons_cons, List.filter_cons] at htail ⊢
    by_cases hkey : call.1 = key
    · have hroom : room width max (history.filter (·.1 = key)) call =
          room width max history call := by
        rw [room_eq, room_eq, timesOf, timesOf, hkey, List.filter_filter]
        simp only [Bool.and_self]
      have hgrow : (grow width max history call).filter (·.1 = key) =
          grow width max (history.filter (·.1 = key)) call := by
        unfold grow
        rw [hroom]
        split
        · rw [List.filter_append]
          simp [hkey]
        · rfl
      simp only [hkey, decide_true, if_true, List.map_cons, htail, byHistory, hgrow, hroom]
    · have hgrow : (grow width max history call).filter (·.1 = key) =
          history.filter (·.1 = key) := by
        unfold grow
        split
        · rw [List.filter_append]
          simp [hkey]
        · rfl
      simp only [hkey, decide_false, Bool.false_eq_true, if_false, htail, hgrow]

end Keyed

end SlidingWindow
