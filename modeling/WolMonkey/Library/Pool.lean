import WolMonkey.Library.Program

/-!
# Pools of interleaved programs

A `Machine` executes single operations against a shared state and a store that belongs to
the executing thread. A `World` is a pool of threads over one shared state. One action
starts a thread, lets one thread perform its next operation, or kills a thread; an
operation that is not enabled (it waits for a lock) cannot be performed. The environment
chooses the actions and the inputs of the operations.

`Reachable allowed w₀ w` restricts the actions to those that `allowed` accepts in the world
in which they happen, so that a condition on the steps of a run is a parameter of
reachability. `Reachable.invariant` is the induction over runs, `World.act_cases` says all
that one action can do, and `World.obeys_act` carries the obedience of every thread to a
monitor along. `World.apart_act` is the rule for a relation between the stores of any two
threads, and `World.each_act` the one for what every thread keeps while it relies on the
others.
-/

namespace Programs

/-- How operations are executed. `others` are the stores of the other threads. -/
structure Machine (I : Interface) where
  Shared : Type
  Store : Type
  Input : Type
  /-- The store of a thread that starts, and of a thread that was killed. -/
  empty : Store
  enabled : I.Op → Input → (others : List Store) → Shared → Store → Bool
  exec : (op : I.Op) → Input → (others : List Store) → Shared → Store →
    I.Reply op × Shared × Store

/-- An event with the time at which it happened in the whole pool. -/
structure Stamped (I : Interface) extends Event I where
  time : Nat

structure Thread {I : Interface} (M : Machine I) (Label α : Type) where
  label : Label
  program : Program I α
  store : M.Store
  /-- What the thread has done so far, the latest event first. -/
  log : List (Stamped I)
  crashed : Bool

structure World {I : Interface} (M : Machine I) (Label α : Type) where
  shared : M.Shared
  threads : List (Thread M Label α)
  clock : Nat

inductive Action {I : Interface} (M : Machine I) (Label : Type) where
  | spawn (label : Label)
  | step (tid : Nat) (input : M.Input)
  | crash (tid : Nat)

variable {I : Interface} {M : Machine I} {Label α : Type}

namespace Thread

/-- The thread can still do something. -/
def running (t : Thread M Label α) : Bool :=
  !t.crashed && match t.program with
    | .pure _ => false
    | .raise _ => false
    | .stuck => true
    | .call _ _ => true

def performed (t : Thread M Label α) (op : I.Op) (next : I.Reply op → Program I α)
    (r : I.Reply op × M.Shared × M.Store) (time : Nat) : Thread M Label α :=
  { t with program := next r.1, store := r.2.2, log := ⟨⟨op, r.1⟩, time⟩ :: t.log }

def killed (t : Thread M Label α) : Thread M Label α :=
  { t with program := .stuck, store := M.empty, crashed := true }

end Thread

namespace World

variable (start : Label → Program I α)

def newThread (label : Label) : Thread M Label α :=
  { label, program := start label, store := M.empty, log := [], crashed := false }

/-- The stores of the threads other than `tid`. -/
def others (w : World M Label α) (tid : Nat) : List M.Store :=
  (w.threads.eraseIdx tid).map Thread.store

def act (w : World M Label α) : Action M Label → Option (World M Label α)
  | .spawn label => some { w with threads := w.threads ++ [newThread start label] }
  | .crash tid =>
    match w.threads[tid]? with
    | some t => if t.running then some { w with threads := w.threads.set tid t.killed } else none
    | none => none
  | .step tid input =>
    match w.threads[tid]? with
    | some t =>
      match t.program with
      | .call op next =>
        if M.enabled op input (w.others tid) w.shared t.store then
          let r := M.exec op input (w.others tid) w.shared t.store
          some
            { shared := r.2.1
              threads := w.threads.set tid (t.performed op next r w.clock)
              clock := w.clock + 1 }
        else none
      | _ => none
    | none => none

/-- Perform the actions of a list in order. -/
def acts (w : World M Label α) : List (Action M Label) → Option (World M Label α)
  | [] => some w
  | a :: as => (w.act start a).bind fun w' => w'.acts as

/-- The world after one performed operation. -/
def stepped (w : World M Label α) (tid : Nat) (t : Thread M Label α) (op : I.Op)
    (next : I.Reply op → Program I α) (input : M.Input) : World M Label α :=
  let r := M.exec op input (w.others tid) w.shared t.store
  { shared := r.2.1
    threads := w.threads.set tid (t.performed op next r w.clock)
    clock := w.clock + 1 }

/-- All that one action can do to a world. -/
theorem act_cases {w w' : World M Label α} {a : Action M Label} (h : w.act start a = some w') :
    (∃ label, a = .spawn label ∧
      w' = { w with threads := w.threads ++ [newThread start label] }) ∨
    (∃ tid t, a = .crash tid ∧ w.threads[tid]? = some t ∧ t.running = true ∧
      w' = { w with threads := w.threads.set tid t.killed }) ∨
    (∃ tid input t op next, a = .step tid input ∧ w.threads[tid]? = some t ∧
      t.program = .call op next ∧
      M.enabled op input (w.others tid) w.shared t.store = true ∧
      w' = w.stepped tid t op next input) := by
  cases a with
  | spawn label => exact .inl ⟨label, rfl, (Option.some.inj h).symm⟩
  | crash tid =>
    simp only [act] at h
    split at h
    · rename_i t ht
      split at h
      · rename_i hrun
        exact .inr (.inl ⟨tid, t, rfl, ht, hrun, (Option.some.inj h).symm⟩)
      · cases h
    · cases h
  | step tid input =>
    simp only [act] at h
    split at h
    · rename_i t ht
      split at h
      · rename_i op next hp
        split at h
        · rename_i hen
          exact .inr (.inr ⟨tid, input, t, op, next, rfl, ht, hp, hen, (Option.some.inj h).symm⟩)
        · cases h
      · cases h
    · cases h

end World

/-! ## Runs -/

/-- The worlds that runs from `w₀` reach, when every action is `allowed` in the world in
which it is performed. -/
inductive Reachable (start : Label → Program I α)
    (allowed : World M Label α → Action M Label → Prop) (w₀ : World M Label α) :
    World M Label α → Prop where
  | refl : Reachable start allowed w₀ w₀
  | tail {w w' : World M Label α} {a : Action M Label} :
      Reachable start allowed w₀ w → allowed w a → w.act start a = some w' →
        Reachable start allowed w₀ w'

section Runs
variable {start : Label → Program I α} {allowed : World M Label α → Action M Label → Prop}
  {w₀ w : World M Label α}

/-- What holds at the start and is preserved by every allowed action holds in every
reachable world. -/
theorem Reachable.invariant {Inv : World M Label α → Prop} (h : Reachable start allowed w₀ w)
    (init : Inv w₀)
    (step : ∀ w a w', Reachable start allowed w₀ w → Inv w → allowed w a →
      w.act start a = some w' → Inv w') : Inv w := by
  induction h with
  | refl => exact init
  | tail hw ha hact ih => exact step _ _ _ hw ih ha hact

/-- A list of actions that are allowed in every world. -/
theorem Reachable.of_acts {as : List (Action M Label)} (h : w₀.acts start as = some w)
    (has : ∀ a ∈ as, ∀ v, allowed v a) : Reachable start allowed w₀ w := by
  suffices ∀ v, Reachable start allowed w₀ v → v.acts start as = some w →
      Reachable start allowed w₀ w from this _ .refl h
  clear h
  induction as with
  | nil =>
    intro v hv h
    cases h
    exact hv
  | cons a as ih =>
    intro v hv h
    simp only [World.acts, Option.bind_eq_some_iff] at h
    obtain ⟨v', hact, hrest⟩ := h
    have ha : allowed v a := has a List.mem_cons_self v
    exact ih (fun b hb => has b (List.mem_cons_of_mem _ hb)) v' (.tail hv ha hact) hrest

theorem Reachable.mono {allowed' : World M Label α → Action M Label → Prop}
    (h : Reachable start allowed w₀ w) (himp : ∀ w a, allowed w a → allowed' w a) :
    Reachable start allowed' w₀ w := by
  induction h with
  | refl => exact .refl
  | tail _ ha hact ih => exact .tail ih (himp _ _ ha) hact

theorem Reachable.trans {w' : World M Label α} (h : Reachable start allowed w₀ w)
    (h' : Reachable start allowed w w') : Reachable start allowed w₀ w' := by
  induction h' with
  | refl => exact h
  | tail _ ha hact ih => exact .tail ih ha hact

/-! ### What the logs show -/

/-- The event is what thread `i` does next. -/
def World.Performs (w : World M Label α) (i : Nat) (t : Thread M Label α) (e : Stamped I) : Prop :=
  w.threads[i]? = some t ∧ w.clock = e.time ∧ ∃ input next, t.program = .call e.op next ∧
    M.enabled e.op input (w.others i) w.shared t.store = true ∧
    e.reply = (M.exec e.op input (w.others i) w.shared t.store).1

/-- **The moment of an event.** What a thread of the run has logged it once performed, in a
world of the run in which it had logged just the earlier events. -/
theorem Reachable.performed (h : Reachable start allowed w₀ w) {i : Nat}
    (hi : w₀.threads[i]? = none) {t : Thread M Label α} (ht : w.threads[i]? = some t) {e : Stamped I}
    {later earlier : List (Stamped I)} (hlog : t.log = later ++ e :: earlier) :
    ∃ v t', Reachable start allowed w₀ v ∧ Reachable start allowed v w ∧ t'.label = t.label ∧
      t'.log = earlier ∧ v.Performs i t' e := by
  induction h generalizing t later with
  | refl =>
    rw [hi] at ht
    cases ht
  | tail hv ha hact ih =>
    rename_i v w a
    -- an event of the thread before the action
    have hbefore : ∀ u, v.threads[i]? = some u → u.label = t.label → u.log = later ++ e :: earlier →
        ∃ v' t', Reachable start allowed w₀ v' ∧ Reachable start allowed v' w ∧
          t'.label = t.label ∧ t'.log = earlier ∧ v'.Performs i t' e := by
      intro u hu hlabel hlog
      obtain ⟨v', t', hv', hw, hlabel', hrest⟩ := ih hu hlog
      exact ⟨v', t', hv', .tail hw ha hact, hlabel'.trans hlabel, hrest⟩
    rcases World.act_cases start hact with ⟨label, rfl, rfl⟩ | ⟨tid, u, rfl, hu, -, rfl⟩ |
      ⟨tid, input, u, op, next, rfl, hu, hp, hen, rfl⟩
    · rw [List.getElem?_append] at ht
      split at ht
      · exact hbefore t ht rfl hlog
      · obtain ⟨hlt, hget⟩ := List.getElem?_eq_some_iff.mp ht
        rw [List.getElem_singleton] at hget
        subst hget
        exact absurd hlog (by simp [World.newThread])
    · by_cases hi : tid = i
      · subst hi
        rw [List.getElem?_set_self (List.getElem?_eq_some_iff.mp hu).1] at ht
        cases ht
        exact hbefore u hu rfl hlog
      · exact hbefore t (by rwa [List.getElem?_set_ne hi] at ht) rfl hlog
    · simp only [World.stepped] at ht
      by_cases hi : tid = i
      · subst hi
        rw [List.getElem?_set_self (List.getElem?_eq_some_iff.mp hu).1] at ht
        cases ht
        cases later with
        | nil =>
          obtain ⟨rfl, rfl⟩ := List.cons.inj hlog
          exact ⟨v, u, hv, .tail .refl ha hact, rfl, rfl, hu, rfl, input, next, hp, hen, rfl⟩
        | cons _ later' =>
          obtain ⟨v', t', hv', hw, hrest⟩ := ih hu (List.cons.inj hlog).2
          exact ⟨v', t', hv', .tail hw ha hact, hrest⟩
      · exact hbefore t (by rwa [List.getElem?_set_ne hi] at ht) rfl hlog

/-- What is logged was done before now. -/
theorem Reachable.time_lt (h : Reachable start allowed w₀ w) (hinit : w₀.threads = []) :
    ∀ t ∈ w.threads, ∀ e ∈ t.log, e.time < w.clock := by
  let Inv : World M Label α → Prop := fun v => ∀ t ∈ v.threads, ∀ e ∈ t.log, e.time < v.clock
  suffices Inv w from this
  refine h.invariant (fun t ht => ?_) fun v a v' _ ih _ hact => ?_
  · rw [hinit] at ht
    cases ht
  rcases World.act_cases start hact with ⟨label, rfl, rfl⟩ | ⟨tid, t, rfl, ht, -, rfl⟩ |
    ⟨tid, input, t, op, next, rfl, ht, -, -, rfl⟩
  · intro u hu
    rcases List.mem_append.mp hu with hu | hu
    · exact ih u hu
    · cases List.mem_singleton.mp hu
      exact fun e he => (List.not_mem_nil he).elim
  · intro u hu
    rcases List.mem_or_eq_of_mem_set hu with hu | rfl
    · exact ih u hu
    · exact ih t (List.mem_of_getElem? ht)
  · intro u hu e he
    rcases List.mem_or_eq_of_mem_set hu with hu | rfl
    · exact Nat.lt_succ_of_lt (ih u hu e he)
    · rcases List.mem_cons.mp he with rfl | he
      · exact Nat.lt_succ_self _
      · exact Nat.lt_succ_of_lt (ih t (List.mem_of_getElem? ht) e he)

/-- Threads stay, with their labels, and their logs only grow. -/
theorem Reachable.grows (h : Reachable start allowed w₀ w) {i : Nat} {t : Thread M Label α}
    (ht : w₀.threads[i]? = some t) :
    ∃ t', w.threads[i]? = some t' ∧ t'.label = t.label ∧ t.log <:+ t'.log := by
  let Inv : World M Label α → Prop := fun v =>
    ∃ t', v.threads[i]? = some t' ∧ t'.label = t.label ∧ t.log <:+ t'.log
  suffices Inv w from this
  refine h.invariant ⟨t, ht, rfl, List.suffix_refl _⟩ fun v a v' _ ih _ hact => ?_
  obtain ⟨u, hu, hlabel, hlog⟩ := ih
  -- the thread that is replaced keeps its label and its log
  have hset : ∀ tid (u₁ u₂ : Thread M Label α), v.threads[tid]? = some u₁ → u₂.label = u₁.label →
      u₁.log <:+ u₂.log → ∃ t', (v.threads.set tid u₂)[i]? = some t' ∧ t'.label = t.label ∧
        t.log <:+ t'.log := by
    intro tid u₁ u₂ hu₁ hlabel₂ hlog₂
    by_cases hi : tid = i
    · subst hi
      rw [hu] at hu₁
      cases hu₁
      refine ⟨u₂, ?_, hlabel₂.trans hlabel, hlog.trans hlog₂⟩
      exact List.getElem?_set_self (List.getElem?_eq_some_iff.mp hu).1
    · exact ⟨u, by rwa [List.getElem?_set_ne hi], hlabel, hlog⟩
  rcases World.act_cases start hact with ⟨label, rfl, rfl⟩ | ⟨tid, u₁, rfl, hu₁, -, rfl⟩ |
    ⟨tid, input, u₁, op, next, rfl, hu₁, -, -, rfl⟩
  · refine ⟨u, ?_, hlabel, hlog⟩
    show (v.threads ++ [World.newThread start label])[i]? = some u
    rw [List.getElem?_append_left (List.getElem?_eq_some_iff.mp hu).1]
    exact hu
  · exact hset tid u₁ u₁.killed hu₁ rfl (List.suffix_refl _)
  · exact hset tid u₁ _ hu₁ rfl (List.suffix_cons _ _)

variable (start allowed w₀ w) in
/-- At some moment of the run, when thread `i` had logged no more than `log`. -/
def During (i : Nat) (log : List (Stamped I)) (φ : M.Shared → Prop) : Prop :=
  ∃ v t, Reachable start allowed w₀ v ∧ Reachable start allowed v w ∧ v.threads[i]? = some t ∧
    t.log <:+ log ∧ φ v.shared

theorem During.mono {i : Nat} {log : List (Stamped I)} {φ ψ : M.Shared → Prop}
    (h : During start allowed w₀ w i log φ) (himp : ∀ sh, φ sh → ψ sh) :
    During start allowed w₀ w i log ψ := by
  obtain ⟨v, t, hv, hw, ht, hlog, hφ⟩ := h
  exact ⟨v, t, hv, hw, ht, hlog, himp _ hφ⟩

end Runs

/-! ## Threads that obey a monitor -/

section Obedience
variable (Mon : Monitor I) (init : Label → Mon.Ghost)

/-- The ghost state of a thread is the fold of its log. -/
def Thread.ghost (t : Thread M Label α) : Mon.Ghost :=
  t.log.foldr (fun e g => Mon.next g e.op e.reply) (init t.label)

variable (post : Label → α → Mon.Ghost → Prop) (failed : Label → I.Exc → Mon.Ghost → Prop)

def Thread.Obeys (t : Thread M Label α) : Prop :=
  Program.Obeys Mon (post t.label) (failed t.label) (t.ghost Mon init) t.program

def World.Obeys (w : World M Label α) : Prop :=
  ∀ t ∈ w.threads, t.Obeys Mon init post failed

variable {Mon init post failed}

@[simp] theorem Thread.ghost_performed (t : Thread M Label α) (op : I.Op)
    (next : I.Reply op → Program I α) (r : I.Reply op × M.Shared × M.Store) (time : Nat) :
    (t.performed op next r time).ghost Mon init = Mon.next (t.ghost Mon init) op r.1 := rfl

@[simp] theorem Thread.ghost_killed (t : Thread M Label α) :
    t.killed.ghost Mon init = t.ghost Mon init := rfl

/-- A thread that obeys performs a permitted operation next. -/
theorem Thread.Obeys.permits {t : Thread M Label α} (h : t.Obeys Mon init post failed)
    {op : I.Op} {next : I.Reply op → Program I α} (hp : t.program = .call op next) :
    Mon.permits (t.ghost Mon init) op := by
  rw [Thread.Obeys, hp] at h
  exact Program.Obeys.permits h

/-- Obedience of all threads is preserved when the programs that start obey and the reply
of the operation is one the monitor regards as possible. -/
theorem World.obeys_act {start : Label → Program I α} {w w' : World M Label α}
    {a : Action M Label} (h : w.Obeys Mon init post failed) (hact : w.act start a = some w')
    (hstart : ∀ label, a = .spawn label →
      Program.Obeys Mon (post label) (failed label) (init label) (start label))
    (hpossible : ∀ tid input t op next, a = .step tid input → w.threads[tid]? = some t →
      t.program = .call op next →
      M.enabled op input (w.others tid) w.shared t.store = true →
      Mon.possible (t.ghost Mon init) op (M.exec op input (w.others tid) w.shared t.store).1) :
    w'.Obeys Mon init post failed := by
  rcases World.act_cases start hact with ⟨label, rfl, rfl⟩ | ⟨tid, t, rfl, ht, -, rfl⟩ |
    ⟨tid, input, t, op, next, rfl, ht, hp, hen, rfl⟩
  · intro u hu
    rcases List.mem_append.mp hu with hu | hu
    · exact h u hu
    · cases List.mem_singleton.mp hu
      exact hstart label rfl
  · intro u hu
    rcases List.mem_or_eq_of_mem_set hu with hu | rfl
    · exact h u hu
    · exact Program.obeys_stuck.mpr trivial
  · intro u hu
    rcases List.mem_or_eq_of_mem_set hu with hu | rfl
    · exact h u hu
    · have hobey := h t (List.mem_of_getElem? ht)
      rw [Thread.Obeys, hp] at hobey
      exact Program.Obeys.next hobey (hpossible tid input t op next rfl ht hp hen)

/-! ### Histories -/

/-- The monitor that remembers all that was done: `ok` says what may follow it. -/
abbrev history (ok : List (Event I) → I.Op → Prop) : Monitor I where
  Ghost := List (Event I)
  next done op r := ⟨op, r⟩ :: done
  permits := ok
  possible := fun _ _ _ => True

/-- What the thread has done so far, the latest event first. -/
def Thread.done (t : Thread M Label α) : List (Event I) := t.log.map Stamped.toEvent

section Histories
variable {start : Label → Program I α} {allowed : World M Label α → Action M Label → Prop}
  {w₀ w : World M Label α} {ok : Label → List (Event I) → I.Op → Prop}

/-- Every thread goes on as its own history allows. -/
theorem Reachable.heeds (h : Reachable start allowed w₀ w) (hinit : w₀.threads = [])
    (hstart : ∀ v label, allowed v (.spawn label) → (start label).Heeds (history (ok label)) []) :
    ∀ t ∈ w.threads, t.program.Heeds (history (ok t.label)) t.done := by
  let Inv : World M Label α → Prop := fun v =>
    ∀ t ∈ v.threads, t.program.Heeds (history (ok t.label)) t.done
  suffices Inv w from this
  refine h.invariant (fun t ht => ?_) fun v a v' _ ih hallowed hact => ?_
  · rw [hinit] at ht
    cases ht
  rcases World.act_cases start hact with ⟨label, rfl, rfl⟩ | ⟨tid, t, rfl, ht, -, rfl⟩ |
    ⟨tid, input, t, op, next, rfl, ht, hp, -, rfl⟩
  · intro u hu
    rcases List.mem_append.mp hu with hu | hu
    · exact ih u hu
    · cases List.mem_singleton.mp hu
      exact hstart v label hallowed
  · intro u hu
    rcases List.mem_or_eq_of_mem_set hu with hu | rfl
    · exact ih u hu
    · exact Program.obeys_stuck.mpr trivial
  · intro u hu
    rcases List.mem_or_eq_of_mem_set hu with hu | rfl
    · exact ih u hu
    · have hheeds := ih t (List.mem_of_getElem? ht)
      rw [hp] at hheeds
      exact Program.Obeys.next hheeds trivial

/-- **Histories are followed.** Every logged operation was allowed after what the thread had
done before, at the moment when it performed it. -/
theorem Reachable.followed (h : Reachable start allowed w₀ w) (hinit : w₀.threads = [])
    (hstart : ∀ v label, allowed v (.spawn label) → (start label).Heeds (history (ok label)) [])
    {i : Nat} {t : Thread M Label α} (ht : w.threads[i]? = some t) {e : Stamped I}
    {later earlier : List (Stamped I)} (hlog : t.log = later ++ e :: earlier) :
    ok t.label (earlier.map Stamped.toEvent) e.op := by
  have hnone : w₀.threads[i]? = none := by rw [hinit]; rfl
  obtain ⟨v, t', hv, -, hlabel, rfl, hget, -, input, next, hp, -⟩ := h.performed hnone ht hlog
  have hheeds := hv.heeds hinit hstart t' (List.mem_of_getElem? hget)
  rw [hp, hlabel] at hheeds
  exact Program.Obeys.permits hheeds

end Histories

end Obedience

/-! ## Threads beside each other -/

section Beside
variable {start : Label → Program I α} {w w' : World M Label α} {a : Action M Label}

theorem World.mem_others {tid : Nat} {o : M.Store} :
    o ∈ w.others tid ↔ ∃ j u, j ≠ tid ∧ w.threads[j]? = some u ∧ u.store = o := by
  unfold World.others
  rw [List.mem_map]
  constructor
  · rintro ⟨u, hu, rfl⟩
    obtain ⟨j, hj, hget⟩ := List.mem_eraseIdx_iff_getElem?.mp hu
    exact ⟨j, u, hj, hget, rfl⟩
  · rintro ⟨j, u, hj, hget, rfl⟩
    exact ⟨u, List.mem_eraseIdx_iff_getElem?.mpr ⟨j, hj, hget⟩, rfl⟩

/-- `R` relates the stores of any two threads. -/
def World.Apart (R : M.Store → M.Store → Prop) (w : World M Label α) : Prop :=
  ∀ (i j : Nat) (t u : Thread M Label α), i ≠ j → w.threads[i]? = some t →
    w.threads[j]? = some u → R t.store u.store

theorem World.Apart.others {R : M.Store → M.Store → Prop} (h : w.Apart R) {tid : Nat}
    {t : Thread M Label α} (ht : w.threads[tid]? = some t) : ∀ o ∈ w.others tid, R t.store o := by
  intro o ho
  obtain ⟨j, u, hj, hu, rfl⟩ := World.mem_others.mp ho
  exact h tid j t u (Ne.symm hj) ht hu

/-- A relation that an enabled operation keeps towards the others holds throughout. -/
theorem World.apart_act {R : M.Store → M.Store → Prop} (hsymm : ∀ s s', R s s' → R s' s)
    (hempty : ∀ s, R M.empty s) (h : w.Apart R) (hact : w.act start a = some w')
    (hexec : ∀ op input others sh st, M.enabled op input others sh st = true →
      (∀ o ∈ others, R st o) → ∀ o ∈ others, R (M.exec op input others sh st).2.2 o) :
    w'.Apart R := by
  -- a thread is replaced by one whose store is related to those of the others
  have hset : ∀ tid (t : Thread M Label α), (∀ o ∈ w.others tid, R t.store o) →
      ∀ (i j : Nat) (u v : Thread M Label α), i ≠ j → (w.threads.set tid t)[i]? = some u →
        (w.threads.set tid t)[j]? = some v → R u.store v.store := by
    intro tid t ht i j u v hij hu hv
    rw [List.getElem?_set] at hu hv
    by_cases hi : tid = i
    · subst hi
      rw [if_pos rfl] at hu
      rw [if_neg hij] at hv
      split at hu
      · cases hu
        exact ht _ (World.mem_others.mpr ⟨j, v, Ne.symm hij, hv, rfl⟩)
      · cases hu
    · rw [if_neg hi] at hu
      by_cases hj : tid = j
      · subst hj
        rw [if_pos rfl] at hv
        split at hv
        · cases hv
          exact hsymm _ _ (ht _ (World.mem_others.mpr ⟨i, u, hij, hu, rfl⟩))
        · cases hv
      · rw [if_neg hj] at hv
        exact h i j u v hij hu hv
  rcases World.act_cases start hact with ⟨label, rfl, rfl⟩ | ⟨tid, t, rfl, ht, -, rfl⟩ |
    ⟨tid, input, t, op, next, rfl, ht, hp, hen, rfl⟩
  · intro i j u v hij hu hv
    have hlast : ∀ k x, (w.threads ++ [World.newThread start label])[k]? = some x →
        w.threads[k]? = some x ∨ (k = w.threads.length ∧ x.store = M.empty) := by
      intro k x hx
      rw [List.getElem?_append] at hx
      split at hx
      · exact .inl hx
      · rename_i hk
        obtain ⟨hzero, hone⟩ := List.getElem?_eq_some_iff.mp hx
        have hkl : k - w.threads.length = 0 := by simpa using hzero
        refine .inr ⟨by omega, ?_⟩
        rw [← hone, List.getElem_singleton]
        rfl
    rcases hlast i u hu with hu | ⟨hi, hu⟩
    · rcases hlast j v hv with hv | ⟨-, hv⟩
      · exact h i j u v hij hu hv
      · rw [hv]
        exact hsymm _ _ (hempty _)
    · rw [hu]
      exact hempty _
  · exact hset tid t.killed fun o _ => hempty o
  · exact hset tid _ fun o ho => hexec op input _ _ _ hen (h.others ht) o ho

/-- What every thread keeps: a thread establishes it when it starts, restores it in its own
steps, and relies on the others not to disturb it. -/
theorem World.each_act {T : M.Shared → Nat → Thread M Label α → Prop}
    (h : ∀ t ∈ w.threads, T w.shared w.clock t) (hact : w.act start a = some w')
    (hspawn : ∀ label, a = .spawn label → T w.shared w.clock (World.newThread start label))
    (hcrash : ∀ t, T w.shared w.clock t → T w.shared w.clock t.killed)
    (hown : ∀ tid input t op next, a = .step tid input → w.threads[tid]? = some t →
      t.program = .call op next → M.enabled op input (w.others tid) w.shared t.store = true →
      T w.shared w.clock t →
      T (w.stepped tid t op next input).shared (w.clock + 1)
        (t.performed op next (M.exec op input (w.others tid) w.shared t.store) w.clock))
    (hothers : ∀ tid input t op next j u, a = .step tid input → w.threads[tid]? = some t →
      t.program = .call op next → M.enabled op input (w.others tid) w.shared t.store = true →
      T w.shared w.clock t → j ≠ tid → w.threads[j]? = some u → T w.shared w.clock u →
      T (w.stepped tid t op next input).shared (w.clock + 1) u) :
    ∀ t ∈ w'.threads, T w'.shared w'.clock t := by
  rcases World.act_cases start hact with ⟨label, rfl, rfl⟩ | ⟨tid, t, rfl, ht, -, rfl⟩ |
    ⟨tid, input, t, op, next, rfl, ht, hp, hen, rfl⟩
  · intro u hu
    rcases List.mem_append.mp hu with hu | hu
    · exact h u hu
    · cases List.mem_singleton.mp hu
      exact hspawn label rfl
  · intro u hu
    rcases List.mem_or_eq_of_mem_set hu with hu | rfl
    · exact h u hu
    · exact hcrash t (h t (List.mem_of_getElem? ht))
  · intro u hu
    have hT := h t (List.mem_of_getElem? ht)
    obtain ⟨j, hj⟩ := List.mem_iff_getElem?.mp hu
    rw [World.stepped, List.getElem?_set] at hj
    by_cases htid : tid = j
    · rw [if_pos htid] at hj
      split at hj
      · cases hj
        exact hown tid input t op next rfl ht hp hen hT
      · cases hj
    · rw [if_neg htid] at hj
      exact hothers tid input t op next j u rfl ht hp hen hT (Ne.symm htid) hj
        (h u (List.mem_of_getElem? hj))

end Beside
end Programs
