/-!
# Effectful programs as trees

A `Program I α` is the tree of the operations that a piece of imperative code performs:
at each node one operation of the interface `I` is awaited, and the rest of the code
depends on its answer or on the exception it raised. Exceptions are part of the tree, so
`try … except` is `Program.tryCatch`.

* `Program.eval` runs a program alone against a state; `Program.Runs` is a run that returns.
* `Program.Uses ok` says that every operation the program can ever perform satisfies `ok`,
  whatever the answers are.
* `Program.performs` says whether a run performs an operation of some kind.
* `Program.Obeys` follows the program with a ghost state, through every answer that the
  monitor `M` regards as possible. It is the weakest precondition of the program for the
  permissions of the monitor.

All are defined by recursion on the tree; each has one equation for every way of
composing programs, and these equations are the simp set of this file.
-/

namespace Programs

/-- The operations that code may await: their names, the type of their answers and the
exceptions that they and the code raise. -/
structure Interface where
  Op : Type
  Answer : Op → Type
  Exc : Type

/-- What an operation replies: its answer, or the exception it raises. -/
abbrev Interface.Reply (I : Interface) (op : I.Op) : Type := Except I.Exc (I.Answer op)

/-- One operation that was performed, with its reply. -/
structure Event (I : Interface) where
  op : I.Op
  reply : I.Reply op

inductive Program (I : Interface) (α : Type) where
  | pure (a : α)
  | raise (e : I.Exc)
  /-- Code that never gets any further: a loop that is still running when its fuel ends. -/
  | stuck
  | call (op : I.Op) (next : I.Reply op → Program I α)

/-- How a program ends. -/
inductive Outcome (I : Interface) (α : Type) where
  | value (a : α)
  | raised (e : I.Exc)
  | stuck

variable {I : Interface} {α β : Type}

namespace Program

def bind : Program I α → (α → Program I β) → Program I β
  | pure a, f => f a
  | raise e, _ => raise e
  | stuck, _ => stuck
  | call op next, f => call op fun r => (next r).bind f

/-- `try p except e: handler e`. -/
def tryCatch : Program I α → (I.Exc → Program I α) → Program I α
  | pure a, _ => pure a
  | raise e, handler => handler e
  | stuck, _ => stuck
  | call op next, handler => call op fun r => (next r).tryCatch handler

instance : Monad (Program I) where
  pure := pure
  bind := bind

/-- Await one operation; its exception is raised where it is awaited. -/
def perform (op : I.Op) : Program I (I.Answer op) :=
  call op fun
    | .ok a => pure a
    | .error e => raise e

theorem bind_eq (p : Program I α) (f : α → Program I β) : (p >>= f) = p.bind f := rfl

theorem pure_eq (a : α) : (Pure.pure a : Program I α) = .pure a := rfl

theorem bind_assoc {γ : Type} (p : Program I α) (f : α → Program I β) (g : β → Program I γ) :
    p >>= f >>= g = p >>= fun a => f a >>= g := by
  simp only [bind_eq]
  induction p with
  | pure a => rfl
  | raise e => rfl
  | stuck => rfl
  | call op next ih => exact congrArg (call op) (funext ih)

/-! ## Running a program alone -/

section Eval
variable {S : Type} (exec : (op : I.Op) → S → I.Reply op × S)

def eval : Program I α → S → Outcome I α × S
  | pure a, s => (.value a, s)
  | raise e, s => (.raised e, s)
  | stuck, s => (.stuck, s)
  | call op next, s => (next (exec op s).1).eval (exec op s).2

@[simp] theorem eval_pure (a : α) (s : S) :
    (Pure.pure a : Program I α).eval exec s = (.value a, s) := rfl

@[simp] theorem eval_raise (e : I.Exc) (s : S) :
    (raise e : Program I α).eval exec s = (.raised e, s) := rfl

theorem eval_bind (p : Program I α) (f : α → Program I β) (s : S) :
    (p >>= f).eval exec s =
      match p.eval exec s with
      | (.value a, s') => (f a).eval exec s'
      | (.raised e, s') => (.raised e, s')
      | (.stuck, s') => (.stuck, s') := by
  rw [bind_eq]
  induction p generalizing s with
  | pure a => rfl
  | raise e => rfl
  | stuck => rfl
  | call op next ih => exact ih _ _

theorem eval_tryCatch (p : Program I α) (handler : I.Exc → Program I α) (s : S) :
    (p.tryCatch handler).eval exec s =
      match p.eval exec s with
      | (.raised e, s') => (handler e).eval exec s'
      | r => r := by
  induction p generalizing s with
  | pure a => rfl
  | raise e => rfl
  | stuck => rfl
  | call op next ih => exact ih _ _

theorem eval_perform (op : I.Op) (s : S) :
    (perform op).eval exec s =
      match (exec op s).1 with
      | .ok a => (.value a, (exec op s).2)
      | .error e => (.raised e, (exec op s).2) := by
  simp only [perform, eval]
  cases (exec op s).1 <;> rfl

theorem eval_perform_snd (op : I.Op) (s : S) :
    ((perform op).eval exec s).2 = (exec op s).2 := by
  rw [eval_perform]
  split <;> rfl

/-- The program returns `a` and leaves the state `s'`. -/
def Runs (p : Program I α) (s : S) (a : α) (s' : S) : Prop := p.eval exec s = (.value a, s')

variable {exec}

theorem runs_pure {a b : α} {s s' : S} :
    (Pure.pure a : Program I α).Runs exec s b s' ↔ a = b ∧ s = s' := by
  simp [Runs]

theorem runs_raise {e : I.Exc} {b : α} {s s' : S} :
    (raise e : Program I α).Runs exec s b s' ↔ False := by
  simp [Runs]

theorem runs_bind {p : Program I α} {f : α → Program I β} {b : β} {s s' : S} :
    (p >>= f).Runs exec s b s' ↔ ∃ a s₁, p.Runs exec s a s₁ ∧ (f a).Runs exec s₁ b s' := by
  simp only [Runs, eval_bind]
  rcases p.eval exec s with ⟨_ | _ | _, s₁⟩ <;> simp [and_assoc]

/-- How a sequence raises: in its first part, or after it. -/
theorem eval_bind_raised {p : Program I α} {f : α → Program I β} {e : I.Exc} {s s' : S} :
    (p >>= f).eval exec s = (.raised e, s') ↔
      p.eval exec s = (.raised e, s') ∨
        ∃ a s₁, p.Runs exec s a s₁ ∧ (f a).eval exec s₁ = (.raised e, s') := by
  simp only [Runs, eval_bind]
  rcases p.eval exec s with ⟨_ | _ | _, s₁⟩ <;> simp [and_assoc]

/-- Only the continuations of runs that return matter. -/
theorem eval_bind_congr {p : Program I α} {f g : α → Program I β} {s : S}
    (h : ∀ a s', p.Runs exec s a s' → (f a).eval exec s' = (g a).eval exec s') :
    (p >>= f).eval exec s = (p >>= g).eval exec s := by
  simp only [eval_bind]
  split
  · rename_i a s' hrun
    exact h a s' hrun
  · rfl
  · rfl

theorem runs_tryCatch {p : Program I α} {handler : I.Exc → Program I α} {a : α} {s s' : S} :
    (p.tryCatch handler).Runs exec s a s' ↔
      p.Runs exec s a s' ∨
        ∃ e s₁, p.eval exec s = (.raised e, s₁) ∧ (handler e).Runs exec s₁ a s' := by
  simp only [Runs, eval_tryCatch]
  rcases p.eval exec s with ⟨_ | _ | _, s₁⟩ <;> simp [and_assoc]

theorem runs_perform {op : I.Op} {a : I.Answer op} {s s' : S} :
    (perform op).Runs exec s a s' ↔ exec op s = (.ok a, s') := by
  simp only [Runs, eval_perform]
  rcases exec op s with ⟨_ | _, s₁⟩ <;> simp

/-! ### Runs that complete -/

variable (exec) in
/-- The run from the state returns, with an answer and in a state that satisfy `Q`. -/
def Completes (p : Program I α) (s : S) (Q : α → S → Prop) : Prop :=
  ∃ a s', p.Runs exec s a s' ∧ Q a s'

theorem completes_pure {a : α} {s : S} {Q : α → S → Prop} (h : Q a s) :
    (Pure.pure a : Program I α).Completes exec s Q := ⟨a, s, runs_pure.mpr ⟨rfl, rfl⟩, h⟩

theorem completes_perform {op : I.Op} {s : S} {Q : I.Answer op → S → Prop} {a : I.Answer op}
    (h : (exec op s).1 = .ok a) (hQ : Q a (exec op s).2) : (perform op).Completes exec s Q :=
  ⟨a, _, runs_perform.mpr (Prod.ext h rfl), hQ⟩

theorem Completes.bind {p : Program I α} {f : α → Program I β} {s : S} {Q : α → S → Prop}
    {R : β → S → Prop} (hp : p.Completes exec s Q)
    (hf : ∀ a s', Q a s' → (f a).Completes exec s' R) : (p >>= f).Completes exec s R := by
  obtain ⟨a, s₁, hrun, hQ⟩ := hp
  obtain ⟨b, s₂, hrun', hR⟩ := hf a s₁ hQ
  exact ⟨b, s₂, runs_bind.mpr ⟨a, s₁, hrun, hrun'⟩, hR⟩

theorem Completes.tryCatch {p : Program I α} {handler : I.Exc → Program I α} {s : S}
    {Q : α → S → Prop} (h : p.Completes exec s Q) : (p.tryCatch handler).Completes exec s Q := by
  obtain ⟨a, s', hrun, hQ⟩ := h
  exact ⟨a, s', runs_tryCatch.mpr (.inl hrun), hQ⟩

theorem Completes.mono {p : Program I α} {s : S} {Q R : α → S → Prop}
    (h : p.Completes exec s Q) (hQR : ∀ a s', Q a s' → R a s') : p.Completes exec s R := by
  obtain ⟨a, s', hrun, hQ⟩ := h
  exact ⟨a, s', hrun, hQR a s' hQ⟩

/-- What is known of every run that returns is known of one that completes. -/
theorem Completes.and_runs {p : Program I α} {s : S} {Q R : α → S → Prop}
    (h : p.Completes exec s Q) (hR : ∀ a s', p.Runs exec s a s' → R a s') :
    p.Completes exec s fun a s' => Q a s' ∧ R a s' := by
  obtain ⟨a, s', hrun, hQ⟩ := h
  exact ⟨a, s', hrun, hQ, hR a s' hrun⟩

/-! ### Exceptions -/

variable (exec) in
/-- Every run ends, and whatever it raises satisfies `Q`. -/
def FailsWith (Q : I.Exc → Prop) (p : Program I α) : Prop :=
  ∀ s, (p.eval exec s).1 ≠ .stuck ∧ ∀ e s', p.eval exec s = (.raised e, s') → Q e

variable {Q : I.Exc → Prop}

theorem failsWith_pure (a : α) : FailsWith exec Q (Pure.pure a : Program I α) :=
  fun _ => ⟨nofun, fun _ _ h => nomatch congrArg Prod.fst h⟩

theorem failsWith_raise {e : I.Exc} (he : Q e) : FailsWith exec Q (raise e : Program I α) :=
  fun _ => ⟨nofun, fun _ _ h => by cases h; exact he⟩

theorem failsWith_perform {op : I.Op} (hop : ∀ s e, (exec op s).1 = .error e → Q e) :
    FailsWith exec Q (perform op) := by
  intro s
  rw [eval_perform]
  cases hr : (exec op s).1 with
  | ok a => exact ⟨nofun, fun _ _ h => nomatch congrArg Prod.fst h⟩
  | error e => exact ⟨nofun, fun _ _ h => by cases h; exact hop s e hr⟩

theorem FailsWith.bind {p : Program I α} {f : α → Program I β} (hp : FailsWith exec Q p)
    (hf : ∀ a, FailsWith exec Q (f a)) : FailsWith exec Q (p >>= f) := by
  intro s
  have hs := hp s
  rw [eval_bind]
  split
  · rename_i a s' _
    exact hf a s'
  · rename_i e s' hrun
    exact ⟨nofun, fun _ _ h => by cases h; exact hs.2 e s' hrun⟩
  · rename_i s' hrun
    exact (hs.1 (by rw [hrun])).elim

theorem FailsWith.tryCatch {R : I.Exc → Prop} {p : Program I α} {handler : I.Exc → Program I α}
    (hp : FailsWith exec R p) (hh : ∀ e, R e → FailsWith exec Q (handler e)) :
    FailsWith exec Q (p.tryCatch handler) := by
  intro s
  have hs := hp s
  rw [eval_tryCatch]
  split
  · rename_i e s' hrun
    exact hh e (hs.2 e s' hrun) s'
  · rename_i hno
    exact ⟨hs.1, fun e s' h => (hno e s' h).elim⟩

theorem FailsWith.mono {Q' : I.Exc → Prop} {p : Program I α} (hp : FailsWith exec Q p)
    (h : ∀ e, Q e → Q' e) : FailsWith exec Q' p :=
  fun s => ⟨(hp s).1, fun e s' he => h e ((hp s).2 e s' he)⟩

/-- Code that never raises returns. -/
theorem exists_runs_of_failsWith {p : Program I α} (h : FailsWith exec (fun _ => False) p) (s : S) :
    ∃ a s', p.Runs exec s a s' := by
  rcases heval : p.eval exec s with ⟨a | e | _, s'⟩
  · exact ⟨a, s', heval⟩
  · exact ((h s).2 e s' heval).elim
  · exact absurd (by rw [heval]) (h s).1

/-! ### Watched runs -/

section Watch
variable {J : Type} (exec : (op : I.Op) → S → I.Reply op × S) (note : (op : I.Op) → S → J → J)

/-- The same execution, with a record of what is executed. -/
def watch (op : I.Op) (x : S × J) : I.Reply op × S × J :=
  ((exec op x.1).1, (exec op x.1).2, note op x.1 x.2)

/-- Watching changes nothing. -/
theorem eval_watch (p : Program I α) (x : S × J) :
    p.eval exec x.1 =
      ((p.eval (watch exec note) x).1, (p.eval (watch exec note) x).2.1) := by
  induction p generalizing x with
  | pure a => rfl
  | raise e => rfl
  | stuck => rfl
  | call op next ih => exact ih _ (watch exec note op x).2

end Watch

end Eval

/-! ## The operations a program can perform -/

/-- Every operation of the tree satisfies `ok`. -/
def Uses (ok : I.Op → Prop) : Program I α → Prop
  | pure _ => True
  | raise _ => True
  | stuck => True
  | call op next => ok op ∧ ∀ r, (next r).Uses ok

section Uses
variable {ok : I.Op → Prop}

@[simp] theorem uses_pure (a : α) : (Pure.pure a : Program I α).Uses ok := trivial

@[simp] theorem uses_raise (e : I.Exc) : (raise e : Program I α).Uses ok := trivial

@[simp] theorem uses_stuck : (stuck : Program I α).Uses ok := trivial

@[simp] theorem uses_perform (op : I.Op) : (perform op).Uses ok ↔ ok op := by
  refine ⟨fun h => h.1, fun h => ⟨h, fun r => ?_⟩⟩
  cases r <;> trivial

theorem Uses.bind {p : Program I α} {f : α → Program I β} (hp : p.Uses ok)
    (hf : ∀ a, (f a).Uses ok) : (p >>= f).Uses ok := by
  rw [bind_eq]
  induction p with
  | pure a => exact hf a
  | raise e => trivial
  | stuck => trivial
  | call op next ih => exact ⟨hp.1, fun r => ih r (hp.2 r)⟩

theorem Uses.tryCatch {p : Program I α} {handler : I.Exc → Program I α} (hp : p.Uses ok)
    (hh : ∀ e, (handler e).Uses ok) : (p.tryCatch handler).Uses ok := by
  induction p with
  | pure a => trivial
  | raise e => exact hh e
  | stuck => trivial
  | call op next ih => exact ⟨hp.1, fun r => ih r (hp.2 r)⟩

theorem Uses.mono {weaker : I.Op → Prop} {p : Program I α} (hp : p.Uses ok)
    (h : ∀ op, ok op → weaker op) : p.Uses weaker := by
  induction p with
  | pure a => trivial
  | raise e => trivial
  | stuck => trivial
  | call op next ih => exact ⟨h op hp.1, fun r => ih r (hp.2 r)⟩

/-- An invariant of every operation that the program can perform holds at its end. -/
theorem Uses.invariant {S : Type} (exec : (op : I.Op) → S → I.Reply op × S) (Inv : S → Prop)
    (step : ∀ op s, ok op → Inv s → Inv (exec op s).2) {p : Program I α} (hp : p.Uses ok)
    {s : S} (h : Inv s) : Inv (p.eval exec s).2 := by
  induction p generalizing s with
  | pure a => exact h
  | raise e => exact h
  | stuck => exact h
  | call op next ih => exact ih _ (hp.2 _) (step op s hp.1 h)

section Invariant
variable {S : Type} (exec : (op : I.Op) → S → I.Reply op × S) (Inv : S → Prop)
  (step : ∀ op s, ok op → Inv s → Inv (exec op s).2)
include step

/-- An invariant that a part of a program leaves holds after the rest. -/
theorem eval_bind_invariant {p : Program I α} {f : α → Program I β} (hf : ∀ a, (f a).Uses ok)
    {s : S} (h : Inv (p.eval exec s).2) : Inv ((p >>= f).eval exec s).2 := by
  rw [eval_bind]
  split
  · rename_i a s' hrun
    rw [hrun] at h
    exact (hf a).invariant exec Inv step h
  · rename_i e s' hrun
    rw [hrun] at h
    exact h
  · rename_i s' hrun
    rw [hrun] at h
    exact h

theorem eval_tryCatch_invariant {p : Program I α} {handler : I.Exc → Program I α}
    (hh : ∀ e, (handler e).Uses ok) {s : S} (h : Inv (p.eval exec s).2) :
    Inv ((p.tryCatch handler).eval exec s).2 := by
  rw [eval_tryCatch]
  split
  · rename_i e s' hrun
    rw [hrun] at h
    exact (hh e).invariant exec Inv step h
  · exact h

end Invariant

/-! ### Frames -/

section Frame
variable {S γ : Type} {exec : (op : I.Op) → S → I.Reply op × S} (F : S → γ)
  (hF : ∀ op s, ok op → F (exec op s).2 = F s)
include hF

/-- What no operation of the program changes is the same at its end. -/
theorem Uses.frame {p : Program I α} (hp : p.Uses ok) (s : S) : F (p.eval exec s).2 = F s :=
  hp.invariant exec (fun s' => F s' = F s) (fun op s' hop h => (hF op s' hop).trans h) rfl

theorem eval_bind_frame {p : Program I α} {f : α → Program I β} (hf : ∀ a, (f a).Uses ok) (s : S) :
    F ((p >>= f).eval exec s).2 = F (p.eval exec s).2 := by
  rw [eval_bind]
  split
  · rename_i a s' hrun
    rw [hrun, (hf a).frame F hF s']
  · rename_i e s' hrun
    rw [hrun]
  · rename_i s' hrun
    rw [hrun]

theorem eval_tryCatch_frame {p : Program I α} {handler : I.Exc → Program I α}
    (hh : ∀ e, (handler e).Uses ok) (s : S) :
    F ((p.tryCatch handler).eval exec s).2 = F (p.eval exec s).2 := by
  rw [eval_tryCatch]
  split
  · rename_i e s' hrun
    rw [hrun, (hh e).frame F hF s']
  · rfl

end Frame

end Uses

/-! ## Operations that a run performs -/

section Performs
variable {S : Type} (exec : (op : I.Op) → S → I.Reply op × S) (test : I.Op → Bool)

/-- The run from the state performs an operation with `test`. -/
def performs : Program I α → S → Bool
  | pure _, _ => false
  | raise _, _ => false
  | stuck, _ => false
  | call op next, s => test op || (next (exec op s).1).performs (exec op s).2

variable {exec test}

@[simp] theorem performs_pure (a : α) (s : S) :
    (Pure.pure a : Program I α).performs exec test s = false := rfl

@[simp] theorem performs_raise (e : I.Exc) (s : S) :
    (raise e : Program I α).performs exec test s = false := rfl

theorem performs_bind {p : Program I α} {f : α → Program I β} {s : S} :
    (p >>= f).performs exec test s = true ↔
      p.performs exec test s = true ∨
        ∃ a s', p.Runs exec s a s' ∧ (f a).performs exec test s' = true := by
  rw [bind_eq]
  induction p generalizing s with
  | pure a => simp [bind, performs, Runs, eval, and_assoc]
  | raise e => simp [bind, performs, Runs, eval]
  | stuck => simp [bind, performs, Runs, eval]
  | call op next ih => simp [bind, performs, Runs, eval, ih, or_assoc]

theorem performs_tryCatch {p : Program I α} {handler : I.Exc → Program I α} {s : S} :
    (p.tryCatch handler).performs exec test s = true ↔
      p.performs exec test s = true ∨
        ∃ e s', p.eval exec s = (.raised e, s') ∧ (handler e).performs exec test s' = true := by
  induction p generalizing s with
  | pure a => simp [tryCatch, performs, eval]
  | raise e => simp [tryCatch, performs, eval, and_assoc]
  | stuck => simp [tryCatch, performs, eval]
  | call op next ih => simp [tryCatch, performs, eval, ih, or_assoc]

variable (exec) in
/-- The operations that the run from the state performs, in order. -/
def trace : Program I α → S → List I.Op
  | pure _, _ => []
  | raise _, _ => []
  | stuck, _ => []
  | call op next, s => op :: (next (exec op s).1).trace (exec op s).2

variable (exec) in
/-- The program returns `a`, leaves the state `s'` and has performed these operations. -/
structure Yields (p : Program I α) (s : S) (a : α) (s' : S) (ops : List I.Op) : Prop where
  runs : p.Runs exec s a s'
  trace : p.trace exec s = ops

theorem yields_pure (a : α) (s : S) : (Pure.pure a : Program I α).Yields exec s a s [] :=
  ⟨rfl, rfl⟩

theorem yields_perform {op : I.Op} {a : I.Answer op} {s s' : S} (h : exec op s = (.ok a, s')) :
    (perform op).Yields exec s a s' [op] := by
  refine ⟨runs_perform.mpr h, ?_⟩
  unfold perform
  simp only [Program.trace, h]

theorem Yields.bind {p : Program I α} {f : α → Program I β} {s s₁ s' : S} {a : α} {b : β}
    {ops ops' : List I.Op} (hp : p.Yields exec s a s₁ ops)
    (hf : (f a).Yields exec s₁ b s' ops') : (p >>= f).Yields exec s b s' (ops ++ ops') := by
  refine ⟨runs_bind.mpr ⟨a, s₁, hp.runs, hf.runs⟩, ?_⟩
  obtain ⟨hrun, htrace⟩ := hp
  unfold Runs at hrun
  rw [bind_eq]
  induction p generalizing s ops with
  | pure b =>
    cases hrun
    cases htrace
    exact hf.trace
  | raise e => cases hrun
  | stuck => cases hrun
  | call op next ih =>
    subst htrace
    exact congrArg (op :: ·) (ih _ hrun rfl)

theorem performs_eq_any (p : Program I α) (s : S) :
    p.performs exec test s = (p.trace exec s).any test := by
  induction p generalizing s with
  | pure a => rfl
  | raise e => rfl
  | stuck => rfl
  | call op next ih => simp only [performs, trace, List.any_cons, ih]

theorem Uses.of_mem_trace {ok : I.Op → Prop} {p : Program I α} (hp : p.Uses ok) {s : S} {op : I.Op}
    (h : op ∈ p.trace exec s) : ok op := by
  induction p generalizing s with
  | pure a => cases h
  | raise e => cases h
  | stuck => cases h
  | call op' next ih =>
    unfold Uses at hp
    rcases List.mem_cons.mp h with rfl | h
    · exact hp.1
    · exact ih _ (hp.2 _) h

/-- A program without such operations performs none. -/
theorem Uses.not_performs {p : Program I α} (hp : p.Uses fun op => test op = false) (s : S) :
    p.performs exec test s = false := by
  induction p generalizing s with
  | pure a => rfl
  | raise e => rfl
  | stuck => rfl
  | call op next ih =>
    unfold Uses at hp
    simp [performs, hp.1, ih _ (hp.2 _)]

end Performs

end Program

/-! ## Monitors -/

/-- A monitor keeps a ghost state of the operations performed so far. `permits g op` is
what the code owes when it performs `op`; `possible g op r` is what it may rely on for
the reply. -/
structure Monitor (I : Interface) where
  Ghost : Type
  next : Ghost → (op : I.Op) → I.Reply op → Ghost
  permits : Ghost → I.Op → Prop
  possible : Ghost → (op : I.Op) → I.Reply op → Prop

namespace Program
variable {M : Monitor I}

/-- The program performs permitted operations only, and ends in `post` or, by an
exception, in `failed`. -/
def Obeys (M : Monitor I) (post : α → M.Ghost → Prop) (failed : I.Exc → M.Ghost → Prop) :
    M.Ghost → Program I α → Prop
  | g, pure a => post a g
  | g, raise e => failed e g
  | _, stuck => True
  | g, call op next =>
      M.permits g op ∧ ∀ r, M.possible g op r → Obeys M post failed (M.next g op r) (next r)

variable {post : α → M.Ghost → Prop} {failed : I.Exc → M.Ghost → Prop} {g : M.Ghost}

@[simp] theorem obeys_pure (a : α) :
    Obeys M post failed g (Pure.pure a : Program I α) ↔ post a g := Iff.rfl

@[simp] theorem obeys_raise (e : I.Exc) :
    Obeys M post failed g (raise e : Program I α) ↔ failed e g := Iff.rfl

@[simp] theorem obeys_stuck : Obeys M post failed g (stuck : Program I α) ↔ True := Iff.rfl

theorem obeys_bind {post : β → M.Ghost → Prop} (p : Program I α) (f : α → Program I β) :
    Obeys M post failed g (p >>= f) ↔
      Obeys M (fun a g' => Obeys M post failed g' (f a)) failed g p := by
  rw [bind_eq]
  induction p generalizing g with
  | pure a => rfl
  | raise e => rfl
  | stuck => rfl
  | call op next ih => exact and_congr_right fun _ => forall_congr' fun r => imp_congr_right fun _ => ih r

theorem obeys_tryCatch (p : Program I α) (handler : I.Exc → Program I α) :
    Obeys M post failed g (p.tryCatch handler) ↔
      Obeys M post (fun e g' => Obeys M post failed g' (handler e)) g p := by
  induction p generalizing g with
  | pure a => rfl
  | raise e => rfl
  | stuck => rfl
  | call op next ih => exact and_congr_right fun _ => forall_congr' fun r => imp_congr_right fun _ => ih r

theorem obeys_perform {op : I.Op} {post : I.Answer op → M.Ghost → Prop} :
    Obeys M post failed g (perform op) ↔ M.permits g op ∧
      (∀ a, M.possible g op (.ok a) → post a (M.next g op (.ok a))) ∧
      (∀ e, M.possible g op (.error e) → failed e (M.next g op (.error e))) := by
  refine and_congr_right fun _ => ⟨fun h => ⟨fun a => h (.ok a), fun e => h (.error e)⟩, ?_⟩
  rintro ⟨hok, herr⟩ (e | a) hr
  · exact herr e hr
  · exact hok a hr

theorem Obeys.mono {post' : α → M.Ghost → Prop} {failed' : I.Exc → M.Ghost → Prop}
    {p : Program I α} (h : Obeys M post failed g p) (hpost : ∀ a g', post a g' → post' a g')
    (hfailed : ∀ e g', failed e g' → failed' e g') : Obeys M post' failed' g p := by
  induction p generalizing g with
  | pure a => exact hpost a g h
  | raise e => exact hfailed e g h
  | stuck => trivial
  | call op next ih => exact ⟨h.1, fun r hr => ih r (h.2 r hr)⟩

theorem Obeys.permits {op : I.Op} {next : I.Reply op → Program I α}
    (h : Obeys M post failed g (call op next)) : M.permits g op := h.1

theorem Obeys.next {op : I.Op} {next : I.Reply op → Program I α}
    (h : Obeys M post failed g (call op next)) {r : I.Reply op} (hr : M.possible g op r) :
    Obeys M post failed (M.next g op r) (next r) := h.2 r hr

/-- An obedient program runs alone: when the ghost state stands in a relation to the state
that every permitted operation keeps, the program ends as it promises. -/
theorem Obeys.run {S : Type} {exec : (op : I.Op) → S → I.Reply op × S} {R : M.Ghost → S → Prop}
    (step : ∀ g s op, R g s → M.permits g op →
      M.possible g op (exec op s).1 ∧ R (M.next g op (exec op s).1) (exec op s).2)
    {p : Program I α} (h : Obeys M post failed g p) {s : S} (hs : R g s) :
    ∃ g', R g' (p.eval exec s).2 ∧
      (∀ a, (p.eval exec s).1 = .value a → post a g') ∧
      ∀ e, (p.eval exec s).1 = .raised e → failed e g' := by
  induction p generalizing g s with
  | pure a => exact ⟨g, hs, fun _ h' => by cases h'; exact h, nofun⟩
  | raise e => exact ⟨g, hs, nofun, fun _ h' => by cases h'; exact h⟩
  | stuck => exact ⟨g, hs, nofun, nofun⟩
  | call op next ih =>
    obtain ⟨hpossible, hR⟩ := step g s op hs h.1
    exact ih _ (h.2 _ hpossible) hR

/-- Code whose operations all keep a property of the ghost state obeys and keeps it. -/
theorem Uses.obeys {ok : I.Op → Prop} {Q : M.Ghost → Prop}
    (step : ∀ g op, ok op → Q g →
      M.permits g op ∧ ∀ r, M.possible g op r → Q (M.next g op r))
    {p : Program I α} (hp : p.Uses ok) (hg : Q g) :
    Obeys M (fun _ => Q) (fun _ => Q) g p := by
  induction p generalizing g with
  | pure a => exact hg
  | raise e => exact hg
  | stuck => trivial
  | call op next ih =>
    obtain ⟨hpermits, hnext⟩ := step g op hp.1 hg
    exact ⟨hpermits, fun r hr => ih r (hp.2 r) (hnext r hr)⟩

/-- Two facts about the same code. -/
theorem Obeys.and {post' : α → M.Ghost → Prop} {failed' : I.Exc → M.Ghost → Prop}
    {p : Program I α} (h : Obeys M post failed g p) (h' : Obeys M post' failed' g p) :
    Obeys M (fun a g' => post a g' ∧ post' a g') (fun e g' => failed e g' ∧ failed' e g') g p := by
  induction p generalizing g with
  | pure a => exact ⟨h, h'⟩
  | raise e => exact ⟨h, h'⟩
  | stuck => trivial
  | call op next ih => exact ⟨h.1, fun r hr => ih r (h.2 r hr) (h'.2 r hr)⟩

/-- The program performs permitted operations only, however it ends. -/
def Heeds (M : Monitor I) (g : M.Ghost) (p : Program I α) : Prop :=
  Obeys M (fun _ _ => True) (fun _ _ => True) g p

section Heeds
variable {p : Program I α}

theorem Obeys.heeds (h : Obeys M post failed g p) : p.Heeds M g :=
  h.mono (fun _ _ _ => trivial) fun _ _ _ => trivial

theorem heeds_pure (a : α) : (Pure.pure a : Program I α).Heeds M g := trivial

theorem heeds_raise (e : I.Exc) : (raise e : Program I α).Heeds M g := trivial

theorem heeds_bind {f : α → Program I β} :
    (p >>= f).Heeds M g ↔ Obeys M (fun a g' => (f a).Heeds M g') (fun _ _ => True) g p :=
  obeys_bind p f

theorem heeds_tryCatch {handler : I.Exc → Program I α} :
    (p.tryCatch handler).Heeds M g ↔
      Obeys M (fun _ _ => True) (fun e g' => (handler e).Heeds M g') g p :=
  obeys_tryCatch p handler

theorem heeds_perform {op : I.Op} : (perform op).Heeds M g ↔ M.permits g op :=
  obeys_perform.trans ⟨fun h => h.1, fun h => ⟨h, fun _ _ => trivial, fun _ _ => trivial⟩⟩

/-- Code whose operations are permitted in every ghost state. -/
theorem Uses.heeds (hp : p.Uses fun op => ∀ g, M.permits g op) : p.Heeds M g :=
  (hp.obeys (Q := fun _ => True) (fun g _ hop _ => ⟨hop g, fun _ _ => trivial⟩) trivial).heeds

/-- Code that starts in a ghost state from which everything is permitted, and stays there. -/
theorem heeds_of_kept {Q : M.Ghost → Prop}
    (step : ∀ g op, Q g → M.permits g op ∧ ∀ r, M.possible g op r → Q (M.next g op r))
    (hg : Q g) : p.Heeds M g := by
  induction p generalizing g with
  | pure a => trivial
  | raise e => trivial
  | stuck => trivial
  | call op next ih =>
    obtain ⟨hpermits, hnext⟩ := step g op hg
    exact ⟨hpermits, fun r hr => ih r (hnext r hr)⟩

end Heeds

attribute [irreducible] Obeys Uses

end Program
end Programs
