import WolMonkey.Library.Program

/-!
# Two runs side by side

`Alike Q E p q s t` relates the run of `p` from the state `s` to the run of `q` from
the state `t`: both return, with answers and in states that satisfy `Q`, or both raise
exceptions that satisfy `E`. The rules compose such facts along `>>=` and `tryCatch`.

`Uniform R p` is the instance that noninterference is about: from states related by `R` the
program ends the same way twice, in states that are related again.
-/

namespace Programs
namespace Program
variable {I : Interface} {α β γ δ S : Type}

section Alike
variable (exec : (op : I.Op) → S → I.Reply op × S)

/-- How two runs end together. -/
def Alike (Q : α → β → S → S → Prop) (E : I.Exc → I.Exc → S → S → Prop)
    (p : Program I α) (q : Program I β) (s t : S) : Prop :=
  match p.eval exec s, q.eval exec t with
  | (.value a, s'), (.value b, t') => Q a b s' t'
  | (.raised e, s'), (.raised e', t') => E e e' s' t'
  | _, _ => False

variable {exec} {Q : α → β → S → S → Prop} {E : I.Exc → I.Exc → S → S → Prop}
  {p : Program I α} {q : Program I β} {s t : S}

theorem alike_pure {a : α} {b : β} :
    Alike exec Q E (Pure.pure a : Program I α) (Pure.pure b : Program I β) s t ↔
      Q a b s t := Iff.rfl

theorem alike_raise {e e' : I.Exc} :
    Alike exec Q E (raise e : Program I α) (raise e' : Program I β) s t ↔
      E e e' s t := Iff.rfl

theorem Alike.mono {Q' : α → β → S → S → Prop} {E' : I.Exc → I.Exc → S → S → Prop}
    (h : Alike exec Q E p q s t) (hQ : ∀ a b s t, Q a b s t → Q' a b s t)
    (hE : ∀ e e' s t, E e e' s t → E' e e' s t) :
    Alike exec Q' E' p q s t := by
  unfold Alike at h ⊢
  split at h
  · exact hQ _ _ _ _ h
  · exact hE _ _ _ _ h
  · exact h.elim

theorem Alike.bind {Q' : γ → δ → S → S → Prop} {f : α → Program I γ} {g : β → Program I δ}
    (h : Alike exec Q E p q s t)
    (hfg : ∀ a b s t, Q a b s t → Alike exec Q' E (f a) (g b) s t) :
    Alike exec Q' E (p >>= f) (q >>= g) s t := by
  unfold Alike at h ⊢
  rw [eval_bind, eval_bind]
  split at h
  · rename_i hp hq
    rw [hp, hq]
    exact hfg _ _ _ _ h
  · rename_i hp hq
    rw [hp, hq]
    exact h
  · exact h.elim

theorem Alike.tryCatch {E' : I.Exc → I.Exc → S → S → Prop} {f : I.Exc → Program I α}
    {g : I.Exc → Program I β} (h : Alike exec Q E' p q s t)
    (hfg : ∀ e e' s t, E' e e' s t → Alike exec Q E (f e) (g e') s t) :
    Alike exec Q E (p.tryCatch f) (q.tryCatch g) s t := by
  unfold Alike at h ⊢
  rw [eval_tryCatch, eval_tryCatch]
  split at h
  · rename_i hp hq
    rw [hp, hq]
    exact h
  · rename_i hp hq
    rw [hp, hq]
    exact hfg _ _ _ _ h
  · exact h.elim

/-- Two runs that return. -/
theorem Alike.of_runs {a : α} {b : β} {s' t' : S} (hp : p.Runs exec s a s')
    (hq : q.Runs exec t b t') (h : Q a b s' t') : Alike exec Q E p q s t := by
  unfold Alike
  rw [hp, hq]
  exact h

/-- Two operations that raise. -/
theorem alike_perform_error (op op' : I.Op)
    {Q : I.Answer op → I.Answer op' → S → S → Prop} {e e' : I.Exc}
    (he : (exec op s).1 = .error e) (he' : (exec op' t).1 = .error e')
    (h : E e e' (exec op s).2 (exec op' t).2) :
    Alike exec Q E (perform op) (perform op') s t := by
  unfold Alike
  rw [eval_perform, eval_perform, he, he']
  exact h

/-- The answers are those of the run from the first state. -/
theorem Alike.with_runs (h : Alike exec Q E p q s t) :
    Alike exec (fun a b s' t' => Q a b s' t' ∧ p.Runs exec s a s') E p q s t := by
  unfold Alike at h ⊢
  split at h
  · rename_i hp hq
    exact ⟨h, hp⟩
  · exact h
  · exact h.elim

end Alike

/-! ## Programs that do not tell related states apart -/

section Uniform
variable (exec : (op : I.Op) → S → I.Reply op × S) (R : S → S → Prop)

/-- The runs from two states end the same way. -/
abbrev UniformAt (p : Program I α) (s t : S) : Prop :=
  Alike exec (fun a b s t => a = b ∧ R s t) (fun e e' s t => e = e' ∧ R s t) p p s t

/-- The runs from any two related states end the same way. -/
def Uniform (p : Program I α) : Prop := ∀ s t, R s t → UniformAt exec R p s t

variable {exec R} {p : Program I α} {s t : S}

theorem uniform_iff : Uniform exec R p ↔ ∀ s t, R s t → UniformAt exec R p s t := Iff.rfl

theorem uniformAt_pure (h : R s t) (a : α) : UniformAt exec R (Pure.pure a : Program I α) s t :=
  alike_pure.mpr ⟨rfl, h⟩

theorem uniformAt_raise (h : R s t) (e : I.Exc) : UniformAt exec R (raise e : Program I α) s t :=
  alike_raise.mpr ⟨rfl, h⟩

theorem UniformAt.bind {f : α → Program I β} (hp : UniformAt exec R p s t)
    (hf : ∀ a, Uniform exec R (f a)) : UniformAt exec R (p >>= f) s t := by
  refine Alike.bind hp ?_
  rintro a b s' t' ⟨rfl, h⟩
  exact hf a s' t' h

theorem UniformAt.tryCatch {handler : I.Exc → Program I α} (hp : UniformAt exec R p s t)
    (hh : ∀ e, Uniform exec R (handler e)) : UniformAt exec R (p.tryCatch handler) s t := by
  refine Alike.tryCatch hp ?_
  rintro e e' s' t' ⟨rfl, h⟩
  exact hh e s' t' h

/-- What follows a program that never returns does not matter. -/
theorem UniformAt.blocked {f : α → Program I β} (hp : UniformAt exec R p s t)
    (hno : ∀ a s', ¬ p.Runs exec s a s') : UniformAt exec R (p >>= f) s t :=
  Alike.bind (Alike.with_runs hp) fun a _ s' _ h => (hno a s' h.2).elim

theorem uniform_pure (a : α) : Uniform exec R (Pure.pure a : Program I α) :=
  fun _ _ h => uniformAt_pure h a

theorem uniform_raise (e : I.Exc) : Uniform exec R (raise e : Program I α) :=
  fun _ _ h => uniformAt_raise h e

theorem Uniform.bind {f : α → Program I β} (hp : Uniform exec R p)
    (hf : ∀ a, Uniform exec R (f a)) : Uniform exec R (p >>= f) :=
  fun s t h => (hp s t h).bind hf

theorem Uniform.tryCatch {handler : I.Exc → Program I α} (hp : Uniform exec R p)
    (hh : ∀ e, Uniform exec R (handler e)) : Uniform exec R (p.tryCatch handler) :=
  fun s t h => (hp s t h).tryCatch hh

/-- An operation with the same reply in related states, which stay related. -/
theorem uniform_perform {op : I.Op}
    (h : ∀ s t, R s t → (exec op s).1 = (exec op t).1 ∧ R (exec op s).2 (exec op t).2) :
    Uniform exec R (perform op) := by
  intro s t hst
  obtain ⟨hreply, hstates⟩ := h s t hst
  cases hr : (exec op s).1 with
  | ok a =>
    have hr' : (exec op t).1 = .ok a := hreply ▸ hr
    exact Alike.of_runs (runs_perform.mpr (Prod.ext hr rfl)) (runs_perform.mpr (Prod.ext hr' rfl))
      ⟨rfl, hstates⟩
  | error e => exact alike_perform_error op op hr (hreply ▸ hr) ⟨rfl, hstates⟩

/-- Both runs end the same way. -/
theorem UniformAt.outcome (h : UniformAt exec R p s t) :
    (p.eval exec s).1 = (p.eval exec t).1 := by
  unfold UniformAt Alike at h
  split at h
  · rename_i hp hq
    rw [hp, hq, h.1]
  · rename_i hp hq
    rw [hp, hq, h.1]
  · exact h.elim

end Uniform

attribute [irreducible] Alike Uniform

end Program
end Programs
