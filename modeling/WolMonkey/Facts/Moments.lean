import WolMonkey.Facts.Execution
import WolMonkey.Facts.Guarding

/-!
# Moments

What the log of a thread says about the tables: every answer was given at some moment of the
run, and a row that a statement found was in the committed tables at that moment, up to the
open changes of the thread itself, whose kinds the table of effects lists.
-/

namespace WolMonkey

open Programs Program

section Moments
variable {P : Platform} {allowed : System.World P → Action (machine P) Label → Prop}
  {w₀ v w : System.World P}

/-! ## Open changes -/

/-- Every thread does, and has under way, only what its label says. -/
def OwnEffects (w : System.World P) : Prop :=
  ∀ t ∈ w.threads, t.program.Uses (Within t.label.effects) ∧
    Store.Only (fun x => x.effect ∈ t.label.effects) t.store

theorem ownEffects_of_reachable (hrun : Reachable (start P) allowed w₀ w)
    (hinit : OwnEffects w₀) : OwnEffects w := by
  refine hrun.invariant hinit fun v a v' _ hv _ hact => ?_
  rcases World.act_cases (start P) hact with ⟨label, rfl, rfl⟩ | ⟨tid, t, rfl, ht, -, rfl⟩ |
    ⟨tid, inp, t, op, next, rfl, ht, hp, -, rfl⟩
  · intro t ht
    rcases List.mem_append.mp ht with ht | ht
    · exact hv t ht
    · cases List.mem_singleton.mp ht
      exact ⟨start_within label, Store.only_empty⟩
  · intro u hu
    rcases List.mem_or_eq_of_mem_set hu with hu | rfl
    · exact hv u hu
    · exact ⟨uses_stuck, Store.only_empty⟩
  · intro u hu
    rcases List.mem_or_eq_of_mem_set hu with hu | rfl
    · exact hv u hu
    · obtain ⟨huses, honly⟩ := hv t (List.mem_of_getElem? ht)
      rw [hp] at huses
      unfold Uses at huses
      have hmakes : MakesOn P (fun x => x.effect ∈ t.label.effects) op :=
        makesOn_of_within (fun _ hx => hx) huses.1
      exact ⟨huses.2 _, (executeOp_only hmakes honly).1⟩

theorem ownEffects_init {db : Database} {issued : List Uuid} :
    OwnEffects (System.World.init P db issued) := by
  intro t ht
  cases ht

/-! ## Answers -/

variable {i : Nat} {t : Thread (machine P) Label Result} {later log : List (Stamped app)}

/-- An answered statement was executed, on the committed tables and the open changes. -/
theorem answered_during (hv : OwnEffects v) (hafter : Reachable (start P) allowed v w)
    (hi : v.threads[i]? = none) (ht : w.threads[i]? = some t) (hlog : t.log = later ++ log)
    {slot : Slot} {s : Stmt} {a : s.Answer}
    (h : Answered (log.map Stamped.toEvent) (.stmt slot s) a) :
    During (start P) allowed v w i log fun sh => ∃ inp locked xs, ∃ r : Executed s,
      (∀ x ∈ xs, x.effect ∈ t.label.effects) ∧
      s.run P inp locked (sh.db.after xs) = .ok r ∧ r.answer = a := by
  obtain ⟨e, he, hevent⟩ := List.mem_map.mp h
  obtain ⟨mid, earlier, rfl⟩ := List.append_of_mem he
  have hsplit : t.log = (later ++ mid) ++ e :: earlier := by rw [hlog, List.append_assoc]
  obtain ⟨v', t', hv', hw, hlabel, rfl, hget, -, inp, next, hp, -, hreply⟩ :=
    hafter.performed hi ht hsplit
  obtain ⟨⟨op, reply⟩, time⟩ := e
  cases hevent
  have hsuffix : t'.log <:+ mid ++ ⟨⟨.stmt slot s, .ok a⟩, time⟩ :: t'.log :=
    (List.suffix_cons _ _).trans (List.suffix_append _ _)
  refine ⟨v', t', hv', hw, hget, hsuffix, inp,
    lockedJobs (v'.others i) t'.store slot, (t'.store.tx slot).writes, ?_⟩
  have hexec : (executeStmt P slot s inp (v'.others i) v'.shared t'.store).1 = .ok a := hreply.symm
  rcases executeStmt_cases P slot inp (v'.others i) v'.shared t'.store s with
    ⟨e, status, hs, -⟩ | ⟨r, -, -, hrun, hs⟩
  · rw [hs] at hexec
    cases hexec
  · rw [hs] at hexec
    have honly := (ownEffects_of_reachable hv' hv t' (List.mem_of_getElem? hget)).2 slot
    rw [hlabel] at honly
    exact ⟨r, honly, hrun, Except.ok.inj hexec⟩

/-- A CSRF token that was accepted had been signed. -/
theorem loads_of_answered (hafter : Reachable (start P) allowed v w) (hi : v.threads[i]? = none)
    (ht : w.threads[i]? = some t) (hlog : t.log = later ++ log) {token : String}
    {data : Option (String × String)}
    (h : Answered (log.map Stamped.toEvent) (.csrfLoads token) data) :
    ∃ time, P.csrfLoads time token = data := by
  obtain ⟨e, he, hevent⟩ := List.mem_map.mp h
  obtain ⟨mid, earlier, rfl⟩ := List.append_of_mem he
  have hsplit : t.log = (later ++ mid) ++ e :: earlier := by rw [hlog, List.append_assoc]
  obtain ⟨v', t', -, -, -, -, -, -, inp, next, -, -, hreply⟩ := hafter.performed hi ht hsplit
  obtain ⟨⟨op, reply⟩, time⟩ := e
  cases hevent
  exact ⟨inp.now, (Except.ok.inj hreply).symm⟩

end Moments

/-! ## Rows that were found -/

section Rows
variable {db : Database} {xs : List Write}

/-- Without new sessions, a session that is not revoked was there before. -/
theorem session_of_after (hxs : ∀ x ∈ xs, x.effect ≠ .newSession) {s : Session}
    (hs : s ∈ (db.after xs).sessions) (hlive : s.revoked = false) : s ∈ db.sessions := by
  have hreaches : Reaches (fun x => x.effect ≠ .newSession) db (db.after xs) := ⟨xs, hxs, rfl⟩
  refine hreaches.invariant (fun d => ∀ s ∈ d.sessions, s.revoked = false → s ∈ db.sessions) ?_
    (fun s hs _ => hs) s hs hlive
  intro x d hx ih s hs hlive
  cases x with
  | insertSession s => exact absurd rfl hx
  | revokeSession id =>
    obtain ⟨row, hrow, heq⟩ := mem_updateRows.mp hs
    split at heq
    · rw [← heq] at hlive
      cases hlive
    · exact ih s (heq ▸ hrow) hlive
  | _ => exact ih s hs hlive

/-- Changes that leave the machines alone. -/
def Effect.sparesMachines : Effect → Bool
  | .newMachine | .editMachine | .dropMachine => false
  | _ => true

theorem untouched_machines :
    Untouched (fun x => x.effect.sparesMachines = true) Database.machines := by
  intro x db hx
  cases x <;> first
    | rfl
    | cases hx

/-- Without new users, a user was there before. -/
theorem user_of_after (hxs : ∀ x ∈ xs, x.effect ≠ .newUser) {u : User}
    (hu : u ∈ (db.after xs).users) : ∃ u' ∈ db.users, u'.id = u.id := by
  have hreaches : Reaches (fun x => x.effect ≠ .newUser) db (db.after xs) := ⟨xs, hxs, rfl⟩
  refine hreaches.invariant (fun d => ∀ u ∈ d.users, ∃ u' ∈ db.users, u'.id = u.id) ?_
    (fun u hu => ⟨u, hu, rfl⟩) u hu
  have hupdated : ∀ (d : Database) (id : Uuid) (f : User → User), (∀ u, (f u).id = u.id) →
      (∀ u ∈ d.users, ∃ u' ∈ db.users, u'.id = u.id) →
      ∀ u ∈ updateRows (·.id == id) f d.users, ∃ u' ∈ db.users, u'.id = u.id := by
    intro d id f hf ih u hu
    obtain ⟨row, hrow, rfl⟩ := mem_updateRows.mp hu
    obtain ⟨u', hu', hid⟩ := ih row hrow
    refine ⟨u', hu', ?_⟩
    split
    · rw [hf, hid]
    · exact hid
  intro x d hx ih
  cases x with
  | insertUser u => exact absurd rfl hx
  | setLastLogin id time => exact hupdated d id _ (fun _ => rfl) ih
  | setPasswordHash id hash => exact hupdated d id _ (fun _ => rfl) ih
  | _ => exact ih

/-- Without new tokens, a token that is not revoked was there before. -/
theorem token_of_after (hxs : ∀ x ∈ xs, x.effect ≠ .newToken) {k : ApiToken}
    (hk : k ∈ (db.after xs).tokens) (hlive : k.revokedAt = none) :
    ∃ k' ∈ db.tokens, k'.id = k.id ∧ k'.tokenHash = k.tokenHash ∧ k'.revokedAt = none := by
  have hreaches : Reaches (fun x => x.effect ≠ .newToken) db (db.after xs) := ⟨xs, hxs, rfl⟩
  refine hreaches.invariant (fun d => ∀ k ∈ d.tokens, k.revokedAt = none → ∃ k' ∈ db.tokens,
    k'.id = k.id ∧ k'.tokenHash = k.tokenHash ∧ k'.revokedAt = none) ?_
    (fun k hk hlive => ⟨k, hk, rfl, rfl, hlive⟩) k hk hlive
  intro x d hx ih k hk hlive
  cases x with
  | insertToken k => exact absurd rfl hx
  | revokeToken id time =>
    obtain ⟨row, hrow, heq⟩ := mem_updateRows.mp hk
    split at heq
    · rw [← heq] at hlive
      cases hlive
    · exact ih k (heq ▸ hrow) hlive
  | touchToken id time =>
    obtain ⟨row, hrow, heq⟩ := mem_updateRows.mp hk
    split at heq
    · subst heq
      exact ih row hrow hlive
    · exact ih k (heq ▸ hrow) hlive
  | deleteMachine id =>
    obtain ⟨row, hrow, heq⟩ := mem_updateRows.mp hk
    split at heq
    · subst heq
      exact ih row hrow hlive
    · exact ih k (heq ▸ hrow) hlive
  | _ => exact ih k hk hlive

end Rows

end WolMonkey
