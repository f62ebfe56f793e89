import Mathlib.Algebra.Order.Group.Int

/-!
# Timed, signed tokens

A serializer signs a payload together with the time of signing; reading a token gives its
payload back until it is too old. The serializer takes times in whole units of its clock,
so tokens of one payload that are signed within one unit are the same token.

`TimedSerializer.Lawful` says what a user of such a serializer relies on: it reads its own
tokens back, for `maxAge` units, and rejects every other string. The main result is that a
token is accepted for a payload exactly when it was signed for this payload at some time at
most `maxAge` units ago (`Lawful.loads_eq_some_iff`), whatever the fractions of the units.
-/

namespace Tokens

/-- A serializer for payloads of type `α`; times are integers. -/
structure TimedSerializer (α : Type) where
  dumps : Int → α → String
  loads : Int → String → Option α
  /-- The length of a unit of the serializer's clock. -/
  unit : Int
  /-- The age that a token may reach, in units. -/
  maxAge : Int

namespace TimedSerializer
variable {α : Type}

/-- What the users of a serializer rely on. -/
structure Lawful (S : TimedSerializer α) : Prop where
  unit_pos : 0 < S.unit
  dumps_ne_empty : ∀ t a, S.dumps t a ≠ ""
  /-- The time of signing is taken in whole units. -/
  dumps_unit : ∀ {t t'} a, t / S.unit = t' / S.unit → S.dumps t a = S.dumps t' a
  loads_dumps : ∀ t t₀ a, S.loads t (S.dumps t₀ a) =
    if t₀ / S.unit ≤ t / S.unit ∧ t / S.unit - t₀ / S.unit ≤ S.maxAge then some a else none
  loads_forged : ∀ t token, (∀ t₀ a, token ≠ S.dumps t₀ a) → S.loads t token = none

/-- The token was signed for the payload at some time within the last `maxAge` units. -/
def Fresh (S : TimedSerializer α) (t : Int) (a : α) (token : String) : Prop :=
  ∃ t₀ ≤ t, t - t₀ ≤ S.maxAge * S.unit ∧ token = S.dumps t₀ a

namespace Lawful
variable {S : TimedSerializer α} (h : S.Lawful) {t t₀ : Int} {a b : α} {token : String}
include h

/-- What is accepted was signed with this payload, not too many units ago. -/
theorem signed_of_loads (hloads : S.loads t token = some a) :
    ∃ t₀, token = S.dumps t₀ a ∧ t₀ / S.unit ≤ t / S.unit ∧
      t / S.unit - t₀ / S.unit ≤ S.maxAge := by
  by_cases hsigned : ∃ t₀ b, token = S.dumps t₀ b
  · obtain ⟨t₀, b, rfl⟩ := hsigned
    rw [h.loads_dumps] at hloads
    split at hloads
    · rename_i hage
      cases hloads
      exact ⟨t₀, rfl, hage⟩
    · cases hloads
  · have hforged : ∀ t₀ b, token ≠ S.dumps t₀ b := fun t₀ b he => hsigned ⟨t₀, b, he⟩
    rw [h.loads_forged t token hforged] at hloads
    cases hloads

/-- The last moment of the unit of `t₀`, or `t` if that comes first: tokens that are signed
then are those that are signed at `t₀`. -/
theorem exists_latest (hle : t₀ / S.unit ≤ t / S.unit)
    (hage : t / S.unit - t₀ / S.unit ≤ S.maxAge) :
    ∃ t₁ ≤ t, t - t₁ ≤ S.maxAge * S.unit ∧ t₁ / S.unit = t₀ / S.unit := by
  have hpos := h.unit_pos
  have ht := Int.emod_add_mul_ediv t S.unit
  have hrest := Int.emod_lt_of_pos t hpos
  have hnonneg := Int.emod_nonneg t hpos.ne'
  let last := S.unit * (t₀ / S.unit) + (S.unit - 1)
  have hlast : last / S.unit = t₀ / S.unit := by
    have hsmall : (S.unit - 1) / S.unit = 0 := Int.ediv_eq_zero_of_lt (by omega) (by omega)
    simp only [last]
    rw [Int.add_comm, Int.add_mul_ediv_left _ _ hpos.ne', hsmall, Int.zero_add]
  have hmul : S.unit * (t / S.unit) - S.unit * (t₀ / S.unit) ≤ S.maxAge * S.unit := by
    rw [← Int.mul_sub, Int.mul_comm S.maxAge]
    exact Int.mul_le_mul_of_nonneg_left hage hpos.le
  by_cases hcut : last ≤ t
  · refine ⟨last, hcut, ?_, hlast⟩
    simp only [last]
    omega
  · refine ⟨t, Int.le_refl t, ?_, ?_⟩
    · have : 0 ≤ S.maxAge * S.unit :=
        Int.mul_nonneg (Int.le_trans (Int.sub_nonneg_of_le hle) hage) hpos.le
      omega
    · refine Int.le_antisymm ?_ hle
      rw [← hlast]
      exact Int.ediv_le_ediv hpos (by omega)

/-- **Acceptance is exact**: a token is read as a payload if and only if it was signed for it
at most `maxAge` units ago. -/
theorem loads_eq_some_iff : S.loads t token = some a ↔ S.Fresh t a token := by
  constructor
  · intro hloads
    obtain ⟨t₀, rfl, hle, hage⟩ := h.signed_of_loads hloads
    obtain ⟨t₁, hle₁, hage₁, hunit⟩ := h.exists_latest hle hage
    exact ⟨t₁, hle₁, hage₁, h.dumps_unit a hunit.symm⟩
  · rintro ⟨t₀, hle, hage, rfl⟩
    have hpos := h.unit_pos
    have hle' : t₀ / S.unit ≤ t / S.unit := Int.ediv_le_ediv hpos hle
    have hage' : t / S.unit - t₀ / S.unit ≤ S.maxAge := by
      have hlate : t / S.unit ≤ (t₀ + S.maxAge * S.unit) / S.unit :=
        Int.ediv_le_ediv hpos (by omega)
      rw [Int.add_mul_ediv_right _ _ hpos.ne'] at hlate
      omega
    rw [h.loads_dumps, if_pos ⟨hle', hage'⟩]

/-- A token is signed for one payload only, as far as it is ever accepted. -/
theorem loads_ne_some (hsigned : token = S.dumps t₀ b) (hne : b ≠ a) :
    S.loads t token ≠ some a := by
  subst hsigned
  rw [h.loads_dumps]
  split
  · simpa using hne
  · exact nofun

end Lawful
end TimedSerializer
end Tokens
