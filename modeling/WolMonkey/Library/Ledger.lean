import Mathlib.Data.List.Nodup

/-!
# Ledgers of issued and revoked keys

A ledger records, the latest entry first, which keys were issued with which value and which
were revoked. A key stands when it was issued and not revoked since. The book of a ledger
is the table that a store keeps instead: one row for each issue, in order, with a mark on
the rows that were revoked. The rows without a mark are what stands (`mem_book`); when no
key is issued twice, a key that was issued and does not stand never stands again
(`Standing.of_append`).
-/

namespace Ledgers

variable {K V : Type}

inductive Entry (K V : Type) where
  | issue (key : K) (value : V)
  | revoke (key : K)
deriving DecidableEq

abbrev Ledger (K V : Type) := List (Entry K V)

/-- A row of a book. -/
structure Row (K V : Type) where
  key : K
  value : V
  revoked : Bool
deriving DecidableEq

/-- The key was issued with the value, and not revoked since. -/
def Standing (h : Ledger K V) (key : K) (value : V) : Prop :=
  ∃ later earlier, h = later ++ .issue key value :: earlier ∧ .revoke key ∉ later

/-- The key was issued with the value. -/
def Issued (h : Ledger K V) (key : K) (value : V) : Prop := .issue key value ∈ h

/-- The keys that were issued. -/
def issuedKeys (h : Ledger K V) : List K :=
  h.filterMap fun
    | .issue key _ => some key
    | .revoke _ => none

/-- No key was issued twice. -/
def Fresh (h : Ledger K V) : Prop := (issuedKeys h).Nodup

section Standing
variable {h : Ledger K V} {key k : K} {value v : V}

@[simp] theorem not_standing_nil : ¬ Standing ([] : Ledger K V) key value := by
  rintro ⟨later, earlier, heq, -⟩
  cases later <;> cases heq

@[simp] theorem standing_issue :
    Standing (.issue k v :: h) key value ↔ (key = k ∧ value = v) ∨ Standing h key value := by
  constructor
  · rintro ⟨later, earlier, heq, hnot⟩
    cases later with
    | nil =>
      cases heq
      exact .inl ⟨rfl, rfl⟩
    | cons e later =>
      obtain ⟨rfl, rfl⟩ := List.cons.inj heq
      exact .inr ⟨later, earlier, rfl, fun hmem => hnot (List.mem_cons_of_mem _ hmem)⟩
  · rintro (⟨rfl, rfl⟩ | ⟨later, earlier, rfl, hnot⟩)
    · exact ⟨[], h, rfl, by simp⟩
    · exact ⟨.issue k v :: later, earlier, rfl, by simpa using hnot⟩

@[simp] theorem standing_revoke :
    Standing (.revoke k :: h) key value ↔ key ≠ k ∧ Standing h key value := by
  constructor
  · rintro ⟨later, earlier, heq, hnot⟩
    cases later with
    | nil => cases heq
    | cons e later =>
      obtain ⟨rfl, rfl⟩ := List.cons.inj heq
      simp only [List.mem_cons, not_or] at hnot
      exact ⟨fun he => hnot.1 (he ▸ rfl), later, earlier, rfl, hnot.2⟩
  · rintro ⟨hne, later, earlier, rfl, hnot⟩
    refine ⟨.revoke k :: later, earlier, rfl, ?_⟩
    simp only [List.mem_cons, Entry.revoke.injEq, not_or]
    exact ⟨hne, hnot⟩

theorem Standing.issued (hs : Standing h key value) : Issued h key value := by
  obtain ⟨later, earlier, rfl, -⟩ := hs
  exact List.mem_append_right _ List.mem_cons_self

theorem mem_issuedKeys : key ∈ issuedKeys h ↔ ∃ value, Issued h key value := by
  unfold issuedKeys Issued
  rw [List.mem_filterMap]
  constructor
  · rintro ⟨e, he, heq⟩
    cases e with
    | issue k v =>
      cases heq
      exact ⟨v, he⟩
    | revoke k => cases heq
  · rintro ⟨v, he⟩
    exact ⟨_, he, rfl⟩

/-- What was issued in an earlier ledger and stands in a later one stood in the earlier one:
a key that does not stand any more never stands again. -/
theorem Standing.of_append {more : Ledger K V} (hs : Standing (more ++ h) key value)
    (hfresh : Fresh (more ++ h)) (hissued : Issued h key v) : Standing h key value := by
  induction more with
  | nil => exact hs
  | cons e more ih =>
    cases e with
    | issue k w =>
      have hnodup : (k :: issuedKeys (more ++ h)).Nodup := hfresh
      obtain ⟨hk, hrest⟩ := List.nodup_cons.mp hnodup
      rw [List.cons_append, standing_issue] at hs
      rcases hs with ⟨rfl, -⟩ | hs
      · exact (hk (mem_issuedKeys.mpr ⟨v, List.mem_append_right _ hissued⟩)).elim
      · exact ih hs hrest
    | revoke k =>
      rw [List.cons_append, standing_revoke] at hs
      exact ih hs.2 hfresh

end Standing

/-! ## Books -/

section Books
variable [DecidableEq K]

/-- Mark the rows of a key. -/
def Row.mark (key : K) (r : Row K V) : Row K V :=
  if r.key = key then { r with revoked := true } else r

/-- What an entry does to a book. -/
def Entry.enter (rows : List (Row K V)) : Entry K V → List (Row K V)
  | .issue key value => rows ++ [⟨key, value, false⟩]
  | .revoke key => rows.map (Row.mark key)

def book : Ledger K V → List (Row K V)
  | [] => []
  | e :: h => e.enter (book h)

variable {h : Ledger K V} {key k : K} {value v : V}

@[simp] theorem Row.key_mark (r : Row K V) : (r.mark k).key = r.key := by
  unfold Row.mark
  split <;> rfl

@[simp] theorem Row.value_mark (r : Row K V) : (r.mark k).value = r.value := by
  unfold Row.mark
  split <;> rfl

/-- The rows without a mark are what stands. -/
theorem mem_book : ⟨key, value, false⟩ ∈ book h ↔ Standing h key value := by
  induction h with
  | nil => simp [book]
  | cons e h ih =>
    cases e with
    | issue k v =>
      rw [standing_issue, ← ih]
      simp only [book, Entry.enter, List.mem_append, List.mem_singleton, Row.mk.injEq, and_true]
      exact Or.comm
    | revoke k =>
      rw [standing_revoke, ← ih]
      simp only [book, Entry.enter, List.mem_map]
      constructor
      · rintro ⟨r, hr, hmark⟩
        unfold Row.mark at hmark
        split at hmark
        · cases hmark
        · rename_i hne
          rw [hmark] at hne hr
          exact ⟨hne, hr⟩
      · rintro ⟨hne, hr⟩
        exact ⟨_, hr, if_neg hne⟩

/-- What was issued has a row. -/
theorem exists_mem_book (hissued : Issued h key value) :
    ∃ revoked, ⟨key, value, revoked⟩ ∈ book h := by
  induction h with
  | nil => cases hissued
  | cons e h ih =>
    rcases List.mem_cons.mp hissued with rfl | hissued
    · exact ⟨false, List.mem_append_right _ (List.mem_singleton.mpr rfl)⟩
    obtain ⟨revoked, hrow⟩ := ih hissued
    cases e with
    | issue k v => exact ⟨revoked, List.mem_append_left _ hrow⟩
    | revoke k =>
      by_cases hk : key = k
      · exact ⟨true, List.mem_map.mpr ⟨_, hrow, if_pos hk⟩⟩
      · exact ⟨revoked, List.mem_map.mpr ⟨_, hrow, if_neg hk⟩⟩

/-- The keys of a book are the keys that were issued, in order. -/
theorem map_key_book (h : Ledger K V) : (book h).map Row.key = (issuedKeys h).reverse := by
  induction h with
  | nil => rfl
  | cons e h ih =>
    cases e with
    | issue k v =>
      have hkeys : issuedKeys (.issue k v :: h) = k :: issuedKeys h := rfl
      rw [hkeys, List.reverse_cons, ← ih]
      simp [book, Entry.enter]
    | revoke k =>
      have hkeys : issuedKeys (.revoke k :: h) = issuedKeys h := rfl
      rw [hkeys, ← ih]
      simp [book, Entry.enter, Function.comp_def]

theorem fresh_iff_nodup : Fresh h ↔ ((book h).map Row.key).Nodup := by
  rw [map_key_book, List.nodup_reverse]
  exact Iff.rfl

end Books

end Ledgers
