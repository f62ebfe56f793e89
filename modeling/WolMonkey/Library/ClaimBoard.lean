import Mathlib.Data.List.Nodup
import Mathlib.Logic.Function.Basic

/-!
# Claiming from a board

Entries with a key and a value are put on a board, where they wait until somebody claims
them. Any number of desks work on the board side by side. A desk prepares one change at a
time: it writes an entry that it is going to put up, it lays its hand on a waiting entry
that nobody else deals with and then prepares to take it, or it prepares to settle an entry
that was taken before. A prepared change comes into effect at once, or is dropped.

Entries may also be dropped from the board, even while a desk deals with them.

`Sound` is the invariant of the board: no key is used twice, no two desks deal with one
key, and what was taken does not wait any more. Hence no key is taken twice, and it is
taken with the value with which it was put up.
-/

namespace Claims

variable {ι K V : Type}

/-- What a desk is about to do. A desk that is `broken` has failed and prepares nothing. -/
inductive Desk (K V : Type) where
  | clear
  | adding (key : K) (value : V)
  | holding (key : K) (value : V)
  | taking (key : K) (value : V)
  | closing (key : K)
  | broken

/-- The desk deals with the key. -/
def Desk.About : Desk K V → K → Prop
  | clear, _ | broken, _ => False
  | adding k _, key | holding k _, key | taking k _, key | closing k, key => key = k

/-- Nothing is prepared. -/
def Desk.Idle : Desk K V → Prop
  | clear | broken => True
  | _ => False

theorem Desk.Idle.not_about {d : Desk K V} (h : d.Idle) (key : K) : ¬ d.About key := by
  cases d with
  | clear => exact id
  | broken => exact id
  | _ => exact h.elim

/-- The keys on the board, the entries that wait, the keys that are used up, the entries
that were written so far, and the entries that were taken so far. -/
structure Table (K V : Type) where
  keys : List K
  waiting : List (K × V)
  used : List K
  added : List (K × V)
  taken : List (K × V)

structure Board (ι K V : Type) extends Table K V where
  desks : ι → Desk K V

section Tables

/-- The entry comes onto the board. -/
def Table.put (t : Table K V) (key : K) (value : V) : Table K V :=
  { t with keys := t.keys ++ [key], waiting := t.waiting ++ [(key, value)] }

/-- The entry does not wait any more. -/
def Table.remove [DecidableEq K] (t : Table K V) (key : K) : Table K V :=
  { t with waiting := t.waiting.filter (·.1 ≠ key) }

/-- The entry is removed and counts as taken. -/
def Table.take [DecidableEq K] (t : Table K V) (key : K) (value : V) : Table K V :=
  { t.remove key with taken := (key, value) :: t.taken }

/-- The entry is written, under a key that is used up by it. -/
def Table.add (t : Table K V) (key : K) (value : V) : Table K V :=
  { t with used := key :: t.used, added := (key, value) :: t.added }

/-- The invariant of the table. -/
structure Table.Sound (t : Table K V) : Prop where
  keys_nodup : t.keys.Nodup
  keys_used : ∀ key ∈ t.keys, key ∈ t.used
  added_used : ∀ e ∈ t.added, e.1 ∈ t.used
  added_nodup : (t.added.map Prod.fst).Nodup
  waiting_keys : ∀ e ∈ t.waiting, e.1 ∈ t.keys
  waiting_added : ∀ e ∈ t.waiting, e ∈ t.added
  taken_added : ∀ e ∈ t.taken, e ∈ t.added
  taken_gone : ∀ e ∈ t.taken, ∀ x ∈ t.waiting, x.1 ≠ e.1
  taken_nodup : (t.taken.map Prod.fst).Nodup

/-- What a desk relies on. -/
def Desk.Sound (t : Table K V) : Desk K V → Prop
  | clear | broken => True
  | adding key value => key ∉ t.keys ∧ (key, value) ∈ t.added ∧ key ∉ t.taken.map Prod.fst
  | holding key value | taking key value => (key, value) ∈ t.added ∧ key ∉ t.taken.map Prod.fst
  | closing key => key ∈ t.taken.map Prod.fst

variable {t : Table K V} {d : Desk K V} {key : K} {value : V}

theorem Desk.Idle.sound (h : d.Idle) (t : Table K V) : d.Sound t := by
  cases d with
  | clear => exact trivial
  | broken => exact trivial
  | _ => exact h.elim

/-- A key that a desk deals with is used up. -/
theorem Desk.Sound.used (h : d.Sound t) (ht : t.Sound) (habout : d.About key) : key ∈ t.used := by
  cases d with
  | clear => exact habout.elim
  | broken => exact habout.elim
  | adding k v =>
    cases habout
    exact ht.added_used _ h.2.1
  | holding k v =>
    cases habout
    exact ht.added_used _ h.1
  | taking k v =>
    cases habout
    exact ht.added_used _ h.1
  | closing k =>
    cases habout
    obtain ⟨e, he, rfl⟩ := List.mem_map.mp h
    exact ht.added_used _ (ht.taken_added _ he)

/-! ### Changes of the table -/

theorem Table.Sound.add (h : t.Sound) (hfresh : key ∉ t.used) : (t.add key value).Sound where
  keys_nodup := h.keys_nodup
  keys_used := fun k hk => List.mem_cons_of_mem _ (h.keys_used k hk)
  added_used := by
    intro e he
    rcases List.mem_cons.mp he with rfl | he
    · exact List.mem_cons_self
    · exact List.mem_cons_of_mem _ (h.added_used e he)
  added_nodup := by
    refine List.nodup_cons.mpr ⟨fun hmem => ?_, h.added_nodup⟩
    obtain ⟨e, he, hkey⟩ := List.mem_map.mp hmem
    have hused := h.added_used e he
    rw [hkey] at hused
    exact hfresh hused
  waiting_keys := h.waiting_keys
  waiting_added := fun e he => List.mem_cons_of_mem _ (h.waiting_added e he)
  taken_added := fun e he => List.mem_cons_of_mem _ (h.taken_added e he)
  taken_gone := h.taken_gone
  taken_nodup := h.taken_nodup

theorem Desk.Sound.add (h : d.Sound t) : d.Sound (t.add key value) := by
  cases d with
  | clear => exact trivial
  | broken => exact trivial
  | adding k v => exact ⟨h.1, List.mem_cons_of_mem _ h.2.1, h.2.2⟩
  | holding k v => exact ⟨List.mem_cons_of_mem _ h.1, h.2⟩
  | taking k v => exact ⟨List.mem_cons_of_mem _ h.1, h.2⟩
  | closing k => exact h

theorem Table.Sound.put (h : t.Sound) (hnew : key ∉ t.keys) (hadded : (key, value) ∈ t.added)
    (hnot : key ∉ t.taken.map Prod.fst) : (t.put key value).Sound where
  keys_nodup := by
    refine List.nodup_append.mpr ⟨h.keys_nodup, List.nodup_singleton key, ?_⟩
    rintro k hk l hl rfl
    exact hnew (List.mem_singleton.mp hl ▸ hk)
  keys_used := by
    intro k hk
    rcases List.mem_append.mp hk with hk | hk
    · exact h.keys_used k hk
    · rw [List.mem_singleton.mp hk]
      exact h.added_used _ hadded
  added_used := h.added_used
  added_nodup := h.added_nodup
  waiting_keys := by
    intro e he
    rcases List.mem_append.mp he with he | he
    · exact List.mem_append_left _ (h.waiting_keys e he)
    · rw [List.mem_singleton.mp he]
      exact List.mem_append_right _ (List.mem_singleton.mpr rfl)
  waiting_added := by
    intro e he
    rcases List.mem_append.mp he with he | he
    · exact h.waiting_added e he
    · rw [List.mem_singleton.mp he]
      exact hadded
  taken_added := h.taken_added
  taken_gone := by
    intro e he x hx
    rcases List.mem_append.mp hx with hx | hx
    · exact h.taken_gone e he x hx
    · rw [List.mem_singleton.mp hx]
      rintro rfl
      exact hnot (List.mem_map_of_mem he)
  taken_nodup := h.taken_nodup

theorem Desk.Sound.put (h : d.Sound t) (habout : ¬ d.About key) : d.Sound (t.put key value) := by
  cases d with
  | clear => exact trivial
  | broken => exact trivial
  | adding k v =>
    refine ⟨fun hmem => ?_, h.2⟩
    rcases List.mem_append.mp hmem with hmem | hmem
    · exact h.1 hmem
    · exact habout (List.mem_singleton.mp hmem).symm
  | holding k v => exact h
  | taking k v => exact h
  | closing k => exact h

/-- Keys that do not occur are used up besides. -/
theorem Table.Sound.use (h : t.Sound) {used : List K} (hused : ∀ k ∈ t.used, k ∈ used) :
    ({ t with used } : Table K V).Sound :=
  { h with
    keys_used := fun k hk => hused k (h.keys_used k hk)
    added_used := fun e he => hused _ (h.added_used e he) }

theorem Desk.Sound.use (h : d.Sound t) (used : List K) :
    d.Sound ({ t with used } : Table K V) := by
  cases d with
  | clear => exact trivial
  | broken => exact trivial
  | _ => exact h

section Removal
variable [DecidableEq K]

theorem mem_remove {e : K × V} : e ∈ (t.remove key).waiting ↔ e ∈ t.waiting ∧ e.1 ≠ key := by
  simp [Table.remove]

theorem Table.Sound.remove (h : t.Sound) (key : K) : (t.remove key).Sound where
  keys_nodup := h.keys_nodup
  keys_used := h.keys_used
  added_used := h.added_used
  added_nodup := h.added_nodup
  waiting_keys := fun e he => h.waiting_keys e (mem_remove.mp he).1
  waiting_added := fun e he => h.waiting_added e (mem_remove.mp he).1
  taken_added := h.taken_added
  taken_gone := fun e he x hx => h.taken_gone e he x (mem_remove.mp hx).1
  taken_nodup := h.taken_nodup

theorem Desk.Sound.remove (h : d.Sound t) (key : K) : d.Sound (t.remove key) := by
  cases d with
  | clear => exact trivial
  | broken => exact trivial
  | _ => exact h

theorem Table.Sound.take (h : t.Sound) (hadded : (key, value) ∈ t.added)
    (hnot : key ∉ t.taken.map Prod.fst) : (t.take key value).Sound :=
  { h.remove key with
    taken_added := by
      intro e he
      rcases List.mem_cons.mp he with rfl | he
      · exact hadded
      · exact h.taken_added e he
    taken_gone := by
      intro e he x hx
      obtain ⟨hx, hne⟩ := mem_remove.mp hx
      rcases List.mem_cons.mp he with rfl | he
      · exact hne
      · exact h.taken_gone e he x hx
    taken_nodup := List.nodup_cons.mpr ⟨hnot, h.taken_nodup⟩ }

theorem Desk.Sound.take (h : d.Sound t) (habout : ¬ d.About key) : d.Sound (t.take key value) := by
  have hother : ∀ {k : K}, k ≠ key → k ∉ t.taken.map Prod.fst →
      k ∉ (t.take key value).taken.map Prod.fst := by
    intro k hne hk hmem
    rcases List.mem_cons.mp hmem with heq | hmem
    · exact hne heq
    · exact hk hmem
  cases d with
  | clear => exact trivial
  | broken => exact trivial
  | adding k v => exact ⟨h.1, h.2.1, hother (fun heq => habout heq.symm) h.2.2⟩
  | holding k v => exact ⟨h.1, hother (fun heq => habout heq.symm) h.2⟩
  | taking k v => exact ⟨h.1, hother (fun heq => habout heq.symm) h.2⟩
  | closing k => exact List.mem_cons_of_mem _ h

end Removal

/-- Some entries are not on the board any more. -/
structure Table.Drops (t t' : Table K V) : Prop where
  keys : t'.keys.Sublist t.keys
  waiting : ∀ e ∈ t'.waiting, e ∈ t.waiting
  waiting_keys : ∀ e ∈ t'.waiting, e.1 ∈ t'.keys
  used : t'.used = t.used
  added : t'.added = t.added
  taken : t'.taken = t.taken

theorem Table.Sound.drop {t' : Table K V} (h : t.Sound) (hdrops : t.Drops t') : t'.Sound where
  keys_nodup := h.keys_nodup.sublist hdrops.keys
  keys_used := fun k hk => hdrops.used ▸ h.keys_used k (hdrops.keys.subset hk)
  added_used := by
    rw [hdrops.added, hdrops.used]
    exact h.added_used
  added_nodup := by
    rw [hdrops.added]
    exact h.added_nodup
  waiting_keys := hdrops.waiting_keys
  waiting_added := fun e he => hdrops.added ▸ h.waiting_added e (hdrops.waiting e he)
  taken_added := by
    rw [hdrops.added, hdrops.taken]
    exact h.taken_added
  taken_gone := by
    rw [hdrops.taken]
    exact fun e he x hx => h.taken_gone e he x (hdrops.waiting x hx)
  taken_nodup := by
    rw [hdrops.taken]
    exact h.taken_nodup

theorem Desk.Sound.drop {t' : Table K V} (h : d.Sound t) (hdrops : t.Drops t') : d.Sound t' := by
  cases d with
  | clear => exact trivial
  | broken => exact trivial
  | adding k v =>
    simp only [Desk.Sound, hdrops.added, hdrops.taken]
    exact ⟨fun hk => h.1 (hdrops.keys.subset hk), h.2⟩
  | _ =>
    simp only [Desk.Sound, hdrops.added, hdrops.taken]
    exact h

end Tables

/-! ## The board -/

section Boards

/-- No other desk deals with the key. -/
def Board.Free (b : Board ι K V) (i : ι) (key : K) : Prop := ∀ j, j ≠ i → ¬ (b.desks j).About key

/-- The invariant of the board. -/
structure Board.Sound (b : Board ι K V) : Prop where
  table : b.toTable.Sound
  desks : ∀ i, (b.desks i).Sound b.toTable
  exclusive : ∀ i j key, i ≠ j → (b.desks i).About key → ¬ (b.desks j).About key

variable {b : Board ι K V}

/-- The key of a desk is free from the others. -/
theorem Board.Sound.free (h : b.Sound) {i : ι} {key : K} (habout : (b.desks i).About key) :
    b.Free i key := fun j hj => h.exclusive i j key (Ne.symm hj) habout

/-- A desk that deals with an entry that waits has laid its hand on it. -/
theorem Board.Sound.holds (h : b.Sound) {i : ι} {e : K × V} (he : e ∈ b.waiting)
    (habout : (b.desks i).About e.1) :
    ∃ value, b.desks i = .holding e.1 value ∨ b.desks i = .taking e.1 value := by
  have hdesk := h.desks i
  cases hd : b.desks i with
  | clear =>
    rw [hd] at habout
    exact habout.elim
  | broken =>
    rw [hd] at habout
    exact habout.elim
  | adding k v =>
    rw [hd] at habout hdesk
    cases habout
    exact (hdesk.1 (h.table.waiting_keys e he)).elim
  | holding k v =>
    rw [hd] at habout
    cases habout
    exact ⟨v, .inl rfl⟩
  | taking k v =>
    rw [hd] at habout
    cases habout
    exact ⟨v, .inr rfl⟩
  | closing k =>
    rw [hd] at habout hdesk
    cases habout
    obtain ⟨x, hx, hkey⟩ := List.mem_map.mp hdesk
    exact (h.table.taken_gone x hx e he hkey.symm).elim

/-- What was taken was put up with its value, and with no other. -/
theorem Table.Sound.taken_value {t : Table K V} (h : t.Sound) {key : K} {value v : V}
    (htaken : (key, value) ∈ t.taken) (hadded : (key, v) ∈ t.added) : v = value := by
  have hsame := List.inj_on_of_nodup_map h.added_nodup hadded (h.taken_added _ htaken) rfl
  exact congrArg Prod.snd hsame

/-- Dropping entries keeps the invariant. -/
theorem Board.Sound.drop (h : b.Sound) {t : Table K V} (hdrops : b.toTable.Drops t) :
    ({ b with toTable := t } : Board ι K V).Sound where
  table := h.table.drop hdrops
  desks := fun i => (h.desks i).drop hdrops
  exclusive := h.exclusive

end Boards

/-! ## Steps -/

section Steps
variable [DecidableEq ι]

/-- One desk is changed. -/
def Board.turn (b : Board ι K V) (t : Table K V) (i : ι) (d : Desk K V) : Board ι K V :=
  { toTable := t, desks := Function.update b.desks i d }

inductive Step [DecidableEq K] (b : Board ι K V) : Board ι K V → Prop where
  /-- A desk drops what it has prepared or stays as it is; keys may be used up elsewhere. -/
  | rest (i : ι) (d : Desk K V) (used : List K) : d = b.desks i ∨ d.Idle →
      (∀ k ∈ b.used, k ∈ used) → Step b (b.turn { b.toTable with used } i d)
  | add (i : ι) (key : K) (value : V) : (b.desks i).Idle → key ∉ b.used →
      Step b (b.turn (b.add key value) i (.adding key value))
  | hold (i : ι) (key : K) (value : V) : (b.desks i).Idle → (key, value) ∈ b.waiting →
      b.Free i key → Step b (b.turn b.toTable i (.holding key value))
  | prepare (i : ι) (key : K) (value : V) : b.desks i = .holding key value →
      Step b (b.turn b.toTable i (.taking key value))
  | finish (i : ι) (key : K) : (b.desks i).Idle → key ∈ b.taken.map Prod.fst → b.Free i key →
      Step b (b.turn b.toTable i (.closing key))
  | put (i : ι) (key : K) (value : V) (d : Desk K V) : b.desks i = .adding key value → d.Idle →
      Step b (b.turn (b.put key value) i d)
  | take (i : ι) (key : K) (value : V) (d : Desk K V) : b.desks i = .taking key value → d.Idle →
      Step b (b.turn (b.take key value) i d)
  /-- The entry is gone, but nobody gets it. -/
  | lose (i : ι) (key : K) (value : V) (d : Desk K V) : b.desks i = .taking key value → d.Idle →
      Step b (b.turn (b.remove key) i d)
  | settle (i : ι) (key : K) (d : Desk K V) : b.desks i = .closing key → d.Idle →
      Step b (b.turn (b.remove key) i d)

variable {b b' : Board ι K V}

/-- A change of the table and of one desk keeps the invariant. -/
theorem Board.Sound.turn (h : b.Sound) {t : Table K V} {i : ι} {d : Desk K V} (ht : t.Sound)
    (hd : d.Sound t) (hothers : ∀ j, j ≠ i → (b.desks j).Sound t)
    (hfree : ∀ key, d.About key → b.Free i key) : (b.turn t i d).Sound where
  table := ht
  desks := by
    intro j
    by_cases hj : j = i
    · rw [hj]
      simp only [Board.turn, Function.update_self]
      exact hd
    · simp only [Board.turn, Function.update_of_ne hj]
      exact hothers j hj
  exclusive := by
    intro j k key hjk hj hk
    simp only [Board.turn] at hj hk
    by_cases hji : j = i
    · rw [hji, Function.update_self] at hj
      have hki : k ≠ i := fun hki => hjk (hji.trans hki.symm)
      rw [Function.update_of_ne hki] at hk
      exact hfree key hj k hki hk
    · rw [Function.update_of_ne hji] at hj
      by_cases hki : k = i
      · rw [hki, Function.update_self] at hk
        exact hfree key hk j hji hj
      · rw [Function.update_of_ne hki] at hk
        exact h.exclusive j k key hjk hj hk

variable [DecidableEq K]

theorem Board.Sound.step (h : b.Sound) (hstep : Step b b') : b'.Sound := by
  have hidle : ∀ {d : Desk K V} {i : ι}, d.Idle → ∀ key, d.About key → b.Free i key :=
    fun hd key habout => (hd.not_about key habout).elim
  cases hstep with
  | rest i d used hd hused =>
    refine h.turn (h.table.use hused) ?_ (fun j _ => (h.desks j).use used) ?_
    · rcases hd with rfl | hd
      · exact (h.desks i).use used
      · exact hd.sound _
    · intro key habout
      rcases hd with rfl | hd
      · exact h.free habout
      · exact hidle hd key habout
  | add i key value hi hfresh =>
    refine h.turn (h.table.add hfresh) ⟨?_, List.mem_cons_self, fun hmem => ?_⟩
      (fun j _ => (h.desks j).add) ?_
    · exact fun hmem => hfresh (h.table.keys_used key hmem)
    · obtain ⟨e, he, rfl⟩ := List.mem_map.mp hmem
      exact hfresh (h.table.added_used e (h.table.taken_added e he))
    · rintro k rfl j hj habout
      exact hfresh ((h.desks j).used h.table habout)
  | hold i key value hi hwaits hfree =>
    refine h.turn h.table ⟨h.table.waiting_added _ hwaits, fun hmem => ?_⟩
      (fun j _ => h.desks j) ?_
    · obtain ⟨e, he, hkey⟩ := List.mem_map.mp hmem
      exact h.table.taken_gone e he _ hwaits hkey.symm
    · rintro k rfl
      exact hfree
  | prepare i key value hi =>
    have hdesk := h.desks i
    rw [hi] at hdesk
    refine h.turn h.table hdesk (fun j _ => h.desks j) ?_
    rintro k rfl
    exact h.free (by rw [hi]; rfl)
  | finish i key hi htaken hfree =>
    refine h.turn h.table htaken (fun j _ => h.desks j) ?_
    rintro k rfl
    exact hfree
  | put i key value d hi hd =>
    have hdesk := h.desks i
    rw [hi] at hdesk
    have hfree : b.Free i key := h.free (by rw [hi]; rfl)
    exact h.turn (h.table.put hdesk.1 hdesk.2.1 hdesk.2.2) (hd.sound _)
      (fun j hj => (h.desks j).put (hfree j hj)) (hidle hd)
  | take i key value d hi hd =>
    have hdesk := h.desks i
    rw [hi] at hdesk
    have hfree : b.Free i key := h.free (by rw [hi]; rfl)
    exact h.turn (h.table.take hdesk.1 hdesk.2) (hd.sound _) (fun j hj => (h.desks j).take (hfree j hj))
      (hidle hd)
  | lose i key value d hi hd =>
    exact h.turn (h.table.remove key) (hd.sound _) (fun j _ => (h.desks j).remove key) (hidle hd)
  | settle i key d hi hd =>
    exact h.turn (h.table.remove key) (hd.sound _) (fun j _ => (h.desks j).remove key) (hidle hd)

/-! ### What follows -/

/-- What was put up stays on the board, and what does not wait there never waits again. -/
theorem Step.keeps (hstep : Step b b') (h : b.Sound) {key : K} (hkey : key ∈ b.keys) :
    key ∈ b'.keys ∧ ((∀ e ∈ b.waiting, e.1 ≠ key) → ∀ e ∈ b'.waiting, e.1 ≠ key) := by
  cases hstep with
  | put i k value d hi hd =>
    refine ⟨List.mem_append_left _ hkey, fun hgone e he => ?_⟩
    rcases List.mem_append.mp he with he | he
    · exact hgone e he
    · rw [List.mem_singleton.mp he]
      rintro rfl
      have hdesk := h.desks i
      rw [hi] at hdesk
      exact hdesk.1 hkey
  | take i k value d hi hd => exact ⟨hkey, fun hgone e he => hgone e (mem_remove.mp he).1⟩
  | lose i k value d hi hd => exact ⟨hkey, fun hgone e he => hgone e (mem_remove.mp he).1⟩
  | settle i k d hi hd => exact ⟨hkey, fun hgone e he => hgone e (mem_remove.mp he).1⟩
  | _ => exact ⟨hkey, id⟩

end Steps

end Claims
