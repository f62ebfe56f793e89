import Mathlib.Order.Defs.LinearOrder
import Mathlib.Order.Lattice

/-!
# Stable sorting

A stable sort orders a list by a key and leaves the elements with the same key in their order.
What follows for searching: the first element with a property in the sorted list has the best
key among all elements with the property, and it is the first one with that key in the list.
-/

namespace StableOrders

variable {α κ : Type} {l : List α} {p : α → Bool}

/-- The elements of a class on which the order is indifferent keep their order. -/
theorem filter_mergeSort {le : α → α → Bool} (trans : ∀ a b c, le a b → le b c → le a c)
    (total : ∀ a b, le a b || le b a) (hp : ∀ a b, p a = true → p b = true → le a b = true) :
    (l.mergeSort le).filter p = l.filter p := by
  have hclass : (l.filter p).Pairwise fun a b => le a b = true := by
    refine List.pairwise_of_forall_mem_list fun a ha b hb => ?_
    exact hp a b (List.mem_filter.mp ha).2 (List.mem_filter.mp hb).2
  have hsub : (l.filter p).Sublist (l.mergeSort le) :=
    List.sublist_mergeSort trans total hclass List.filter_sublist
  have hfilter := hsub.filter p
  simp only [List.filter_filter, Bool.and_self] at hfilter
  exact (hfilter.eq_of_length ((List.mergeSort_perm l le).filter p).length_eq.symm).symm

section Key
variable [LinearOrder κ] (key : α → κ)

/-- The order of a descending key. -/
def descending (a b : α) : Bool := decide (key b ≤ key a)

/-- The order of an ascending key. -/
def ascending (a b : α) : Bool := decide (key a ≤ key b)

variable {key}

theorem descending_trans (a b c : α) (h : descending key a b = true)
    (h' : descending key b c = true) : descending key a c = true :=
  decide_eq_true ((of_decide_eq_true h').trans (of_decide_eq_true h))

theorem descending_total (a b : α) : (descending key a b || descending key b a) = true := by
  simp only [descending, Bool.or_eq_true, decide_eq_true_eq]
  exact le_total _ _

theorem ascending_trans (a b c : α) (h : ascending key a b = true)
    (h' : ascending key b c = true) : ascending key a c = true :=
  decide_eq_true ((of_decide_eq_true h).trans (of_decide_eq_true h'))

theorem ascending_total (a b : α) : (ascending key a b || ascending key b a) = true := by
  simp only [ascending, Bool.or_eq_true, decide_eq_true_eq]
  exact le_total _ _

/-- A search in the list that is sorted by a descending key. -/
theorem find?_mergeSort_descending {a : α} (h : (l.mergeSort (descending key)).find? p = some a) :
    (l.find? fun x => p x && key x == key a) = some a ∧ ∀ b ∈ l, p b = true → key b ≤ key a := by
  obtain ⟨hpa, before, after, hsorted, hbefore⟩ := List.find?_eq_some_iff_append.mp h
  have hpair : (l.mergeSort (descending key)).Pairwise fun x y => descending key x y = true :=
    List.pairwise_mergeSort descending_trans descending_total l
  have hbest : ∀ b ∈ l, p b = true → key b ≤ key a := by
    intro b hb hpb
    have hmem : b ∈ l.mergeSort (descending key) := List.mem_mergeSort.mpr hb
    rw [hsorted] at hmem hpair
    rcases List.mem_append.mp hmem with hmem | hmem
    · have hnot := hbefore b hmem
      rw [hpb] at hnot
      cases hnot
    · rcases List.mem_cons.mp hmem with rfl | hmem
      · exact le_refl _
      · exact of_decide_eq_true ((List.pairwise_cons.mp (List.pairwise_append.mp hpair).2.1).1 b hmem)
  refine ⟨?_, hbest⟩
  -- the elements with the property and this key stand in the same order in both lists
  have hclass : (l.mergeSort (descending key)).filter (fun x => p x && key x == key a) =
      l.filter fun x => p x && key x == key a := by
    refine filter_mergeSort descending_trans descending_total fun x y hx hy => ?_
    simp only [Bool.and_eq_true, beq_iff_eq] at hx hy
    exact decide_eq_true (hy.2.trans hx.2.symm).le
  have hfirst : (l.mergeSort (descending key)).find? (fun x => p x && key x == key a) = some a := by
    rw [hsorted, List.find?_append]
    have hnone : before.find? (fun x => p x && key x == key a) = none := by
      refine List.find?_eq_none.mpr fun x hx hboth => ?_
      have hnot := hbefore x hx
      rw [(Bool.and_eq_true _ _ |>.mp hboth).1] at hnot
      cases hnot
    rw [hnone, Option.none_or, List.find?_cons, hpa, beq_self_eq_true, Bool.and_self]
  rw [← List.head?_filter, ← hclass, List.head?_filter]
  exact hfirst

theorem find?_mergeSort_eq_none {le : α → α → Bool} (h : (l.mergeSort le).find? p = none) :
    ∀ b ∈ l, p b = false := by
  intro b hb
  have hnot := List.find?_eq_none.mp h b (List.mem_mergeSort.mpr hb)
  exact Bool.not_eq_true _ |>.mp hnot

/-- The elements with one key keep their order. -/
theorem filter_mergeSort_ascending (k : κ) :
    (l.mergeSort (ascending key)).filter (fun a => key a == k) = l.filter fun a => key a == k := by
  refine filter_mergeSort ascending_trans ascending_total fun a b ha hb => ?_
  exact decide_eq_true ((beq_iff_eq.mp ha).trans (beq_iff_eq.mp hb).symm).le

theorem pairwise_mergeSort_ascending :
    (l.mergeSort (ascending key)).Pairwise fun a b => key a ≤ key b :=
  (List.pairwise_mergeSort ascending_trans ascending_total l).imp of_decide_eq_true

end Key

end StableOrders
