import Mathlib.Data.List.Basic
import Mathlib.Order.Lattice

/-!
# Stable rearrangements

A list is the stable rearrangement of another one by a key if its keys ascend and, for
each key, the elements with this key stand in the same order in both. There is exactly
one, and `List.mergeSort` finds it.
-/

namespace Shadowsocks.Lib
set_option autoImplicit false

variable {α κ : Type} [LinearOrder κ] {key : α → κ} {xs ys zs : List α}

/-- `ys` is `xs` in the order of the keys; elements with one key keep their order. The second
field says both that nothing is lost and that the order among equals stays. -/
structure StableSort (key : α → κ) (xs ys : List α) : Prop where
  ordered : ys.Pairwise fun a b => key a ≤ key b
  stable : ∀ k, ys.filter (fun a => key a = k) = xs.filter (fun a => key a = k)

namespace StableSort

/-- The elements are the same, since those with one key are. -/
theorem mem_iff (sorted : StableSort key xs ys) (a : α) : a ∈ ys ↔ a ∈ xs := by
  have same : a ∈ ys.filter (fun b => key b = key a) ↔ a ∈ xs.filter (fun b => key b = key a) := by
    rw [sorted.stable]
  simpa using same

/-- A stably sorted list is a permutation. -/
theorem perm [DecidableEq α] (sorted : StableSort key xs ys) : ys.Perm xs := by
  refine List.perm_iff_count.mpr fun a => ?_
  have counted : ∀ l : List α, (l.filter fun b => key b = key a).count a = l.count a := fun l =>
    List.count_filter (decide_eq_true rfl)
  rw [← counted ys, sorted.stable, counted]

/-- There is one stable rearrangement. -/
theorem unique (sorted : StableSort key xs ys) (sorted' : StableSort key xs zs) : ys = zs := by
  have same : ∀ k, ys.filter (fun a => key a = k) = zs.filter (fun a => key a = k) := fun k =>
    (sorted.stable k).trans (sorted'.stable k).symm
  have ordered := sorted.ordered
  have ordered' := sorted'.ordered
  clear sorted sorted'
  have mem : ∀ a, a ∈ ys ↔ a ∈ zs := by
    intro a
    have iff_ : a ∈ ys.filter (fun b => key b = key a) ↔ a ∈ zs.filter (fun b => key b = key a) := by rw [same]
    simpa using iff_
  induction ys generalizing zs with
  | nil =>
    cases zs with
    | nil => rfl
    | cons z zs => exact absurd ((mem z).mpr List.mem_cons_self) List.not_mem_nil
  | cons y ys ih =>
    cases zs with
    | nil => exact absurd ((mem y).mp List.mem_cons_self) List.not_mem_nil
    | cons z zs =>
      -- both heads have the least key, and are the first elements with it
      have least : ∀ a ∈ y :: ys, key y ≤ key a := by
        intro a there
        rcases List.mem_cons.mp there with rfl | later
        · exact le_rfl
        · exact (List.pairwise_cons.mp ordered).1 a later
      have least' : ∀ a ∈ z :: zs, key z ≤ key a := by
        intro a there
        rcases List.mem_cons.mp there with rfl | later
        · exact le_rfl
        · exact (List.pairwise_cons.mp ordered').1 a later
      have keys : key z = key y :=
        le_antisymm (least' y ((mem y).mp List.mem_cons_self)) (least z ((mem z).mpr List.mem_cons_self))
      have firsts := same (key y)
      rw [List.filter_cons_of_pos (by simp), List.filter_cons_of_pos (by simpa using keys)] at firsts
      obtain rfl : y = z := (List.cons.inj firsts).1
      have same' : ∀ k, ys.filter (fun a => key a = k) = zs.filter (fun a => key a = k) := by
        intro k
        by_cases here : key y = k
        · rw [← here]
          exact (List.cons.inj firsts).2
        · have rest := same k
          rwa [List.filter_cons_of_neg (by simpa using here), List.filter_cons_of_neg (by simpa using here)] at rest
      have mem' : ∀ a, a ∈ ys ↔ a ∈ zs := by
        intro a
        have iff_ : a ∈ ys.filter (fun b => key b = key a) ↔ a ∈ zs.filter (fun b => key b = key a) := by rw [same']
        simpa using iff_
      rw [ih same' (List.pairwise_cons.mp ordered).2 (List.pairwise_cons.mp ordered').2 mem']

end StableSort

/-- The library's merge sort is one way to sort stably, so such a list exists for every key. -/
theorem stableSort_mergeSort (key : α → κ) (xs : List α) : StableSort key xs (xs.mergeSort fun a b => key a ≤ key b) := by
  have trans : ∀ a b c : α, decide (key a ≤ key b) = true → decide (key b ≤ key c) = true → decide (key a ≤ key c) = true :=
    fun a b c first second => decide_eq_true ((of_decide_eq_true first).trans (of_decide_eq_true second))
  have total : ∀ a b : α, (decide (key a ≤ key b) || decide (key b ≤ key a)) = true := fun a b => by
    simpa using le_total (key a) (key b)
  constructor
  · exact (List.pairwise_mergeSort trans total xs).imp fun ordered => of_decide_eq_true ordered
  · intro k
    -- the elements with one key are in order, so sorting keeps them as they stand
    have run : (xs.filter fun a => key a = k).Pairwise fun a b => decide (key a ≤ key b) = true := by
      refine List.pairwise_of_forall_mem_list fun a here b there => ?_
      have a_key : key a = k := by simpa using (List.mem_filter.mp here).2
      have b_key : key b = k := by simpa using (List.mem_filter.mp there).2
      simp [a_key, b_key]
    have kept : List.Sublist (xs.filter fun a => key a = k) (xs.mergeSort fun a b => key a ≤ key b) :=
      List.sublist_mergeSort trans total run List.filter_sublist
    have inside := kept.filter fun a => decide (key a = k)
    rw [List.filter_filter] at inside
    simp only [Bool.and_self] at inside
    refine (inside.eq_of_length ?_).symm
    exact ((List.mergeSort_perm xs _).filter _).length_eq.symm

end Shadowsocks.Lib
