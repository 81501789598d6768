import Mathlib.Data.List.Dedup
import Mathlib.Data.List.DropRight

/-!
# The most recently used elements

`recent n uses` are the `n` distinct elements that were used last, the oldest first,
where `uses` is the history of all uses in order. Two lemmas say how it goes on when
one more element is used: they are what a cache does that moves a hit to its tail, and
drops its head when a miss makes it too long.
-/

namespace Shadowsocks.Lib
set_option autoImplicit false

/-! ## The end of a list -/

section
variable {α : Type} {l : List α} {n : Nat}

/-- A list is its last `n` elements behind the others, and there are no others if there
are fewer than `n`. -/
theorem exists_append_rtake (l : List α) (n : Nat) :
    ∃ old, l = old ++ l.rtake n ∧ ((l.rtake n).length = n ∨ old = []) := by
  refine ⟨l.take (l.length - n), (List.take_append_drop _ l).symm, ?_⟩
  by_cases short : l.length ≤ n
  · right
    rw [Nat.sub_eq_zero_of_le short, List.take_zero]
  · left
    rw [List.rtake, List.length_drop]
    omega

/-- What is in front of enough elements is not among the last. -/
theorem rtake_append {old l : List α} (enough : n ≤ l.length ∨ old = []) : (old ++ l).rtake n = l.rtake n := by
  rcases enough with le | rfl
  · rw [List.rtake, List.rtake, List.length_append, Nat.add_sub_assoc le, List.drop_append, Nat.add_sub_cancel_left,
      List.drop_of_length_le (Nat.le_add_right _ _), List.nil_append]
  · rfl

/-- A list that is short enough is kept whole. -/
theorem rtake_of_length_le (le : l.length ≤ n) : l.rtake n = l := by
  rw [List.rtake, Nat.sub_eq_zero_of_le le, List.drop_zero]

end

/-! ## Histories -/

variable {α : Type} [DecidableEq α] {x : α} {uses : List α} {n : Nat}

/-- The last `n` of the distinct values, the least recent first. -/
def recent (n : Nat) (uses : List α) : List α := uses.dedup.rtake n

@[simp] theorem recent_nil : recent n ([] : List α) = [] := List.rtake_nil n

/-- There are at most `n` recent values. -/
theorem length_recent_le : (recent n uses).length ≤ n := by
  rw [recent, List.rtake, List.length_drop]
  omega

/-- Using an element once more moves it to the end of the distinct ones. -/
theorem dedup_concat (uses : List α) (x : α) : (uses ++ [x]).dedup = uses.dedup.erase x ++ [x] := by
  induction uses with
  | nil => rfl
  | cons a uses ih =>
    rw [List.cons_append]
    by_cases again : a ∈ uses
    · rw [List.dedup_cons_of_mem (List.mem_append_left _ again), List.dedup_cons_of_mem again, ih]
    · by_cases same : a = x
      · subst same
        rw [List.dedup_cons_of_mem (List.mem_append_right _ (List.mem_singleton_self _)), ih,
          List.dedup_cons_of_notMem again, List.erase_cons_head, List.erase_of_not_mem]
        rwa [List.mem_dedup]
      · have new : a ∉ uses ++ [x] := by simp [again, same]
        rw [List.dedup_cons_of_notMem new, List.dedup_cons_of_notMem again, ih, List.erase_cons_tail]
        · rfl
        · simpa using same

/-- A use moves its value to the end, and the first of the others gives way. -/
theorem recent_concat : recent (n + 1) (uses ++ [x]) = (uses.dedup.erase x).rtake n ++ [x] := by
  rw [recent, dedup_concat, List.rtake_concat_succ]

/-- A hit. -/
theorem recent_hit (hit : x ∈ recent (n + 1) uses) :
    recent (n + 1) (uses ++ [x]) = (recent (n + 1) uses).erase x ++ [x] := by
  rw [recent_concat]
  congr 1
  obtain ⟨old, split, full⟩ := exists_append_rtake uses.dedup (n + 1)
  rw [recent] at hit ⊢
  have distinct := List.nodup_dedup uses
  rw [split] at distinct
  have notOld : x ∉ old := fun no => List.disjoint_of_nodup_append distinct no hit
  have len : ((uses.dedup.rtake (n + 1)).erase x).length = (uses.dedup.rtake (n + 1)).length - 1 :=
    List.length_erase_of_mem hit
  have short : (uses.dedup.rtake (n + 1)).length ≤ n + 1 := length_recent_le
  calc (uses.dedup.erase x).rtake n
      = (old ++ (uses.dedup.rtake (n + 1)).erase x).rtake n := by
        rw [← List.erase_append_right _ notOld, ← split]
    _ = ((uses.dedup.rtake (n + 1)).erase x).rtake n := rtake_append (full.imp (fun _ => by omega) id)
    _ = (uses.dedup.rtake (n + 1)).erase x := rtake_of_length_le (by omega)

/-- A miss. -/
theorem recent_miss (miss : x ∉ recent (n + 1) uses) :
    recent (n + 1) (uses ++ [x]) = (recent (n + 1) uses ++ [x]).rtake (n + 1) := by
  rw [recent_concat, List.rtake_concat_succ]
  congr 1
  obtain ⟨old, split, full⟩ := exists_append_rtake uses.dedup (n + 1)
  rw [recent] at miss ⊢
  have gone : (old ++ uses.dedup.rtake (n + 1)).erase x = old.erase x ++ uses.dedup.rtake (n + 1) := by
    by_cases inOld : x ∈ old
    · exact List.erase_append_left _ inOld
    · rw [List.erase_append_right _ inOld, List.erase_of_not_mem inOld, List.erase_of_not_mem miss]
  rw [← split] at gone
  rw [gone]
  exact rtake_append (full.imp (fun _ => by omega) (by rintro rfl; rfl))

/-! ## The order of the uses -/

/-- The last use of `x` was before the last one of `y`. -/
def UsedBefore {α : Type} (uses : List α) (x y : α) : Prop :=
  ∃ before after, uses = before ++ y :: after ∧ x ∈ before ∧ x ∉ y :: after

/-- No later entry had the key of `e`. -/
def LastInserted {κ ν : Type} (inserted : List (κ × ν)) (e : κ × ν) : Prop :=
  ∃ before after, inserted = before ++ e :: after ∧ ∀ e' ∈ after, e'.1 ≠ e.1

section
variable {α κ ν : Type}

/-- A use of another value keeps the order of two. -/
theorem UsedBefore.concat {uses : List α} {x y z : α} (h : UsedBefore uses x y) (other : x ≠ z) :
    UsedBefore (uses ++ [z]) x y := by
  obtain ⟨before, after, rfl, used, last⟩ := h
  refine ⟨before, after ++ [z], by simp, used, ?_⟩
  rw [← List.cons_append, List.mem_append, List.mem_singleton]
  exact not_or.mpr ⟨last, other⟩

/-- The value that is used comes behind all others. -/
theorem usedBefore_concat {uses : List α} {x y : α} (used : x ∈ uses) (other : x ≠ y) : UsedBefore (uses ++ [y]) x y :=
  ⟨uses, [], rfl, used, by simpa using other⟩

/-- Using `x` puts it behind all others. -/
theorem pairwise_usedBefore_concat {uses others : List α} {x : α} (order : others.Pairwise (UsedBefore uses))
    (used : ∀ y ∈ others, y ∈ uses) (new : x ∉ others) : (others ++ [x]).Pairwise (UsedBefore (uses ++ [x])) := by
  have apart : ∀ y ∈ others, y ≠ x := fun y mem same => new (same ▸ mem)
  rw [List.pairwise_append]
  refine ⟨?_, List.pairwise_singleton _ _, fun y mem z last => ?_⟩
  · exact order.imp_of_mem fun mem _ before => before.concat (apart _ mem)
  · rw [List.mem_singleton.mp last]
    exact usedBefore_concat (used y mem) (apart y mem)

/-- An insert under another key keeps the last insert under this one. -/
theorem LastInserted.concat {inserted : List (κ × ν)} {e e' : κ × ν} (h : LastInserted inserted e) (other : e'.1 ≠ e.1) :
    LastInserted (inserted ++ [e']) e := by
  obtain ⟨before, after, rfl, last⟩ := h
  refine ⟨before, after ++ [e'], by simp, fun a mem => ?_⟩
  rcases List.mem_append.mp mem with mem | mem
  · exact last a mem
  · rw [List.mem_singleton.mp mem]
    exact other

theorem lastInserted_concat (inserted : List (κ × ν)) (e : κ × ν) : LastInserted (inserted ++ [e]) e :=
  ⟨inserted, [], rfl, nofun⟩

end

end Shadowsocks.Lib
