import Mathlib.Tactic.Common

/-!
# A heap of objects

Objects are created, changed and freed under their addresses. An address is never used
twice, so a pointer to a freed object stays dangling.
-/

namespace Shadowsocks.Lib
set_option autoImplicit false

/-- The objects by their addresses, which are given out in order and never again. -/
structure Heap (ρ : Type) where
  cell : Nat → Option ρ := fun _ => none
  next : Nat := 0

namespace Heap
variable {ρ : Type}

/-- A new object, at the address `next`. -/
def new (h : Heap ρ) (r : ρ) : Heap ρ where
  cell i := if i = h.next then some r else h.cell i
  next := h.next + 1

/-- The object at the address is gone. -/
def free (h : Heap ρ) (i : Nat) : Heap ρ := { h with cell := fun j => if j = i then none else h.cell j }

/-- The object at the address is changed, if there is one. -/
def modify (h : Heap ρ) (i : Nat) (f : ρ → ρ) : Heap ρ :=
  { h with cell := fun j => if j = i then (h.cell j).map f else h.cell j }

/-- Nothing is at an address that has not been used. -/
def Bounded (h : Heap ρ) : Prop := ∀ i, h.next ≤ i → h.cell i = none

variable {h : Heap ρ} {r : ρ} {f : ρ → ρ} {i j : Nat}

/-- A new object is found at the address that was next, -/
@[simp] theorem cell_new_self : (h.new r).cell h.next = some r := if_pos rfl

/-- and the others where they were. -/
theorem cell_new_of_ne (ne : j ≠ h.next) : (h.new r).cell j = h.cell j := if_neg ne

@[simp] theorem cell_free_self : (h.free i).cell i = none := if_pos rfl

/-- Freeing one object leaves the others. -/
theorem cell_free_of_ne (ne : j ≠ i) : (h.free i).cell j = h.cell j := if_neg ne

/-- A change is seen where it was made, -/
@[simp] theorem cell_modify_self : (h.modify i f).cell i = (h.cell i).map f := if_pos rfl

/-- and nowhere else. -/
theorem cell_modify_of_ne (ne : j ≠ i) : (h.modify i f).cell j = h.cell j := if_neg ne

/-- A change makes no object and frees none. -/
theorem isSome_cell_modify : ((h.modify i f).cell j).isSome = (h.cell j).isSome := by
  by_cases same : j = i
  · subst same
    rw [cell_modify_self, Option.isSome_map]
  · rw [cell_modify_of_ne same]

/-- Above the next address there is still nothing. -/
theorem Bounded.new (bounded : h.Bounded) : (h.new r).Bounded := by
  intro i above
  have above : h.next + 1 ≤ i := above
  rw [cell_new_of_ne (by omega)]
  exact bounded i (by omega)

theorem Bounded.free (bounded : h.Bounded) : (h.free i).Bounded := by
  intro j above
  by_cases same : j = i
  · rw [same, cell_free_self]
  · rw [cell_free_of_ne same]
    exact bounded j above

theorem Bounded.modify (bounded : h.Bounded) : (h.modify i f).Bounded := by
  intro j above
  have isSome := isSome_cell_modify (h := h) (f := f) (i := i) (j := j)
  rw [bounded j above] at isSome
  exact Option.isSome_eq_false_iff.mp isSome |> Option.isNone_iff_eq_none.mp

/-- What is there is not at the address of the next object. -/
theorem Bounded.ne_next (bounded : h.Bounded) (here : h.cell i = some r) : i ≠ h.next := by
  rintro rfl
  rw [bounded _ (Nat.le_refl _)] at here
  cases here

/-- A new object can be changed before or after it is put on the heap. -/
theorem modify_new : (h.new r).modify h.next f = h.new (f r) := by
  refine congrArg (fun c => (⟨c, h.next + 1⟩ : Heap ρ)) (funext fun j => ?_)
  by_cases same : j = h.next
  · simp [same, new]
  · simp [same, new]

/-- An older object can be freed before or after the new one comes. -/
theorem free_new (ne : i ≠ h.next) : (h.new r).free i = (h.free i).new r := by
  refine congrArg (fun c => (⟨c, h.next + 1⟩ : Heap ρ)) (funext fun j => ?_)
  by_cases same : j = i
  · simp [same, free, ne]
  · simp [same, new, free]

/-- An object that is freed at once leaves nothing behind but its address. -/
theorem free_new_self (bounded : h.Bounded) : (h.new r).free h.next = { cell := h.cell, next := h.next + 1 } := by
  refine congrArg (fun c => (⟨c, h.next + 1⟩ : Heap ρ)) (funext fun j => ?_)
  by_cases same : j = h.next
  · rw [same, if_pos rfl, bounded _ (Nat.le_refl _)]
  · rw [if_neg same, cell_new_of_ne same]

end Heap

end Shadowsocks.Lib
