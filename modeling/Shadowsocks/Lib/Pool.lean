import Shadowsocks.Lib.Heap
import Mathlib.Data.List.Nodup

/-!
# A heap with a record of its frees

A `Pool` is a heap that remembers which addresses were freed, in order. Where only objects
that exist are freed, each address given out so far belongs to an object that exists or is
in the record once (`Pool.Sound`).
-/

namespace Shadowsocks.Lib
set_option autoImplicit false

/-- A heap, and the addresses that have been freed, in this order. -/
structure Pool (ρ : Type) where
  heap : Heap ρ := {}
  freed : List Nat := []

namespace Pool
variable {ρ : Type}

def cell (p : Pool ρ) (i : Nat) : Option ρ := p.heap.cell i

def next (p : Pool ρ) : Nat := p.heap.next

def new (p : Pool ρ) (r : ρ) : Pool ρ := { p with heap := p.heap.new r }

/-- The object goes, and its address is recorded. -/
def free (p : Pool ρ) (i : Nat) : Pool ρ where
  heap := p.heap.free i
  freed := p.freed ++ [i]

def modify (p : Pool ρ) (i : Nat) (f : ρ → ρ) : Pool ρ := { p with heap := p.heap.modify i f }

/-- How many objects there are. -/
def live (p : Pool ρ) : Nat := (List.range p.next).countP fun i => (p.cell i).isSome

/-- Nothing is above `next`, and what is missing below it was freed, once. -/
structure Sound (p : Pool ρ) : Prop where
  bounded : p.heap.Bounded
  once : p.freed.Nodup
  gone : ∀ i, i ∈ p.freed ↔ i < p.next ∧ p.cell i = none

/-- The record has an address once if there was an object that is gone, and otherwise never. -/
def FreedOnce (p : Pool ρ) : Prop := ∀ i, p.freed.count i = if i < p.next ∧ (p.cell i).isNone then 1 else 0

variable {p : Pool ρ} {r : ρ} {f : ρ → ρ} {i j : Nat}

@[simp] theorem cell_new_self : (p.new r).cell p.next = some r := Heap.cell_new_self

theorem cell_new_of_ne (ne : j ≠ p.next) : (p.new r).cell j = p.cell j := Heap.cell_new_of_ne ne

@[simp] theorem cell_free_self : (p.free i).cell i = none := Heap.cell_free_self

theorem cell_free_of_ne (ne : j ≠ i) : (p.free i).cell j = p.cell j := Heap.cell_free_of_ne ne

@[simp] theorem cell_modify_self : (p.modify i f).cell i = (p.cell i).map f := Heap.cell_modify_self

theorem cell_modify_of_ne (ne : j ≠ i) : (p.modify i f).cell j = p.cell j := Heap.cell_modify_of_ne ne

theorem isSome_cell_modify : ((p.modify i f).cell j).isSome = (p.cell j).isSome := Heap.isSome_cell_modify

/-- What is there after a change was there before. -/
theorem cell_modify {r' : ρ} (here : (p.modify i f).cell j = some r') :
    ∃ r, p.cell j = some r ∧ (r' = r ∧ j ≠ i ∨ r' = f r ∧ j = i) := by
  by_cases same : j = i
  · subst same
    rw [cell_modify_self] at here
    obtain ⟨r, there, rfl⟩ := Option.map_eq_some_iff.mp here
    exact ⟨r, there, .inr ⟨rfl, rfl⟩⟩
  · exact ⟨r', (cell_modify_of_ne same).symm.trans here, .inl ⟨rfl, same⟩⟩

/-- What was there is there after a change. -/
theorem cell_modify_of (there : p.cell j = some r) (i : Nat) (f : ρ → ρ) :
    ∃ r', (p.modify i f).cell j = some r' ∧ (r' = r ∧ j ≠ i ∨ r' = f r ∧ j = i) := by
  by_cases same : j = i
  · subst same
    exact ⟨f r, cell_modify_self.trans (by rw [there]; rfl), .inr ⟨rfl, rfl⟩⟩
  · exact ⟨r, (cell_modify_of_ne same).trans there, .inl ⟨rfl, same⟩⟩

/-- What is left after an object is gone was there before, and is another one. -/
theorem cell_free {r : ρ} (here : (p.free i).cell j = some r) : p.cell j = some r ∧ j ≠ i := by
  by_cases same : j = i
  · rw [same, cell_free_self] at here
    cases here
  · exact ⟨(cell_free_of_ne same).symm.trans here, same⟩

/-- Only the object itself is another one after a change. -/
theorem cell_modify_iff {r' : ρ} (here : p.cell i = some r) :
    (p.modify i f).cell j = some r' ↔ j = i ∧ r' = f r ∨ j ≠ i ∧ p.cell j = some r' := by
  by_cases same : j = i
  · subst same
    rw [cell_modify_self, here]
    simp [eq_comm]
  · simp [cell_modify_of_ne same, same]

theorem exists_cell_modify : (∃ r', (p.modify i f).cell j = some r') ↔ ∃ r, p.cell j = some r := by
  rw [← Option.isSome_iff_exists, ← Option.isSome_iff_exists, isSome_cell_modify]

/-- The same in both directions. -/
theorem cell_free_iff : (p.free i).cell j = some r ↔ j ≠ i ∧ p.cell j = some r := by
  by_cases same : j = i
  · simp [same]
  · simp [cell_free_of_ne same, same]

/-- Every object is the new one or an old one. -/
theorem cell_new_iff {r' : ρ} : (p.new r).cell j = some r' ↔ j = p.next ∧ r' = r ∨ j ≠ p.next ∧ p.cell j = some r' := by
  by_cases same : j = p.next
  · subst same
    simp [eq_comm]
  · simp [cell_new_of_ne same, same]

/-- What is freed need not be changed before. -/
theorem free_modify : (p.modify i f).free i = p.free i := by
  refine congrArg (fun c => (⟨⟨c, p.next⟩, p.freed ++ [i]⟩ : Pool ρ)) (funext fun j => ?_)
  by_cases same : j = i
  · simp [same]
  · simp [same, modify, Heap.modify]

theorem modify_id : p.modify i id = p := by
  refine congrArg (fun c => (⟨⟨c, p.next⟩, p.freed⟩ : Pool ρ)) (funext fun j => ?_)
  by_cases same : j = i
  · simp [same]
  · simp [same]

theorem sound_empty : Sound ({} : Pool ρ) where
  bounded _ _ := rfl
  once := List.nodup_nil
  gone i := ⟨nofun, fun below => absurd below.1 (Nat.not_lt_zero i)⟩

theorem Sound.ne_next (sound : p.Sound) (here : p.cell i = some r) : i ≠ p.next := sound.bounded.ne_next here

/-- Objects are below the next address. -/
theorem Sound.lt_next (sound : p.Sound) (here : p.cell i = some r) : i < p.next := by
  by_contra above
  rw [cell, sound.bounded i (Nat.not_lt.mp above)] at here
  cases here

/-- A new object is at an address that has never been freed. -/
theorem Sound.new (sound : p.Sound) : (p.new r).Sound where
  bounded := sound.bounded.new
  once := sound.once
  gone i := by
    change i ∈ p.freed ↔ i < p.next + 1 ∧ _
    rw [sound.gone]
    by_cases same : i = p.next
    · subst same
      simp
    · rw [cell_new_of_ne same]
      exact and_congr_left' ⟨fun below => by omega, fun below => by omega⟩

/-- Only what exists is freed, so no address is freed twice. -/
theorem Sound.free (sound : p.Sound) (here : p.cell i = some r) : (p.free i).Sound where
  bounded := sound.bounded.free
  once := by
    refine List.nodup_append.mpr ⟨sound.once, List.nodup_singleton i, fun j mem j' last => ?_⟩
    rw [List.mem_singleton.mp last]
    rintro rfl
    rw [((sound.gone j).mp mem).2] at here
    cases here
  gone j := by
    change j ∈ p.freed ++ [i] ↔ j < p.next ∧ _
    rw [List.mem_append, List.mem_singleton, sound.gone]
    by_cases same : j = i
    · subst same
      simp [sound.lt_next here]
    · rw [cell_free_of_ne same]
      simp [same]

theorem Sound.modify (sound : p.Sound) : (p.modify i f).Sound where
  bounded := sound.bounded.modify
  once := sound.once
  gone j := by
    change j ∈ p.freed ↔ j < p.next ∧ _
    rw [sound.gone, ← Option.isNone_iff_eq_none, ← Option.isNone_iff_eq_none, ← Option.not_isSome, ← Option.not_isSome,
      isSome_cell_modify]

/-- In a sound pool nothing has been freed twice. -/
theorem Sound.freed_once (sound : p.Sound) : p.FreedOnce := by
  intro i
  split
  · rename_i gone
    exact List.count_eq_one_of_mem sound.once ((sound.gone i).mpr (gone.imp_right Option.isNone_iff_eq_none.mp))
  · rename_i other
    exact List.count_eq_zero.mpr fun mem => other (((sound.gone i).mp mem).imp_right Option.isNone_iff_eq_none.mpr)

/-! ## The number of objects -/

/-- The number of objects, which the programs count themselves if they are verbose. -/
theorem live_new : (p.new r).live = p.live + 1 := by
  have same : (List.range p.next).countP (fun i => ((p.new r).cell i).isSome) = p.live := by
    refine List.countP_congr fun i mem => ?_
    rw [cell_new_of_ne (Nat.ne_of_lt (List.mem_range.mp mem))]
  rw [live, show (p.new r).next = p.next + 1 from rfl, List.range_succ, List.countP_append, same]
  simp

/-- An object that goes was one of them. -/
theorem live_free (sound : p.Sound) (here : p.cell i = some r) : (p.free i).live + 1 = p.live := by
  have mem : i ∈ List.range p.next := List.mem_range.mpr (sound.lt_next here)
  have perm := List.perm_cons_erase mem
  have rest : ((List.range p.next).erase i).countP (fun j => ((p.free i).cell j).isSome) =
      ((List.range p.next).erase i).countP fun j => (p.cell j).isSome := by
    refine List.countP_congr fun j mem => ?_
    rw [cell_free_of_ne (List.nodup_range.mem_erase_iff.mp mem).1]
  rw [live, live, show (p.free i).next = p.next from rfl, perm.countP_eq, perm.countP_eq, List.countP_cons, List.countP_cons, rest]
  simp [here]

theorem live_modify : (p.modify i f).live = p.live :=
  List.countP_congr fun j _ => by rw [isSome_cell_modify]

end Pool

end Shadowsocks.Lib
