import Shadowsocks.Lib.Bytes

/-!
# Checked accesses to one allocation

An allocation is the list of its bytes. `load` and `store` are the block accesses
of C with the bounds check a C program does not make: leaving the allocation is the
fault `outOfBounds`, so a computation that returns `.ok` has stayed inside. `grow`
is `realloc` to a larger size; the bytes it adds are whatever `junk` says.
-/

namespace Shadowsocks.Lib
set_option autoImplicit false

/-- The ways a C computation can go wrong or end the process. -/
inductive Fault where
  | outOfBounds
  | noMemory
  | intOverflow
  | nullPointer
  | abort
  | useAfterFree
  | divideByZero
  | stackOverflow
  deriving DecidableEq, Repr

/-- `n` bytes from `off` on, all of them allocated. -/
def load (mem : Bytes) (off n : Nat) : Except Fault Bytes :=
  if off + n ≤ mem.length then .ok (window mem off n) else .error .outOfBounds

/-- The bytes from `off` on are replaced, all of them allocated. -/
def store (mem : Bytes) (off : Nat) (bs : Bytes) : Except Fault Bytes :=
  if off + bs.length ≤ mem.length then .ok (splice mem off bs) else .error .outOfBounds

/-- `memmove` inside one allocation: the source is read before anything is written. -/
def move (mem : Bytes) (dst src n : Nat) : Except Fault Bytes := do
  let bs ← load mem src n
  store mem dst bs

/-- `realloc` to `n` bytes, of which the added ones hold `junk`. No allocator hands
out half the address space. -/
def grow (junk : Nat → UInt8) (mem : Bytes) (n : Nat) : Except Fault Bytes :=
  if n < 2 ^ 63 then .ok (mem ++ (List.range (n - mem.length)).map fun i => junk (mem.length + i))
  else .error .noMemory

/-- The object behind a pointer that may be null. -/
def deref {α : Type} : Option α → Except Fault α
  | some a => .ok a
  | none => .error .nullPointer

@[simp] theorem deref_some {α : Type} (a : α) : deref (some a) = .ok a := rfl

theorem deref_eq_ok {α : Type} {x : Option α} {a : α} : deref x = .ok a ↔ x = some a := by
  cases x <;> simp [deref]

/-- A load inside the memory does not fail. -/
theorem load_ok {mem : Bytes} {off n : Nat} (fits : off + n ≤ mem.length) :
    load mem off n = .ok (window mem off n) :=
  if_pos fits

/-- Nor does a store. -/
theorem store_ok {mem bs : Bytes} {off : Nat} (fits : off + bs.length ≤ mem.length) :
    store mem off bs = .ok (splice mem off bs) :=
  if_pos fits

/-- A move goes through a copy, so the two ranges may overlap. -/
theorem move_ok {mem : Bytes} {dst src n : Nat} (source : src + n ≤ mem.length)
    (target : dst + n ≤ mem.length) : move mem dst src n = .ok (splice mem dst (window mem src n)) := by
  unfold move
  rw [load_ok source]
  exact store_ok (by rw [length_window source]; exact target)

/-- Memory that is asked for is there, below `2 ^ 63` bytes. -/
theorem grow_ok (junk : Nat → UInt8) (mem : Bytes) {n : Nat} (size : n < 2 ^ 63) :
    ∃ more, grow junk mem n = .ok (mem ++ more) ∧ (mem ++ more).length = max mem.length n := by
  refine ⟨_, if_pos size, ?_⟩
  simp only [List.length_append, List.length_map, List.length_range]
  omega

/-! ## Sequencing -/

@[simp] theorem ok_bind {ε α β : Type} (a : α) (f : α → Except ε β) :
    ((Except.ok a : Except ε α) >>= f) = f a := rfl

@[simp] theorem error_bind {ε α β : Type} (e : ε) (f : α → Except ε β) :
    ((Except.error e : Except ε α) >>= f) = .error e := rfl

@[simp] theorem pure_eq_ok {ε α : Type} (a : α) : (pure a : Except ε α) = .ok a := rfl

/-- A sequence that returns has a first part that returns. -/
theorem bind_eq_ok {ε α β : Type} {x : Except ε α} {f : α → Except ε β} {b : β} :
    (x >>= f) = .ok b ↔ ∃ a, x = .ok a ∧ f a = .ok b := by
  cases x with
  | ok a => simp
  | error e => simp

/-- Two stores behind each other are one. -/
theorem store_append {α : Type} (mem as bs : Bytes) (off : Nat) (rest : Bytes → Except Fault α) :
    (do let mem ← store mem off as; let mem ← store mem (off + as.length) bs; rest mem) =
      (do let mem ← store mem off (as ++ bs); rest mem) := by
  have both : (as ++ bs).length = as.length + bs.length := List.length_append
  by_cases first : off + as.length ≤ mem.length
  · have size : (splice mem off as).length = mem.length := length_splice first
    rw [store_ok first, ok_bind]
    by_cases second : off + (as.length + bs.length) ≤ mem.length
    · rw [store_ok (by omega), ok_bind, splice_splice_append second, store_ok (by omega), ok_bind]
    · rw [store, if_neg (by omega), error_bind, store, if_neg (by omega), error_bind]
  · rw [store, if_neg first, error_bind, store, if_neg (by omega), error_bind]

/-! ## Errors that cannot happen -/

/-- The computation does not end with the error `bad`. -/
def Avoids {ε α : Type} (bad : ε) (x : Except ε α) : Prop := x ≠ .error bad

section
variable {ε α β : Type} {bad : ε}

@[simp] theorem avoids_ok (a : α) : Avoids bad (.ok a) := fun no => by cases no

/-- An error avoids every other one. -/
@[simp] theorem avoids_error (e : ε) : Avoids bad (.error e : Except ε α) ↔ e ≠ bad := by
  simp [Avoids]

/-- A sequence avoids what all of its parts avoid. -/
theorem Avoids.bind {x : Except ε α} {f : α → Except ε β} (first : Avoids bad x) (rest : ∀ a, Avoids bad (f a)) :
    Avoids bad (x >>= f) := by
  cases x with
  | ok a => exact rest a
  | error e => exact fun no => first (by cases no; rfl)

/-- The same where the rest depends on what the first part returned. -/
theorem Avoids.bind_ok {x : Except ε α} {f : α → Except ε β} (first : Avoids bad x)
    (rest : ∀ a, x = .ok a → Avoids bad (f a)) : Avoids bad (x >>= f) := by
  cases x with
  | ok a => exact rest a rfl
  | error e => exact fun no => first (by cases no; rfl)

/-- So does a branch. -/
theorem Avoids.ite {c : Prop} [Decidable c] {x y : Except ε α} (pos : Avoids bad x) (neg : Avoids bad y) :
    Avoids bad (if c then x else y) := by
  split
  · exact pos
  · exact neg

end

/-- A fault that no access to one allocation causes. -/
class Fault.Foreign (f : Fault) : Prop where
  inBounds : Fault.outOfBounds ≠ f
  memory : Fault.noMemory ≠ f
  int : Fault.intOverflow ≠ f
  pointer : Fault.nullPointer ≠ f

instance : Fault.Foreign .abort := by constructor <;> decide

instance : Fault.Foreign .useAfterFree := by constructor <;> decide

section
variable {bad : Fault} [bad.Foreign]

/-- Memory accesses fail with `outOfBounds` only. -/
theorem load_avoids (mem : Bytes) (off n : Nat) : Avoids bad (load mem off n) :=
  .ite (avoids_ok _) ((avoids_error _).mpr Fault.Foreign.inBounds)

theorem store_avoids (mem : Bytes) (off : Nat) (bs : Bytes) : Avoids bad (store mem off bs) :=
  .ite (avoids_ok _) ((avoids_error _).mpr Fault.Foreign.inBounds)

theorem move_avoids (mem : Bytes) (dst src n : Nat) : Avoids bad (move mem dst src n) :=
  .bind (load_avoids _ _ _) fun _ => store_avoids _ _ _

theorem grow_avoids (junk : Nat → UInt8) (mem : Bytes) (n : Nat) : Avoids bad (grow junk mem n) :=
  .ite (avoids_ok _) ((avoids_error _).mpr Fault.Foreign.memory)

/-- Following a pointer fails with `nullDeref` only. -/
theorem deref_avoids {α : Type} (x : Option α) : Avoids bad (deref x) := by
  cases x with
  | some a => exact avoids_ok a
  | none => exact (avoids_error _).mpr Fault.Foreign.pointer

end

end Shadowsocks.Lib
