import Mathlib.Data.List.Nodup
import Mathlib.Data.List.Perm.Basic
import Shadowsocks.Lib.Bytes
import Shadowsocks.Lib.Recent

/-!
# The LRU cache of `cache.c`

A `struct cache` is its capacity and its entries in uthash's iteration order, the
oldest first: `HASH_ADD_KEYPTR` appends at the tail, `HASH_FIND` returns the entry
with the key asked for and `HASH_DELETE` unlinks one entry. The data of an entry is
`none` where the C pointer is `NULL`.
-/

namespace Shadowsocks
set_option autoImplicit false
open Lib

structure Cache (δ : Type) where
  maxEntries : Nat
  entries : List (Bytes × Option δ)
  deriving Repr

namespace Cache
variable {δ : Type}

def keys (c : Cache δ) : List Bytes := c.entries.map Prod.fst

/-- `HASH_FIND`. -/
def find (c : Cache δ) (key : Bytes) : Option (Bytes × Option δ) :=
  c.entries.find? fun e => e.1 == key

/-- `HASH_DELETE` of the entry found under `key`. -/
def unlink (c : Cache δ) (key : Bytes) : Cache δ :=
  { c with entries := c.entries.eraseP fun e => e.1 == key }

theorem find_eq_none {c : Cache δ} {key : Bytes} (fresh : key ∉ c.keys) : c.find key = none := by
  rw [find, List.find?_eq_none]
  intro e he same
  rw [beq_iff_eq] at same
  exact fresh (same ▸ List.mem_map_of_mem he)

end Cache

/-- `cache_create`. -/
def cacheCreate (δ : Type) (capacity : Nat) : Cache δ :=
  { maxEntries := capacity, entries := [] }

/-- `cache_key_exist`: a hit moves the entry to the tail. -/
def cacheKeyExist {δ : Type} (c : Cache δ) (key : Bytes) : Bool × Cache δ :=
  match c.find key with
  | some e => (true, { c with entries := (c.unlink key).entries ++ [e] })
  | none => (false, c)

/-- `cache_lookup`: the same, with the data of the entry. -/
def cacheLookup {δ : Type} (c : Cache δ) (key : Bytes) : Option δ × Cache δ :=
  match c.find key with
  | some e => (e.2, { c with entries := (c.unlink key).entries ++ [e] })
  | none => (none, c)

/-- `cache_remove`. The second component is the data handed to `free_cb`. -/
def cacheRemove {δ : Type} (c : Cache δ) (key : Bytes) : Cache δ × Option δ :=
  match c.find key with
  | some e => (c.unlink key, e.2)
  | none => (c, none)

/-- `cache_insert`: append the entry and, at the limit, drop the oldest one. The
second component is the data handed to `free_cb`. -/
def cacheInsert {δ : Type} (c : Cache δ) (key : Bytes) (data : Option δ) : Cache δ × Option δ :=
  let entries := c.entries ++ [(key, data)]
  if c.maxEntries ≤ entries.length then
    ({ c with entries := entries.tail }, entries.head?.bind Prod.snd)
  else
    ({ c with entries }, none)

theorem cacheKeyExist_fresh {δ : Type} {c : Cache δ} {key : Bytes} (fresh : key ∉ c.keys) :
    cacheKeyExist c key = (false, c) := by
  rw [cacheKeyExist, Cache.find_eq_none fresh]

/-! ## The keys -/

section
variable {δ : Type} {c : Cache δ} {key : Bytes}

theorem Cache.find_isSome : (c.find key).isSome = true ↔ key ∈ c.keys := by
  simp [Cache.find, Cache.keys]

theorem Cache.find_key {e : Bytes × Option δ} (h : c.find key = some e) : e.1 = key := by
  have same := List.find?_some h
  exact beq_iff_eq.mp same

theorem Cache.keys_unlink : (c.unlink key).keys = c.keys.erase key := by
  rw [Cache.keys, Cache.keys, Cache.unlink, List.erase_eq_eraseP', List.eraseP_map]
  rfl

theorem cacheKeyExist_iff : (cacheKeyExist c key).1 = true ↔ key ∈ c.keys := by
  rw [← Cache.find_isSome, cacheKeyExist]
  cases c.find key <;> simp

/-- A hit is used again. -/
theorem cacheKeyExist_keys (hit : key ∈ c.keys) :
    (cacheKeyExist c key).2.maxEntries = c.maxEntries ∧ (cacheKeyExist c key).2.keys = c.keys.erase key ++ [key] := by
  obtain ⟨e, found⟩ := Option.isSome_iff_exists.mp (Cache.find_isSome.mpr hit)
  rw [cacheKeyExist, found]
  refine ⟨rfl, ?_⟩
  rw [← Cache.keys_unlink, Cache.keys, List.map_append, List.map_singleton, Cache.find_key found]
  rfl

/-- An insertion leaves one entry fewer than the capacity. -/
theorem cacheInsert_keys {n : Nat} (key : Bytes) (capacity : c.maxEntries = n + 1) (room : c.keys.length ≤ n) (data : Option δ) :
    (cacheInsert c key data).1.maxEntries = c.maxEntries ∧
      (cacheInsert c key data).1.keys = (c.keys ++ [key]).rtake n := by
  rw [Cache.keys, List.length_map] at room
  unfold cacheInsert
  dsimp only
  split
  · rename_i full
    rw [capacity, List.length_append, List.length_singleton] at full
    refine ⟨rfl, ?_⟩
    have one : (c.keys ++ [key]).length - n = 1 := by
      rw [List.length_append, List.length_singleton, Cache.keys, List.length_map]
      omega
    rw [List.rtake, one, List.drop_one, Cache.keys, List.map_tail, List.map_append]
    rfl
  · rename_i short
    rw [capacity, List.length_append, List.length_singleton] at short
    refine ⟨rfl, ?_⟩
    have all : (c.keys ++ [key]).length ≤ n := by
      rw [List.length_append, List.length_singleton, Cache.keys, List.length_map]
      omega
    rw [rtake_of_length_le all, Cache.keys, List.map_append]
    rfl

/-! ## The entries -/

/-- With one entry for a key, that entry is found. -/
theorem Cache.find_of_mem {e : Bytes × Option δ} (once : c.keys.Nodup) (mem : e ∈ c.entries) : c.find e.1 = some e := by
  obtain ⟨e', found⟩ := Option.isSome_iff_exists.mp (Cache.find_isSome.mpr (List.mem_map_of_mem mem))
  have same := List.inj_on_of_nodup_map once (List.mem_of_find?_eq_some found) mem (Cache.find_key found)
  rw [found, same]

theorem Cache.unlink_perm {e : Bytes × Option δ} (found : c.find key = some e) :
    (e :: (c.unlink key).entries).Perm c.entries := by
  have here := List.mem_of_find?_eq_some found
  obtain ⟨a, before, after, none_, first, whole, rest⟩ :=
    List.exists_of_eraseP (p := fun e => e.1 == key) here (beq_iff_eq.mpr (Cache.find_key found))
  have same : a = e := by
    rw [Cache.find, whole, List.find?_append, List.find?_eq_none.mpr none_, Option.none_or,
      List.find?_cons, first] at found
    exact Option.some.inj found
  rw [Cache.unlink, rest, whole, ← same]
  exact List.perm_middle.symm

/-- A lookup only changes the order of the entries. -/
theorem cacheLookup_perm (c : Cache δ) (key : Bytes) :
    (cacheLookup c key).2.entries.Perm c.entries ∧ (cacheLookup c key).2.maxEntries = c.maxEntries := by
  unfold cacheLookup
  cases found : c.find key with
  | none => exact ⟨.refl _, rfl⟩
  | some e => exact ⟨List.perm_append_comm.trans (Cache.unlink_perm found), rfl⟩

theorem cacheLookup_miss (miss : key ∉ c.keys) : cacheLookup c key = (none, c) := by
  rw [cacheLookup, Cache.find_eq_none miss]

theorem cacheLookup_hit {e : Bytes × Option δ} (once : c.keys.Nodup) (mem : e ∈ c.entries) : (cacheLookup c e.1).1 = e.2 := by
  rw [cacheLookup, Cache.find_of_mem once mem]

end

end Shadowsocks
